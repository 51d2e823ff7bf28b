-- JSON strings: reading one with its escapes resolved, and passing over one
-- without looking at what its escapes mean.
import ResponsiveCss.Json.Failure

namespace ResponsiveCss.Json

/-! ## Escapes -/

/-- The value of a hexadecimal digit. -/
def hexDigit? (c : Char) : Option Nat :=
  if c.isDigit then some (c.toNat - '0'.toNat)
  else if 'a' ≤ c && c ≤ 'f' then some (c.toNat - 'a'.toNat + 10)
  else if 'A' ≤ c && c ≤ 'F' then some (c.toNat - 'A'.toNat + 10)
  else none

/-- The number that four hexadecimal digits at the beginning of a text spell. -/
def fourDigits? : List Char → Option Nat
  | a :: b :: c :: d :: _ => do
    return ((← hexDigit? a) * 16 + (← hexDigit? b)) * 256 + (← hexDigit? c) * 16 + (← hexDigit? d)
  | _ => none

/-- Four hexadecimal digits. Four bytes count as read whatever they are; if there are not so
many, the text has ended. -/
def fourDigits (s : List Char) : Except Failure Nat :=
  match fourDigits? s with
  | some n => .ok n
  | none =>
    .error (if byteLength (s.take 4) < 4 then .atEnd .endInString else ⟨.invalidEscape, s, 4⟩)

/-- The character that a pair of surrogates stands for. -/
def ofSurrogates (high low : Nat) : Char :=
  Char.ofNat (0x10000 + (high - 0xD800) * 0x400 + (low - 0xDC00))

/-- The second half of a pair of surrogates, with the length of its escape. -/
def lowSurrogate (high : Nat) : List Char → Except Failure (Char × Nat)
  | [] => .error (.atEnd .endInString)
  | '\\' :: [] => .error (.atEnd .endInString)
  | '\\' :: 'u' :: s =>
    match fourDigits s with
    | .error f => .error f
    | .ok low =>
      if 0xDC00 ≤ low && low ≤ 0xDFFF then .ok (ofSurrogates high low, 6)
      else .error (.before .loneSurrogate (s.drop 4))
  | '\\' :: s => .error (.next .endOfHexEscape s)
  | s => .error (.next .endOfHexEscape s)

/-- The character that an escape means and the length of the escape after its backslash. -/
def escape : List Char → Except Failure (Char × Nat)
  | [] => .error (.atEnd .endInString)
  | '"' :: _ => .ok ('"', 1)
  | '\\' :: _ => .ok ('\\', 1)
  | '/' :: _ => .ok ('/', 1)
  | 'b' :: _ => .ok ('\x08', 1)
  | 'f' :: _ => .ok ('\x0c', 1)
  | 'n' :: _ => .ok ('\n', 1)
  | 'r' :: _ => .ok ('\r', 1)
  | 't' :: _ => .ok ('\t', 1)
  | 'u' :: s =>
    match fourDigits s with
    | .error f => .error f
    | .ok n =>
      if 0xDC00 ≤ n && n ≤ 0xDFFF then .error (.before .loneSurrogate (s.drop 4))
      else if 0xD800 ≤ n && n ≤ 0xDBFF then
        (lowSurrogate n (s.drop 4)).map fun (c, length) => (c, length + 5)
      else .ok (Char.ofNat n, 5)
  | s => .error (.next .invalidEscape s)

/-- The length of an escape after its backslash, whatever character it means. -/
def escapeLength : List Char → Except Failure Nat
  | 'u' :: s => (fourDigits s).map fun _ => 5
  | s => (escape s).map Prod.snd

/-! ## Strings -/

/-- The string up to its closing quote, after `skip` characters that are done, and the text
behind the quote. -/
def stringAfter : Nat → List Char → Except Failure (List Char × List Char)
  | _, [] => .error (.atEnd .endInString)
  | skip + 1, _ :: s => stringAfter skip s
  | 0, c :: s =>
    if c = '"' then .ok ([], s)
    else if c = '\\' then
      match escape s with
      | .error f => .error f
      | .ok (d, length) => (stringAfter length s).map fun (text, rest) => (d :: text, rest)
    else if c < ' ' then .error (.next .controlCharacter (c :: s))
    else (stringAfter 0 s).map fun (text, rest) => (c :: text, rest)

/-- The string that begins behind its opening quote, and the text behind its closing one. -/
def string (s : List Char) : Except Failure (List Char × List Char) := stringAfter 0 s

/-- The text behind the closing quote of a string, after `skip` characters that are done. -/
def skipStringAfter : Nat → List Char → Except Failure (List Char)
  | _, [] => .error (.atEnd .endInString)
  | skip + 1, _ :: s => skipStringAfter skip s
  | 0, c :: s =>
    if c = '"' then .ok s
    else if c = '\\' then
      match escapeLength s with
      | .error f => .error f
      | .ok length => skipStringAfter length s
    else if c < ' ' then .error (.before .controlCharacter (c :: s))
    else skipStringAfter 0 s

/-- The text behind the closing quote of a string that begins behind its opening quote. -/
def skipString (s : List Char) : Except Failure (List Char) := skipStringAfter 0 s

/-! ## What is left is shorter -/

theorem length_lt_of_stringAfter {skip : Nat} {s text rest : List Char}
    (h : stringAfter skip s = .ok (text, rest)) : rest.length < s.length := by
  induction s generalizing skip text with
  | nil => simp [stringAfter] at h
  | cons c s ih =>
    cases skip with
    | succ skip => exact Nat.lt_succ_of_lt (ih h)
    | zero =>
      have mapped {skip : Nat} {d : Char}
          (h : (stringAfter skip s).map (fun (text, rest) => (d :: text, rest)) =
            .ok (text, rest)) :
          rest.length < (c :: s).length := by
        cases hs : stringAfter skip s with
        | error f => simp [hs, Except.map] at h
        | ok p =>
          obtain ⟨p1, p2⟩ := p
          simp only [hs, Except.map, Except.ok.injEq, Prod.mk.injEq] at h
          obtain ⟨_, rfl⟩ := h
          exact Nat.lt_succ_of_lt (ih hs)
      unfold stringAfter at h
      split at h
      · simp only [Except.ok.injEq, Prod.mk.injEq] at h
        simp [h.2]
      · split at h
        · split at h
          · simp at h
          · exact mapped h
        · split at h
          · simp at h
          · exact mapped h

theorem length_lt_of_string {s text rest : List Char} (h : string s = .ok (text, rest)) :
    rest.length < s.length := length_lt_of_stringAfter h

theorem length_lt_of_skipStringAfter {skip : Nat} {s rest : List Char}
    (h : skipStringAfter skip s = .ok rest) : rest.length < s.length := by
  induction s generalizing skip with
  | nil => simp [skipStringAfter] at h
  | cons c s ih =>
    cases skip with
    | succ skip => exact Nat.lt_succ_of_lt (ih h)
    | zero =>
      unfold skipStringAfter at h
      split at h
      · simp only [Except.ok.injEq] at h
        simp [h]
      · split at h
        · split at h
          · simp at h
          · exact Nat.lt_succ_of_lt (ih h)
        · split at h
          · simp at h
          · exact Nat.lt_succ_of_lt (ih h)

theorem length_lt_of_skipString {s rest : List Char} (h : skipString s = .ok rest) :
    rest.length < s.length := length_lt_of_skipStringAfter h

end ResponsiveCss.Json
