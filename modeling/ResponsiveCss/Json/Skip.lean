-- Passing over a JSON value of which only the form matters. The containers
-- around the current place are a list, so they may be nested at will.
import ResponsiveCss.Json.Numeral
import ResponsiveCss.Json.Text

namespace ResponsiveCss.Json

/-! ## Scalars -/

/-- The text behind a word that is spelled out. -/
def word : List Char → List Char → Except Failure (List Char)
  | [], s => .ok s
  | _ :: _, [] => .error (.atEnd .endInValue)
  | w :: ws, c :: s => if w = c then word ws s else .error (.next .expectedIdent (c :: s))

/-- The text behind a value that is no container. -/
def skipScalar : List Char → Except Failure (List Char)
  | [] => .error (.atEnd .endInValue)
  | c :: s =>
    if c = 'n' then word ['u', 'l', 'l'] s
    else if c = 't' then word ['r', 'u', 'e'] s
    else if c = 'f' then word ['a', 'l', 's', 'e'] s
    else if c = '"' then skipString s
    else if c = '-' || c.isDigit then (Numeral.read .invalidNumber (c :: s)).map Prod.snd
    else .error (.next .expectedValue (c :: s))

/-- The text behind the colon between a key and its value. -/
def colon (s : List Char) : Except Failure (List Char) :=
  match skipBlanks s with
  | [] => .error (.atEnd .endInObject)
  | c :: rest => if c = ':' then .ok rest else .error (.next .expectedColon (c :: rest))

/-! ## What is left is shorter -/

theorem length_le_of_word {w s rest : List Char} (h : word w s = .ok rest) :
    rest.length ≤ s.length := by
  induction w generalizing s with
  | nil => simp only [word, Except.ok.injEq] at h; simp [h]
  | cons c w ih =>
    cases s with
    | nil => simp [word] at h
    | cons d s =>
      unfold word at h
      split at h
      · exact Nat.le_succ_of_le (ih h)
      · simp at h

theorem length_lt_of_skipScalar {s rest : List Char} (h : skipScalar s = .ok rest) :
    rest.length < s.length := by
  cases s with
  | nil => simp [skipScalar] at h
  | cons c s =>
    simp only [skipScalar] at h
    repeat' split at h
    · exact Nat.lt_succ_of_le (length_le_of_word h)
    · exact Nat.lt_succ_of_le (length_le_of_word h)
    · exact Nat.lt_succ_of_le (length_le_of_word h)
    · exact Nat.lt_succ_of_lt (length_lt_of_skipString h)
    · cases hn : Numeral.read .invalidNumber (c :: s) with
      | error f => simp [hn, Except.map] at h
      | ok p =>
        simp only [hn, Except.map, Except.ok.injEq] at h
        exact h ▸ Numeral.length_lt_of_read hn
    · simp at h

theorem length_lt_of_skipBlanks {c : Char} {s rest : List Char} (h : skipBlanks s = c :: rest) :
    rest.length < s.length := by
  have := length_skipBlanks_le s
  rw [h] at this
  exact this

theorem length_lt_of_colon {s rest : List Char} (h : colon s = .ok rest) :
    rest.length < s.length := by
  unfold colon at h
  split at h
  · simp at h
  · rename_i hs
    split at h
    · simp only [Except.ok.injEq] at h
      exact h ▸ length_lt_of_skipBlanks hs
    · simp at h

/-! ## Containers -/

/-- The two kinds of containers. -/
inductive Container where
  | list
  | object
deriving DecidableEq, Repr

/-- The bracket that closes a container. -/
def Container.closer : Container → Char
  | .list => ']'
  | .object => '\x7d'

/-- What may come next. -/
inductive Expected where
  /-- A value. -/
  | value
  /-- The key of a member, with its colon. -/
  | key
  /-- The first entry of a container, or its end. -/
  | first
  /-- A comma, or the end of the container. -/
  | separator
deriving DecidableEq, Repr

/-- What an entry of a container begins with. -/
def Container.entry : Container → Expected
  | .list => .value
  | .object => .key

/-- The failure of a container that the text's end cuts short. -/
def Container.ended : Container → Failure
  | .list => .atEnd .endInList
  | .object => .atEnd .endInObject

/-- The failure of a container that has neither a comma nor its end where one must be. -/
def Container.unseparated (c : Container) (rest : List Char) : Failure :=
  match c with
  | .list => .next .expectedCommaOrBracket rest
  | .object => .next .expectedCommaOrBrace rest

/-- How many steps come before the next character is read. -/
def Expected.rank : Expected → Nat
  | .first => 1
  | _ => 0

/-- The text behind the outermost of the values that are being passed over. The list holds the
containers around the current place, innermost first. -/
def skipWithin : Expected → List Container → List Char → Except Failure (List Char)
  | .separator, [], s => .ok s
  | .separator, top :: more, s =>
    match _h : skipBlanks s with
    | [] => .error top.ended
    | c :: rest =>
      if c = ',' then skipWithin top.entry (top :: more) rest
      else if c = top.closer then skipWithin .separator more rest
      else .error (top.unseparated (c :: rest))
  | .first, [], s => .ok s
  | .first, top :: more, s =>
    match _h : skipBlanks s with
    | [] => .error top.ended
    | c :: rest =>
      if c = top.closer then skipWithin .separator more rest
      else skipWithin top.entry (top :: more) (c :: rest)
  | .key, around, s =>
    match _h : skipBlanks s with
    | [] => .error (.atEnd .endInObject)
    | c :: rest =>
      if c = '"' then
        match _h1 : skipString rest with
        | .error f => .error f
        | .ok s1 =>
          match _h2 : colon s1 with
          | .error f => .error f
          | .ok s2 => skipWithin .value around s2
      else .error (.next .keyMustBeString (c :: rest))
  | .value, around, s =>
    match _h : skipBlanks s with
    | [] => .error (.atEnd .endInValue)
    | c :: rest =>
      if c = '[' then skipWithin .first (.list :: around) rest
      else if c = '\x7b' then skipWithin .first (.object :: around) rest
      else
        match _h1 : skipScalar (c :: rest) with
        | .error f => .error f
        | .ok s1 => skipWithin .separator around s1
termination_by e _ s => (s.length, e.rank)
decreasing_by
  all_goals
    simp only [Prod.lex_def]
    have hs := length_lt_of_skipBlanks _h
  · exact Or.inl hs
  · exact Or.inl hs
  · exact Or.inl hs
  · by_cases he : (c :: rest).length = s.length
    · refine Or.inr ⟨he, ?_⟩
      cases top <;> simp [Container.entry, Expected.rank]
    · exact Or.inl (by simp only [List.length_cons] at he ⊢; omega)
  · have := length_lt_of_skipString _h1
    have := length_lt_of_colon _h2
    exact Or.inl (by omega)
  · exact Or.inl hs
  · exact Or.inl hs
  · have := length_lt_of_skipScalar _h1
    exact Or.inl (by simp only [List.length_cons] at this; omega)

/-- The text behind a value of whatever kind. -/
def skipValue (s : List Char) : Except Failure (List Char) := skipWithin .value [] s

/-- What is left behind a part of a value is no longer than what was there. -/
theorem length_le_of_skipWithin {e : Expected} {around : List Container} {s rest : List Char}
    (h : skipWithin e around s = .ok rest) : rest.length ≤ s.length := by
  have shorter {s t u : List Char} {c : Char} (hs : skipBlanks s = c :: t)
      (hu : u.length ≤ t.length) : u.length ≤ s.length :=
    Nat.le_of_lt (Nat.lt_of_le_of_lt hu (length_lt_of_skipBlanks hs))
  fun_induction skipWithin e around s with
  | case1 => cases h; exact Nat.le_refl _
  | case2 => cases h
  | case3 top more s t hs ih => exact shorter hs (ih h)
  | case4 top more s t hs _ ih => exact shorter hs (ih h)
  | case5 => cases h
  | case6 => cases h; exact Nat.le_refl _
  | case7 => cases h
  | case8 top more s t hs ih => exact shorter hs (ih h)
  | case9 top more s c t hs _ ih => exact Nat.le_trans (ih h) (length_lt_of_skipBlanks hs)
  | case10 => cases h
  | case11 => cases h
  | case12 => cases h
  | case13 around s t u hu v hv hs ih =>
    have := length_lt_of_skipString hu
    have := length_lt_of_colon hv
    exact shorter hs (by have := ih h; omega)
  | case14 => cases h
  | case15 => cases h
  | case16 around s t hs ih => exact shorter hs (ih h)
  | case17 around s t hs _ ih => exact shorter hs (ih h)
  | case18 => cases h
  | case19 around s c t hs _ _ u hu ih =>
    have := length_lt_of_skipScalar hu
    exact Nat.le_trans (ih h) (Nat.le_of_lt (Nat.lt_of_lt_of_le this (length_lt_of_skipBlanks hs)))

theorem length_le_of_skipValue {s rest : List Char} (h : skipValue s = .ok rest) :
    rest.length ≤ s.length := length_le_of_skipWithin h

end ResponsiveCss.Json
