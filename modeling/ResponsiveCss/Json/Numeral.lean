-- JSON numerals: a sign, digits, a fraction, an exponent.
import ResponsiveCss.Json.Failure

namespace ResponsiveCss.Json

/-- The parts of a numeral. The digits of a part that is missing are empty. -/
structure Numeral where
  negative : Bool
  whole : List Char
  fraction : List Char
  exponentNegative : Bool
  exponent : List Char
deriving DecidableEq, Repr

namespace Numeral

/-- The failure of a numeral that lacks a digit in front of the rest; `ended` is the reason if
the text has ended there. -/
def missingDigit (ended : Reason) (rest : List Char) : Failure :=
  if rest = [] then .atEnd ended else .next .invalidNumber rest

/-- The digits before the point; a zero stands there alone. -/
def wholePart (ended : Reason) (s : List Char) : Except Failure (List Char × List Char) :=
  let digits := s.takeWhile Char.isDigit
  let rest := s.dropWhile Char.isDigit
  if digits = [] then .error (missingDigit ended s)
  else if digits.head? = some '0' && digits.length ≠ 1 then .error (.next .invalidNumber s.tail)
  else .ok (digits, rest)

/-- The digits behind the point, if there is one. -/
def fractionPart (ended : Reason) (s : List Char) : Except Failure (List Char × List Char) :=
  match s with
  | '.' :: s =>
    let digits := s.takeWhile Char.isDigit
    if digits = [] then .error (missingDigit ended s) else .ok (digits, s.dropWhile Char.isDigit)
  | _ => .ok ([], s)

/-- The text without the sign of an exponent. -/
def dropSign : List Char → List Char
  | '+' :: s => s
  | '-' :: s => s
  | s => s

/-- The sign and the digits of the exponent, if there is one. -/
def exponentPart (ended : Reason) (s : List Char) :
    Except Failure ((Bool × List Char) × List Char) :=
  match s with
  | c :: t =>
    if c = 'e' || c = 'E' then
      let digits := (dropSign t).takeWhile Char.isDigit
      if digits = [] then .error (missingDigit ended (dropSign t))
      else .ok ((t.head? = some '-', digits), (dropSign t).dropWhile Char.isDigit)
    else .ok ((false, []), s)
  | [] => .ok ((false, []), s)

/-- The numeral behind an optional sign and the text behind it. -/
def unsigned (ended : Reason) (negative : Bool) (s : List Char) :
    Except Failure (Numeral × List Char) :=
  match wholePart ended s with
  | .error f => .error f
  | .ok (whole, s1) =>
    match fractionPart ended s1 with
    | .error f => .error f
    | .ok (fraction, s2) =>
      match exponentPart ended s2 with
      | .error f => .error f
      | .ok (exponent, rest) => .ok (⟨negative, whole, fraction, exponent.1, exponent.2⟩, rest)

/-- The numeral that the text begins with and the text behind it; `ended` is the reason for
the failure of one that the end of the text cuts short. -/
def read (ended : Reason) (s : List Char) : Except Failure (Numeral × List Char) :=
  match s with
  | '-' :: s => unsigned ended true s
  | _ => unsigned ended false s

/-! ## What is left is shorter -/

theorem length_lt_of_wholePart {ended : Reason} {s digits rest : List Char}
    (h : wholePart ended s = .ok (digits, rest)) : rest.length < s.length := by
  unfold wholePart at h
  dsimp only at h
  split at h
  · simp at h
  · rename_i hd
    split at h
    · simp at h
    · simp only [Except.ok.injEq, Prod.mk.injEq] at h
      have hs := congrArg List.length (List.takeWhile_append_dropWhile (p := Char.isDigit) (l := s))
      rw [List.length_append] at hs
      have hpos := List.length_pos_iff.mpr hd
      rw [← h.2]
      omega

theorem length_le_of_fractionPart {ended : Reason} {s digits rest : List Char}
    (h : fractionPart ended s = .ok (digits, rest)) : rest.length ≤ s.length := by
  unfold fractionPart at h
  split at h
  · dsimp only at h
    split at h
    · simp at h
    · simp only [Except.ok.injEq, Prod.mk.injEq] at h
      rw [← h.2]
      exact Nat.le_succ_of_le (List.dropWhile_sublist _).length_le
  · cases h
    exact Nat.le_refl _

theorem length_dropSign_le (s : List Char) : (dropSign s).length ≤ s.length := by
  unfold dropSign
  split
  · exact Nat.le_succ _
  · exact Nat.le_succ _
  · exact Nat.le_refl _

theorem length_le_of_exponentPart {ended : Reason} {s rest : List Char} {e : Bool × List Char}
    (h : exponentPart ended s = .ok (e, rest)) : rest.length ≤ s.length := by
  unfold exponentPart at h
  split at h
  · rename_i c t
    split at h
    · dsimp only at h
      split at h
      · cases h
      · simp only [Except.ok.injEq, Prod.mk.injEq] at h
        rw [← h.2]
        exact Nat.le_succ_of_le
          (Nat.le_trans (List.dropWhile_sublist _).length_le (length_dropSign_le t))
    · cases h
      exact Nat.le_refl _
  · cases h
    exact Nat.le_refl _

theorem length_lt_of_unsigned {ended : Reason} {negative : Bool} {s rest : List Char} {n : Numeral}
    (h : unsigned ended negative s = .ok (n, rest)) : rest.length < s.length := by
  unfold unsigned at h
  split at h
  · simp at h
  · rename_i h1
    split at h
    · simp at h
    · rename_i h2
      split at h
      · simp at h
      · rename_i h3
        simp only [Except.ok.injEq, Prod.mk.injEq] at h
        rw [← h.2]
        exact Nat.lt_of_le_of_lt (Nat.le_trans (length_le_of_exponentPart h3)
          (length_le_of_fractionPart h2)) (length_lt_of_wholePart h1)

theorem length_lt_of_read {ended : Reason} {s rest : List Char} {n : Numeral}
    (h : read ended s = .ok (n, rest)) : rest.length < s.length := by
  unfold read at h
  split at h
  · exact Nat.lt_succ_of_lt (length_lt_of_unsigned h)
  · exact length_lt_of_unsigned h

end Numeral

end ResponsiveCss.Json
