-- Numerals are read up to their end, if what stands behind one cannot be a part
-- of it. Behind every part the next one begins with a character of its own.
import ResponsiveCss.Proofs.Json.Grammar

namespace ResponsiveCss.Json

/-- The text does not begin with a digit. -/
def NoDigit (s : List Char) : Prop := ∀ c, s.head? = some c → c.isDigit = false

/-- No numeral goes on at the beginning of this text. -/
structure Stops (s : List Char) : Prop where
  noDigit : NoDigit s
  noPoint : s.head? ≠ some '.'
  noExponent : s.head? ≠ some 'e' ∧ s.head? ≠ some 'E'

theorem isDigit_of_mem : ∀ c ∈ decimalDigits, c.isDigit = true :=
  -- Only the list is searched here, not all characters.
  List.all_eq_true.mp (by decide)

/-! ## Runs of digits -/

section

variable {digits s : List Char} (hdigits : IsDigits digits) (hs : NoDigit s)
include hdigits hs

theorem takeWhile_isDigit_append : (digits ++ s).takeWhile Char.isDigit = digits := by
  rw [List.takeWhile_append_of_pos fun c hc => isDigit_of_mem c (hdigits.digits c hc)]
  cases s with
  | nil => simp
  | cons c s => simp [hs c rfl]

theorem dropWhile_isDigit_append : (digits ++ s).dropWhile Char.isDigit = s := by
  rw [List.dropWhile_append_of_pos fun c hc => isDigit_of_mem c (hdigits.digits c hc)]
  cases s with
  | nil => rfl
  | cons c s => simp [hs c rfl]

end

theorem IsDigits.exists_cons {digits : List Char} (h : IsDigits digits) :
    ∃ c more, digits = c :: more ∧ c ∈ decimalDigits := by
  obtain ⟨c, more, rfl⟩ := List.exists_cons_of_ne_nil h.ne_nil
  exact ⟨c, more, rfl, h.digits c List.mem_cons_self⟩

/-! ## The parts of a numeral -/

variable (ended : Reason) {s : List Char}

theorem noDigit_exponent {exponent : List Char} (h : IsExponent exponent) (hs : Stops s) :
    NoDigit (exponent ++ s) := by
  cases h with
  | none => exact hs.noDigit
  | some he =>
    intro c hc
    cases hc
    rcases he with rfl | rfl <;> rfl

theorem noPoint_exponent {exponent : List Char} (h : IsExponent exponent) (hs : Stops s) :
    (exponent ++ s).head? ≠ some '.' := by
  cases h with
  | none => exact hs.noPoint
  | some he => rcases he with rfl | rfl <;> simp

theorem noDigit_fraction {fraction : List Char} (h : IsFraction fraction) (hs : NoDigit s) :
    NoDigit (fraction ++ s) := by
  cases h with
  | none => exact hs
  | some h =>
    intro c hc
    cases hc
    rfl

theorem wholePart_append {whole : List Char} (h : IsWhole whole) (hs : NoDigit s) :
    Numeral.wholePart ended (whole ++ s) = .ok (whole, s) := by
  have hlone : ¬ (whole.head? = some '0' ∧ whole.length ≠ 1) := by
    rintro ⟨hzero, hlength⟩
    rw [h.zero hzero] at hlength
    exact hlength rfl
  unfold Numeral.wholePart
  rw [takeWhile_isDigit_append h.toIsDigits hs, dropWhile_isDigit_append h.toIsDigits hs]
  dsimp only
  rw [if_neg h.ne_nil, if_neg (by simpa using hlone)]

theorem fractionPart_append {fraction : List Char} (h : IsFraction fraction) (hs : NoDigit s)
    (hpoint : s.head? ≠ some '.') :
    ∃ digits, Numeral.fractionPart ended (fraction ++ s) = .ok (digits, s) := by
  cases h with
  | none =>
    refine ⟨[], ?_⟩
    rw [List.nil_append]
    unfold Numeral.fractionPart
    split
    · exact absurd rfl hpoint
    · rfl
  | @some digits h =>
    refine ⟨digits, ?_⟩
    rw [List.cons_append, Numeral.fractionPart, takeWhile_isDigit_append h hs,
      dropWhile_isDigit_append h hs, if_neg h.ne_nil]

theorem dropSign_append {sign digits : List Char}
    (hsign : sign = [] ∨ sign = ['+'] ∨ sign = ['-']) (h : IsDigits digits) :
    Numeral.dropSign (sign ++ digits ++ s) = digits ++ s := by
  rcases hsign with rfl | rfl | rfl
  · obtain ⟨c, more, rfl, hc⟩ := h.exists_cons
    have hc : c ≠ '+' ∧ c ≠ '-' := by
      constructor <;> rintro rfl <;> revert hc <;> decide
    simp only [List.nil_append, List.cons_append]
    unfold Numeral.dropSign
    split
    · rename_i heq
      cases heq
      exact absurd rfl hc.1
    · rename_i heq
      cases heq
      exact absurd rfl hc.2
    · rfl
  · rfl
  · rfl

theorem exponentPart_append {exponent : List Char} (h : IsExponent exponent) (hs : Stops s) :
    ∃ parts, Numeral.exponentPart ended (exponent ++ s) = .ok (parts, s) := by
  cases h with
  | none =>
    refine ⟨(false, []), ?_⟩
    rw [List.nil_append]
    unfold Numeral.exponentPart
    split
    · rename_i c t
      rw [if_neg]
      simpa using hs.noExponent
    · rfl
  | @some e sign digits he hsign h =>
    refine ⟨((sign ++ digits ++ s).head? = some '-', digits), ?_⟩
    have hletter : (e = 'e' || e = 'E') = true := by simpa using he
    rw [List.append_assoc, List.cons_append, Numeral.exponentPart, if_pos hletter,
      ← List.append_assoc, dropSign_append hsign h, takeWhile_isDigit_append h hs.noDigit,
      dropWhile_isDigit_append h hs.noDigit]
    dsimp only
    rw [if_neg h.ne_nil]

/-! ## Numerals -/

/-- A numeral is read as a whole, whatever the text behind it is. -/
theorem read_append {numeral : List Char} (h : IsNumeral numeral) (hs : Stops s) :
    ∃ n, Numeral.read ended (numeral ++ s) = .ok (n, s) := by
  obtain @⟨minus, whole, fraction, exponent, hminus, hwhole, hfraction, hexponent⟩ := h
  have hbehind := noDigit_exponent hexponent hs
  obtain ⟨digits, hfrac⟩ :=
    fractionPart_append ended hfraction hbehind (noPoint_exponent hexponent hs)
  obtain ⟨parts, hexp⟩ := exponentPart_append ended hexponent hs
  have hint := wholePart_append ended hwhole (noDigit_fraction hfraction hbehind)
  have hunsigned (negative : Bool) :
      Numeral.unsigned ended negative (whole ++ (fraction ++ (exponent ++ s))) =
        .ok (⟨negative, whole, digits, parts.1, parts.2⟩, s) := by
    unfold Numeral.unsigned
    rw [hint]
    dsimp only
    rw [hfrac]
    dsimp only
    rw [hexp]
  simp only [List.append_assoc]
  rcases hminus with rfl | rfl
  · refine ⟨⟨false, whole, digits, parts.1, parts.2⟩, ?_⟩
    obtain ⟨c, more, rfl, hc⟩ := hwhole.toIsDigits.exists_cons
    have hc : c ≠ '-' := by
      rintro rfl
      revert hc
      decide
    rw [List.nil_append]
    unfold Numeral.read
    split
    · rename_i heq
      cases heq
      exact absurd rfl hc
    · exact hunsigned false
  · exact ⟨_, hunsigned true⟩

end ResponsiveCss.Json
