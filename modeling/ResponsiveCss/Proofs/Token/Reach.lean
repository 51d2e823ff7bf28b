-- How far names and numbers reach: a name ends where its word does, and a
-- number holds none but the characters of a number. What a token takes is
-- skipped for the tokens behind it.
import ResponsiveCss.Proofs.Text.Plain
import ResponsiveCss.Token.Basic

namespace ResponsiveCss.Token

open Text

/-! ## Names -/

theorem isNamePart_eq_isWord {c : Char} (h : 32 ≤ c.toNat ∧ c.toNat < 127) :
    isNamePart c = isWord c := by
  have hnul : c ≠ '\x00' := by
    rintro rfl
    revert h
    decide
  have hascii : ¬ 0x80 ≤ c.toNat := by omega
  unfold isNamePart isNameStart isWord Char.isAlphanum
  rw [Bool.eq_iff_iff]
  simp only [Bool.or_eq_true, decide_eq_true_eq, hnul, hascii, or_false]
  constructor
  · rintro (((h | h) | h) | h) <;> simp [h]
  · rintro (((h | h) | h) | h) <;> simp [h]

/-- A name that came before ends here. -/
def EndsName (s : List Char) : Prop := ∀ c, s.head? = some c → isNamePart c = false ∧ c ≠ '\\'

theorem nameLength_word {w s : List Char} (hw : ∀ c ∈ w, isWord c = true) (hs : EndsName s) :
    nameLength (w ++ s) = w.length := by
  unfold nameLength
  induction w with
  | nil =>
    cases s with
    | nil => rfl
    | cons c s =>
      obtain ⟨hpart, hslash⟩ := hs c rfl
      simp [nameLengthAfter, hpart, hslash]
  | cons c w ih =>
    have hc := hw c (by simp)
    have hpart : isNamePart c = true := by
      have := toNat_of_isWord hc
      rw [isNamePart_eq_isWord (by omega), hc]
    have ih := ih fun d hd => hw d (by simp [hd])
    simpa [nameLengthAfter, hpart] using ih

theorem startsName_of_endsName {s : List Char} (h : EndsName s) : startsName s = false := by
  unfold startsName
  split
  · have hpart := (h '-' rfl).1
    cases hpart
  · exact absurd rfl (h _ rfl).2
  · rename_i c _ _ _
    have hpart := (h c rfl).1
    simp only [isNamePart, Bool.or_eq_false_iff] at hpart
    exact hpart.1.1
  · rfl

theorem charOf_toNat {c : Char} (h : c.toNat ≠ 0) : charOf c.toNat = c := by
  have hvalid : c.toNat.isValidChar := c.valid
  simp [charOf, h, hvalid]

theorem unescape_word {w : List Char} (hw : ∀ c ∈ w, isWord c = true) : unescape w = w := by
  unfold unescape
  induction w with
  | nil => rfl
  | cons c w ih =>
    have hc := toNat_of_isWord (hw c (by simp))
    have hslash : c ≠ '\\' := by
      rintro rfl
      have := hw '\\' (by simp)
      revert this
      decide
    have ih := ih fun d hd => hw d (by simp [hd])
    simp [unescapeAfter, hslash, charOf_toNat (show c.toNat ≠ 0 by omega), ih]

theorem startsName_of_isNameStart {c : Char} {s : List Char} (hne : c ≠ '-')
    (h : isNameStart c = true) : startsName (c :: s) = true := by
  unfold startsName
  split
  · rename_i heq
    cases heq
    exact absurd rfl hne
  · rename_i heq
    cases heq
    cases h
  · rename_i heq
    cases heq
    exact h
  · rename_i heq
    cases heq

theorem startsName_of_hyphen {s : List Char} (h : startsName ('-' :: s) = false) :
    startsName s = false := by
  cases s with
  | nil => rfl
  | cons d s =>
    have hd : (decide (d = '-') || decide (d = '\\') || isNameStart d) = false := h
    simp only [Bool.or_eq_false_iff, decide_eq_false_iff_not] at hd
    unfold startsName
    split
    · rename_i heq
      cases heq
      exact absurd rfl hd.1.1
    · rename_i heq
      cases heq
      exact absurd rfl hd.1.2
    · rename_i heq
      cases heq
      exact hd.2
    · rfl

/-! ## Numbers -/

/-- A character that may stand in a number. -/
def isNumberPart (c : Char) : Bool :=
  c.isDigit || c = '+' || c = '-' || c = '.' || c = 'e' || c = 'E'

/-- The first `n` characters may stand in a number. -/
def NumberTo (n : Nat) (s : List Char) : Prop := ∀ c ∈ s.take n, isNumberPart c = true

theorem NumberTo.add {m n : Nat} {s : List Char} (hm : NumberTo m s) (hn : NumberTo n (s.drop m)) :
    NumberTo (m + n) s := by
  intro c hc
  rw [List.take_add, List.mem_append] at hc
  rcases hc with hc | hc
  · exact hm c hc
  · exact hn c hc

theorem numberTo_cons {n : Nat} {c : Char} {s : List Char} (hc : isNumberPart c = true)
    (hs : NumberTo n s) : NumberTo (n + 1) (c :: s) := by
  intro d hd
  rw [List.take_succ_cons, List.mem_cons] at hd
  rcases hd with rfl | hd
  · exact hc
  · exact hs d hd

theorem numberTo_zero (s : List Char) : NumberTo 0 s := by
  intro c hc
  simp at hc

theorem numberTo_signLength (s : List Char) : NumberTo (signLength s) s := by
  cases s with
  | nil => exact numberTo_zero _
  | cons c s =>
    by_cases h : c = '+' ∨ c = '-'
    · have hlen : signLength (c :: s) = 0 + 1 := by simp [signLength, h]
      rw [hlen]
      refine numberTo_cons ?_ (numberTo_zero s)
      rcases h with rfl | rfl <;> decide
    · have hlen : signLength (c :: s) = 0 := by simp [signLength, h]
      rw [hlen]
      exact numberTo_zero _

theorem numberTo_digitsLength (s : List Char) : NumberTo (digitsLength s) s := by
  intro c hc
  have hprefix := List.prefix_iff_eq_take.mp (List.takeWhile_prefix (p := Char.isDigit) (l := s))
  rw [digitsLength, ← hprefix] at hc
  simp [isNumberPart, List.all_eq_true.mp List.all_takeWhile c hc]

theorem numberTo_fractionLength (s : List Char) : NumberTo (fractionLength s) s := by
  cases s with
  | nil => exact numberTo_zero _
  | cons c s =>
    by_cases h : c = '.' ∧ digitsLength s ≠ 0
    · have hlen : fractionLength (c :: s) = digitsLength s + 1 := by simp [fractionLength, h]
      rw [hlen]
      exact numberTo_cons (by rw [h.1]; decide) (numberTo_digitsLength s)
    · have hlen : fractionLength (c :: s) = 0 := by simpa [fractionLength] using h
      rw [hlen]
      exact numberTo_zero _

theorem numberTo_exponentLength (s : List Char) : NumberTo (exponentLength s) s := by
  cases s with
  | nil => exact numberTo_zero _
  | cons c s =>
    by_cases h : (c = 'e' ∨ c = 'E') ∧ digitsLength (s.drop (signLength s)) ≠ 0
    · have hlen : exponentLength (c :: s) =
          signLength s + digitsLength (s.drop (signLength s)) + 1 := by
        simp [exponentLength, h, Nat.add_comm]
      rw [hlen]
      refine numberTo_cons ?_ ((numberTo_signLength s).add (numberTo_digitsLength _))
      rcases h.1 with rfl | rfl <;> decide
    · have hlen : exponentLength (c :: s) = 0 := by simpa [exponentLength] using h
      rw [hlen]
      exact numberTo_zero _

/-- A number is made of number characters only. -/
theorem numberTo_numberLength (s : List Char) : NumberTo (numberLength s) s := by
  unfold numberLength
  dsimp only
  split
  · exact numberTo_zero _
  · have hsign := numberTo_signLength s
    have hwhole := hsign.add (numberTo_digitsLength _)
    have hfraction := hwhole.add (numberTo_fractionLength _)
    exact hfraction.add (numberTo_exponentLength _)

/-- So it ends before a character that is none. -/
theorem numberLength_le {s rest : List Char} {stop : Char} (h : isNumberPart stop = false) :
    numberLength (s ++ stop :: rest) ≤ s.length := by
  apply Nat.le_of_not_lt
  intro hlt
  have hmem : stop ∈ (s ++ stop :: rest).take (numberLength (s ++ stop :: rest)) := by
    rw [List.mem_take_iff_getElem]
    exact ⟨s.length, by simp; omega, by simp⟩
  have hpart := numberTo_numberLength _ stop hmem
  rw [h] at hpart
  cases hpart

theorem numberLength_of_isDigit {c : Char} {s : List Char} (h : c.isDigit = true) :
    numberLength (c :: s) ≠ 0 := by
  have hsign : signLength (c :: s) = 0 := by
    have hne : c ≠ '+' ∧ c ≠ '-' := by
      constructor <;> (rintro rfl; revert h; decide)
    simp [signLength, hne]
  have hdigits : digitsLength (c :: s) = digitsLength s + 1 := by simp [digitsLength, h]
  unfold numberLength
  dsimp only
  rw [hsign, List.drop_zero, hdigits, if_neg (by omega)]
  omega

/-! ## Signs -/

/-- A sign is a lone character, or it has an equals sign behind its first character. -/
theorem sign_cases (s : List Char) :
    sign s = (.delim, 1) ∨ ∃ c more, s = c :: '=' :: more ∧ sign s = (.comparison, 2) := by
  cases s with
  | nil => exact Or.inl rfl
  | cons c s =>
    rw [sign]
    split
    · rename_i hequals
      rw [Bool.and_eq_true, decide_eq_true_eq] at hequals
      obtain ⟨more, rfl⟩ := List.head?_eq_some_iff.mp hequals.1
      exact Or.inr ⟨c, more, rfl, rfl⟩
    · exact Or.inl rfl

/-! ## Tokens further on -/

theorem listAfter_skip (l : Location) (skip : Nat) (s : List Char) :
    listAfter l skip s = listAfter l 0 (s.drop skip) := by
  induction s generalizing skip with
  | nil => cases skip <;> rfl
  | cons c s ih =>
    cases skip with
    | zero => rfl
    | succ skip => simpa [listAfter] using ih skip

end ResponsiveCss.Token
