-- Strings are read as they are spelled: every way to write a character is
-- undone, and a string that is passed over ends at its own closing quote.
import ResponsiveCss.Proofs.Json.Grammar

namespace ResponsiveCss.Json

/-! ## Escapes -/

theorem hexDigit?_of_mem : ∀ p ∈ hexDigits, hexDigit? p.1 = some p.2 := by decide

theorem length_of_fourDigits {digits : List Char} {n : Nat} (h : FourDigits digits n) :
    digits.length = 4 := by
  cases h
  rfl

theorem fourDigits_append {digits : List Char} {n : Nat} (h : FourDigits digits n)
    (s : List Char) : fourDigits (digits ++ s) = .ok n := by
  obtain @⟨a, b, c, d, i, j, k, l, ha, hb, hc, hd⟩ := h
  have hfour : fourDigits? ([a, b, c, d] ++ s) = some ((i * 16 + j) * 256 + k * 16 + l) := by
    simp [fourDigits?, hexDigit?_of_mem _ ha, hexDigit?_of_mem _ hb, hexDigit?_of_mem _ hc,
      hexDigit?_of_mem _ hd]
  have hsum : (i * 16 + j) * 256 + k * 16 + l = ((i * 16 + j) * 16 + k) * 16 + l := by omega
  unfold fourDigits
  rw [hfour, hsum]

theorem escape_letter {e c : Char} (h : (e, c) ∈ letterEscapes) (s : List Char) :
    escape (e :: s) = .ok (c, 1) := by
  simp only [letterEscapes, List.mem_cons, Prod.mk.injEq, List.not_mem_nil, or_false] at h
  rcases h with ⟨rfl, rfl⟩ | ⟨rfl, rfl⟩ | ⟨rfl, rfl⟩ | ⟨rfl, rfl⟩ | ⟨rfl, rfl⟩ | ⟨rfl, rfl⟩ |
    ⟨rfl, rfl⟩ | ⟨rfl, rfl⟩ <;> rfl

/-- No character has the number of a surrogate. -/
theorem not_surrogate (c : Char) : ¬ (0xD800 ≤ c.toNat ∧ c.toNat ≤ 0xDFFF) := by
  have hvalid : c.toNat < 0xD800 ∨ 0xDFFF < c.toNat ∧ c.toNat < 0x110000 := c.valid
  omega

theorem escape_number {c : Char} {digits : List Char} (h : FourDigits digits c.toNat)
    (s : List Char) : escape ('u' :: digits ++ s) = .ok (c, 5) := by
  have hc := not_surrogate c
  have hlow : ¬ (0xDC00 ≤ c.toNat ∧ c.toNat ≤ 0xDFFF) := by omega
  have hhigh : ¬ (0xD800 ≤ c.toNat ∧ c.toNat ≤ 0xDBFF) := by omega
  rw [List.cons_append, escape, fourDigits_append h]
  simp [hlow, hhigh]

theorem escape_surrogates {c : Char} {high low : List Char} {hi lo : Nat}
    (hhigh : FourDigits high hi) (hlow : FourDigits low lo) (hhi : 0xD800 ≤ hi ∧ hi ≤ 0xDBFF)
    (hlo : 0xDC00 ≤ lo ∧ lo ≤ 0xDFFF)
    (hc : c.toNat = 0x10000 + (hi - 0xD800) * 0x400 + (lo - 0xDC00)) (s : List Char) :
    escape ('u' :: high ++ '\\' :: 'u' :: low ++ s) = .ok (c, 11) := by
  have hrest : (high ++ '\\' :: 'u' :: (low ++ s)).drop 4 = '\\' :: 'u' :: (low ++ s) :=
    List.drop_left' (length_of_fourDigits hhigh)
  have hpair : lowSurrogate hi ('\\' :: 'u' :: (low ++ s)) = .ok (c, 6) := by
    rw [lowSurrogate, fourDigits_append hlow]
    simp [hlo, ofSurrogates, ← hc]
  have hnot : ¬ (0xDC00 ≤ hi ∧ hi ≤ 0xDFFF) := by omega
  simp only [List.cons_append, List.append_assoc]
  rw [escape, fourDigits_append hhigh]
  dsimp only
  rw [hrest, hpair]
  simp [hnot, hhi, Except.map]

/-! ## Strings that are read -/

theorem stringAfter_length_append (done s : List Char) :
    stringAfter done.length (done ++ s) = stringAfter 0 s := by
  induction done with
  | nil => rfl
  | cons c done ih => exact ih

/-- The step: however a character is spelled, it is read as itself. -/
theorem stringAfter_append {c : Char} {own : List Char} (h : SpellsChar c own) (s : List Char) :
    stringAfter 0 (own ++ s) = (stringAfter 0 s).map fun (text, rest) => (c :: text, rest) := by
  cases h with
  | literal h =>
    obtain ⟨hspace, hquote, hback⟩ := h
    rw [List.singleton_append, stringAfter, if_neg hquote, if_neg hback,
      if_neg (Char.not_lt.mpr hspace)]
  | @letter e h =>
    rw [List.cons_append, stringAfter, if_neg (by decide), if_pos rfl, List.singleton_append,
      escape_letter h]
    rfl
  | @number digits h =>
    have hskip := stringAfter_length_append ('u' :: digits) s
    rw [List.length_cons, length_of_fourDigits h] at hskip
    rw [List.cons_append, stringAfter, if_neg (by decide), if_pos rfl, escape_number h]
    dsimp only
    rw [hskip]
  | @surrogates high low hi lo hhigh hlow hhi hlo hc =>
    have hskip := stringAfter_length_append ('u' :: high ++ '\\' :: 'u' :: low) s
    rw [List.length_append, List.length_cons, List.length_cons, List.length_cons,
      length_of_fourDigits hhigh, length_of_fourDigits hlow] at hskip
    rw [List.cons_append, List.cons_append, stringAfter, if_neg (by decide), if_pos rfl,
      escape_surrogates hhigh hlow hhi hlo hc]
    dsimp only
    rw [hskip]

/-- The run: a string is read as the text that it spells. -/
theorem string_append {text s : List Char} (h : Spells text s) (rest : List Char) :
    string (s ++ '"' :: rest) = .ok (text, rest) := by
  unfold string
  induction h with
  | nil => rfl
  | cons hown hmore ih =>
    rw [List.append_assoc, stringAfter_append hown, ih]
    rfl

/-! ## Strings that are passed over -/

theorem skipStringAfter_length_append (done s : List Char) :
    skipStringAfter done.length (done ++ s) = skipStringAfter 0 s := by
  induction done with
  | nil => rfl
  | cons c done ih => exact ih

theorem escapeLength_letter {e c : Char} (h : (e, c) ∈ letterEscapes) (s : List Char) :
    escapeLength (e :: s) = .ok 1 := by
  have hescape := escape_letter h s
  have hne : e ≠ 'u' := by
    rintro rfl
    simp [letterEscapes] at h
  unfold escapeLength
  split
  · rename_i heq
    cases heq
    exact absurd rfl hne
  · rw [hescape]
    rfl

/-- The step: one piece is passed over as a whole. -/
theorem skipStringAfter_append {own : List Char} (h : IsPiece own) (s : List Char) :
    skipStringAfter 0 (own ++ s) = skipStringAfter 0 s := by
  cases h with
  | literal h =>
    obtain ⟨hspace, hquote, hback⟩ := h
    rw [List.singleton_append, skipStringAfter, if_neg hquote, if_neg hback,
      if_neg (Char.not_lt.mpr hspace)]
  | @letter e _ h =>
    rw [List.cons_append, skipStringAfter, if_neg (by decide), if_pos rfl, List.singleton_append,
      escapeLength_letter h]
    rfl
  | @number digits _ h =>
    have hskip := skipStringAfter_length_append ('u' :: digits) s
    rw [List.length_cons, length_of_fourDigits h] at hskip
    have hlength : escapeLength ('u' :: (digits ++ s)) = .ok 5 := by
      rw [escapeLength, fourDigits_append h]
      rfl
    rw [List.cons_append, List.cons_append, skipStringAfter, if_neg (by decide), if_pos rfl,
      hlength]
    exact hskip

/-- The run: a string is passed over up to its closing quote. -/
theorem skipString_append {s : List Char} (h : IsString s) (rest : List Char) :
    skipString (s ++ '"' :: rest) = .ok rest := by
  unfold skipString
  induction h with
  | nil => rfl
  | cons hown hmore ih => rw [List.append_assoc, skipStringAfter_append hown, ih]

end ResponsiveCss.Json
