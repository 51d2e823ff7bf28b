-- Plain texts: a few ASCII characters that mean nothing to the tokenizer
-- beyond names, numbers and parentheses.
import ResponsiveCss.Text.Basic

namespace ResponsiveCss.Text

/-! ## Plain texts -/

/-- An ASCII letter or digit, a hyphen or an underscore. -/
def isWord (c : Char) : Bool := c.isAlphanum || c = '-' || c = '_'

/-- A character of a plain text. -/
def isPlain (c : Char) : Bool :=
  isWord c || ['.', ':', ',', '>', '+', '~', '*', '#', '%', '=', ' '].contains c

/-- There is no space at either end. -/
def Tight (s : List Char) : Prop := s.head? ≠ some ' ' ∧ s.getLast? ≠ some ' '

instance (s : List Char) : Decidable (Tight s) := inferInstanceAs (Decidable (_ ∧ _))

/-- Every parenthesis has its partner, where `depth` ones are open in front of the text. -/
def balanced : (depth : Nat) → List Char → Bool
  | depth, [] => depth = 0
  | depth, c :: s =>
    if c = '(' then balanced (depth + 1) s
    else if c = ')' then depth ≠ 0 && balanced (depth - 1) s
    else balanced depth s

/-- Somewhere an opening parenthesis directly follows a whole word that is `url` in any case;
`word` stands in front of the text. -/
def callsUrl : (word : List Char) → List Char → Bool
  | _, [] => false
  | word, c :: s =>
    if isWord c then callsUrl (word ++ [c]) s
    else c = '(' && sameLetters word ['u', 'r', 'l'] || callsUrl [] s

/-! ## Names, values and preludes -/

/-- The name of an at-rule: a letter with letters, digits, hyphens and underscores. -/
def PlainName (name : String) : Prop :=
  name.toList.head?.any Char.isAlpha = true ∧ ∀ c ∈ name.toList, isWord c = true

/-- The parameters of a statement, a property or a value. -/
structure PlainValue (s : String) : Prop where
  chars : ∀ c ∈ s.toList, isPlain c = true
  tight : Tight s.toList

/-- The parameters of a block or a selector: parentheses are fine as long as they are balanced
and no `url(` begins. -/
structure PlainPrelude (s : String) : Prop where
  chars : ∀ c ∈ s.toList, isPlain c = true ∨ c = '(' ∨ c = ')'
  tight : Tight s.toList
  balanced : balanced 0 s.toList = true
  noUrl : callsUrl [] s.toList = false

/-- The text of a comment. -/
structure PlainComment (s : String) : Prop where
  trimmed : trim s.toList = s.toList
  closed : occursIn ['*', '/'] s.toList = false

-- The characters are checked with `all`: to decide a statement about all of `Char`, every
-- character there is would be tried.
instance (s : String) : Decidable (PlainName s) :=
  decidable_of_iff (s.toList.head?.any Char.isAlpha = true ∧ s.toList.all isWord = true)
    (by rw [PlainName, List.all_eq_true])

instance (s : String) : Decidable (PlainValue s) :=
  decidable_of_iff (s.toList.all isPlain = true ∧ Tight s.toList) (by
    rw [List.all_eq_true]
    exact ⟨fun ⟨h, h'⟩ => ⟨h, h'⟩, fun ⟨h, h'⟩ => ⟨h, h'⟩⟩)

instance (s : String) : Decidable (PlainPrelude s) :=
  decidable_of_iff (s.toList.all (fun c => isPlain c || c = '(' || c = ')') = true ∧
      Tight s.toList ∧ Text.balanced 0 s.toList = true ∧ callsUrl [] s.toList = false) (by
    simp only [List.all_eq_true, Bool.or_eq_true, decide_eq_true_eq, or_assoc]
    exact ⟨fun ⟨hc, ht, hb, hu⟩ => ⟨hc, ht, hb, hu⟩, fun ⟨hc, ht, hb, hu⟩ => ⟨hc, ht, hb, hu⟩⟩)

instance (s : String) : Decidable (PlainComment s) :=
  decidable_of_iff (trim s.toList = s.toList ∧ occursIn ['*', '/'] s.toList = false)
    ⟨fun ⟨h, h'⟩ => ⟨h, h'⟩, fun ⟨h, h'⟩ => ⟨h, h'⟩⟩

/-! ## The characters of plain texts -/

theorem isWord_iff {c : Char} :
    isWord c = true ↔ ((65 ≤ c.toNat ∧ c.toNat ≤ 90) ∨ (97 ≤ c.toNat ∧ c.toNat ≤ 122) ∨
      (48 ≤ c.toNat ∧ c.toNat ≤ 57)) ∨ c = '-' ∨ c = '_' := by
  change (((decide (c.val ≥ 65 ∧ c.val ≤ 90) || (decide (c.val ≥ 97) && decide (c.val ≤ 122))) ||
      (decide (c.val ≥ 48) && decide (c.val ≤ 57))) ||
    decide (c = '-') || decide (c = '_')) = true ↔ _
  simp only [Bool.or_eq_true, Bool.and_eq_true, decide_eq_true_eq, UInt32.le_iff_toNat_le,
    ge_iff_le]
  change ((((65 ≤ c.toNat ∧ c.toNat ≤ 90) ∨ (97 ≤ c.toNat ∧ c.toNat ≤ 122)) ∨
    (48 ≤ c.toNat ∧ c.toNat ≤ 57)) ∨ c = '-') ∨ c = '_' ↔ _
  simp only [or_assoc]

theorem isPlain_iff {c : Char} :
    isPlain c = true ↔ isWord c = true ∨ c = '.' ∨ c = ':' ∨ c = ',' ∨ c = '>' ∨ c = '+' ∨
      c = '~' ∨ c = '*' ∨ c = '#' ∨ c = '%' ∨ c = '=' ∨ c = ' ' := by
  simp [isPlain]

/-- A word is made of visible ASCII characters. -/
theorem toNat_of_isWord {c : Char} (h : isWord c = true) : 32 < c.toNat ∧ c.toNat < 127 := by
  rcases isWord_iff.mp h with h | rfl | rfl
  · omega
  · decide
  · decide

theorem toNat_of_isPlain {c : Char} (h : isPlain c = true) : 32 ≤ c.toNat ∧ c.toNat < 127 := by
  rcases isPlain_iff.mp h with
    h | rfl | rfl | rfl | rfl | rfl | rfl | rfl | rfl | rfl | rfl | rfl
  · have := toNat_of_isWord h
    omega
  all_goals decide

/-- Between the control characters and the end of ASCII only the space is blank. -/
theorem isBlank_of_toNat {c : Char} (h : 32 ≤ c.toNat ∧ c.toNat < 127) :
    isBlank c = decide (c = ' ') := by
  have hspace : c = ' ' ↔ c.toNat = 32 := Char.ext_iff.trans UInt32.toNat_inj.symm
  rw [Bool.eq_iff_iff]
  simp only [isBlank, blankRuns, List.any_cons, List.any_nil, Bool.or_eq_true, Bool.and_eq_true,
    decide_eq_true_eq, Bool.or_false, hspace]
  omega

theorem isBlank_of_isPlain {c : Char} (h : isPlain c = true) : isBlank c = decide (c = ' ') :=
  isBlank_of_toNat (toNat_of_isPlain h)

/-! ## Parentheses -/

/-- A text has no parentheses. -/
def NoParens (s : List Char) : Prop := ∀ c ∈ s, c ≠ '(' ∧ c ≠ ')'

theorem balanced_append_of_noParens {w : List Char} (h : NoParens w) (depth : Nat)
    (s : List Char) : balanced depth (w ++ s) = balanced depth s := by
  induction w with
  | nil => rfl
  | cons c w ih =>
    have hc := h c (by simp)
    have ih := ih fun d hd => h d (by simp [hd])
    simpa [balanced, hc] using ih

theorem balanced_append_noParens {w : List Char} (h : NoParens w) (depth : Nat) (s : List Char) :
    balanced depth (s ++ w) = balanced depth s := by
  induction s generalizing depth with
  | nil => simpa using balanced_append_of_noParens h depth []
  | cons c s ih => simp [balanced, ih]

theorem balanced_of_noParens {s : List Char} (h : NoParens s) : balanced 0 s = true := by
  simpa [balanced] using balanced_append_of_noParens h 0 []

theorem noParens_of_isPlain {s : List Char} (h : ∀ c ∈ s, isPlain c = true) : NoParens s := by
  intro c hc
  constructor
  · rintro rfl
    exact absurd (h _ hc) (by decide)
  · rintro rfl
    exact absurd (h _ hc) (by decide)

/-! ## Calls of `url` -/

theorem callsUrl_append_word {w s : List Char} (word : List Char) (h : ∀ c ∈ w, isWord c = true) :
    callsUrl word (w ++ s) = callsUrl (word ++ w) s := by
  induction w generalizing word with
  | nil => simp
  | cons c w ih =>
    have ih := ih (word ++ [c]) fun d hd => h d (by simp [hd])
    simpa [callsUrl, h c (by simp)] using ih

/-- No call begins behind a stretch of a text in which none does. -/
theorem callsUrl_drop {word w s : List Char} (h : callsUrl word (w ++ s) = false) :
    ∃ word', callsUrl word' s = false := by
  induction w generalizing word with
  | nil => exact ⟨word, h⟩
  | cons c w ih =>
    rw [List.cons_append, callsUrl] at h
    split at h
    · exact ih h
    · rw [Bool.or_eq_false_iff] at h
      exact ih h.2

/-- A character that belongs to no word ends the word in front of it. -/
theorem callsUrl_drop_of_not_isWord {word w s : List Char} {c : Char} (hc : isWord c = false)
    (h : callsUrl word (w ++ c :: s) = false) : callsUrl [] s = false := by
  obtain ⟨word', h'⟩ := callsUrl_drop h
  rw [callsUrl, if_neg (by simp [hc]), Bool.or_eq_false_iff] at h'
  exact h'.2

theorem callsUrl_drop_of_gap {gap s : List Char} (hgap : ∀ c ∈ gap, isWord c = false)
    (h : callsUrl [] (gap ++ s) = false) : callsUrl [] s = false := by
  induction gap with
  | nil => exact h
  | cons c gap ih =>
    exact ih (fun d hd => hgap d (by simp [hd]))
      (callsUrl_drop_of_not_isWord (w := []) (hgap c (by simp)) h)

theorem callsUrl_nil_of_head {word s : List Char}
    (hs : ∀ c, s.head? = some c → isWord c = false) (h : callsUrl word s = false) :
    callsUrl [] s = false := by
  cases s with
  | nil => rfl
  | cons c s =>
    have hc := hs c rfl
    have htail := callsUrl_drop_of_not_isWord (w := []) hc h
    rw [callsUrl, if_neg (by simp [hc]), htail]
    simp [sameLetters]

theorem callsUrl_of_noParens {s : List Char} (h : NoParens s) (word : List Char) :
    callsUrl word s = false := by
  induction s generalizing word with
  | nil => rfl
  | cons c s ih =>
    have hc := h c (by simp)
    have ih := ih fun d hd => h d (by simp [hd])
    unfold callsUrl
    split
    · exact ih _
    · simp [hc.1, ih]

theorem callsUrl_append_noParens {w : List Char} (h : NoParens w) (word s : List Char) :
    callsUrl word (s ++ w) = callsUrl word s := by
  induction s generalizing word with
  | nil => exact callsUrl_of_noParens h word
  | cons c s ih => simp [callsUrl, ih]

/-- What is plain as a value is plain in front of a block. -/
theorem PlainValue.prelude {s : String} (h : PlainValue s) : PlainPrelude s := by
  have hparens := noParens_of_isPlain h.chars
  exact ⟨fun c hc => Or.inl (h.chars c hc), h.tight, balanced_of_noParens hparens,
    callsUrl_of_noParens hparens []⟩

end ResponsiveCss.Text
