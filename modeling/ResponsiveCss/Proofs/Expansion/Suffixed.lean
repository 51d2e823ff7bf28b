-- What renaming does to a selector: the suffix comes in behind some of its
-- characters, and nothing else changes. So a plain selector stays plain under
-- a plain suffix.
import ResponsiveCss.Proofs.Expansion.Scan
import ResponsiveCss.Proofs.Text.Plain

namespace ResponsiveCss.Expansion

open Text

/-! ## Suffixed texts -/

/-- The second text is the first one with `suffix` behind some of its characters. -/
inductive Suffixed (suffix : List Char) : List Char → List Char → Prop where
  | nil : Suffixed suffix [] []
  | keep {s t : List Char} (c : Char) (h : Suffixed suffix s t) : Suffixed suffix (c :: s) (c :: t)
  | mark {s t : List Char} (c : Char) (h : Suffixed suffix s t) :
      Suffixed suffix (c :: s) (c :: (suffix ++ t))

/-- The suffix may come in behind a stretch of the text. -/
theorem Suffixed.mark_behind {suffix s t f : List Char} (h : Suffixed suffix s t) (hne : f ≠ []) :
    Suffixed suffix (f ++ s) (f ++ suffix ++ t) := by
  induction f with
  | nil => exact absurd rfl hne
  | cons c f ih =>
    cases f with
    | nil => simpa using h.mark c
    | cons d f => exact (ih (by simp)).keep c

theorem suffixed_suffixFragments (fragments : List (List Char)) (name s : List Char) :
    Suffixed ('-' :: name) s (suffixFragments fragments name s) := by
  induction s using scan_induction fragments with
  | nil => exact .nil
  | pass c s hnone ih =>
    rw [suffixFragments_cons hnone]
    exact ih.keep c
  | mark f s hlongest ih =>
    rw [suffixFragments_append hlongest]
    exact ih.mark_behind hlongest.ne_nil

theorem suffixed_append {suffix s : List Char} (hne : s ≠ []) :
    Suffixed suffix s (s ++ suffix) := by
  have h : Suffixed suffix [] [] := .nil
  simpa using h.mark_behind hne

/-- Both ways to rename a selector put `-name` behind some of its characters. -/
theorem suffixed_renamed (fragments : Option (List (List Char))) (name : String)
    {selector : String} (hne : selector ≠ "") :
    Suffixed ('-' :: name.toList) selector.toList (renamed fragments name selector).toList := by
  cases fragments with
  | none =>
    have hlist : selector.toList ≠ [] := by simpa using hne
    have h : Suffixed ('-' :: name.toList) _ _ := suffixed_append hlist
    simpa [renamed] using h
  | some fragments =>
    simpa [renamed] using suffixed_suffixFragments fragments name.toList selector.toList

/-! ## What stays plain -/

/-- No word with a hyphen is `url`. -/
theorem sameLetters_url_of_hyphen {word : List Char} (h : '-' ∈ word) :
    sameLetters word ['u', 'r', 'l'] = false := by
  rw [Bool.eq_false_iff]
  intro hsame
  have hmem : '-'.toLower ∈ word.map Char.toLower := List.mem_map_of_mem h
  rw [eq_of_beq hsame] at hmem
  revert hmem
  decide

namespace Suffixed

variable {suffix s t : List Char}

theorem mem (h : Suffixed suffix s t) {c : Char} (hc : c ∈ t) : c ∈ s ∨ c ∈ suffix := by
  induction h with
  | nil => cases hc
  | keep d h ih =>
    rcases List.mem_cons.mp hc with rfl | hc
    · exact Or.inl (by simp)
    · exact (ih hc).imp_left (List.mem_cons_of_mem _)
  | mark d h ih =>
    rw [List.mem_cons, List.mem_append] at hc
    rcases hc with rfl | hc | hc
    · exact Or.inl (by simp)
    · exact Or.inr hc
    · exact (ih hc).imp_left (List.mem_cons_of_mem _)

theorem head?_eq (h : Suffixed suffix s t) : t.head? = s.head? := by
  cases h <;> rfl

theorem getLast?_cases (h : Suffixed suffix s t) (hsuffix : suffix ≠ []) :
    t.getLast? = s.getLast? ∨ t.getLast? = suffix.getLast? := by
  obtain ⟨x, hx⟩ : ∃ x, suffix.getLast? = some x :=
    ⟨_, List.getLast?_eq_some_getLast hsuffix⟩
  rw [hx]
  induction h with
  | nil => exact Or.inl rfl
  | keep c h ih =>
    rw [List.getLast?_cons, List.getLast?_cons]
    rcases ih with ih | ih
    · exact Or.inl (by rw [ih])
    · exact Or.inr (by rw [ih]; rfl)
  | @mark s t c h ih =>
    rw [List.getLast?_cons, List.getLast?_cons, List.getLast?_append, hx]
    cases ht : t.getLast? with
    | none => exact Or.inr rfl
    | some y =>
      rw [ht] at ih
      rcases ih with ih | ih
      · exact Or.inl (by rw [← ih]; rfl)
      · exact Or.inr ih

theorem balanced_eq (h : Suffixed suffix s t) (hsuffix : NoParens suffix) (depth : Nat) :
    balanced depth t = balanced depth s := by
  induction h generalizing depth with
  | nil => rfl
  | keep c h ih => simp [balanced, ih]
  | mark c h ih => simp [balanced, balanced_append_of_noParens hsuffix, ih]

/-- A word that got a suffix with a hyphen is not `url`, and the other words are as they were. -/
theorem callsUrl_eq_false (h : Suffixed suffix s t) (hword : ∀ c ∈ suffix, isWord c = true)
    (hhyphen : '-' ∈ suffix) {word word' : List Char} (hw : word' = word ∨ '-' ∈ word')
    (hs : callsUrl word s = false) : callsUrl word' t = false := by
  have noCall : ∀ {c : Char} {word word' : List Char}, (word' = word ∨ '-' ∈ word') →
      (decide (c = '(') && sameLetters word ['u', 'r', 'l']) = false →
      (decide (c = '(') && sameLetters word' ['u', 'r', 'l']) = false := by
    intro c word word' hw hs
    rcases hw with rfl | hw
    · exact hs
    · rw [sameLetters_url_of_hyphen hw, Bool.and_false]
  induction h generalizing word word' with
  | nil => rfl
  | keep c h ih =>
    rw [callsUrl] at hs ⊢
    split at hs
    · rename_i hc
      rw [if_pos hc]
      refine ih ?_ hs
      rcases hw with rfl | hw
      · exact Or.inl rfl
      · exact Or.inr (by simp [hw])
    · rename_i hc
      rw [Bool.or_eq_false_iff] at hs
      rw [if_neg hc, Bool.or_eq_false_iff]
      exact ⟨noCall hw hs.1, ih (Or.inl rfl) hs.2⟩
  | mark c h ih =>
    rw [callsUrl] at hs ⊢
    split at hs
    · rename_i hc
      rw [if_pos hc, callsUrl_append_word _ hword]
      exact ih (Or.inr (by simp [hhyphen])) hs
    · rename_i hc
      rw [Bool.or_eq_false_iff] at hs
      rw [if_neg hc, callsUrl_append_word _ hword, Bool.or_eq_false_iff]
      exact ⟨noCall hw hs.1, ih (Or.inr (by simpa using hhyphen)) hs.2⟩

end Suffixed

/-! ## Renamed selectors -/

/-- A plain selector is plain under its new name, too. -/
theorem plainPrelude_renamed (fragments : Option (List (List Char))) {name selector : String}
    (hname : ∀ c ∈ name.toList, isWord c = true) (hne : selector ≠ "")
    (hselector : PlainPrelude selector) :
    renamed fragments name selector ≠ "" ∧ PlainPrelude (renamed fragments name selector) := by
  have h := suffixed_renamed fragments name hne
  have hword : ∀ c ∈ '-' :: name.toList, isWord c = true := by
    intro c hc
    rcases List.mem_cons.mp hc with rfl | hc
    · decide
    · exact hname c hc
  have hplain : ∀ c ∈ '-' :: name.toList, isPlain c = true :=
    fun c hc => isPlain_iff.mpr (Or.inl (hword c hc))
  refine ⟨?_, ?_, ⟨?_, ?_⟩, ?_, ?_⟩
  · intro hnil
    have hhead := h.head?_eq
    rw [hnil] at hhead
    exact hne (by simpa using hhead.symm)
  · intro c hc
    rcases h.mem hc with hc | hc
    · exact hselector.chars c hc
    · exact Or.inl (hplain c hc)
  · rw [h.head?_eq]
    exact hselector.tight.1
  · rcases h.getLast?_cases (by simp) with hlast | hlast
    · rw [hlast]
      exact hselector.tight.2
    · rw [hlast]
      intro hspace
      have := hword _ (List.mem_of_getLast? hspace)
      revert this
      decide
  · rw [h.balanced_eq (noParens_of_isPlain hplain), hselector.balanced]
  · exact h.callsUrl_eq_false hword (by simp) (Or.inl rfl) hselector.noUrl

end ResponsiveCss.Expansion
