-- How renaming reads a selector: from left to right, past each character where
-- no fragment begins, and past the whole of the longest one where some do.
-- Every law about renamed selectors goes by these two steps.
import ResponsiveCss.Expansion.Filter
import ResponsiveCss.Proofs.Text.Occurrence

namespace ResponsiveCss.Expansion

open Text

variable {fragments others : List (List Char)} {c : Char} {name s f : List Char}

/-! ## What is found at a place -/

/-- No fragment begins the text; an empty one does not count. -/
def NoneStarts (fragments : List (List Char)) (s : List Char) : Prop :=
  ∀ f ∈ fragments, f <+: s → f = []

/-- The fragment begins the text, and no longer one does. -/
structure Longest (fragments : List (List Char)) (s f : List Char) : Prop where
  mem : f ∈ fragments
  ne_nil : f ≠ []
  starts : f <+: s
  longest : ∀ g ∈ fragments, g <+: s → g.length ≤ f.length

theorem foldl_max_le_iff (l : List (List Char)) (n bound : Nat) :
    l.foldl (fun n f => max n f.length) n ≤ bound ↔ n ≤ bound ∧ ∀ f ∈ l, f.length ≤ bound := by
  induction l generalizing n with
  | nil => simp
  | cons f l ih => rw [List.foldl_cons, ih, Nat.max_le, List.forall_mem_cons, and_assoc]

theorem matchLength_le_iff {bound : Nat} :
    matchLength fragments s ≤ bound ↔ ∀ f ∈ fragments, f <+: s → f.length ≤ bound := by
  unfold matchLength
  rw [foldl_max_le_iff]
  simp only [List.mem_filter, List.isPrefixOf_iff_prefix, and_imp]
  exact ⟨And.right, fun h => ⟨Nat.zero_le _, h⟩⟩

theorem NoneStarts.matchLength_eq (h : NoneStarts fragments s) : matchLength fragments s = 0 := by
  have hle : matchLength fragments s ≤ 0 :=
    matchLength_le_iff.mpr fun f hf hstarts => by simp [h f hf hstarts]
  exact Nat.le_zero.mp hle

theorem Longest.matchLength_eq (h : Longest fragments s f) :
    matchLength fragments s = f.length :=
  Nat.le_antisymm (matchLength_le_iff.mpr h.longest)
    (matchLength_le_iff.mp (Nat.le_refl _) f h.mem h.starts)

/-- If any fragment begins the text, a longest one does. -/
theorem exists_longest (h : ¬ NoneStarts fragments s) : ∃ f, Longest fragments s f := by
  have hle := matchLength_le_iff.mp (Nat.le_refl (matchLength fragments s))
  refine Classical.byContradiction fun hno => h fun f hf hstarts => ?_
  -- Every fragment there would be shorter than the longest one.
  have hshort : ∀ g ∈ fragments, g <+: s → g.length ≤ matchLength fragments s - 1 := by
    intro g hg hgstarts
    refine Nat.le_of_not_lt fun hlong => hno ⟨g, hg, ?_, hgstarts, fun k hk hkstarts => ?_⟩
    · rintro rfl
      exact Nat.not_lt_zero _ hlong
    · have := hle k hk hkstarts
      omega
  have hbound := matchLength_le_iff.mpr hshort
  have hlength := hle f hf hstarts
  rw [← List.length_eq_zero_iff]
  omega

/-! ## The two steps -/

theorem suffixAfter_eq (fragments : List (List Char)) (name : List Char) (skip : Nat)
    (s : List Char) :
    suffixAfter fragments name skip s = suffixFragments fragments name (s.drop skip) := by
  induction s generalizing skip with
  | nil => cases skip <;> rfl
  | cons c s ih =>
    cases skip with
    | zero => rfl
    | succ skip => simpa [suffixAfter] using ih skip

@[simp] theorem suffixFragments_nil (fragments : List (List Char)) (name : List Char) :
    suffixFragments fragments name [] = [] := rfl

/-- Where no fragment begins, the character stays as it is. -/
theorem suffixFragments_cons (h : NoneStarts fragments (c :: s)) :
    suffixFragments fragments name (c :: s) = c :: suffixFragments fragments name s := by
  unfold suffixFragments
  rw [suffixAfter, h.matchLength_eq]

/-- Where some do, the suffix comes behind the longest of them. -/
theorem suffixFragments_append (h : Longest fragments (f ++ s) f) :
    suffixFragments fragments name (f ++ s) =
      f ++ '-' :: name ++ suffixFragments fragments name s := by
  cases f with
  | nil => exact absurd rfl h.ne_nil
  | cons d f =>
    have hlength : matchLength fragments (d :: (f ++ s)) = f.length + 1 := h.matchLength_eq
    unfold suffixFragments
    rw [List.cons_append, suffixAfter, hlength]
    dsimp only
    rw [suffixAfter_eq, List.take_succ_cons, List.take_left, List.drop_left]
    rfl

/-- What holds of the empty text and is kept by both steps holds of every text. -/
@[elab_as_elim]
theorem scan_induction (fragments : List (List Char)) {motive : List Char → Prop}
    (nil : motive [])
    (pass : ∀ c s, NoneStarts fragments (c :: s) → motive s → motive (c :: s))
    (mark : ∀ f s, Longest fragments (f ++ s) f → motive s → motive (f ++ s))
    (s : List Char) : motive s := by
  cases s with
  | nil => exact nil
  | cons c s =>
    by_cases hnone : NoneStarts fragments (c :: s)
    · exact pass c s hnone (scan_induction fragments nil pass mark s)
    · obtain ⟨f, hf⟩ := exists_longest hnone
      obtain ⟨rest, hrest⟩ := hf.starts
      have hshort : rest.length < (c :: s).length := by
        have := List.length_pos_iff.mpr hf.ne_nil
        rw [← hrest, List.length_append]
        omega
      have hmark := mark f rest (hrest ▸ hf) (scan_induction fragments nil pass mark rest)
      rwa [hrest] at hmark
termination_by s.length
decreasing_by
  · exact Nat.lt_succ_self s.length
  · exact hshort

/-! ## Which fragments count -/

theorem NoneStarts.congr (h : NoneStarts fragments s)
    (hsame : ∀ f, f ≠ [] → f <+: s → (f ∈ fragments ↔ f ∈ others)) : NoneStarts others s := by
  intro f hf hstarts
  by_cases hne : f = []
  · exact hne
  · exact h f ((hsame f hne hstarts).mpr hf) hstarts

theorem Longest.congr (h : Longest fragments s f)
    (hsame : ∀ f, f ≠ [] → f <+: s → (f ∈ fragments ↔ f ∈ others)) : Longest others s f := by
  refine ⟨(hsame f h.ne_nil h.starts).mp h.mem, h.ne_nil, h.starts, fun g hg hstarts => ?_⟩
  by_cases hne : g = []
  · simp [hne]
  · exact h.longest g ((hsame g hne hstarts).mpr hg) hstarts

/-- Only the set of the fragments in the selector counts; empty ones do not. -/
theorem suffixFragments_congr (name : List Char)
    (hsame : ∀ f, f ≠ [] → f <:+: s → (f ∈ fragments ↔ f ∈ others)) :
    suffixFragments fragments name s = suffixFragments others name s := by
  induction s using scan_induction fragments with
  | nil => rfl
  | pass c s hnone ih =>
    have hnone' := hnone.congr fun f hne hstarts => hsame f hne hstarts.isInfix
    rw [suffixFragments_cons hnone, suffixFragments_cons hnone', ih]
    exact fun f hne hf => hsame f hne (hf.trans (List.suffix_cons c s).isInfix)
  | mark f s hlongest ih =>
    have hlongest' := hlongest.congr fun f hne hstarts => hsame f hne hstarts.isInfix
    rw [suffixFragments_append hlongest, suffixFragments_append hlongest', ih]
    exact fun g hne hg => hsame g hne (hg.trans (List.suffix_append f s).isInfix)

/-- Fragments that occur nowhere in a selector can be left out. -/
theorem suffixFragments_filter_occursIn (fragments : List (List Char))
    (name selector : List Char) :
    suffixFragments (fragments.filter (occursIn · selector)) name selector =
      suffixFragments fragments name selector := by
  apply suffixFragments_congr
  intro f _ hf
  rw [List.mem_filter, occursIn_iff]
  exact ⟨And.left, fun hmem => ⟨hmem, hf⟩⟩

end ResponsiveCss.Expansion
