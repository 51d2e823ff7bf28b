-- Trimming: what is blank at the two ends goes, and a text without blanks at
-- its ends stays as it is.
import Mathlib.Data.List.TakeWhile
import ResponsiveCss.Text.Basic

namespace ResponsiveCss.Text

/-- Every character is blank. -/
def AllBlank (s : List Char) : Prop := ∀ c ∈ s, isBlank c = true

/-- Neither the first nor the last character is blank. -/
structure Trimmed (s : List Char) : Prop where
  head : ∀ c, s.head? = some c → isBlank c = false
  last : ∀ c, s.getLast? = some c → isBlank c = false

theorem dropWhile_of_head {s : List Char} (h : ∀ c, s.head? = some c → isBlank c = false) :
    s.dropWhile isBlank = s := by
  cases s with
  | nil => rfl
  | cons c s => rw [List.dropWhile_cons_of_neg (by simp [h c rfl])]

theorem trimEnd_append_blank {s gap : List Char} (h : AllBlank gap) :
    trimEnd (s ++ gap) = trimEnd s := by
  unfold trimEnd
  rw [List.reverse_append, List.dropWhile_append_of_pos fun c hc => h c (List.mem_reverse.mp hc)]

theorem trimEnd_of_last {s : List Char} (h : ∀ c, s.getLast? = some c → isBlank c = false) :
    trimEnd s = s := by
  unfold trimEnd
  rw [dropWhile_of_head fun c hc => h c (by rwa [List.head?_reverse] at hc), List.reverse_reverse]

theorem trim_eq_self {s : List Char} (h : Trimmed s) : trim s = s := by
  rw [trim, dropWhile_of_head h.head, trimEnd_of_last h.last]

/-- Nothing is left of a text without anything else than blanks. -/
theorem trim_eq_nil_iff {s : List Char} : trim s = [] ↔ AllBlank s := by
  constructor
  · intro h
    have hrest : AllBlank (s.dropWhile isBlank) := by
      intro c hc
      rw [trim, trimEnd, List.reverse_eq_nil_iff, List.dropWhile_eq_nil_iff] at h
      exact h c (List.mem_reverse.mpr hc)
    intro c hc
    rw [← List.takeWhile_append_dropWhile (p := isBlank) (l := s), List.mem_append] at hc
    rcases hc with hc | hc
    · exact List.all_eq_true.mp List.all_takeWhile c hc
    · exact hrest c hc
  · intro h
    rw [trim, List.dropWhile_eq_nil_iff.mpr h, trimEnd_nil]

theorem trim_blank_append {gap : List Char} (h : AllBlank gap) (s : List Char) :
    trim (gap ++ s) = trim s := by
  rw [trim, List.dropWhile_append_of_pos h, trim]

theorem trim_append_blank (s : List Char) {gap : List Char} (h : AllBlank gap) :
    trim (s ++ gap) = trim s := by
  rw [trim, List.dropWhile_append]
  split
  · rename_i hs
    have hs : s.dropWhile isBlank = [] := by simpa using hs
    have hgap : gap.dropWhile isBlank = [] := List.dropWhile_eq_nil_iff.mpr h
    rw [trim, hs, hgap]
  · rw [trimEnd_append_blank h, trim]

theorem trim_between {a b s : List Char} (ha : AllBlank a) (hs : Trimmed s) (hb : AllBlank b) :
    trim (a ++ s ++ b) = s := by
  rw [trim_append_blank _ hb, trim_blank_append ha, trim_eq_self hs]

/-! ## What trimming leaves -/

theorem head?_of_trimEnd {s : List Char} {c : Char} (h : (trimEnd s).head? = some c) :
    s.head? = some c := by
  have hprefix : trimEnd s <+: s := by
    unfold trimEnd
    rw [← List.reverse_suffix, List.reverse_reverse]
    exact List.dropWhile_suffix _
  obtain ⟨gap, hs⟩ := hprefix
  cases htrim : trimEnd s with
  | nil => simp [htrim] at h
  | cons d t =>
    rw [htrim] at h hs
    rw [← hs]
    exact h

theorem not_isBlank_of_last_trimEnd {s : List Char} {c : Char}
    (h : (trimEnd s).getLast? = some c) : isBlank c = false := by
  have hhead := List.head?_dropWhile_not isBlank s.reverse
  rw [trimEnd, List.getLast?_reverse] at h
  rw [h] at hhead
  simpa using hhead

/-- Once the blanks at the front are gone, those at the end are all that is left to cut. -/
theorem trimmed_trimEnd {s : List Char} (h : ∀ c, s.head? = some c → isBlank c = false) :
    Trimmed (trimEnd s) :=
  ⟨fun c hc => h c (head?_of_trimEnd hc), fun _ hc => not_isBlank_of_last_trimEnd hc⟩

theorem trimmed_trim (s : List Char) : Trimmed (trim s) := by
  apply trimmed_trimEnd
  intro c hc
  have hhead := List.head?_dropWhile_not isBlank s
  rw [hc] at hhead
  simpa using hhead

theorem subset_of_trim (s : List Char) : trim s ⊆ s := by
  intro c hc
  unfold trim trimEnd at hc
  rw [List.mem_reverse] at hc
  have hfront := (List.dropWhile_sublist _).subset hc
  exact (List.dropWhile_sublist _).subset (List.mem_reverse.mp hfront)

/-! ## Blanks -/

theorem allBlank_nil : AllBlank [] := by simp [AllBlank]

theorem allBlank_space : AllBlank [' '] := by simp [AllBlank, isBlank_space]

end ResponsiveCss.Text
