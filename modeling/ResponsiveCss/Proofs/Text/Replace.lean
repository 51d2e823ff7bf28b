-- Replacing every occurrence of a text, from left to right: the first one, and
-- then those behind it. So the occurrences do not overlap, and what is put in
-- is not looked at again.
import Mathlib.Data.List.Basic
import ResponsiveCss.Proofs.Text.Occurrence

namespace ResponsiveCss.Text

/-- The text in front of the first occurrence of a text that is not empty, and the text behind
it, if there is one. -/
def around? (part : List Char) : List Char → Option (List Char × List Char)
  | [] => none
  | c :: s =>
    match part.isPrefixOf? (c :: s) with
    | some behind => some ([], behind)
    | none => (around? part s).map fun sides => (c :: sides.1, sides.2)

theorem eq_of_around? {part s before behind : List Char}
    (h : around? part s = some (before, behind)) : s = before ++ part ++ behind := by
  induction s generalizing before with
  | nil => cases h
  | cons c s ih =>
    rw [around?] at h
    split at h
    · rename_i hstart
      cases h
      exact (List.isPrefixOf?_eq_some_iff_append_eq.mp hstart).symm
    · obtain ⟨⟨before, behind⟩, hsides, heq⟩ := Option.map_eq_some_iff.mp h
      cases heq
      rw [ih hsides]
      rfl

theorem length_behind_lt {part s before behind : List Char} (hpart : part ≠ [])
    (h : around? part s = some (before, behind)) : behind.length < s.length := by
  have hpos := List.length_pos_iff.mpr hpart
  rw [eq_of_around? h, List.length_append, List.length_append]
  omega

/-- The text with `new` for every occurrence of `part`, if that is not empty. -/
def replaceAll (part new s : List Char) : List Char :=
  if _ : part = [] then s
  else
    match _ : around? part s with
    | none => s
    | some (before, behind) => before ++ new ++ replaceAll part new behind
termination_by s.length
decreasing_by exact length_behind_lt ‹_› ‹_›

section

variable {part : List Char} (hpart : part ≠ []) (new : List Char) {s before behind : List Char}
include hpart

theorem replaceAll_of_none (h : around? part s = none) : replaceAll part new s = s := by
  rw [replaceAll, dif_neg hpart]
  split
  · rfl
  · rename_i hsome
    rw [h] at hsome
    cases hsome

theorem replaceAll_of_some (h : around? part s = some (before, behind)) :
    replaceAll part new s = before ++ new ++ replaceAll part new behind := by
  rw [replaceAll, dif_neg hpart]
  split
  · rename_i hnone
    rw [h] at hnone
    cases hnone
  · rename_i hsome
    rw [h] at hsome
    cases hsome
    rfl

theorem replaceAll_nil : replaceAll part new [] = [] := replaceAll_of_none hpart new rfl

/-- What the text begins with is replaced first. -/
theorem replaceAll_append (s : List Char) :
    replaceAll part new (part ++ s) = new ++ replaceAll part new s := by
  have hfirst : around? part (part ++ s) = some ([], s) := by
    cases part with
    | nil => exact absurd rfl hpart
    | cons c part =>
      have hstart : (c :: part).isPrefixOf? (c :: (part ++ s)) = some s :=
        List.isPrefixOf?_eq_some_iff_append_eq.mpr rfl
      rw [List.cons_append, around?, hstart]
  simpa using replaceAll_of_some hpart new hfirst

/-- A character where no occurrence begins stays. -/
theorem replaceAll_cons {c : Char} (h : ¬ part <+: c :: s) :
    replaceAll part new (c :: s) = c :: replaceAll part new s := by
  have hstart : part.isPrefixOf? (c :: s) = none := by
    rw [← List.isPrefixOf_iff_prefix, ← List.isSome_isPrefixOf?_eq_isPrefixOf] at h
    exact Option.not_isSome_iff_eq_none.mp h
  have hfirst : around? part (c :: s) =
      (around? part s).map fun sides => (c :: sides.1, sides.2) := by
    rw [around?, hstart]
  cases hs : around? part s with
  | none =>
    rw [hs] at hfirst
    rw [replaceAll_of_none hpart new hfirst, replaceAll_of_none hpart new hs]
  | some sides =>
    rw [hs] at hfirst
    rw [replaceAll_of_some hpart new hfirst, replaceAll_of_some hpart new hs]
    rfl

end

end ResponsiveCss.Text
