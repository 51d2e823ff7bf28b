-- Occurrences of a text as list relations: what the functions that look for a
-- text decide, and what lies between the occurrences of a character.
import ResponsiveCss.Text.Basic

namespace ResponsiveCss.Text

theorem occursIn_iff {part s : List Char} : occursIn part s = true ↔ part <:+: s := by
  induction s with
  | nil => simp [occursIn]
  | cons c cs ih => rw [occursIn, Bool.or_eq_true, List.isPrefixOf_iff_prefix, ih, List.infix_cons_iff]

/-- The first separator is the one with no other in front of it. -/
theorem splitFirst?_eq_some_iff {sep : Char} {s a b : List Char} :
    splitFirst? sep s = some (a, b) ↔ s = a ++ sep :: b ∧ sep ∉ a := by
  induction s generalizing a with
  | nil => simp
  | cons c cs ih =>
    rw [splitFirst?]
    split
    · rename_i hc
      subst hc
      cases a <;> simp +contextual [eq_comm]
    · rename_i hc
      rw [Option.map_eq_some_iff]
      constructor
      · rintro ⟨⟨a', b'⟩, hcs, heq⟩
        cases heq
        obtain ⟨rfl, hsep⟩ := ih.mp hcs
        refine ⟨rfl, ?_⟩
        rw [List.mem_cons, not_or]
        exact ⟨fun h => hc h.symm, hsep⟩
      · rintro ⟨heq, hsep⟩
        cases a with
        | nil =>
          cases heq
          exact absurd rfl hc
        | cons d a =>
          cases heq
          exact ⟨(a, b), ih.mpr ⟨rfl, fun h => hsep (by simp [h])⟩, rfl⟩

theorem splitFirst?_eq_none_iff {sep : Char} {s : List Char} :
    splitFirst? sep s = none ↔ sep ∉ s := by
  induction s with
  | nil => simp
  | cons c cs ih =>
    rw [splitFirst?]
    split
    · rename_i hc
      simp [hc]
    · rename_i hc
      rw [Option.map_eq_none_iff, ih, List.mem_cons, not_or]
      exact ⟨fun h => ⟨fun e => hc e.symm, h⟩, And.right⟩

/-! ## Pieces -/

/-- No piece of a text holds the character between the pieces. -/
theorem not_mem_of_mem_splitOn {sep : Char} {s piece : List Char} (h : piece ∈ s.splitOn sep) :
    sep ∉ piece := by
  induction hn : s.length using Nat.strongRecOn generalizing s with
  | _ n ih =>
    by_cases hsep : sep ∈ s
    · -- The piece stands in front of the first separator, or it is one of the text behind that.
      obtain ⟨before, behind, rfl, hbefore⟩ := List.eq_append_cons_of_mem hsep
      rw [List.splitOn_append_cons_self_of_not_mem hbefore] at h
      have hshorter : behind.length < n := by
        rw [← hn, List.length_append, List.length_cons]
        omega
      rcases List.mem_cons.mp h with rfl | hbehind
      · exact hbefore
      · exact ih behind.length hshorter hbehind rfl
    · rw [List.splitOn_eq_singleton hsep, List.mem_singleton] at h
      rwa [h]

end ResponsiveCss.Text
