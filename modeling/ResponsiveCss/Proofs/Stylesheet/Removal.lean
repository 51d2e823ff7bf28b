-- Which nodes a removal takes. The list is read once, along with the nodes, so
-- a position counts only where everything in front of it is smaller; in a list
-- that never descends that is every position.
import ResponsiveCss.Proofs.Stylesheet.TopLevel

namespace ResponsiveCss.Stylesheet

/-- The number stands somewhere in the list behind smaller ones only. -/
def RunningMaximum (listed : List Nat) (i : Nat) : Prop :=
  ∃ before behind, listed = before ++ i :: behind ∧ ∀ j ∈ before, j < i

theorem runningMaximum_cons_of_lt {listed : List Nat} {i j : Nat} (h : j < i) :
    RunningMaximum (j :: listed) i ↔ RunningMaximum listed i := by
  constructor
  · rintro ⟨before, behind, hlist, hlt⟩
    cases before with
    | nil =>
      cases hlist
      exact absurd h (Nat.lt_irrefl i)
    | cons k before =>
      cases hlist
      exact ⟨before, behind, rfl, fun k hk => hlt k (List.mem_cons_of_mem _ hk)⟩
  · rintro ⟨before, behind, rfl, hlt⟩
    refine ⟨j :: before, behind, rfl, ?_⟩
    intro k hk
    rcases List.mem_cons.mp hk with rfl | hk
    · exact h
    · exact hlt k hk

theorem runningMaximum_cons_of_le {listed : List Nat} {i j : Nat} (h : i ≤ j) :
    RunningMaximum (j :: listed) i ↔ j = i := by
  constructor
  · rintro ⟨before, behind, hlist, hlt⟩
    cases before with
    | nil =>
      cases hlist
      rfl
    | cons k before =>
      cases hlist
      have := hlt j List.mem_cons_self
      omega
  · rintro rfl
    exact ⟨[], listed, rfl, by simp⟩

/-- The reading finds a position exactly if the position is a running maximum. -/
theorem leads_iff {listed : List Nat} {i : Nat} :
    leads listed i = true ↔ RunningMaximum listed i := by
  induction listed with
  | nil => simp [leads, RunningMaximum]
  | cons j more ih =>
    by_cases hj : j < i
    · rw [runningMaximum_cons_of_lt hj, ← ih, leads, leads,
        List.dropWhile_cons_of_pos (by simpa using hj)]
    · rw [runningMaximum_cons_of_le (Nat.le_of_not_lt hj), leads,
        List.dropWhile_cons_of_neg (by simpa using hj)]
      simp

instance (listed : List Nat) (i : Nat) : Decidable (RunningMaximum listed i) :=
  decidable_of_iff _ leads_iff

/-- A removal drops the nodes whose positions are running maxima of the list, and keeps the
others as they are, in their order. Of a list that never descends it drops all that is listed. -/
theorem a_removal_drops_the_running_maxima (s : Stylesheet) (listed : List Nat) :
    (s.remove listed).nodes =
      (s.nodes.zipIdx.filter fun place => ¬ RunningMaximum listed place.2).map Prod.fst ∧
    (listed.Pairwise (· ≤ ·) →
      (s.remove listed).nodes =
        (s.nodes.zipIdx.filter fun place => place.2 ∉ listed).map Prod.fst) := by
  have hnodes : (s.remove listed).nodes =
      (s.nodes.zipIdx.filter fun place => !leads listed place.2).map Prod.fst :=
    dropListed_eq 0 listed s.nodes
  refine ⟨?_, fun hascend => ?_⟩
  · rw [hnodes]
    congr 1
    apply List.filter_congr
    intro place _
    simp [← leads_iff]
  · rw [hnodes]
    congr 1
    apply List.filter_congr
    intro place _
    rw [leads_eq_of_ascending hascend]
    simp

/-- A repeated position and one behind the end make no difference; a smaller one that comes late
is passed over. -/
theorem a_late_position_is_passed_over :
    let s : Stylesheet := ⟨[.comment "a" ⟨1, 1⟩, .rule ".b" [] ⟨2, 1⟩, .comment "c" ⟨3, 1⟩,
      .statement "d" "" ⟨4, 1⟩, .rule ".e" [] ⟨5, 1⟩]⟩
    [1, 1, 3, 3, 9].Pairwise (· ≤ ·) ∧
      (s.remove [1, 1, 3, 3, 9]).nodes =
        [.comment "a" ⟨1, 1⟩, .comment "c" ⟨3, 1⟩, .rule ".e" [] ⟨5, 1⟩] ∧
      (s.remove [3, 1, 3, 4, 9, 0]).nodes =
        [.comment "a" ⟨1, 1⟩, .rule ".b" [] ⟨2, 1⟩, .comment "c" ⟨3, 1⟩] := by
  intro s
  have hascend : [1, 1, 3, 3, 9].Pairwise (· ≤ ·) := by decide
  obtain ⟨-, hlisted⟩ := a_removal_drops_the_running_maxima s [1, 1, 3, 3, 9]
  obtain ⟨hmaxima, -⟩ := a_removal_drops_the_running_maxima s [3, 1, 3, 4, 9, 0]
  rw [hlisted hascend, hmaxima]
  exact ⟨hascend, by decide +kernel, by decide +kernel⟩

end ResponsiveCss.Stylesheet
