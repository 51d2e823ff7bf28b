-- The top level of a stylesheet as a list: where the at-rules of a name
-- stand, what is left once positions are removed, and what rules at a
-- position change.
import ResponsiveCss.Stylesheet.Basic

namespace ResponsiveCss

/-- The node is an at-rule with this name. -/
def Node.isNamed (name : String) (n : Node) : Bool := n.atRule?.any (·.name == name)

@[simp] theorem Node.isNamed_append (name : String) (more : List Node) (n : Node) :
    (n.append more).isNamed name = n.isNamed name := by
  cases n with
  | statement m params source =>
    cases more <;> rfl
  | block => rfl
  | rule => rfl
  | declaration => rfl
  | comment => rfl

/-- No nodes at the end of a block change nothing, not even a statement. -/
@[simp] theorem Node.append_nil (n : Node) : n.append [] = n := by
  cases n <;> simp [Node.append]

namespace Stylesheet

/-- The at-rules with this name, in document order. -/
def named (s : Stylesheet) (name : String) : List AtRule :=
  (s.nodes.filterMap Node.atRule?).filter (·.name == name)

theorem mem_named {s : Stylesheet} {name : String} {a : AtRule} :
    a ∈ s.named name ↔ (∃ n ∈ s.nodes, n.atRule? = some a) ∧ a.name = name := by
  simp [named]

theorem named_eq_nil_iff {s : Stylesheet} {name : String} :
    s.named name = [] ↔ ∀ n ∈ s.nodes, n.isNamed name = false := by
  rw [List.eq_nil_iff_forall_not_mem]
  simp only [mem_named, Node.isNamed]
  constructor
  · intro h n hn
    cases ha : n.atRule? with
    | none => rfl
    | some a =>
      have := h a
      simp only [not_and] at this
      simpa using this ⟨n, hn, ha⟩
  · rintro h a ⟨⟨n, hn, ha⟩, hname⟩
    have := h n hn
    simp [ha, hname] at this

/-! ## Where the at-rules of a name stand -/

theorem map_snd_atRules (s : Stylesheet) (name : String) :
    (s.atRules name).map Prod.snd = s.named name := by
  unfold atRules named
  generalize 0 = k
  induction s.nodes generalizing k with
  | nil => rfl
  | cons n more ih =>
    simp only [List.zipIdx_cons, List.filterMap_cons]
    cases n.atRule? with
    | none => simpa using ih (k + 1)
    | some a =>
      have ih := ih (k + 1)
      by_cases h : a.name = name <;> simpa [Option.filter_some, h] using ih

theorem positions_eq (s : Stylesheet) (name : String) :
    s.positions name =
      ((s.nodes.map (Node.isNamed name)).zipIdx.filter Prod.fst).map Prod.snd := by
  unfold positions atRules
  generalize 0 = k
  induction s.nodes generalizing k with
  | nil => rfl
  | cons n more ih =>
    have ih := ih (k + 1)
    simp only [List.map_cons, List.zipIdx_cons, List.filterMap_cons, List.filter_cons]
    cases hn : n.atRule? with
    | none => simpa [Node.isNamed, hn] using ih
    | some a =>
      have flag : n.isNamed name = (a.name == name) := by simp [Node.isNamed, hn]
      by_cases h : a.name = name <;> simpa [Option.filter_some, flag, h] using ih

theorem mem_positions {s : Stylesheet} {name : String} {i : Nat} :
    i ∈ s.positions name ↔ ∃ n, s.nodes[i]? = some n ∧ n.isNamed name = true := by
  rw [positions_eq]
  simp [List.mem_zipIdx_iff_getElem?]

theorem positions_ascend (s : Stylesheet) (name : String) :
    (s.positions name).Pairwise (· < ·) := by
  rw [positions_eq, List.pairwise_map]
  apply List.Pairwise.filter
  rw [← List.pairwise_map (f := Prod.snd) (R := (· < ·)), List.zipIdx_map_snd]
  exact List.pairwise_lt_range'

/-! ## What a removal leaves -/

/-- A list that was read past `i` is read past `k` just as well from there. -/
theorem dropWhile_dropWhile_lt (l : List Nat) {i k : Nat} (h : i ≤ k) :
    (l.dropWhile (· < i)).dropWhile (· < k) = l.dropWhile (· < k) := by
  induction l with
  | nil => rfl
  | cons j more ih =>
    by_cases hj : j < i
    · have hk : j < k := by omega
      simpa [List.dropWhile_cons, hj, hk] using ih
    · simp [List.dropWhile_cons, hj]

/-- A position is listed with only smaller ones in front of it. -/
def leads (listed : List Nat) (i : Nat) : Bool := (listed.dropWhile (· < i)).head? == some i

/-- The nodes that go are those whose position leads the list. -/
theorem dropListed_eq (i : Nat) (listed : List Nat) (nodes : List Node) :
    dropListed i listed nodes =
      ((nodes.zipIdx i).filter fun place => !leads listed place.2).map Prod.fst := by
  induction nodes generalizing i listed with
  | nil => simp [dropListed]
  | cons n nodes ih =>
    have later : ∀ place ∈ nodes.zipIdx (i + 1), i ≤ place.2 := fun place h => by
      have := List.le_snd_of_mem_zipIdx h
      omega
    unfold dropListed
    split
    · rename_i hnil
      -- The list is used up, so no position from `i` on leads it.
      have none_leads : ∀ place ∈ nodes.zipIdx (i + 1), (!leads listed place.2) = true := by
        intro place h
        rw [leads, ← dropWhile_dropWhile_lt listed (later place h), hnil]
        rfl
      have hlead : leads listed i = false := by simp [leads, hnil]
      rw [List.zipIdx_cons, List.filter_cons_of_pos (by simp [hlead]),
        List.filter_eq_self.mpr none_leads, List.map_cons, List.zipIdx_map_fst]
    · rename_i j more hcons
      have same : ∀ place ∈ nodes.zipIdx (i + 1),
          (!leads listed place.2) = !leads (j :: more) place.2 := by
        intro place h
        rw [leads, ← dropWhile_dropWhile_lt listed (later place h), hcons, leads]
      split
      · rename_i hj
        subst hj
        have behind : ∀ place ∈ nodes.zipIdx (j + 1),
            (!leads listed place.2) = !leads more place.2 := by
          intro place h
          have hlt : j < place.2 := List.le_snd_of_mem_zipIdx h
          rw [same place h, leads, leads, List.dropWhile_cons_of_pos (by simpa using hlt)]
        have hlead : leads listed j = true := by simp [leads, hcons]
        rw [ih, List.zipIdx_cons, List.filter_cons_of_neg (by simp [hlead]),
          List.filter_congr behind]
      · rename_i hj
        have hlead : leads listed i = false := by simp [leads, hcons, hj]
        rw [ih, List.zipIdx_cons, List.filter_cons_of_pos (by simp [hlead]), List.map_cons,
          List.filter_congr same]

/-- In a list that never descends every position leads. -/
theorem leads_eq_of_ascending {listed : List Nat} (h : listed.Pairwise (· ≤ ·)) (i : Nat) :
    leads listed i = decide (i ∈ listed) := by
  induction listed with
  | nil => rfl
  | cons j more ih =>
    rw [List.pairwise_cons] at h
    by_cases hj : j < i
    · have hne : ¬ i = j := by omega
      rw [leads, List.dropWhile_cons_of_pos (by simpa using hj)]
      simpa [hne, leads] using ih h.2
    · rw [leads, List.dropWhile_cons_of_neg (by simpa using hj)]
      by_cases hij : j = i
      · simp [hij]
      · have hnot : i ∉ more := fun hi => by
          have := h.1 i hi
          omega
        have hne : ¬ i = j := fun he => hij he.symm
        simp [hij, hne, hnot]

/-- Without the at-rules of a name, the other nodes are left in their order. -/
theorem nodes_remove_positions (s : Stylesheet) (name : String) :
    (s.remove (s.positions name)).nodes = s.nodes.filter fun n => !n.isNamed name := by
  have flag : ∀ place ∈ s.nodes.zipIdx,
      (!leads (s.positions name) place.2) = !place.1.isNamed name := by
    intro place h
    rw [List.mem_zipIdx_iff_getElem?] at h
    rw [leads_eq_of_ascending ((s.positions_ascend name).imp Nat.le_of_lt)]
    simp [mem_positions, h]
  have swap := List.filter_map (f := Prod.fst) (p := fun n : Node => !n.isNamed name)
    (l := s.nodes.zipIdx)
  rw [List.zipIdx_map_fst] at swap
  unfold remove
  rw [dropListed_eq, List.filter_congr flag, swap]
  rfl

/-! ## Rules at positions -/

@[simp] theorem nodes_appendRules (s : Stylesheet) (i : Nat) (rules : List Rule) :
    (s.appendRules i rules).nodes = s.nodes.modify i (Node.append (rules.map Rule.toNode)) := rfl

/-- Rules that come to a block rename nothing. -/
@[simp] theorem positions_appendRules (s : Stylesheet) (i : Nat) (rules : List Rule)
    (name : String) : (s.appendRules i rules).positions name = s.positions name := by
  have hnames : (s.appendRules i rules).nodes.map (Node.isNamed name) =
      s.nodes.map (Node.isNamed name) := by
    rw [nodes_appendRules]
    apply List.ext_getElem?
    intro k
    rw [List.getElem?_map, List.getElem?_map, List.getElem?_modify, Option.map_eq_map,
      Option.map_map]
    congr 1
    funext n
    rw [Function.comp_apply]
    split <;> simp
  rw [positions_eq, positions_eq, hnames]

theorem positions_foldl_appendRules {β : Type} (rules : β → List Rule) (l : List (Nat × β))
    (s : Stylesheet) (name : String) :
    (l.foldl (fun s place => s.appendRules place.1 (rules place.2)) s).positions name =
      s.positions name := by
  induction l generalizing s with
  | nil => rfl
  | cons place more ih => rw [List.foldl_cons, ih, positions_appendRules]

/-- New blocks stand behind the nodes that were there, in their order. -/
theorem nodes_foldl_appendAtRule {β : Type} (name : String) (params : β → String)
    (rules : β → List Rule) (l : List β) (s : Stylesheet) :
    (l.foldl (fun s b => s.appendAtRule name (params b) (rules b)) s).nodes =
      s.nodes ++ l.map fun b => .block name (params b) ((rules b).map Rule.toNode) .nowhere := by
  induction l generalizing s with
  | nil => simp
  | cons b more ih =>
    rw [List.foldl_cons, ih]
    simp [appendAtRule]

/-- Rules at several positions, all different, come to each node on its own. -/
theorem nodes_foldl_appendRules {β : Type} (rules : β → List Rule) (l : List (Nat × β))
    (h : (l.map Prod.fst).Nodup) (s : Stylesheet) :
    (l.foldl (fun s place => s.appendRules place.1 (rules place.2)) s).nodes =
      s.nodes.mapIdx fun i n =>
        match l.find? (·.1 == i) with
        | some place => n.append ((rules place.2).map Rule.toNode)
        | none => n := by
  induction l generalizing s with
  | nil =>
    apply List.ext_getElem?
    simp
  | cons place more ih =>
    rw [List.map_cons, List.nodup_cons] at h
    rw [List.foldl_cons, ih h.2]
    apply List.ext_getElem?
    intro i
    simp only [nodes_appendRules, List.getElem?_mapIdx, List.getElem?_modify, List.find?_cons]
    by_cases hi : place.1 = i
    · have hnone : more.find? (·.1 == i) = none := by
        rw [List.find?_eq_none]
        intro other ho
        simp only [beq_iff_eq]
        intro he
        exact h.1 (hi ▸ he ▸ List.mem_map_of_mem ho)
      cases s.nodes[i]? <;> simp [hi, hnone]
    · have hi' : (place.1 == i) = false := by simpa using hi
      cases s.nodes[i]? <;> simp [hi, hi']

end Stylesheet

end ResponsiveCss
