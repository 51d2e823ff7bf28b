-- What a successful expansion leaves: the nodes that are not responsive, in
-- their order, the adopted blocks among them with the variants of their
-- breakpoints at the end, and behind them a new block for every other
-- breakpoint.
import ResponsiveCss.Proofs.Expansion.Variants

namespace ResponsiveCss

open Expansion

/-! ## Adoption -/

/-- The node is a media block, or a media statement, with this query. -/
def Node.isMedia (query : String) (n : Node) : Bool :=
  n.atRule?.any fun a => a.name == media && a.params == query

/-- The position of the block that a breakpoint adopts: that of the first media block with
its query, if no earlier breakpoint has the same query. -/
def Stylesheet.adopted? (s : Stylesheet) (bs : List Breakpoint) (b : Breakpoint) : Option Nat :=
  if bs.find? (·.query == b.query) = some b then s.nodes.findIdx? (·.isMedia b.query) else none

/-- The breakpoint that adopts the node at a position. -/
def Stylesheet.adopter? (s : Stylesheet) (bs : List Breakpoint) (i : Nat) : Option Breakpoint :=
  bs.find? fun b => s.adopted? bs b == some i

namespace Expansion

/-- Once the breakpoints with one query are gone, those with another are found as before. -/
theorem find?_filter_query (bs : List Breakpoint) (params query : String) :
    (bs.filter (·.query != params)).find? (·.query == query) =
      if params = query then none else bs.find? (·.query == query) := by
  induction bs with
  | nil => simp
  | cons c more ih =>
    rw [List.filter_cons, List.find?_cons]
    by_cases hq : c.query = query
    · subst hq
      by_cases hc : c.query = params
      · simp [hc]
      · simp [hc, Ne.symm hc]
    · have hq' : (c.query == query) = false := by simpa using hq
      by_cases hc : c.query = params
      · subst hc
        simpa [hq, hq'] using ih
      · simpa [hc, hq'] using ih

/-- A block is reused if it is the first with its parameters and they are some query; the
first breakpoint with that query reuses it. -/
theorem mem_reuse {bs : List Breakpoint} {l : List (Nat × String)} {i : Nat} {b : Breakpoint} :
    (i, b) ∈ reuse bs l ↔
      bs.find? (·.query == b.query) = some b ∧ l.find? (·.2 == b.query) = some (i, b.query) := by
  induction l generalizing bs with
  | nil => simp [reuse]
  | cons place more ih =>
    obtain ⟨k, params⟩ := place
    unfold reuse
    rw [List.find?_cons]
    split
    · rename_i hnone
      rw [ih]
      by_cases hq : params = b.query
      · subst hq
        simp [hnone]
      · have hq' : (params == b.query) = false := by simpa using hq
        simp [hq']
    · rename_i c hc
      have hcq : c.query = params := by simpa using List.find?_some hc
      rw [List.mem_cons, ih, find?_filter_query]
      by_cases hq : params = b.query
      · subst hq
        simp only [hc, if_true, beq_self_eq_true, Prod.mk.injEq, Option.some.injEq]
        constructor
        · rintro (⟨hi, hb⟩ | ⟨hf, -⟩)
          · exact ⟨hb.symm, hi.symm, trivial⟩
          · cases hf
        · rintro ⟨hb, hi, -⟩
          exact Or.inl ⟨hi.symm, hb.symm⟩
      · have hq' : (params == b.query) = false := by simpa using hq
        have hne : ¬ b = c := fun h => hq (by rw [h, hcq])
        simp [hq, hq', hne]

theorem map_fst_reuse_sublist (bs : List Breakpoint) (l : List (Nat × String)) :
    ((reuse bs l).map Prod.fst).Sublist (l.map Prod.fst) := by
  induction l generalizing bs with
  | nil => simp [reuse]
  | cons place more ih =>
    unfold reuse
    split
    · exact (ih bs).cons _
    · exact (ih _).cons_cons _

/-- No block is reused twice. -/
theorem nodup_reused (bs : List Breakpoint) (s : Stylesheet) :
    ((reused bs s).map Prod.fst).Nodup := by
  have hsub := map_fst_reuse_sublist bs
    ((s.atRules media).map fun place => (place.1, place.2.params))
  rw [List.map_map] at hsub
  have hlt : (s.positions media).Pairwise (· < ·) := s.positions_ascend media
  exact (hlt.imp Nat.ne_of_lt).sublist hsub

/-- The first media block with a query, found by its position. -/
theorem find?_media (s : Stylesheet) (query : String) :
    ((s.atRules media).map fun place => (place.1, place.2.params)).find? (·.2 == query) =
      (s.nodes.findIdx? (·.isMedia query)).map fun i => (i, query) := by
  unfold Stylesheet.atRules
  rw [List.findIdx?_eq_fst_find?_zipIdx]
  generalize 0 = k
  induction s.nodes generalizing k with
  | nil => rfl
  | cons n more ih =>
    have ih := ih (k + 1)
    rw [List.zipIdx_cons, List.filterMap_cons, List.find?_cons]
    cases hn : n.atRule? with
    | none =>
      have flag : n.isMedia query = false := by simp [Node.isMedia, hn]
      simpa [flag] using ih
    | some a =>
      have flag : n.isMedia query = (a.name == media && a.params == query) := by
        simp [Node.isMedia, hn]
      by_cases hname : a.name = media
      · by_cases hparams : a.params = query
        · simp [Option.filter_some, flag, hname, hparams]
        · have hparams' : (a.params == query) = false := by simpa using hparams
          simpa [Option.filter_some, flag, hname, hparams'] using ih
      · have hname' : (a.name == media) = false := by simpa using hname
        simpa [Option.filter_some, flag, hname'] using ih

theorem mem_reused {bs : List Breakpoint} {s : Stylesheet} {i : Nat} {b : Breakpoint} :
    (i, b) ∈ reused bs s ↔ s.adopted? bs b = some i := by
  unfold reused Stylesheet.adopted?
  rw [mem_reuse, find?_media]
  by_cases h : bs.find? (·.query == b.query) = some b
  · simp [h]
  · simp [h]

theorem isMedia_of_adopted? {bs : List Breakpoint} {s : Stylesheet} {b : Breakpoint} {i : Nat}
    (h : s.adopted? bs b = some i) :
    bs.find? (·.query == b.query) = some b ∧ ∃ n, s.nodes[i]? = some n ∧ n.isMedia b.query := by
  unfold Stylesheet.adopted? at h
  split at h
  · rename_i hfirst
    rw [List.findIdx?_eq_some_iff_getElem] at h
    obtain ⟨hi, hm, -⟩ := h
    exact ⟨hfirst, s.nodes[i], List.getElem?_eq_getElem hi, hm⟩
  · cases h

/-- Two breakpoints never adopt the same block. -/
theorem eq_of_adopted? {bs : List Breakpoint} {s : Stylesheet} {b c : Breakpoint} {i : Nat}
    (hb : s.adopted? bs b = some i) (hc : s.adopted? bs c = some i) : b = c := by
  obtain ⟨hbf, n, hn, hbm⟩ := isMedia_of_adopted? hb
  obtain ⟨hcf, m, hm, hcm⟩ := isMedia_of_adopted? hc
  rw [hn] at hm
  cases hm
  have hq : b.query = c.query := by
    unfold Node.isMedia at hbm hcm
    cases ha : n.atRule? with
    | none => simp [ha] at hbm
    | some a =>
      simp only [ha, Option.any_some, Bool.and_eq_true, beq_iff_eq] at hbm hcm
      rw [← hbm.2, hcm.2]
  rw [hq, hcf] at hbf
  exact (Option.some.inj hbf).symm

theorem adopter?_eq_some_iff {bs : List Breakpoint} {s : Stylesheet} {i : Nat}
    {b : Breakpoint} : s.adopter? bs i = some b ↔ s.adopted? bs b = some i := by
  unfold Stylesheet.adopter?
  constructor
  · intro h
    simpa using List.find?_some h
  · intro h
    have hmem : b ∈ bs := List.mem_of_find?_eq_some (isMedia_of_adopted? h).1
    cases hc : bs.find? (fun b => s.adopted? bs b == some i) with
    | none =>
      rw [List.find?_eq_none] at hc
      exact absurd (by simpa using h) (hc b hmem)
    | some c =>
      have hadopt : s.adopted? bs c = some i := by simpa using List.find?_some hc
      rw [eq_of_adopted? h hadopt]

theorem find?_reused (bs : List Breakpoint) (s : Stylesheet) (i : Nat) :
    ((reused bs s).find? (·.1 == i)).map Prod.snd = s.adopter? bs i := by
  cases h : (reused bs s).find? (·.1 == i) with
  | some place =>
    obtain ⟨k, b⟩ := place
    have hk : k = i := by simpa using List.find?_some h
    subst hk
    rw [adopter?_eq_some_iff.mpr (mem_reused.mp (List.mem_of_find?_eq_some h))]
    rfl
  | none =>
    rw [List.find?_eq_none] at h
    symm
    rw [Option.map_none, Option.eq_none_iff_forall_ne_some]
    intro b hb
    exact h (i, b) (mem_reused.mpr (adopter?_eq_some_iff.mp hb)) (by simp)

theorem created_eq (bs : List Breakpoint) (s : Stylesheet) :
    created bs (reused bs s) = bs.filter fun b => (s.adopted? bs b).isNone := by
  unfold created
  apply List.filter_congr
  intro b _
  rw [Bool.eq_iff_iff]
  simp only [Bool.not_eq_true', List.any_eq_false, Option.isNone_iff_eq_none]
  constructor
  · intro h
    rw [Option.eq_none_iff_forall_ne_some]
    intro i hi
    exact h (i, b) (mem_reused.mpr hi) (by simp)
  · rintro h ⟨i, c⟩ hc
    simp only [beq_iff_eq]
    intro hcb
    rw [mem_reused, hcb, h] at hc
    cases hc

/-! ## The stylesheet that is left -/

/-- A node that stays, at position `i`: an adopted block has got the variants of the
breakpoint that adopts it, all other nodes are as they were. -/
def staying (bs : List Breakpoint) (s : Stylesheet) (i : Nat) (n : Node) : Node :=
  match s.adopter? bs i with
  | some b => n.append ((s.variants b).map Rule.toNode)
  | none => n

/-- The new block of a breakpoint. -/
def newBlock (s : Stylesheet) (b : Breakpoint) : Node :=
  .block media b.query ((s.variants b).map Rule.toNode) .nowhere

/-- The stylesheet once the adopted blocks have got their rules. -/
def filled (bs : List Breakpoint) (s : Stylesheet) : Stylesheet :=
  (reused bs s).foldl (fun s' place => s'.appendRules place.1 (s.variants place.2)) s

theorem nodes_filled (bs : List Breakpoint) (s : Stylesheet) :
    (filled bs s).nodes = s.nodes.mapIdx (staying bs s) := by
  unfold filled
  rw [Stylesheet.nodes_foldl_appendRules s.variants (reused bs s) (nodup_reused bs s) s]
  congr 1
  funext i n
  rw [staying, ← find?_reused]
  cases (reused bs s).find? (·.1 == i) <;> rfl

theorem nodes_commit (bs : List Breakpoint) (s : Stylesheet) :
    (commit s (s.positions responsive) (reused bs s) (created bs (reused bs s)) s.variants).nodes =
      (s.nodes.mapIdx (staying bs s)).filter (fun n => !n.isNamed responsive) ++
        (bs.filter fun b => (s.adopted? bs b).isNone).map (newBlock s) := by
  have hcommit :
      commit s (s.positions responsive) (reused bs s) (created bs (reused bs s)) s.variants =
        (created bs (reused bs s)).foldl (fun s' b => s'.appendAtRule media b.query (s.variants b))
          ((filled bs s).remove (s.positions responsive)) := rfl
  -- Adoption renames nothing, so the responsive blocks stand where they stood.
  have hpos : (filled bs s).positions responsive = s.positions responsive :=
    Stylesheet.positions_foldl_appendRules s.variants (reused bs s) s responsive
  rw [hcommit, Stylesheet.nodes_foldl_appendAtRule, ← hpos, Stylesheet.nodes_remove_positions,
    nodes_filled, created_eq]
  rfl

/-- After a success on a stylesheet with responsive blocks these are its nodes. -/
theorem nodes_expand {bs : Breakpoints} {s : Stylesheet} {r : Report}
    (hne : s.named responsive ≠ []) (hok : (expand bs s).report = .ok r) :
    (expand bs s).sheet.nodes =
      (s.nodes.mapIdx (staying bs.toList s)).filter (fun n => !n.isNamed responsive) ++
        (bs.toList.filter fun b => (s.adopted? bs.toList b).isNone).map (newBlock s) := by
  cases hf : (survey (s.named responsive)).fault with
  | some e =>
    rw [expand_of_fault bs hf] at hok
    cases hok
  | none =>
    have hvariants : (survey (s.named responsive)).variants = s.variants := by
      funext b
      exact variants_survey hf b
    rw [expand_of_no_fault bs hne hf]
    dsimp only
    rw [hvariants, nodes_commit]

/-- A successful expansion leaves no responsive blocks. -/
theorem named_expand {bs : Breakpoints} {s : Stylesheet} {r : Report}
    (hok : (expand bs s).report = .ok r) : (expand bs s).sheet.named responsive = [] := by
  by_cases hnamed : s.named responsive = []
  · rw [expand_of_named_eq_nil bs hnamed]
    exact hnamed
  · rw [Stylesheet.named_eq_nil_iff, nodes_expand hnamed hok]
    intro n hn
    rcases List.mem_append.mp hn with hn | hn
    · simpa using (List.mem_filter.mp hn).2
    · obtain ⟨b, -, rfl⟩ := List.mem_map.mp hn
      rfl

theorem expanded_of_named_ne_nil {bs : Breakpoints} {s : Stylesheet} {r : Report}
    (hne : s.named responsive ≠ []) (hok : (expand bs s).report = .ok r) : r.expanded = true := by
  cases hf : (survey (s.named responsive)).fault with
  | some e =>
    rw [expand_of_fault bs hf] at hok
    cases hok
  | none =>
    rw [expand_of_no_fault bs hne hf] at hok
    cases hok
    rfl

/-! ## The law -/

/-- A successful expansion of responsive blocks leaves the other nodes in their order, with
the variants of a breakpoint at the end of the block that it adopts, and behind them a new
block with its variants for every breakpoint that adopts none. A breakpoint adopts the first
media block with its query if it is the first breakpoint with that query. -/
theorem an_expansion_moves_the_rules_to_the_blocks_of_the_breakpoints (bs : Breakpoints)
    (s : Stylesheet) (r : Report) (hblocks : ∃ n ∈ s.nodes, n.isNamed responsive = true)
    (hok : (expand bs s).report = .ok r) :
    (expand bs s).sheet.nodes =
      (s.nodes.mapIdx fun i n =>
          match s.adopter? bs.toList i with
          | some b => n.append ((s.variants b).map Rule.toNode)
          | none => n).filter (fun n => !n.isNamed responsive) ++
        (bs.toList.filter fun b => (s.adopted? bs.toList b).isNone).map (fun b =>
          .block media b.query ((s.variants b).map Rule.toNode) ⟨0, 0⟩) ∧
    ∀ i b, s.adopter? bs.toList i = some b ↔
      bs.toList.find? (·.query == b.query) = some b ∧
        s.nodes.findIdx? (·.isMedia b.query) = some i := by
  have hne : s.named responsive ≠ [] := by
    obtain ⟨n, hn, hname⟩ := hblocks
    unfold Node.isNamed at hname
    rw [Option.any_eq_true] at hname
    obtain ⟨a, ha, heq⟩ := hname
    exact List.ne_nil_of_mem (Stylesheet.mem_named.mpr ⟨⟨n, hn, ha⟩, by simpa using heq⟩)
  refine ⟨nodes_expand hne hok, fun i b => ?_⟩
  rw [adopter?_eq_some_iff]
  unfold Stylesheet.adopted?
  by_cases h : bs.toList.find? (·.query == b.query) = some b
  · simp [h]
  · simp [h]

/-- Two of three breakpoints share their query, and so do two media nodes, of which the first
is a statement. -/
theorem the_rules_move_with_shared_queries :
    let bs := Breakpoints.ofList [⟨"m", "(a)"⟩, ⟨"t", "(b)"⟩, ⟨"d", "(a)"⟩]
    let s : Stylesheet :=
      ⟨[.block "responsive" "(.x)" [.rule ".x .y" [] ⟨1, 20⟩, .rule ".y" [] ⟨2, 1⟩] ⟨1, 1⟩,
        .statement "media" "(a)" ⟨3, 1⟩, .block "media" "(a)" [] ⟨4, 1⟩,
        .block "responsive" "" [.rule ".q" [] ⟨5, 15⟩] ⟨5, 1⟩]⟩
    (∃ n ∈ s.nodes, n.isNamed responsive = true) ∧
    (expand bs s).report = .ok ⟨true, 2, 6, [⟨".y", ⟨2, 1⟩⟩]⟩ ∧
    (expand bs s).sheet.nodes =
      [.block "media" "(a)" [.rule ".x-m .y" [] ⟨1, 20⟩, .rule ".q-m" [] ⟨5, 15⟩] ⟨3, 1⟩,
        .block "media" "(a)" [] ⟨4, 1⟩,
        .block "media" "(b)" [.rule ".x-t .y" [] ⟨1, 20⟩, .rule ".q-t" [] ⟨5, 15⟩] ⟨0, 0⟩,
        .block "media" "(a)" [.rule ".x-d .y" [] ⟨1, 20⟩, .rule ".q-d" [] ⟨5, 15⟩] ⟨0, 0⟩] := by
  intro bs s
  have hblocks : ∃ n ∈ s.nodes, n.isNamed responsive = true := by decide +kernel
  have hok : (expand bs s).report = .ok ⟨true, 2, 6, [⟨".y", ⟨2, 1⟩⟩]⟩ := by rfl
  refine ⟨hblocks, hok, ?_⟩
  rw [(an_expansion_moves_the_rules_to_the_blocks_of_the_breakpoints bs s _ hblocks hok).1]
  decide +kernel

end Expansion

end ResponsiveCss
