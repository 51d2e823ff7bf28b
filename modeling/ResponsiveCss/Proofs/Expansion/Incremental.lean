-- Expansions one after the other. A successful expansion leaves nothing to
-- expand, and responsive blocks that come later put their rules where they
-- would have gone with the first ones. The last law wants distinct queries:
-- then the second run finds the block of each breakpoint by its query alone.
import Mathlib.Data.List.Nodup
import ResponsiveCss.Proofs.Expansion.Outcome

namespace ResponsiveCss

open Expansion

/-! ## Media blocks -/

namespace Node

theorem append_append (n : Node) (a b : List Node) : (n.append a).append b = n.append (a ++ b) := by
  cases n with
  | statement name params source => cases a <;> cases b <;> simp [append]
  | block name params nodes source => simp [append]
  | rule => rfl
  | declaration => rfl
  | comment => rfl

/-- What comes to the end of a block changes neither its name nor its parameters. -/
@[simp] theorem isMedia_append (query : String) (n : Node) (more : List Node) :
    (n.append more).isMedia query = n.isMedia query := by
  cases n with
  | statement name params source => cases more <;> rfl
  | block => rfl
  | rule => rfl
  | declaration => rfl
  | comment => rfl

/-- A media block has one query only. -/
theorem query_unique {n : Node} {p q : String} (hp : n.isMedia p = true)
    (hq : n.isMedia q = true) : p = q := by
  unfold isMedia at hp hq
  cases ha : n.atRule? with
  | none => simp [ha] at hp
  | some a =>
    simp only [ha, Option.any_some, Bool.and_eq_true, beq_iff_eq] at hp hq
    rw [← hp.2, hq.2]

theorem not_isNamed_of_isMedia {n : Node} {query : String} (h : n.isMedia query = true) :
    n.isNamed responsive = false := by
  unfold isMedia at h
  unfold isNamed
  cases ha : n.atRule? with
  | none => rfl
  | some a =>
    simp only [ha, Option.any_some, Bool.and_eq_true, beq_iff_eq] at h
    simp only [Option.any_some, h.1]
    decide

end Node

/-- The nodes that no expansion takes away. -/
def Stylesheet.others (s : Stylesheet) : List Node := s.nodes.filter fun n => !n.isNamed responsive

namespace Expansion

/-! ## Adoption without positions -/

/-- The node with the rules of the first breakpoint whose query it has. -/
def receive (rules : Breakpoint → List Node) (bs : List Breakpoint) (n : Node) : Node :=
  match bs.find? fun b => n.isMedia b.query with
  | some b => n.append (rules b)
  | none => n

/-- The nodes with the rules of each breakpoint at the end of the block that it adopts. Once a
block has a query, no later block is adopted for it. -/
def fill (rules : Breakpoint → List Node) : List Breakpoint → List Node → List Node
  | _, [] => []
  | bs, n :: more => receive rules bs n :: fill rules (bs.filter fun b => !n.isMedia b.query) more

/-- The breakpoints that a media block suits are the ones with its query. -/
theorem find?_isMedia (bs : List Breakpoint) {n : Node} {query : String}
    (h : n.isMedia query = true) :
    bs.find? (fun b => n.isMedia b.query) = bs.find? (·.query == query) := by
  congr 1
  funext c
  rw [Bool.eq_iff_iff, beq_iff_eq]
  exact ⟨fun hc => Node.query_unique hc h, fun hc => hc ▸ h⟩

theorem adopter?_zero (bs : List Breakpoint) (n : Node) (more : List Node) :
    (⟨n :: more⟩ : Stylesheet).adopter? bs 0 = bs.find? fun b => n.isMedia b.query := by
  apply Option.ext
  intro b
  rw [adopter?_eq_some_iff, Stylesheet.adopted?, List.findIdx?_cons]
  by_cases hn : n.isMedia b.query = true
  · rw [if_pos hn, find?_isMedia bs hn]
    by_cases hfirst : bs.find? (·.query == b.query) = some b
    · simp [hfirst]
    · simp [hfirst]
  · have hnone : ¬ bs.find? (fun b => n.isMedia b.query) = some b := by
      intro h
      have := List.find?_some h
      exact hn (by simpa using this)
    simp [hn, hnone]

/-- Once the breakpoints that a node suits are gone, the others are found as before. -/
theorem find?_filter_isMedia (bs : List Breakpoint) (n : Node) (query : String) :
    (bs.filter fun b => !n.isMedia b.query).find? (·.query == query) =
      if n.isMedia query then none else bs.find? (·.query == query) := by
  rw [List.find?_filter]
  split
  · rename_i hn
    rw [List.find?_eq_none]
    rintro b -
    simp only [decide_eq_true_eq, beq_iff_eq, not_and]
    rintro hb rfl
    simp [hn] at hb
  · rename_i hn
    congr 1
    funext b
    by_cases hb : b.query = query
    · simp [hb, hn]
    · simp [hb]

/-- Behind the first node the breakpoints that it suits adopt nothing any more. -/
theorem adopter?_succ (bs : List Breakpoint) (n : Node) (more : List Node) (i : Nat) :
    (⟨n :: more⟩ : Stylesheet).adopter? bs (i + 1) =
      (⟨more⟩ : Stylesheet).adopter? (bs.filter fun b => !n.isMedia b.query) i := by
  apply Option.ext
  intro b
  rw [adopter?_eq_some_iff, adopter?_eq_some_iff, Stylesheet.adopted?, Stylesheet.adopted?,
    List.findIdx?_cons, find?_filter_isMedia]
  by_cases hn : n.isMedia b.query = true
  · simp [hn]
  · simp [hn]

theorem mapIdx_receive (rules : Breakpoint → List Node) (bs : List Breakpoint)
    (nodes : List Node) :
    (nodes.mapIdx fun i n =>
        match (⟨nodes⟩ : Stylesheet).adopter? bs i with
        | some b => n.append (rules b)
        | none => n) = fill rules bs nodes := by
  induction nodes generalizing bs with
  | nil => rfl
  | cons n more ih =>
    rw [List.mapIdx_cons, fill, ← ih]
    simp only [adopter?_zero, adopter?_succ, receive]

/-- The responsive blocks adopt nothing, so they may go first. -/
theorem filter_fill (rules : Breakpoint → List Node) (bs : List Breakpoint) (nodes : List Node) :
    (fill rules bs nodes).filter (fun n => !n.isNamed responsive) =
      fill rules bs (nodes.filter fun n => !n.isNamed responsive) := by
  induction nodes generalizing bs with
  | nil => rfl
  | cons n more ih =>
    have hname : (receive rules bs n).isNamed responsive = n.isNamed responsive := by
      unfold receive
      split <;> simp
    rw [fill, List.filter_cons, List.filter_cons, hname]
    by_cases hn : n.isNamed responsive = true
    · have hmedia : ∀ query, n.isMedia query = false := by
        intro query
        by_contra h
        have hno := Node.not_isNamed_of_isMedia (Bool.of_not_eq_false h)
        rw [hn] at hno
        cases hno
      simp [hn, hmedia, ih]
    · simp [hn, fill, ih]

theorem any_isMedia_fill (rules : Breakpoint → List Node) (bs : List Breakpoint)
    (nodes : List Node) (query : String) :
    (fill rules bs nodes).any (·.isMedia query) = nodes.any (·.isMedia query) := by
  induction nodes generalizing bs with
  | nil => rfl
  | cons n more ih =>
    have hn : (receive rules bs n).isMedia query = n.isMedia query := by
      unfold receive
      split <;> simp
    rw [fill, List.any_cons, List.any_cons, hn, ih]

/-! ## Distinct queries -/

/-- The breakpoints that find no block with their query. -/
def waiting (bs : List Breakpoint) (nodes : List Node) : List Breakpoint :=
  bs.filter fun b => !nodes.any (·.isMedia b.query)

/-- A new block with the rules of a breakpoint. -/
def blockOf (rules : Breakpoint → List Node) (b : Breakpoint) : Node :=
  .block media b.query (rules b) .nowhere

/-- The nodes with the rules of each breakpoint: in the first block with its query, or in a new
one behind all others. -/
def settle (rules : Breakpoint → List Node) (bs : List Breakpoint) (nodes : List Node) :
    List Node :=
  fill rules bs nodes ++ (waiting bs nodes).map (blockOf rules)

@[simp] theorem isMedia_blockOf (rules : Breakpoint → List Node) (b : Breakpoint)
    (query : String) : (blockOf rules b).isMedia query = (b.query == query) := by
  simp [blockOf, Node.isMedia, Node.atRule?]

theorem append_blockOf (early late : Breakpoint → List Node) (b : Breakpoint) :
    (blockOf early b).append (late b) = blockOf (fun b => early b ++ late b) b := rfl

theorem waiting_cons (bs : List Breakpoint) (n : Node) (more : List Node) :
    waiting bs (n :: more) = waiting (bs.filter fun b => !n.isMedia b.query) more := by
  unfold waiting
  rw [List.filter_filter]
  apply List.filter_congr
  intro b _
  rw [List.any_cons, Bool.not_or, Bool.and_comm]

/-- Blocks that were made for breakpoints are found again, each by its own. -/
theorem fill_blocks (early late : Breakpoint → List Node) {bs : List Breakpoint}
    (h : (bs.map (·.query)).Nodup) :
    fill late bs (bs.map (blockOf early)) = bs.map (blockOf fun b => early b ++ late b) := by
  induction bs with
  | nil => rfl
  | cons b more ih =>
    rw [List.map_cons, List.nodup_cons] at h
    have hfirst : receive late (b :: more) (blockOf early b) =
        blockOf (fun b => early b ++ late b) b := by
      simp [receive, append_blockOf]
    have hrest : (b :: more).filter (fun c => !(blockOf early b).isMedia c.query) = more := by
      rw [List.filter_cons_of_neg (by simp), List.filter_eq_self]
      intro c hc
      have hne : ¬ b.query = c.query := fun he => h.1 (he ▸ List.mem_map_of_mem hc)
      simpa using hne
    rw [List.map_cons, fill, hfirst, hrest, ih h.2, List.map_cons]

/-- What is filled again is filled at the same places. -/
theorem fill_settle (early late : Breakpoint → List Node) {bs : List Breakpoint}
    (h : (bs.map (·.query)).Nodup) (nodes : List Node) :
    fill late bs (settle early bs nodes) = settle (fun b => early b ++ late b) bs nodes := by
  unfold settle
  induction nodes generalizing bs with
  | nil =>
    have hall : waiting bs [] = bs := by simp [waiting]
    rw [hall]
    exact fill_blocks early late h
  | cons n more ih =>
    have hrest : ((bs.filter fun b => !n.isMedia b.query).map (·.query)).Nodup :=
      h.sublist (List.filter_sublist.map _)
    have hmedia : ∀ query, (receive early bs n).isMedia query = n.isMedia query := by
      intro query
      unfold receive
      split <;> simp
    have hfirst : receive late bs (receive early bs n) =
        receive (fun b => early b ++ late b) bs n := by
      unfold receive
      cases hb : bs.find? fun b => n.isMedia b.query with
      | none => simp [hb]
      | some b => simp [hb, Node.append_append]
    rw [waiting_cons]
    simp only [fill, List.cons_append]
    rw [hfirst]
    simp only [hmedia]
    rw [ih hrest]

theorem waiting_settle (rules : Breakpoint → List Node) (bs : List Breakpoint)
    (nodes : List Node) : waiting bs (settle rules bs nodes) = [] := by
  unfold waiting
  rw [List.filter_eq_nil_iff]
  intro b hb
  simp only [Bool.not_eq_true, Bool.not_eq_false']
  rw [settle, List.any_append, any_isMedia_fill, Bool.or_eq_true]
  by_cases hany : nodes.any (·.isMedia b.query) = true
  · exact Or.inl hany
  · have hnew : b ∈ waiting bs nodes := List.mem_filter.mpr ⟨hb, by simpa using hany⟩
    refine Or.inr (List.any_eq_true.mpr ⟨_, List.mem_map_of_mem hnew, ?_⟩)
    simp

/-- Settling twice is settling once with the rules of both times. -/
theorem settle_settle (early late : Breakpoint → List Node) {bs : List Breakpoint}
    (h : (bs.map (·.query)).Nodup) (nodes : List Node) :
    settle late bs (settle early bs nodes) = settle (fun b => early b ++ late b) bs nodes := by
  have hfill := fill_settle early late h nodes
  rw [settle, waiting_settle, List.map_nil, List.append_nil, hfill]

/-- With distinct queries every breakpoint is the first with its own. -/
theorem find?_query_of_nodup {bs : List Breakpoint} (h : (bs.map (·.query)).Nodup)
    {b : Breakpoint} (hb : b ∈ bs) : bs.find? (·.query == b.query) = some b := by
  cases hc : bs.find? (·.query == b.query) with
  | none =>
    rw [List.find?_eq_none] at hc
    exact absurd (by simp) (hc b hb)
  | some c =>
    have hq : c.query = b.query := by simpa using List.find?_some hc
    rw [List.inj_on_of_nodup_map h (List.mem_of_find?_eq_some hc) hb hq]

theorem waiting_eq {bs : List Breakpoint} (h : (bs.map (·.query)).Nodup) (s : Stylesheet) :
    (bs.filter fun b => (s.adopted? bs b).isNone) = waiting bs s.nodes := by
  apply List.filter_congr
  intro b hb
  rw [Stylesheet.adopted?, if_pos (find?_query_of_nodup h hb), ← List.findIdx?_isSome]
  cases s.nodes.findIdx? (·.isMedia b.query) <;> rfl

theorem waiting_others (bs : List Breakpoint) (s : Stylesheet) :
    waiting bs s.others = waiting bs s.nodes := by
  apply List.filter_congr
  intro b _
  rw [Stylesheet.others, List.any_filter]
  congr 2
  funext n
  cases hn : n.isMedia b.query with
  | false => simp
  | true => simp [Node.not_isNamed_of_isMedia hn]

/-- The rules of a breakpoint as nodes. -/
def ruleNodes (s : Stylesheet) (b : Breakpoint) : List Node := (s.variants b).map Rule.toNode

/-- After a success on responsive blocks the nodes that stay are filled with the rules. -/
theorem nodes_expand_eq_fill {bs : Breakpoints} {s : Stylesheet} {r : Report}
    (hne : s.named responsive ≠ []) (hok : (expand bs s).report = .ok r) :
    (expand bs s).sheet.nodes = fill (ruleNodes s) bs.toList s.others ++
      (bs.toList.filter fun b => (s.adopted? bs.toList b).isNone).map (blockOf (ruleNodes s)) := by
  have hfill : s.nodes.mapIdx (staying bs.toList s) = fill (ruleNodes s) bs.toList s.nodes :=
    mapIdx_receive (ruleNodes s) bs.toList s.nodes
  rw [nodes_expand hne hok, hfill, filter_fill]
  rfl

/-- With distinct queries an expansion settles the rules among the nodes that stay. -/
theorem nodes_expand_of_nodup {bs : Breakpoints} {s : Stylesheet} {r : Report}
    (h : (bs.toList.map (·.query)).Nodup) (hne : s.named responsive ≠ [])
    (hok : (expand bs s).report = .ok r) :
    (expand bs s).sheet.nodes = settle (ruleNodes s) bs.toList s.others := by
  rw [nodes_expand_eq_fill hne hok, waiting_eq h, ← waiting_others]
  rfl

/-! ## Reports -/

theorem Survey.append_assoc (a b c : Survey) : (a.append b).append c = a.append (b.append c) := by
  obtain ⟨findings, fault⟩ := a
  cases fault with
  | some e => rfl
  | none =>
    obtain ⟨findings', fault'⟩ := b
    cases fault' with
    | some e => rfl
    | none => simp [Survey.append]

theorem survey_append (a b : List AtRule) : survey (a ++ b) = (survey a).append (survey b) := by
  induction a with
  | nil => simp [survey, Survey.append, Survey.empty]
  | cons block more ih => rw [List.cons_append, survey, survey, ih, Survey.append_assoc]

theorem warnings_survey_append {a : List AtRule} (h : (survey a).fault = none) (b : List AtRule) :
    (survey (a ++ b)).warnings = (survey a).warnings ++ (survey b).warnings := by
  rw [survey_append, Survey.append, h]
  simp [Survey.warnings]

theorem foldr_length_append (bs : List Breakpoint) (f g : Breakpoint → List Rule) :
    bs.foldr (fun b n => (f b ++ g b).length + n) 0 =
      bs.foldr (fun b n => (f b).length + n) 0 + bs.foldr (fun b n => (g b).length + n) 0 := by
  induction bs with
  | nil => rfl
  | cons b bs ih =>
    rw [List.foldr_cons, List.foldr_cons, List.foldr_cons, ih, List.length_append]
    omega

/-- A report counts the blocks that went away and the rules that were written, and hands on the
warnings of the survey. -/
structure Report.For (r : Report) (bs : Breakpoints) (s : Stylesheet) : Prop where
  removed : r.removedBlocks = (s.named responsive).length
  variants : r.variants = bs.toList.foldr (fun b n => (s.variants b).length + n) 0
  warnings : r.warnings = (survey (s.named responsive)).warnings

theorem report_for {bs : Breakpoints} {s : Stylesheet} {r : Report}
    (hok : (expand bs s).report = .ok r) : Report.For r bs s := by
  cases hf : (survey (s.named responsive)).fault with
  | some e =>
    rw [expand_of_fault bs hf] at hok
    cases hok
  | none =>
    by_cases hnone : s.named responsive = []
    · rw [expand_of_named_eq_nil bs hnone] at hok
      cases hok
      have hvariants : ∀ b, s.variants b = [] := fun b => by simp [Stylesheet.variants, hnone]
      refine ⟨by simp [Report.idle, hnone], ?_, by simp [Report.idle, hnone]; rfl⟩
      simp only [hvariants, List.length_nil, Nat.zero_add]
      exact (List.foldr_fixed _).symm
    · rw [expand_of_no_fault bs hnone hf] at hok
      cases hok
      refine ⟨rfl, ?_, rfl⟩
      have hvariants : (survey (s.named responsive)).variants = s.variants :=
        funext (variants_survey hf)
      dsimp only
      rw [hvariants]

/-- An expansion succeeds if there are no violations. -/
theorem report_eq_ok_iff (bs : Breakpoints) (s : Stylesheet) :
    (∃ r, (expand bs s).report = .ok r) ↔ s.violations = [] := by
  cases h : (expand bs s).report with
  | ok r =>
    have hnone : s.violations.head? = none := by
      rw [Option.eq_none_iff_forall_ne_some]
      intro e he
      rw [← report_eq_error_iff bs s e, h] at he
      cases he
    simpa using hnone
  | error e =>
    have hsome := (report_eq_error_iff bs s e).mp h
    have hne : s.violations ≠ [] := by
      intro hnil
      rw [hnil] at hsome
      cases hsome
    simp [hne]

end Expansion

/-! ## More responsive blocks -/

/-- The stylesheet with at-rules behind its nodes. -/
def Stylesheet.followedBy (s : Stylesheet) (u : List AtRule) : Stylesheet :=
  ⟨s.nodes ++ u.map AtRule.toNode⟩

namespace Stylesheet

@[simp] theorem followedBy_nil (s : Stylesheet) : s.followedBy [] = s := by
  simp [followedBy]

theorem named_followedBy (s : Stylesheet) {u : List AtRule} (hu : ∀ a ∈ u, a.name = responsive) :
    (s.followedBy u).named responsive = s.named responsive ++ u := by
  have hat : (u.map AtRule.toNode).filterMap Node.atRule? = u := by
    rw [List.filterMap_map]
    have hsome : Node.atRule? ∘ AtRule.toNode = some := funext AtRule.atRule?_toNode
    rw [hsome, List.filterMap_some]
  have hall : u.filter (·.name == responsive) = u := by
    rw [List.filter_eq_self]
    intro a ha
    simp [hu a ha]
  unfold named followedBy
  rw [List.filterMap_append, List.filter_append, hat, hall]

theorem others_followedBy (s : Stylesheet) {u : List AtRule} (hu : ∀ a ∈ u, a.name = responsive) :
    (s.followedBy u).others = s.others := by
  have hnone : (u.map AtRule.toNode).filter (fun n => !n.isNamed responsive) = [] := by
    rw [List.filter_eq_nil_iff]
    intro n hn
    obtain ⟨a, ha, rfl⟩ := List.mem_map.mp hn
    simp [Node.isNamed, hu a ha]
  unfold others followedBy
  rw [List.filter_append, hnone, List.append_nil]

theorem variants_followedBy (s : Stylesheet) {u : List AtRule}
    (hu : ∀ a ∈ u, a.name = responsive) (b : Breakpoint) :
    (s.followedBy u).variants b = s.variants b ++ u.flatMap fun a => a.variants b := by
  rw [variants, named_followedBy s hu, List.flatMap_append]
  rfl

theorem violations_followedBy (s : Stylesheet) {u : List AtRule}
    (hu : ∀ a ∈ u, a.name = responsive) :
    (s.followedBy u).violations = s.violations ++ u.flatMap AtRule.violations := by
  rw [violations, named_followedBy s hu, List.flatMap_append]
  rfl

/-- Without responsive blocks all nodes stay. -/
theorem others_of_named_eq_nil {s : Stylesheet} (h : s.named responsive = []) :
    s.others = s.nodes := by
  rw [named_eq_nil_iff] at h
  rw [others, List.filter_eq_self]
  intro n hn
  simp [h n hn]

end Stylesheet

namespace Expansion

/-! ## Two runs -/

section

variable {bs : Breakpoints} {t : Stylesheet} {u : List AtRule} {r first second : Report}

/-- If all blocks together are in order, the old ones are, and so are the new ones. -/
theorem both_runs_succeed (hu : ∀ a ∈ u, a.name = responsive)
    (hok : (expand bs (t.followedBy u)).report = .ok r) :
    ∃ first second, (expand bs t).report = .ok first ∧
      (expand bs ((expand bs t).sheet.followedBy u)).report = .ok second := by
  have hclean := (report_eq_ok_iff bs _).mp ⟨r, hok⟩
  rw [Stylesheet.violations_followedBy t hu, List.append_eq_nil_iff] at hclean
  obtain ⟨first, hfirst⟩ := (report_eq_ok_iff bs t).mpr hclean.1
  have hclean' : ((expand bs t).sheet.followedBy u).violations = [] := by
    rw [Stylesheet.violations_followedBy _ hu, Stylesheet.violations, named_expand hfirst,
      hclean.2]
    rfl
  obtain ⟨second, hsecond⟩ := (report_eq_ok_iff bs _).mpr hclean'
  exact ⟨first, second, hfirst, hsecond⟩

/-- A breakpoint gets the rules of the old blocks and then those of the new ones. -/
theorem variants_of_both_runs (hu : ∀ a ∈ u, a.name = responsive)
    (hfirst : (expand bs t).report = .ok first) (b : Breakpoint) :
    (t.followedBy u).variants b =
      t.variants b ++ ((expand bs t).sheet.followedBy u).variants b := by
  have hnil : (expand bs t).sheet.variants b = [] := by
    rw [Stylesheet.variants, named_expand hfirst]
    rfl
  rw [Stylesheet.variants_followedBy t hu, Stylesheet.variants_followedBy _ hu, hnil,
    List.nil_append]

theorem sheet_of_both_runs (hqueries : (bs.toList.map (·.query)).Nodup)
    (hu : ∀ a ∈ u, a.name = responsive) (hfirst : (expand bs t).report = .ok first)
    (hsecond : (expand bs ((expand bs t).sheet.followedBy u)).report = .ok second)
    (hok : (expand bs (t.followedBy u)).report = .ok r) :
    (expand bs ((expand bs t).sheet.followedBy u)).sheet = (expand bs (t.followedBy u)).sheet := by
  have hnone := named_expand hfirst
  by_cases hnew : u = []
  · -- The second run has nothing to do.
    subst hnew
    rw [Stylesheet.followedBy_nil, Stylesheet.followedBy_nil, expand_of_named_eq_nil bs hnone]
  by_cases hold : t.named responsive = []
  · -- The first run has done nothing.
    rw [expand_of_named_eq_nil bs hold]
  have hne : ((expand bs t).sheet.followedBy u).named responsive ≠ [] := by
    rw [Stylesheet.named_followedBy _ hu, hnone]
    exact hnew
  have hne' : (t.followedBy u).named responsive ≠ [] := by
    rw [Stylesheet.named_followedBy t hu]
    simp [hnew]
  have hrules : ruleNodes (t.followedBy u) =
      fun b => ruleNodes t b ++ ruleNodes ((expand bs t).sheet.followedBy u) b := by
    funext b
    rw [ruleNodes, ruleNodes, ruleNodes, variants_of_both_runs hu hfirst, List.map_append]
  have hnodes : (expand bs ((expand bs t).sheet.followedBy u)).sheet.nodes =
      (expand bs (t.followedBy u)).sheet.nodes := by
    rw [nodes_expand_of_nodup hqueries hne hsecond, nodes_expand_of_nodup hqueries hne' hok,
      Stylesheet.others_followedBy _ hu, Stylesheet.others_followedBy t hu,
      Stylesheet.others_of_named_eq_nil hnone, nodes_expand_of_nodup hqueries hold hfirst,
      settle_settle _ _ hqueries, hrules]
  exact congrArg Stylesheet.mk hnodes

end

/-! ## The laws -/

/-- A successful expansion leaves no responsive block, and the next one, under whatever
breakpoints, has nothing to do or to report. -/
theorem an_expansion_leaves_nothing_to_expand (bs cs : Breakpoints) (s : Stylesheet) (r : Report)
    (hok : (expand bs s).report = .ok r) :
    (∀ n ∈ (expand bs s).sheet.nodes, ∀ a, n.atRule? = some a → a.name ≠ responsive) ∧
      (expand cs (expand bs s).sheet).report = .ok ⟨false, 0, 0, []⟩ ∧
      (expand cs (expand bs s).sheet).sheet = (expand bs s).sheet := by
  have hnone := named_expand hok
  refine ⟨?_, ?_, ?_⟩
  · intro n hn a ha hname
    have hmem := Stylesheet.mem_named.mpr ⟨⟨n, hn, ha⟩, hname⟩
    rw [hnone] at hmem
    cases hmem
  · rw [expand_of_named_eq_nil cs hnone]
    rfl
  · rw [expand_of_named_eq_nil cs hnone]

/-- The second run renames differently, and its breakpoint has the query of a new block. -/
theorem other_breakpoints_find_nothing_either :
    let bs := Breakpoints.ofList [⟨"m", "(a)"⟩, ⟨"responsive", "responsive"⟩]
    let cs := Breakpoints.ofList [⟨"d", "responsive"⟩]
    let s : Stylesheet :=
      ⟨[.statement "media" "(a)" ⟨1, 1⟩,
        .block "responsive" "" [.rule ".x" [] ⟨2, 15⟩, .block "responsive" "" [] ⟨2, 20⟩] ⟨2, 1⟩,
        .statement "responsive" "" ⟨3, 1⟩]⟩
    let t : Stylesheet :=
      ⟨[.block "media" "(a)" [.rule ".x-m" [] ⟨2, 15⟩] ⟨1, 1⟩,
        .block "media" "responsive" [.rule ".x-responsive" [] ⟨2, 15⟩] ⟨0, 0⟩]⟩
    ((expand bs s).report = .ok ⟨true, 2, 2, []⟩ ∧ (expand bs s).sheet = t) ∧
      (expand cs t).report = .ok ⟨false, 0, 0, []⟩ ∧ (expand cs t).sheet = t := by
  intro bs cs s t
  have hok : (expand bs s).report = .ok ⟨true, 2, 2, []⟩ := by rfl
  have hsheet : (expand bs s).sheet = t := by decide +kernel
  have hagain := (an_expansion_leaves_nothing_to_expand bs cs s _ hok).2
  rw [hsheet] at hagain
  exact ⟨⟨hok, hsheet⟩, hagain⟩

/-- Expanding, then adding responsive blocks and expanding again comes to the same as expanding
all of them at once, if no two breakpoints have the same query. -/
theorem an_expansion_can_be_done_in_two_runs (bs : Breakpoints) (t : Stylesheet)
    (u : List AtRule) (r : Report) (hqueries : (bs.toList.map (·.query)).Nodup)
    (hu : ∀ a ∈ u, a.name = responsive) (hok : (expand bs (t.followedBy u)).report = .ok r) :
    ∃ first second,
      (expand bs t).report = .ok first ∧
      (expand bs ((expand bs t).sheet.followedBy u)).report = .ok second ∧
      (expand bs ((expand bs t).sheet.followedBy u)).sheet =
        (expand bs (t.followedBy u)).sheet ∧
      first.removedBlocks + second.removedBlocks = r.removedBlocks ∧
      first.variants + second.variants = r.variants ∧
      first.warnings ++ second.warnings = r.warnings := by
  obtain ⟨first, second, hfirst, hsecond⟩ := both_runs_succeed hu hok
  have hnone := named_expand hfirst
  have hsheet := sheet_of_both_runs hqueries hu hfirst hsecond hok
  have hr := report_for hok
  have hr₁ := report_for hfirst
  have hr₂ := report_for hsecond
  refine ⟨first, second, hfirst, hsecond, hsheet, ?_, ?_, ?_⟩
  · rw [hr.removed, hr₁.removed, hr₂.removed, Stylesheet.named_followedBy t hu,
      Stylesheet.named_followedBy _ hu, hnone, List.nil_append, List.length_append]
  · rw [hr.variants, hr₁.variants, hr₂.variants, ← foldr_length_append]
    congr 1
    funext b n
    rw [variants_of_both_runs hu hfirst]
  · have hfault : (survey (t.named responsive)).fault = none := by
      have hclean := (report_eq_ok_iff bs t).mp ⟨first, hfirst⟩
      rw [fault_survey]
      exact congrArg List.head? hclean
    rw [hr.warnings, hr₁.warnings, hr₂.warnings, Stylesheet.named_followedBy t hu,
      Stylesheet.named_followedBy _ hu, hnone, List.nil_append, warnings_survey_append hfault]

/-- One breakpoint adopts a statement, one a block, one gets a new block, and one rule of each
run is left out. -/
theorem two_runs_fill_the_same_blocks :
    let bs := Breakpoints.ofList [⟨"m", "(a)"⟩, ⟨"t", "(b)"⟩, ⟨"d", "(c)"⟩]
    let t : Stylesheet :=
      ⟨[.block "responsive" "(.x)" [.rule ".x" [] ⟨1, 20⟩, .rule ".y" [] ⟨1, 25⟩] ⟨1, 1⟩,
        .statement "media" "(b)" ⟨2, 1⟩, .rule ".z" [] ⟨3, 1⟩,
        .block "media" "(a)" [.comment "old" ⟨4, 15⟩] ⟨4, 1⟩, .block "media" "(a)" [] ⟨5, 1⟩]⟩
    let u : List AtRule :=
      [⟨"responsive", "", some [.rule ".q" [] ⟨6, 15⟩], ⟨6, 1⟩⟩, ⟨"responsive", "", none, ⟨7, 1⟩⟩,
        ⟨"responsive", ".w", some [.rule ".v" [] ⟨8, 20⟩], ⟨8, 1⟩⟩]
    let s : Stylesheet :=
      ⟨[.block "media" "(b)" [.rule ".x-t" [] ⟨1, 20⟩, .rule ".q-t" [] ⟨6, 15⟩] ⟨2, 1⟩,
        .rule ".z" [] ⟨3, 1⟩,
        .block "media" "(a)" [.comment "old" ⟨4, 15⟩, .rule ".x-m" [] ⟨1, 20⟩,
          .rule ".q-m" [] ⟨6, 15⟩] ⟨4, 1⟩,
        .block "media" "(a)" [] ⟨5, 1⟩,
        .block "media" "(c)" [.rule ".x-d" [] ⟨1, 20⟩, .rule ".q-d" [] ⟨6, 15⟩] ⟨0, 0⟩]⟩
    ((bs.toList.map (·.query)).Nodup ∧ (∀ a ∈ u, a.name = responsive) ∧
      (expand bs (t.followedBy u)).report =
        .ok ⟨true, 4, 6, [⟨".y", ⟨1, 25⟩⟩, ⟨".v", ⟨8, 20⟩⟩]⟩) ∧
      (expand bs ((expand bs t).sheet.followedBy u)).sheet = s := by
  intro bs t u s
  have hqueries : (bs.toList.map (·.query)).Nodup := by decide +kernel
  have hu : ∀ a ∈ u, a.name = responsive := by decide +kernel
  have hok : (expand bs (t.followedBy u)).report =
      .ok ⟨true, 4, 6, [⟨".y", ⟨1, 25⟩⟩, ⟨".v", ⟨8, 20⟩⟩]⟩ := by rfl
  obtain ⟨_, _, _, _, hsheet, _⟩ :=
    an_expansion_can_be_done_in_two_runs bs t u _ hqueries hu hok
  refine ⟨⟨hqueries, hu, hok⟩, ?_⟩
  rw [hsheet]
  decide +kernel

end Expansion

end ResponsiveCss
