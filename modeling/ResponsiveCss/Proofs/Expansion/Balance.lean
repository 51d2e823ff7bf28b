-- The report of an expansion adds up. Each rule in a responsive block is
-- either written once for every breakpoint or left out with one warning, and
-- the media blocks have just the written rules more than before. The step is
-- one adopted block that gets rules; the run over all of them sums up.
import Mathlib.Algebra.GroupWithZero.Nat
import Mathlib.Data.List.Forall2
import ResponsiveCss.Proofs.Expansion.Incremental

namespace ResponsiveCss

open Text Expansion

/-! ## Rules that are left out -/

/-- The rules of a block that contain none of the fragments that it lists. -/
def AtRule.leftOut (a : AtRule) : List Rule :=
  a.rules.filter fun r => !takesPart (fragments? (trim a.params.toList)) r

/-- The warnings about a block, one for each rule that is left out. -/
def AtRule.warnings (a : AtRule) : List Warning :=
  a.leftOut.map fun r => ⟨r.selector, r.source⟩

namespace Expansion

theorem filterMap_warning?_findings (a : AtRule) :
    a.findings.filterMap Finding.warning? = a.warnings := by
  have hnested : (if a.nestedCount = 0 then []
      else [Finding.nested a.source a.nestedCount]).filterMap Finding.warning? = [] := by
    split <;> rfl
  unfold AtRule.findings AtRule.warnings AtRule.leftOut
  rw [List.filterMap_append, hnested, List.nil_append]
  induction a.rules with
  | nil => rfl
  | cons r more ih =>
    rw [List.map_cons, List.filterMap_cons, List.filter_cons, ih, findingOf]
    cases takesPart (fragments? (trim a.params.toList)) r <;> rfl

theorem warnings_survey {blocks : List AtRule} (h : (survey blocks).fault = none) :
    (survey blocks).warnings = blocks.flatMap AtRule.warnings := by
  rw [Survey.warnings, findings_survey h, List.filterMap_flatMap]
  simp only [filterMap_warning?_findings]

theorem fault_of_report_eq_ok {bs : Breakpoints} {s : Stylesheet} {r : Report}
    (hok : (expand bs s).report = .ok r) : (survey (s.named responsive)).fault = none := by
  have hclean := (report_eq_ok_iff bs s).mp ⟨r, hok⟩
  rw [fault_survey]
  exact congrArg List.head? hclean

end Expansion

/-! ## Counting rules -/

/-- The number of style rules directly inside a node, if it is an at-rule with this name. -/
def Node.rulesIn (name : String) (n : Node) : Nat :=
  ((n.atRule?.filter (·.name == name)).map (·.rules.length)).getD 0

/-- The number of style rules directly inside the top-level at-rules with this name. -/
def Stylesheet.ruleCount (s : Stylesheet) (name : String) : Nat :=
  ((s.named name).map (·.rules.length)).sum

namespace Node

theorem rulesIn_eq_zero {name other : String} (hne : name ≠ other) {n : Node}
    (h : n.isNamed other = true) : n.rulesIn name = 0 := by
  unfold isNamed at h
  unfold rulesIn
  cases ha : n.atRule? with
  | none => rfl
  | some a =>
    rw [ha, Option.any_some, beq_iff_eq] at h
    have hno : (a.name == name) = false := by simpa [h] using hne.symm
    simp [Option.filter_some, hno]

theorem isNamed_of_isMedia {n : Node} {query : String} (h : n.isMedia query = true) :
    n.isNamed media = true := by
  unfold isMedia at h
  unfold isNamed
  cases ha : n.atRule? with
  | none => simp [ha] at h
  | some a =>
    simp only [ha, Option.any_some, Bool.and_eq_true] at h
    exact h.1

/-- The step: rules that come to a block are so many more in it. -/
theorem rulesIn_append {name : String} {n : Node} (h : n.isNamed name = true)
    (rules : List Rule) :
    (n.append (rules.map Rule.toNode)).rulesIn name = n.rulesIn name + rules.length := by
  cases n with
  | statement m params source =>
    have hm : m = name := by simpa [isNamed, atRule?] using h
    cases rules with
    | nil => rfl
    | cons r more => simp [append, rulesIn, atRule?, AtRule.rules, Option.filter_some, hm]
  | block m params nodes source =>
    have hm : m = name := by simpa [isNamed, atRule?] using h
    simp [append, rulesIn, atRule?, AtRule.rules, Option.filter_some, hm]
  | rule => cases h
  | declaration => cases h
  | comment => cases h

end Node

namespace Stylesheet

theorem ruleCount_eq_sum (s : Stylesheet) (name : String) :
    s.ruleCount name = (s.nodes.map (Node.rulesIn name)).sum := by
  unfold ruleCount named
  induction s.nodes with
  | nil => rfl
  | cons n more ih =>
    rw [List.map_cons, List.sum_cons, ← ih, Node.rulesIn, List.filterMap_cons]
    cases n.atRule? with
    | none => simp
    | some a => by_cases h : a.name = name <;> simp [Option.filter_some, h]

theorem length_named (s : Stylesheet) (name : String) :
    (s.named name).length = (s.nodes.filter (Node.isNamed name)).length := by
  unfold named
  induction s.nodes with
  | nil => rfl
  | cons n more ih =>
    rw [List.filterMap_cons, List.filter_cons, Node.isNamed]
    cases n.atRule? with
    | none => simpa using ih
    | some a => by_cases h : a.name = name <;> simpa [h] using ih

/-- At-rules of another name do not count. -/
theorem ruleCount_filter {name other : String} (hne : name ≠ other) (nodes : List Node) :
    (⟨nodes.filter fun n => !n.isNamed other⟩ : Stylesheet).ruleCount name =
      (⟨nodes⟩ : Stylesheet).ruleCount name := by
  rw [ruleCount_eq_sum, ruleCount_eq_sum]
  induction nodes with
  | nil => rfl
  | cons n more ih =>
    rw [List.filter_cons, List.map_cons, List.sum_cons, ← ih]
    cases hn : n.isNamed other with
    | false => simp
    | true => simp [Node.rulesIn_eq_zero hne hn]

theorem ruleCount_append (a b : List Node) (name : String) :
    (⟨a ++ b⟩ : Stylesheet).ruleCount name =
      (⟨a⟩ : Stylesheet).ruleCount name + (⟨b⟩ : Stylesheet).ruleCount name := by
  rw [ruleCount_eq_sum, ruleCount_eq_sum, ruleCount_eq_sum, List.map_append, List.sum_append]

theorem ruleCount_appendRules {s : Stylesheet} {name : String} {i : Nat}
    (hi : i ∈ s.positions name) (rules : List Rule) :
    (s.appendRules i rules).ruleCount name = s.ruleCount name + rules.length := by
  obtain ⟨n, hn, hname⟩ := mem_positions.mp hi
  obtain ⟨hlt, rfl⟩ := List.getElem?_eq_some_iff.mp hn
  obtain ⟨before, m, behind, hnodes, hlen, hmodify⟩ :=
    List.exists_of_modify (Node.append (rules.map Rule.toNode)) hlt
  have hm : m = s.nodes[i] := by simp [hnodes, ← hlen]
  rw [← hm] at hname
  rw [ruleCount_eq_sum, ruleCount_eq_sum, nodes_appendRules, hmodify, hnodes, List.map_append,
    List.map_append, List.sum_append, List.sum_append, List.map_cons, List.map_cons, List.sum_cons,
    List.sum_cons, Node.rulesIn_append hname]
  omega

/-- The run: rules that come to several blocks, one after the other, all count. -/
theorem ruleCount_foldl_appendRules {name : String} {β : Type} (rules : β → List Rule)
    (l : List (Nat × β)) (s : Stylesheet) (h : ∀ place ∈ l, place.1 ∈ s.positions name) :
    (l.foldl (fun s place => s.appendRules place.1 (rules place.2)) s).ruleCount name =
      s.ruleCount name + (l.map fun place => (rules place.2).length).sum := by
  induction l generalizing s with
  | nil => rfl
  | cons place more ih =>
    have hrest : ∀ other ∈ more,
        other.1 ∈ (s.appendRules place.1 (rules place.2)).positions name := by
      intro other ho
      rw [positions_appendRules]
      exact h other (List.mem_cons_of_mem _ ho)
    rw [List.foldl_cons, ih _ hrest, ruleCount_appendRules (h place List.mem_cons_self),
      List.map_cons, List.sum_cons]
    omega

end Stylesheet

/-! ## Written rules -/

theorem AtRule.length_variants_add (a : AtRule) (b : Breakpoint) :
    (a.variants b).length + a.warnings.length = a.rules.length := by
  unfold AtRule.variants AtRule.warnings AtRule.leftOut variantsOf
  rw [List.length_map, List.length_map, ← List.length_eq_length_filter_add]

/-- What a breakpoint gets and what is left out are all rules of the responsive blocks. -/
theorem Stylesheet.length_variants_add (s : Stylesheet) (b : Breakpoint) :
    (s.variants b).length + ((s.named responsive).flatMap AtRule.warnings).length =
      s.ruleCount responsive := by
  unfold Stylesheet.variants Stylesheet.ruleCount
  induction s.named responsive with
  | nil => rfl
  | cons a more ih =>
    have ha := a.length_variants_add b
    rw [List.flatMap_cons, List.flatMap_cons, List.length_append, List.length_append,
      List.map_cons, List.sum_cons]
    omega

namespace Expansion

/-- The number of rules written, over these breakpoints. -/
def written (bs : List Breakpoint) (s : Stylesheet) : Nat :=
  (bs.map fun b => (s.variants b).length).sum

theorem written_eq (bs : List Breakpoint) (s : Stylesheet) :
    written bs s = bs.length *
      (s.ruleCount responsive - ((s.named responsive).flatMap AtRule.warnings).length) := by
  unfold written
  induction bs with
  | nil => simp
  | cons b more ih =>
    have hb := s.length_variants_add b
    rw [List.map_cons, List.sum_cons, ih, List.length_cons, Nat.succ_mul]
    omega

theorem nodup_of_names {bs : List Breakpoint} (h : (bs.map (·.name)).Nodup) : bs.Nodup :=
  List.Nodup.of_map _ h

/-- Every breakpoint either reuses one block or gets one of its own. -/
theorem reused_created_perm {bs : List Breakpoint} (h : bs.Nodup) (s : Stylesheet) :
    ((reused bs s).map Prod.snd ++ created bs (reused bs s)).Perm bs := by
  have hreused : ((reused bs s).map Prod.snd).Perm
      (bs.filter fun b => !(s.adopted? bs b).isNone) := by
    refine (List.perm_ext_iff_of_nodup ?_ (h.filter _)).mpr ?_
    · have hpairs : (reused bs s).Nodup := List.Nodup.of_map _ (nodup_reused bs s)
      refine hpairs.map_on ?_
      rintro ⟨i, b⟩ hb ⟨k, c⟩ hc (rfl : b = c)
      rw [mem_reused] at hb hc
      rw [hb] at hc
      rw [Option.some.inj hc]
    · intro b
      rw [List.mem_filter, List.mem_map]
      constructor
      · rintro ⟨⟨i, c⟩, hc, rfl⟩
        rw [mem_reused] at hc
        exact ⟨List.mem_of_find?_eq_some (isMedia_of_adopted? hc).1, by simp [hc]⟩
      · rintro ⟨-, hb⟩
        cases hi : s.adopted? bs b with
        | none => simp [hi] at hb
        | some i => exact ⟨(i, b), mem_reused.mpr hi, rfl⟩
  have hsplit := List.filter_append_perm (fun b => !(s.adopted? bs b).isNone) bs
  simp only [Bool.not_not] at hsplit
  rw [created_eq]
  exact (hreused.append_right _).trans hsplit

theorem written_perm {bs cs : List Breakpoint} (h : bs.Perm cs) (s : Stylesheet) :
    written bs s = written cs s := (h.map _).sum_nat

theorem written_append (bs cs : List Breakpoint) (s : Stylesheet) :
    written (bs ++ cs) s = written bs s + written cs s := by
  unfold written
  rw [List.map_append, List.sum_append]

theorem ruleCount_newBlocks (bs : List Breakpoint) (s : Stylesheet) :
    (⟨bs.map (newBlock s)⟩ : Stylesheet).ruleCount media = written bs s := by
  have hblock : Node.rulesIn media ∘ newBlock s = fun b => (s.variants b).length := by
    funext b
    simp [newBlock, Node.rulesIn, Node.atRule?, AtRule.rules, Option.filter_some]
  rw [Stylesheet.ruleCount_eq_sum, List.map_map, hblock, written]

theorem ruleCount_filled (bs : List Breakpoint) (s : Stylesheet) :
    (filled bs s).ruleCount media =
      s.ruleCount media + written ((reused bs s).map Prod.snd) s := by
  have hmedia : ∀ place ∈ reused bs s, place.1 ∈ s.positions media := by
    rintro ⟨i, b⟩ hb
    obtain ⟨-, n, hn, hm⟩ := isMedia_of_adopted? (mem_reused.mp hb)
    exact Stylesheet.mem_positions.mpr ⟨n, hn, Node.isNamed_of_isMedia hm⟩
  unfold filled written
  rw [Stylesheet.ruleCount_foldl_appendRules s.variants _ s hmedia, List.map_map]
  rfl

/-- No written rule gets lost or comes twice. -/
theorem ruleCount_expand {bs : Breakpoints} {s : Stylesheet} {r : Report}
    (hok : (expand bs s).report = .ok r) :
    (expand bs s).sheet.ruleCount media = s.ruleCount media + written bs.toList s := by
  by_cases hnone : s.named responsive = []
  · have hzero : s.ruleCount responsive = 0 := by simp [Stylesheet.ruleCount, hnone]
    rw [expand_of_named_eq_nil bs hnone, written_eq, hzero]
    simp
  · have hkept : (⟨s.nodes.mapIdx (staying bs.toList s)⟩ : Stylesheet).ruleCount media =
        s.ruleCount media + written ((reused bs.toList s).map Prod.snd) s := by
      rw [← nodes_filled, ← ruleCount_filled]
    have hperm := reused_created_perm (nodup_of_names bs.nodup) s
    have hcount : (expand bs s).sheet.ruleCount media =
        (⟨(expand bs s).sheet.nodes⟩ : Stylesheet).ruleCount media := rfl
    rw [hcount, nodes_expand hnone hok, Stylesheet.ruleCount_append,
      Stylesheet.ruleCount_filter (by decide : media ≠ responsive), hkept, ruleCount_newBlocks,
      ← created_eq, Nat.add_assoc, ← written_append, written_perm hperm]

/-! ## Nodes that stay -/

theorem forall₂_staying (bs : List Breakpoint) (s : Stylesheet) :
    List.Forall₂ (fun old n => ∃ more, n = Node.append more old) s.others
      ((s.nodes.mapIdx (staying bs s)).filter fun n => !n.isNamed responsive) := by
  have hgrown : ∀ i n, ∃ more, staying bs s i n = n.append more := by
    intro i n
    unfold staying
    split
    · exact ⟨_, rfl⟩
    · exact ⟨[], n.append_nil.symm⟩
  unfold Stylesheet.others
  generalize staying bs s = f at hgrown
  induction s.nodes generalizing f with
  | nil => exact .nil
  | cons n more ih =>
    have hrest := ih (fun i => f (i + 1)) fun i m => hgrown (i + 1) m
    obtain ⟨added, hadded⟩ := hgrown 0 n
    have hname : (f 0 n).isNamed responsive = n.isNamed responsive := by
      rw [hadded, Node.isNamed_append]
    rw [List.mapIdx_cons, List.filter_cons, List.filter_cons, hname]
    split
    · exact .cons ⟨added, hadded⟩ hrest
    · exact hrest

/-- Behind the nodes that stay there are new media blocks only. -/
theorem nodes_of_expand {bs : Breakpoints} {s : Stylesheet} {r : Report}
    (hok : (expand bs s).report = .ok r) :
    ∃ kept made, (expand bs s).sheet.nodes = kept ++ made ∧
      List.Forall₂ (fun old n => ∃ more, n = Node.append more old) s.others kept ∧
      ∀ n ∈ made, n.isNamed media = true := by
  by_cases hnone : s.named responsive = []
  · refine ⟨s.nodes, [], ?_, ?_, by simp⟩
    · rw [expand_of_named_eq_nil bs hnone, List.append_nil]
    · rw [Stylesheet.others_of_named_eq_nil hnone, List.forall₂_same]
      exact fun n _ => ⟨[], n.append_nil.symm⟩
  · refine ⟨_, _, nodes_expand hnone hok, forall₂_staying bs.toList s, ?_⟩
    intro n hn
    obtain ⟨b, -, rfl⟩ := List.mem_map.mp hn
    rfl

/-! ## The law -/

/-- After a successful expansion the report accounts for every node and every rule. As many
nodes went away as it says; all others are there, in their order and at most with more in
them, in front of new media blocks. There is one warning about each rule that is left out, in
document order. Every other rule was written once for each breakpoint, and the media blocks
have all that was written. -/
theorem a_report_accounts_for_every_rule (bs : Breakpoints) (s : Stylesheet) (r : Report)
    (hok : (expand bs s).report = .ok r) :
    (∃ kept made, (expand bs s).sheet.nodes = kept ++ made ∧
      List.Forall₂ (fun old n => ∃ more, n = Node.append more old)
        (s.nodes.filter fun n => !n.isNamed responsive) kept ∧
      (∀ n ∈ made, n.isNamed media = true) ∧
      r.removedBlocks + kept.length = s.nodes.length) ∧
    r.warnings = ((s.named responsive).flatMap fun a => a.leftOut.map fun rule =>
      ⟨rule.selector, rule.source⟩) ∧
    r.warnings.length ≤ s.ruleCount responsive ∧
    r.variants = bs.toList.length * (s.ruleCount responsive - r.warnings.length) ∧
    (expand bs s).sheet.ruleCount media = s.ruleCount media + r.variants := by
  have hr := report_for hok
  have hwarnings : r.warnings = (s.named responsive).flatMap AtRule.warnings := by
    rw [hr.warnings, warnings_survey (fault_of_report_eq_ok hok)]
  have hvariants : r.variants = written bs.toList s := by
    rw [hr.variants, written, List.sum_eq_foldr, List.foldr_map]
  have hcount : r.removedBlocks + s.others.length = s.nodes.length := by
    rw [hr.removed, s.length_named, Stylesheet.others, ← List.length_eq_length_filter_add]
  refine ⟨?_, hwarnings, ?_, ?_, ?_⟩
  · obtain ⟨kept, made, hnodes, hstay, hmade⟩ := nodes_of_expand hok
    exact ⟨kept, made, hnodes, hstay, hmade, hstay.length_eq ▸ hcount⟩
  · have hsum := s.length_variants_add ⟨"", ""⟩
    rw [hwarnings]
    omega
  · rw [hvariants, hwarnings, written_eq]
  · rw [hvariants, ruleCount_expand hok]

/-- Two of three breakpoints share their query, and so do two media nodes. One rule is left out,
and so is what is nested. -/
theorem a_report_with_shared_queries_adds_up :
    let bs := Breakpoints.ofList [⟨"m", "(a)"⟩, ⟨"t", "(b)"⟩, ⟨"d", "(a)"⟩]
    let s : Stylesheet :=
      ⟨[.rule ".r" [] ⟨1, 1⟩, .block "media" "(a)" [.rule ".z" [] ⟨2, 13⟩] ⟨2, 1⟩,
        .block "responsive" "(.x, .w)" [.rule ".x .w" [] ⟨3, 23⟩, .rule ".y" [] ⟨4, 1⟩,
          .block "media" "(b)" [.rule ".v" [] ⟨5, 13⟩] ⟨5, 1⟩] ⟨3, 1⟩,
        .statement "media" "(a)" ⟨6, 1⟩, .block "responsive" "" [.rule ".q" [] ⟨7, 15⟩] ⟨7, 1⟩]⟩
    (expand bs s).report = .ok ⟨true, 2, 6, [⟨".y", ⟨4, 1⟩⟩]⟩ ∧
      s.ruleCount responsive = 3 ∧ 6 = bs.toList.length * (s.ruleCount responsive - 1) ∧
      s.ruleCount media = 1 ∧ (expand bs s).sheet.ruleCount media = 7 := by
  intro bs s
  have hok : (expand bs s).report = .ok ⟨true, 2, 6, [⟨".y", ⟨4, 1⟩⟩]⟩ := by rfl
  have hmedia : s.ruleCount media = 1 := by decide +kernel
  have hresponsive : s.ruleCount responsive = 3 := by decide +kernel
  obtain ⟨-, -, -, hvariants, hafter⟩ := a_report_accounts_for_every_rule bs s _ hok
  rw [hmedia] at hafter
  exact ⟨hok, hresponsive, hvariants, hmedia, hafter⟩

end Expansion

end ResponsiveCss
