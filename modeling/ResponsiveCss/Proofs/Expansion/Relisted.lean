-- Responsive blocks under other parameters. What is made of a block depends on
-- the set of fragments that its parameters list, not on their order or on how
-- they are written. Two runs are compared block by block: the same rules take
-- part, under the same new names, and the same faults stand in the same places.
import ResponsiveCss.Proofs.Expansion.Balance

namespace ResponsiveCss

open Text Expansion

namespace Expansion

/-! ## Fragments as a set -/

/-- Both list no fragments at all, or they list the same ones. -/
def SameSet : Option (List (List Char)) → Option (List (List Char)) → Prop :=
  Option.Rel fun all all' => ∀ f, f ∈ all ↔ f ∈ all'

instance : DecidableRel SameSet
  | none, none => isTrue .none
  | some all, some all' =>
    decidable_of_iff (all ⊆ all' ∧ all' ⊆ all)
      ⟨fun h => .some fun _ => ⟨fun hf => h.1 hf, fun hf => h.2 hf⟩,
        fun h => by cases h with | some hmem => exact ⟨fun f => (hmem f).mp, fun f => (hmem f).mpr⟩⟩
  | none, some _ => isFalse nofun
  | some _, none => isFalse nofun

variable {fragments others : Option (List (List Char))}

theorem SameSet.refl (fragments : Option (List (List Char))) : SameSet fragments fragments := by
  cases fragments with
  | none => exact .none
  | some all => exact .some fun f => Iff.rfl

/-- The same rules take part. -/
theorem SameSet.takesPart_eq (h : SameSet fragments others) :
    takesPart others = takesPart fragments := by
  funext r
  cases h with
  | none => rfl
  | some hmem =>
    rw [Bool.eq_iff_iff]
    simp [takesPart, hmem]

/-- They get the same names. -/
theorem SameSet.renamed_eq (h : SameSet fragments others) : renamed others = renamed fragments := by
  funext name selector
  cases h with
  | none => rfl
  | some hmem =>
    rw [renamed, renamed, suffixFragments_congr name.toList fun f _ _ => (hmem f).symm]

theorem SameSet.all_isClass_eq (h : SameSet fragments others) :
    (others.getD []).all isClass = (fragments.getD []).all isClass := by
  cases h with
  | none => rfl
  | some hmem =>
    rw [Bool.eq_iff_iff]
    simp [hmem]

end Expansion

/-! ## Blocks under other parameters -/

/-- Two at-rules that differ at most in their parameters, and these list the same set. -/
structure AtRule.Relisted (a a' : AtRule) : Prop where
  name : a'.name = a.name
  nodes : a'.nodes = a.nodes
  source : a'.source = a.source
  fragments : SameSet (fragments? (trim a.params.toList)) (fragments? (trim a'.params.toList))

/-- A responsive block under other parameters with the same fragments; all other nodes are the
same. -/
inductive Node.Relisted : Node → Node → Prop
  | same (n : Node) : Relisted n n
  | block {a a' : AtRule} (hname : a.name = responsive) (h : a.Relisted a') :
      Relisted a.toNode a'.toNode

/-- Faults of one kind at one place; only the parameters may be written otherwise. -/
inductive ExpansionError.Alike : ExpansionError → ExpansionError → Prop
  | rule (selector : String) (l : Location) :
      Alike (.nonClassRule selector l) (.nonClassRule selector l)
  | parameter (params params' : String) (l : Location) :
      Alike (.nonClassParameter params l) (.nonClassParameter params' l)

namespace AtRule.Relisted

variable {a a' : AtRule} (h : a.Relisted a')
include h

theorem rules_eq : a'.rules = a.rules := by
  rw [rules, rules, h.nodes]

theorem variants_eq (b : Breakpoint) : a'.variants b = a.variants b := by
  rw [variants, variants, variantsOf, variantsOf, h.rules_eq, h.fragments.takesPart_eq,
    h.fragments.renamed_eq]

theorem warnings_eq : a'.warnings = a.warnings := by
  rw [warnings, warnings, leftOut, leftOut, h.rules_eq, h.fragments.takesPart_eq]

/-- The same violations stand in the same places. -/
theorem violations_alike : List.Forall₂ ExpansionError.Alike a.violations a'.violations := by
  have hparams : a'.fragments.all isClass = a.fragments.all isClass := h.fragments.all_isClass_eq
  unfold violations
  rw [hparams, h.rules_eq, h.source]
  apply List.rel_append
  · split
    · exact .nil
    · exact .cons (.parameter _ _ _) .nil
  · rw [List.forall₂_map_left_iff, List.forall₂_map_right_iff, List.forall₂_same]
    exact fun r _ => .rule _ _

end AtRule.Relisted

namespace Node.Relisted

variable {n m : Node} (h : n.Relisted m)
include h

theorem atRule? : Option.Rel AtRule.Relisted n.atRule? m.atRule? := by
  cases h with
  | same =>
    cases n.atRule? with
    | none => exact .none
    | some a => exact .some ⟨rfl, rfl, rfl, .refl _⟩
  | block _ h =>
    rw [AtRule.atRule?_toNode, AtRule.atRule?_toNode]
    exact .some h

/-- No block becomes a media block or ceases to be one. -/
theorem isMedia_eq (query : String) : m.isMedia query = n.isMedia query := by
  cases h with
  | same => rfl
  | block hname h =>
    have hne : (responsive == media) = false := by decide
    simp [isMedia, h.name, hname, hne]

/-- A node is responsive under both parameters, or it is the same. -/
theorem isNamed_or_eq :
    (n.isNamed responsive = true ∧ m.isNamed responsive = true) ∨ n = m := by
  cases h with
  | same => exact Or.inr rfl
  | block hname h => exact Or.inl (by simp [isNamed, h.name, hname])

end Node.Relisted

/-! ## Stylesheets under other parameters -/

/-- Lists that agree under a function, member by member, have the same image. -/
theorem map_eq_of_forall₂ {α β : Type} {R : α → α → Prop} {f : α → β} {l l' : List α}
    (h : List.Forall₂ R l l') (hf : ∀ x y, R x y → f y = f x) : l'.map f = l.map f := by
  have heq : List.Forall₂ (· = ·) (l'.map f) (l.map f) := by
    rw [List.forall₂_map_left_iff, List.forall₂_map_right_iff]
    exact h.flip.imp fun y x hxy => hf x y hxy
  rwa [List.forall₂_eq_eq_eq] at heq

namespace Stylesheet

variable {s t : Stylesheet} (h : List.Forall₂ Node.Relisted s.nodes t.nodes)
include h

theorem named_relisted (name : String) :
    List.Forall₂ AtRule.Relisted (s.named name) (t.named name) := by
  have hatRules : List.Forall₂ AtRule.Relisted (s.nodes.filterMap Node.atRule?)
      (t.nodes.filterMap Node.atRule?) :=
    List.rel_filterMap (fun _ _ hn => hn.atRule?) h
  refine List.rel_filter (fun a a' ha => ?_) hatRules
  simp [ha.name]

theorem others_relisted : t.others = s.others := by
  obtain ⟨nodes⟩ := s
  obtain ⟨nodes'⟩ := t
  unfold others
  dsimp only at h ⊢
  induction h with
  | nil => rfl
  | cons hn _ ih =>
    rw [List.filter_cons, List.filter_cons, ih]
    rcases hn.isNamed_or_eq with ⟨hn, hm⟩ | rfl
    · simp [hn, hm]
    · rfl

theorem adopted?_relisted (bs : List Breakpoint) (b : Breakpoint) :
    t.adopted? bs b = s.adopted? bs b := by
  have hmedia := map_eq_of_forall₂ h fun n m hn => hn.isMedia_eq b.query
  have hindex : ∀ nodes : List Node,
      nodes.findIdx? (·.isMedia b.query) = (nodes.map (·.isMedia b.query)).findIdx? id := by
    intro nodes
    rw [List.findIdx?_map]
    rfl
  rw [adopted?, adopted?, hindex, hindex, hmedia]

theorem variants_relisted : t.variants = s.variants := by
  funext b
  rw [variants, variants, List.flatMap_def, List.flatMap_def,
    map_eq_of_forall₂ (named_relisted h responsive) fun _ _ ha => ha.variants_eq b]

theorem warnings_relisted :
    (t.named responsive).flatMap AtRule.warnings = (s.named responsive).flatMap AtRule.warnings := by
  rw [List.flatMap_def, List.flatMap_def,
    map_eq_of_forall₂ (named_relisted h responsive) fun _ _ ha => ha.warnings_eq]

theorem violations_relisted : List.Forall₂ ExpansionError.Alike s.violations t.violations :=
  List.rel_flatMap (named_relisted h responsive) fun _ _ ha => ha.violations_alike

theorem named_eq_nil_iff_of_relisted : s.named responsive = [] ↔ t.named responsive = [] := by
  rw [← List.length_eq_zero_iff, (named_relisted h responsive).length_eq, List.length_eq_zero_iff]

/-- Without responsive blocks there are no parameters to differ in. -/
theorem eq_of_named_eq_nil (hnone : s.named responsive = []) : s = t := by
  have hnodes : s.nodes = t.nodes := by
    rw [← others_of_named_eq_nil hnone,
      ← others_of_named_eq_nil ((named_eq_nil_iff_of_relisted h).mp hnone), others_relisted h]
  exact congrArg Stylesheet.mk hnodes

end Stylesheet

namespace Expansion

/-! ## Two runs -/

section

variable {bs : Breakpoints} {s t : Stylesheet} {r r' : Report}
  (h : List.Forall₂ Node.Relisted s.nodes t.nodes) (hok : (expand bs s).report = .ok r)
  (hok' : (expand bs t).report = .ok r')
include h hok hok'

theorem sheet_relisted (hne : s.named responsive ≠ []) :
    (expand bs t).sheet = (expand bs s).sheet := by
  have hne' : t.named responsive ≠ [] :=
    mt (Stylesheet.named_eq_nil_iff_of_relisted h).mpr hne
  have hrules : ruleNodes t = ruleNodes s := by
    funext b
    rw [ruleNodes, ruleNodes, Stylesheet.variants_relisted h]
  have hnodes : (expand bs t).sheet.nodes = (expand bs s).sheet.nodes := by
    rw [nodes_expand_eq_fill hne hok, nodes_expand_eq_fill hne' hok', hrules,
      Stylesheet.others_relisted h]
    simp only [Stylesheet.adopted?_relisted h]
  exact congrArg Stylesheet.mk hnodes

theorem report_relisted (hne : s.named responsive ≠ []) : r' = r := by
  have hne' : t.named responsive ≠ [] :=
    mt (Stylesheet.named_eq_nil_iff_of_relisted h).mpr hne
  have hr := report_for hok
  have hr' := report_for hok'
  have hexpanded : r'.expanded = r.expanded := by
    rw [expanded_of_named_ne_nil hne hok, expanded_of_named_ne_nil hne' hok']
  have hremoved : r'.removedBlocks = r.removedBlocks := by
    rw [hr.removed, hr'.removed, (Stylesheet.named_relisted h responsive).length_eq]
  have hvariants : r'.variants = r.variants := by
    rw [hr.variants, hr'.variants, Stylesheet.variants_relisted h]
  have hwarnings : r'.warnings = r.warnings := by
    rw [hr.warnings, hr'.warnings, warnings_survey (fault_of_report_eq_ok hok),
      warnings_survey (fault_of_report_eq_ok hok'), Stylesheet.warnings_relisted h]
  cases r
  cases r'
  cases hexpanded
  cases hremoved
  cases hvariants
  cases hwarnings
  rfl

end

/-- Both runs succeed or both fail, at the same place. -/
theorem reports_relisted (bs : Breakpoints) {s t : Stylesheet}
    (h : List.Forall₂ Node.Relisted s.nodes t.nodes) :
    (∃ r r', (expand bs s).report = .ok r ∧ (expand bs t).report = .ok r') ∨
      ∃ e e', (expand bs s).report = .error e ∧ (expand bs t).report = .error e' ∧
        e.Alike e' := by
  have hviolations := Stylesheet.violations_relisted h
  cases hs : s.violations with
  | nil =>
    rw [hs, List.forall₂_nil_left_iff] at hviolations
    obtain ⟨r, hr⟩ := (report_eq_ok_iff bs s).mpr hs
    obtain ⟨r', hr'⟩ := (report_eq_ok_iff bs t).mpr hviolations
    exact Or.inl ⟨r, r', hr, hr'⟩
  | cons e more =>
    rw [hs, List.forall₂_cons_left_iff] at hviolations
    obtain ⟨e', more', halike, -, ht⟩ := hviolations
    refine Or.inr ⟨e, e', ?_, ?_, halike⟩
    · rw [report_eq_error_iff, hs, List.head?_cons]
    · rw [report_eq_error_iff, ht, List.head?_cons]

/-! ## The law -/

/-- If the parameters of responsive blocks list the same set of fragments otherwise, both
expansions succeed with the same stylesheet and the same report, or both fail at the same place
with the same kind of fault. A selector is renamed the same by all lists that agree on the
fragments, but for empty ones, that occur in it. -/
theorem only_the_set_of_fragments_counts (bs : Breakpoints) (s t : Stylesheet)
    (h : List.Forall₂ Node.Relisted s.nodes t.nodes) :
    ((∃ r, (expand bs s).report = .ok r ∧ (expand bs t).report = .ok r ∧
        (expand bs t).sheet = (expand bs s).sheet) ∨
      ∃ e e', (expand bs s).report = .error e ∧ (expand bs t).report = .error e' ∧
        e.Alike e') ∧
    ∀ (fragments others : List (List Char)) (name selector : List Char),
      (∀ f, f ≠ [] → f <:+: selector → (f ∈ fragments ↔ f ∈ others)) →
      suffixFragments fragments name selector = suffixFragments others name selector := by
  refine ⟨?_, fun fragments others name selector hsame => suffixFragments_congr name hsame⟩
  rcases reports_relisted bs h with ⟨r, r', hr, hr'⟩ | hfailed
  · refine Or.inl ⟨r, hr, ?_⟩
    by_cases hnone : s.named responsive = []
    · obtain rfl := Stylesheet.eq_of_named_eq_nil h hnone
      exact ⟨hr, rfl⟩
    · rw [hr', report_relisted h hr hr' hnone]
      exact ⟨rfl, sheet_relisted h hr hr' hnone⟩
  · exact Or.inr hfailed

/-- One list in another order, with a repetition and half a pair of parentheses, and parameters
that are blank. -/
theorem the_order_of_the_fragments_does_not_count :
    let bs := Breakpoints.ofList [⟨"m", "(a)"⟩, ⟨"d", "(b)"⟩]
    let a : AtRule := ⟨"responsive", "(.a, .ab)",
      some [.rule ".ab .a" [] ⟨1, 24⟩, .rule ".x" [] ⟨2, 1⟩], ⟨1, 1⟩⟩
    let q : AtRule := ⟨"responsive", "", some [.rule ".q" [] ⟨4, 15⟩], ⟨4, 1⟩⟩
    let s : Stylesheet := ⟨[a.toNode, .block "media" "(b)" [] ⟨3, 1⟩, q.toNode]⟩
    let t : Stylesheet := ⟨[{ a with params := " .ab , .a,.ab )" }.toNode,
      .block "media" "(b)" [] ⟨3, 1⟩, { q with params := "  " }.toNode]⟩
    List.Forall₂ Node.Relisted s.nodes t.nodes ∧
      (expand bs s).report = .ok ⟨true, 2, 4, [⟨".x", ⟨2, 1⟩⟩]⟩ ∧
      (expand bs t).report = .ok ⟨true, 2, 4, [⟨".x", ⟨2, 1⟩⟩]⟩ ∧
      (expand bs t).sheet.nodes =
        [.block "media" "(b)" [.rule ".ab-d .a-d" [] ⟨1, 24⟩, .rule ".q-d" [] ⟨4, 15⟩] ⟨3, 1⟩,
          .block "media" "(a)" [.rule ".ab-m .a-m" [] ⟨1, 24⟩, .rule ".q-m" [] ⟨4, 15⟩] ⟨0, 0⟩] := by
  intro bs a q s t
  have hfirst : a.Relisted { a with params := " .ab , .a,.ab )" } :=
    ⟨rfl, rfl, rfl, by decide +kernel⟩
  have hblank : q.Relisted { q with params := "  " } := ⟨rfl, rfl, rfl, by decide +kernel⟩
  have h : List.Forall₂ Node.Relisted s.nodes t.nodes :=
    .cons (.block rfl hfirst) (.cons (.same _) (.cons (.block rfl hblank) .nil))
  have hok : (expand bs s).report.toOption = some ⟨true, 2, 4, [⟨".x", ⟨2, 1⟩⟩]⟩ := by
    decide +kernel
  rcases (only_the_set_of_fragments_counts bs s t h).1 with
    ⟨r, hr, hr', hsheet⟩ | ⟨e, e', he, -, -⟩
  · rw [hr] at hok
    cases hok
    rw [hsheet]
    exact ⟨h, hr, hr', by decide +kernel⟩
  · rw [he] at hok
    cases hok

end Expansion

end ResponsiveCss
