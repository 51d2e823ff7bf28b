-- When an expansion fails. The survey stops at the first thing that is no
-- class name, so the fault is the first one in the list of all violations,
-- whatever was found before it, and nothing has been changed by then.
import ResponsiveCss.Expansion.Basic
import ResponsiveCss.Proofs.Stylesheet.TopLevel

namespace ResponsiveCss

open Text Expansion

/-! ## The violations -/

/-- The fragments that the parameters of a block list, none if they are blank. -/
def AtRule.fragments (a : AtRule) : List (List Char) :=
  (fragments? (trim a.params.toList)).getD []

/-- The violations in one responsive block: its parameters, then its rules in order. -/
def AtRule.violations (a : AtRule) : List ExpansionError :=
  (if a.fragments.all isClass then []
    else [.nonClassParameter (String.ofList (trim a.params.toList)) a.source]) ++
  (a.rules.filter fun r => !isClass r.selector.toList).map fun r =>
    .nonClassRule r.selector r.source

/-- The violations in a stylesheet, block after block. -/
def Stylesheet.violations (s : Stylesheet) : List ExpansionError :=
  (s.named responsive).flatMap AtRule.violations

namespace Expansion

/-! ## The fault of a survey -/

theorem findRule_of_not_isClass (fragments : Option (List (List Char))) {r : Rule}
    (h : isClass r.selector.toList = false) :
    findRule fragments r = .error (.nonClassRule r.selector r.source) := by
  simp [findRule, h]

theorem findRule_of_isClass (fragments : Option (List (List Char))) {r : Rule}
    (h : isClass r.selector.toList = true) : ∃ f, findRule fragments r = .ok f := by
  unfold findRule
  rw [if_pos h]
  split
  · exact ⟨_, rfl⟩
  · split <;> exact ⟨_, rfl⟩

theorem fault_surveyRules (fragments : Option (List (List Char))) (rules : List Rule) :
    (surveyRules fragments rules).fault =
      ((rules.filter fun r => !isClass r.selector.toList).map fun r =>
        ExpansionError.nonClassRule r.selector r.source).head? := by
  induction rules with
  | nil => rfl
  | cons r more ih =>
    unfold surveyRules
    cases h : isClass r.selector.toList with
    | false => simp [findRule_of_not_isClass fragments h, h, Survey.fail]
    | true =>
      obtain ⟨f, hf⟩ := findRule_of_isClass fragments h
      simpa [hf, h, Survey.cons] using ih

theorem fault_surveyBlock (a : AtRule) : (surveyBlock a).fault = a.violations.head? := by
  unfold surveyBlock AtRule.violations AtRule.fragments
  dsimp only
  split
  · rw [List.nil_append, ← fault_surveyRules]
    split <;> rfl
  · rfl

theorem Survey.fault_append (a b : Survey) : (a.append b).fault = a.fault.or b.fault := by
  unfold Survey.append
  cases h : a.fault <;> simp [h]

theorem fault_survey (blocks : List AtRule) :
    (survey blocks).fault = (blocks.flatMap AtRule.violations).head? := by
  induction blocks with
  | nil => rfl
  | cons a more ih =>
    rw [survey, Survey.fault_append, fault_surveyBlock, ih, List.flatMap_cons, List.head?_append]

/-! ## What an expansion can do -/

theorem atRules_eq_nil_iff (s : Stylesheet) (name : String) :
    s.atRules name = [] ↔ s.named name = [] := by
  rw [← s.map_snd_atRules name, List.map_eq_nil_iff]

/-- What the log says before anything is changed. -/
def surveyLog (bs : Breakpoints) (s : Stylesheet) : List Event :=
  (reused bs.toList s).map (fun place => .reusing place.2) ++
    (survey (s.named responsive)).findings.flatMap (Finding.events bs.toList)

/-- Without responsive blocks there is nothing to do. -/
theorem expand_of_named_eq_nil (bs : Breakpoints) {s : Stylesheet}
    (h : s.named responsive = []) : expand bs s = ⟨s, .ok .idle, [.nothingToExpand]⟩ := by
  unfold expand
  simp [(atRules_eq_nil_iff s responsive).mpr h]

/-- A fault in the survey is the fault of the expansion, and ends it. -/
theorem expand_of_fault (bs : Breakpoints) {s : Stylesheet} {e : ExpansionError}
    (h : (survey (s.named responsive)).fault = some e) :
    expand bs s = ⟨s, .error e, surveyLog bs s⟩ := by
  have hne : s.atRules responsive ≠ [] := by
    intro hnil
    rw [(atRules_eq_nil_iff s responsive).mp hnil] at h
    cases h
  unfold expand surveyLog
  simp [hne, h, s.map_snd_atRules responsive]

/-- Without a fault the variants are committed. -/
theorem expand_of_no_fault (bs : Breakpoints) {s : Stylesheet} (hne : s.named responsive ≠ [])
    (h : (survey (s.named responsive)).fault = none) :
    expand bs s =
      let found := survey (s.named responsive)
      let places := reused bs.toList s
      { sheet := commit s (s.positions responsive) places (created bs.toList places) found.variants
        report := .ok
          { expanded := true
            removedBlocks := (s.named responsive).length
            variants := bs.toList.foldr (fun b n => (found.variants b).length + n) 0
            warnings := found.warnings }
        log := surveyLog bs s ++
          .removing (s.named responsive).length :: (created bs.toList places).map .appending } := by
  have hne' : s.atRules responsive ≠ [] := fun hnil =>
    hne ((atRules_eq_nil_iff s responsive).mp hnil)
  have hlen : (s.atRules responsive).length = (s.named responsive).length := by
    rw [← s.map_snd_atRules responsive, List.length_map]
  unfold expand surveyLog Stylesheet.positions
  simp [hne', h, hlen, s.map_snd_atRules responsive]

/-- The fault of an expansion is the first violation. -/
theorem report_eq_error_iff (bs : Breakpoints) (s : Stylesheet) (e : ExpansionError) :
    (expand bs s).report = .error e ↔ s.violations.head? = some e := by
  unfold Stylesheet.violations
  rw [← fault_survey]
  cases hf : (survey (s.named responsive)).fault with
  | some f => simp [expand_of_fault bs hf]
  | none =>
    by_cases hnil : s.named responsive = []
    · simp [expand_of_named_eq_nil bs hnil]
    · simp [expand_of_no_fault bs hnil hf]

/-- A failed expansion hands back the stylesheet it was given. -/
theorem sheet_of_report_eq_error {bs : Breakpoints} {s : Stylesheet} {e : ExpansionError}
    (h : (expand bs s).report = .error e) : (expand bs s).sheet = s := by
  rw [report_eq_error_iff, Stylesheet.violations, ← fault_survey] at h
  rw [expand_of_fault bs h]

/-! ## The laws -/

theorem violations_ne_nil_iff (a : AtRule) :
    a.violations ≠ [] ↔
      (∃ f ∈ a.fragments, isClass f = false) ∨
        ∃ r ∈ a.rules, isClass r.selector.toList = false := by
  unfold AtRule.violations
  rw [ne_eq, List.append_eq_nil_iff, List.map_eq_nil_iff, List.filter_eq_nil_iff]
  by_cases h : a.fragments.all isClass = true
  · have hall : ¬ ∃ f ∈ a.fragments, isClass f = false := by
      rintro ⟨f, hf, hno⟩
      rw [List.all_eq_true] at h
      simp [h f hf] at hno
    simp [h, hall]
  · have hsome : ∃ f ∈ a.fragments, isClass f = false := by
      simpa [List.all_eq_true] using h
    simp [h, hsome]

/-- An expansion fails exactly if a responsive block lists a fragment, or holds a rule, that
is no class; the fault is the first of these, and the stylesheet is as it was. -/
theorem an_expansion_fails_at_the_first_violation (bs : Breakpoints) (s : Stylesheet) :
    ((∃ e, (expand bs s).report = .error e) ↔
      ∃ n ∈ s.nodes, ∃ a, n.atRule? = some a ∧ a.name = responsive ∧
        ((∃ f ∈ a.fragments, isClass f = false) ∨
          ∃ r ∈ a.rules, isClass r.selector.toList = false)) ∧
    (∀ e, (expand bs s).report = .error e ↔ s.violations.head? = some e) ∧
    ∀ e, (expand bs s).report = .error e → (expand bs s).sheet = s := by
  refine ⟨?_, report_eq_error_iff bs s, fun e => sheet_of_report_eq_error⟩
  have nonempty : (∃ e, (expand bs s).report = .error e) ↔
      ∃ a ∈ s.named responsive, a.violations ≠ [] := by
    simp only [report_eq_error_iff, ← Option.isSome_iff_exists, List.isSome_head?]
    simp [Stylesheet.violations]
  rw [nonempty]
  constructor
  · rintro ⟨a, ha, hv⟩
    obtain ⟨⟨n, hn, hna⟩, hname⟩ := Stylesheet.mem_named.mp ha
    exact ⟨n, hn, a, hna, hname, (violations_ne_nil_iff a).mp hv⟩
  · rintro ⟨n, hn, a, hna, hname, hv⟩
    exact ⟨a, Stylesheet.mem_named.mpr ⟨⟨n, hn, hna⟩, hname⟩, (violations_ne_nil_iff a).mpr hv⟩

end Expansion

end ResponsiveCss
