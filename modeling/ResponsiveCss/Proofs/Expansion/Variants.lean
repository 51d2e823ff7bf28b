-- The rules that a breakpoint gets: from each responsive block the rules that
-- take part, renamed, in document order. The survey yields just these.
import ResponsiveCss.Proofs.Expansion.Scan
import ResponsiveCss.Proofs.Expansion.Violations

namespace ResponsiveCss

open Text

namespace Expansion

/-! ## The rules that take part -/

/-- A rule takes part unless its block lists fragments and it contains none of them. -/
def takesPart (fragments : Option (List (List Char))) (r : Rule) : Bool :=
  fragments.all fun all => all.any (occursIn · r.selector.toList)

/-- The rules that take part, under their new selectors. -/
def variantsOf (fragments : Option (List (List Char))) (rules : List Rule) (b : Breakpoint) :
    List Rule :=
  (rules.filter (takesPart fragments)).map fun r =>
    r.withSelector (renamed fragments b.name r.selector)

/-- What is found in a rule whose selector begins like a class. -/
def findingOf (fragments : Option (List (List Char))) (r : Rule) : Finding :=
  if takesPart fragments r then
    .selected r (fragments.map (·.filter (occursIn · r.selector.toList)))
  else .unmatched ⟨r.selector, r.source⟩

theorem eq_findingOf {fragments : Option (List (List Char))} {r : Rule} {f : Finding}
    (h : findRule fragments r = .ok f) : f = findingOf fragments r := by
  unfold findRule at h
  split at h
  · cases fragments with
    | none =>
      cases h
      simp [findingOf, takesPart]
    | some all =>
      dsimp only at h
      split at h
      · rename_i hnil
        cases h
        have hno : ¬ ∃ f ∈ all, occursIn f r.selector.toList = true := by
          simpa [List.filter_eq_nil_iff] using hnil
        simp [findingOf, takesPart, hno]
      · rename_i hne
        cases h
        have hyes : ∃ f ∈ all, occursIn f r.selector.toList = true := by
          simpa [List.filter_eq_nil_iff] using hne
        simp [findingOf, takesPart, hyes]
  · cases h

theorem findings_surveyRules {fragments : Option (List (List Char))} {rules : List Rule}
    (h : (surveyRules fragments rules).fault = none) :
    (surveyRules fragments rules).findings = rules.map (findingOf fragments) := by
  induction rules with
  | nil => rfl
  | cons r more ih =>
    unfold surveyRules at h ⊢
    split at h
    · cases h
    · rename_i f hf
      rw [List.map_cons, ← ih h, ← eq_findingOf hf]
      rfl

theorem variant?_findingOf (fragments : Option (List (List Char))) (r : Rule) (b : Breakpoint) :
    (findingOf fragments r).variant? b =
      if takesPart fragments r then some (r.withSelector (renamed fragments b.name r.selector))
      else none := by
  unfold findingOf
  split
  · cases fragments with
    | none => rfl
    | some all => simp [Finding.variant?, renamed, suffixFragments_filter_occursIn]
  · rfl

theorem filterMap_variant?_findingOf (fragments : Option (List (List Char))) (rules : List Rule)
    (b : Breakpoint) :
    (rules.map (findingOf fragments)).filterMap (Finding.variant? b) =
      variantsOf fragments rules b := by
  unfold variantsOf
  induction rules with
  | nil => rfl
  | cons r more ih =>
    rw [List.map_cons, List.filterMap_cons, variant?_findingOf, List.filter_cons, ih]
    cases takesPart fragments r <;> rfl

end Expansion

open Expansion

/-! ## Blocks and stylesheets -/

/-- What is found in a responsive block without violations. -/
def AtRule.findings (a : AtRule) : List Finding :=
  (if a.nestedCount = 0 then [] else [.nested a.source a.nestedCount]) ++
    a.rules.map (findingOf (fragments? (trim a.params.toList)))

/-- The rules of a responsive block that a breakpoint gets. -/
def AtRule.variants (a : AtRule) (b : Breakpoint) : List Rule :=
  variantsOf (fragments? (trim a.params.toList)) a.rules b

/-- The rules of all responsive blocks that a breakpoint gets. -/
def Stylesheet.variants (s : Stylesheet) (b : Breakpoint) : List Rule :=
  (s.named responsive).flatMap fun a => a.variants b

namespace Expansion

theorem findings_surveyBlock {a : AtRule} (h : (surveyBlock a).fault = none) :
    (surveyBlock a).findings = a.findings := by
  unfold surveyBlock at h ⊢
  unfold AtRule.findings
  dsimp only at h ⊢
  split at h
  · rename_i hall
    rw [if_pos hall]
    split
    · rename_i hnone
      rw [if_pos hnone] at h
      rw [findings_surveyRules h, List.nil_append]
    · rename_i hsome
      rw [if_neg hsome] at h
      rw [← findings_surveyRules h]
      rfl
  · cases h

/-- Without a fault the survey finds what is in each block, in order. -/
theorem findings_survey {blocks : List AtRule} (h : (survey blocks).fault = none) :
    (survey blocks).findings = blocks.flatMap AtRule.findings := by
  induction blocks with
  | nil => rfl
  | cons a more ih =>
    rw [survey, Survey.fault_append, Option.or_eq_none_iff] at h
    rw [survey, Survey.append, h.1, List.flatMap_cons, ← ih h.2, ← findings_surveyBlock h.1]

theorem filterMap_variant?_findings (a : AtRule) (b : Breakpoint) :
    a.findings.filterMap (Finding.variant? b) = a.variants b := by
  unfold AtRule.findings AtRule.variants
  rw [List.filterMap_append, filterMap_variant?_findingOf]
  -- What is nested in the block is a finding that yields no rule.
  split <;> rfl

theorem variants_survey {blocks : List AtRule} (h : (survey blocks).fault = none)
    (b : Breakpoint) : (survey blocks).variants b = blocks.flatMap fun a => a.variants b := by
  rw [Survey.variants, findings_survey h, List.filterMap_flatMap]
  simp only [filterMap_variant?_findings]

end Expansion

end ResponsiveCss
