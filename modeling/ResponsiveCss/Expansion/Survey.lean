-- The survey of the responsive blocks: what each of their rules means for the
-- expansion, found out before anything is changed. It ends at the first fault.
import ResponsiveCss.Expansion.Event
import ResponsiveCss.Expansion.Filter
import ResponsiveCss.Stylesheet.Basic

namespace ResponsiveCss.Expansion

open Text

/-! ## Findings -/

/-- What is found in a responsive block. -/
inductive Finding where
  /-- At-rules directly inside the block, which get lost. -/
  | nested (source : Location) (count : Nat)
  /-- A rule that contains none of the fragments. -/
  | unmatched (w : Warning)
  /-- A rule that takes part, with the fragments in it if its block has parameters. -/
  | selected (r : Rule) (fragments : Option (List (List Char)))
deriving Repr

/-- The findings in order, up to the fault that ends the survey, if there is one. -/
structure Survey where
  findings : List Finding
  fault : Option ExpansionError
deriving Repr

namespace Survey

/-- Nothing was found. -/
def empty : Survey := ⟨[], none⟩

/-- A fault ends the survey. -/
def fail (e : ExpansionError) : Survey := ⟨[], some e⟩

/-- One finding before all others. -/
def cons (f : Finding) (s : Survey) : Survey := { s with findings := f :: s.findings }

/-- One survey after another, if it comes to it. -/
def append (a b : Survey) : Survey :=
  match a.fault with
  | some _ => a
  | none => ⟨a.findings ++ b.findings, b.fault⟩

end Survey

/-! ## Blocks and their rules -/

/-- What a rule means under the fragments of its block. -/
def findRule (fragments : Option (List (List Char))) (r : Rule) :
    Except ExpansionError Finding :=
  if isClass r.selector.toList then
    match fragments with
    | none => .ok (.selected r none)
    | some all =>
      match all.filter (occursIn · r.selector.toList) with
      | [] => .ok (.unmatched ⟨r.selector, r.source⟩)
      | present => .ok (.selected r (some present))
  else .error (.nonClassRule r.selector r.source)

/-- The survey of rules one after the other. -/
def surveyRules (fragments : Option (List (List Char))) : List Rule → Survey
  | [] => .empty
  | r :: more =>
    match findRule fragments r with
    | .error e => .fail e
    | .ok f => (surveyRules fragments more).cons f

/-- The survey of one responsive block: its parameters first, then the at-rules in it, then
its rules. -/
def surveyBlock (a : AtRule) : Survey :=
  let params := trim a.params.toList
  let fragments := fragments? params
  if (fragments.getD []).all isClass then
    let rules := surveyRules fragments a.rules
    if a.nestedCount = 0 then rules else rules.cons (.nested a.source a.nestedCount)
  else .fail (.nonClassParameter (String.ofList params) a.source)

/-- The survey of blocks one after the other. -/
def survey : List AtRule → Survey
  | [] => .empty
  | a :: more => (surveyBlock a).append (survey more)

/-! ## What follows from the findings -/

/-- The warning that a finding is. -/
def Finding.warning? : Finding → Option Warning
  | .unmatched w => some w
  | _ => none

/-- The rule that a finding contributes to a breakpoint. -/
def Finding.variant? (b : Breakpoint) : Finding → Option Rule
  | .selected r fragments => some (r.withSelector (renamed fragments b.name r.selector))
  | _ => none

/-- What the log says about a finding under these breakpoints. -/
def Finding.events (bs : List Breakpoint) : Finding → List Event
  | .nested source count => [.droppingNested source count]
  | .unmatched w => [.unmatched w]
  | .selected r fragments =>
    bs.map fun b => .renamed r.selector (renamed fragments b.name r.selector)

/-- The warnings of a survey. -/
def Survey.warnings (s : Survey) : List Warning := s.findings.filterMap Finding.warning?

/-- The rules that a survey yields for a breakpoint. -/
def Survey.variants (s : Survey) (b : Breakpoint) : List Rule :=
  s.findings.filterMap (Finding.variant? b)

end ResponsiveCss.Expansion
