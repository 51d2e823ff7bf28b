-- The expansion of responsive blocks. Each breakpoint gets the rules of all
-- responsive blocks with their selectors renamed, in a media block of its own
-- or in an existing one with its query; the responsive blocks go away.
import ResponsiveCss.Expansion.Survey
import ResponsiveCss.Stylesheet.Basic

namespace ResponsiveCss

/-- What a successful expansion did. -/
structure Report where
  /-- There was a responsive block. -/
  expanded : Bool
  /-- The number of responsive blocks that went away. -/
  removedBlocks : Nat
  /-- The number of rules written, over all breakpoints. -/
  variants : Nat
  warnings : List Warning
deriving DecidableEq, Repr

/-- The report of an expansion that found nothing to do. -/
def Report.idle : Report := ⟨false, 0, 0, []⟩

namespace Expansion

/-- The name of the blocks that are expanded. -/
def responsive : String := "responsive"

/-- The name of the blocks that take the expanded rules. -/
def media : String := "media"

/-! ## Which blocks are reused -/

/-- The media blocks, by position and parameters, that breakpoints reuse. A block goes to the
first breakpoint with its parameters as query; further blocks with these parameters go to
nobody. -/
def reuse : List Breakpoint → List (Nat × String) → List (Nat × Breakpoint)
  | _, [] => []
  | bs, (i, params) :: more =>
    match bs.find? (·.query == params) with
    | none => reuse bs more
    | some b => (i, b) :: reuse (bs.filter (·.query != params)) more

/-- The media blocks of a stylesheet that breakpoints reuse, in document order. -/
def reused (bs : List Breakpoint) (s : Stylesheet) : List (Nat × Breakpoint) :=
  reuse bs ((s.atRules media).map fun place => (place.1, place.2.params))

/-- The breakpoints that reuse no block, in order. -/
def created (bs : List Breakpoint) (reused : List (Nat × Breakpoint)) : List Breakpoint :=
  bs.filter fun b => !reused.any (·.2 == b)

/-! ## Expanding -/

/-- The stylesheet after an expansion, what the expansion did, and its log. -/
structure Outcome where
  sheet : Stylesheet
  report : Except ExpansionError Report
  log : List Event

/-- The stylesheet once the variants of every breakpoint are written. Rules go into reused
blocks while positions still hold, then the responsive blocks go, then new blocks come. -/
def commit (s : Stylesheet) (blocks : List Nat) (reused : List (Nat × Breakpoint))
    (created : List Breakpoint) (variants : Breakpoint → List Rule) : Stylesheet :=
  let filled := reused.foldl (fun s place => s.appendRules place.1 (variants place.2)) s
  created.foldl (fun s b => s.appendAtRule media b.query (variants b)) (filled.remove blocks)

/-- The expansion of a stylesheet under breakpoints. After a fault the stylesheet is as it
was. -/
def expand (bs : Breakpoints) (s : Stylesheet) : Outcome :=
  let blocks := s.atRules responsive
  if blocks.isEmpty then ⟨s, .ok .idle, [.nothingToExpand]⟩
  else
    let reused := reused bs.toList s
    let found := survey (blocks.map Prod.snd)
    let log := reused.map (fun place => .reusing place.2) ++
      found.findings.flatMap (Finding.events bs.toList)
    match found.fault with
    | some e => ⟨s, .error e, log⟩
    | none =>
      let created := created bs.toList reused
      { sheet := commit s (blocks.map Prod.fst) reused created found.variants
        report := .ok
          { expanded := true
            removedBlocks := blocks.length
            variants := bs.toList.foldr (fun b n => (found.variants b).length + n) 0
            warnings := found.warnings }
        log := log ++ .removing blocks.length :: created.map .appending }

end Expansion

end ResponsiveCss
