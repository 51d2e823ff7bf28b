-- The log of an expansion agrees with what the expansion did. First it names the
-- blocks that are reused, then it follows the walk over the responsive blocks
-- and their rules, and behind the one record of the removal it names the blocks
-- that are new. What it counts is what the report counts.
import Mathlib.Algebra.BigOperators.Group.List.Basic
import ResponsiveCss.Proofs.Expansion.Balance

namespace ResponsiveCss

open Text Expansion

/-! ## Kinds of records -/

namespace Expansion.Event

/-- An existing block is reused. -/
def isReusing : Event → Bool
  | .reusing _ => true
  | _ => false

/-- The responsive blocks go away. -/
def isRemoving : Event → Bool
  | .removing _ => true
  | _ => false

/-- A new block comes to the end. -/
def isAppending : Event → Bool
  | .appending _ => true
  | _ => false

/-- At-rules inside a responsive block get lost. -/
def isNested : Event → Bool
  | .droppingNested .. => true
  | _ => false

end Expansion.Event

/-! ## The walk -/

theorem Expansion.level_of_mem_events {f : Finding} {bs : List Breakpoint} {e : Event}
    (h : e ∈ f.events bs) : e.level ≠ .debug := by
  cases f with
  | nested source count =>
    cases List.mem_singleton.mp h
    exact nofun
  | unmatched w =>
    cases List.mem_singleton.mp h
    exact nofun
  | selected r fragments =>
    obtain ⟨b, -, rfl⟩ := List.mem_map.mp h
    exact nofun

namespace AtRule

/-- The record of the at-rules inside a block, if there are any. -/
def nestedRecords (a : AtRule) : List Event :=
  if a.nestedCount = 0 then [] else [.droppingNested a.source a.nestedCount]

/-- The records of a rule of the block: one for each breakpoint that gets it, or that it is left
out. -/
def ruleRecords (a : AtRule) (bs : List Breakpoint) (r : Rule) : List Event :=
  let fragments := fragments? (trim a.params.toList)
  if takesPart fragments r then
    bs.map fun b => .renamed r.selector (renamed fragments b.name r.selector)
  else [.unmatched ⟨r.selector, r.source⟩]

/-- The records of a responsive block: what is nested in it, then its rules in order. -/
def records (a : AtRule) (bs : List Breakpoint) : List Event :=
  a.nestedRecords ++ a.rules.flatMap (a.ruleRecords bs)

theorem events_findingOf (a : AtRule) (bs : List Breakpoint) (r : Rule) :
    (findingOf (fragments? (trim a.params.toList)) r).events bs = a.ruleRecords bs r := by
  unfold findingOf ruleRecords
  cases fragments? (trim a.params.toList) with
  | none => rfl
  | some all =>
    -- The fragments that do not occur in the selector change nothing in it.
    simp only [Option.map_some]
    split
    · simp [Finding.events, renamed, suffixFragments_filter_occursIn]
    · rfl

theorem flatMap_events_findings (a : AtRule) (bs : List Breakpoint) :
    a.findings.flatMap (Finding.events bs) = a.records bs := by
  have hnested : (if a.nestedCount = 0 then []
      else [Finding.nested a.source a.nestedCount]).flatMap (Finding.events bs) =
        a.nestedRecords := by
    unfold nestedRecords
    split <;> rfl
  unfold findings records
  rw [List.flatMap_append, hnested, List.flatMap_map]
  simp only [events_findingOf]

/-- No record of the walk is about a whole block of the stylesheet. -/
theorem level_of_mem_records {a : AtRule} {bs : List Breakpoint} {e : Event}
    (h : e ∈ a.records bs) : e.level ≠ .debug := by
  rw [← a.flatMap_events_findings bs] at h
  obtain ⟨f, -, he⟩ := List.mem_flatMap.mp h
  exact level_of_mem_events he

/-! ## Warnings and traces of a block -/

theorem filter_warn_records (a : AtRule) (bs : List Breakpoint) :
    (a.records bs).filter (·.level == .warn) =
      a.nestedRecords ++ a.warnings.map .unmatched := by
  have hnested : a.nestedRecords.filter (·.level == .warn) = a.nestedRecords := by
    unfold nestedRecords
    split <;> rfl
  have htraces : ∀ r, takesPart (fragments? (trim a.params.toList)) r = true →
      (a.ruleRecords bs r).filter (·.level == .warn) = [] := by
    intro r hr
    unfold ruleRecords
    simp [hr, Event.level]
  unfold records warnings leftOut
  rw [List.filter_append, hnested, List.filter_flatMap]
  congr 1
  induction a.rules with
  | nil => rfl
  | cons r more ih =>
    rw [List.flatMap_cons, ih, List.filter_cons]
    cases hr : takesPart (fragments? (trim a.params.toList)) r with
    | true => simp [htraces r hr]
    | false => simp [ruleRecords, hr, Event.level]

/-- Each rule that takes part is traced once for every breakpoint. -/
theorem countP_trace_records (a : AtRule) (bs : List Breakpoint) :
    (a.records bs).countP (·.level == .trace) =
      bs.length * (a.rules.filter (takesPart (fragments? (trim a.params.toList)))).length := by
  have hnested : a.nestedRecords.countP (·.level == .trace) = 0 := by
    unfold nestedRecords
    split <;> rfl
  unfold records
  rw [List.countP_append, hnested, Nat.zero_add]
  induction a.rules with
  | nil => rfl
  | cons r more ih =>
    rw [List.flatMap_cons, List.countP_append, ih, List.filter_cons]
    cases hr : takesPart (fragments? (trim a.params.toList)) r with
    | true =>
      have hown : (a.ruleRecords bs r).countP (·.level == .trace) = bs.length := by
        simp [ruleRecords, hr, Event.level, List.countP_map, Function.comp_def]
      rw [hown, if_pos rfl, List.length_cons, Nat.mul_succ, Nat.add_comm]
    | false => simp [ruleRecords, hr, Event.level]

end AtRule

namespace Expansion

/-! ## The whole log -/

theorem flatMap_events_survey {blocks : List AtRule} (h : (survey blocks).fault = none)
    (bs : List Breakpoint) :
    (survey blocks).findings.flatMap (Finding.events bs) = blocks.flatMap (·.records bs) := by
  rw [findings_survey h, List.flatMap_assoc]
  simp only [AtRule.flatMap_events_findings]

/-- After a success the log is made of these four parts. -/
theorem log_of_report_eq_ok {bs : Breakpoints} {s : Stylesheet} {r : Report}
    (hne : s.named responsive ≠ []) (hok : (expand bs s).report = .ok r) :
    (expand bs s).log = (reused bs.toList s).map (fun place => .reusing place.2) ++
      (s.named responsive).flatMap (·.records bs.toList) ++
      .removing r.removedBlocks ::
        (created bs.toList (reused bs.toList s)).map .appending := by
  have hfault := fault_of_report_eq_ok hok
  rw [(report_for hok).removed, expand_of_no_fault bs hne hfault]
  unfold surveyLog
  dsimp only
  rw [flatMap_events_survey hfault]

/-- Before anything is changed the log knows of no removal and no new block. -/
theorem not_isRemoving_of_mem_surveyLog {bs : Breakpoints} {s : Stylesheet} {e : Event}
    (h : e ∈ surveyLog bs s) : e.isRemoving = false ∧ e.isAppending = false := by
  rcases List.mem_append.mp h with h | h
  · obtain ⟨place, -, rfl⟩ := List.mem_map.mp h
    exact ⟨rfl, rfl⟩
  · obtain ⟨f, -, he⟩ := List.mem_flatMap.mp h
    have hlevel := level_of_mem_events he
    cases e with
    | removing count => exact absurd rfl hlevel
    | appending b => exact absurd rfl hlevel
    | _ => exact ⟨rfl, rfl⟩

/-! ## What the log counts -/

/-- Every rule that a breakpoint gets is traced once. -/
theorem countP_trace_walk (blocks : List AtRule) (bs : List Breakpoint) :
    (blocks.flatMap (·.records bs)).countP (·.level == .trace) =
      (bs.map fun b => (blocks.flatMap (·.variants b)).length).sum := by
  induction blocks with
  | nil => simp
  | cons a more ih =>
    have hown : (bs.map fun b => (a.variants b).length).sum =
        bs.length * (a.rules.filter (takesPart (fragments? (trim a.params.toList)))).length := by
      simp [AtRule.variants, variantsOf]
    simp only [List.flatMap_cons, List.countP_append, List.length_append, List.sum_map_add]
    rw [ih, a.countP_trace_records, hown]

/-- The walk is all that the log says beside the records of whole blocks. -/
theorem filter_log {bs : Breakpoints} {s : Stylesheet} {r : Report}
    (hne : s.named responsive ≠ []) (hok : (expand bs s).report = .ok r) :
    (expand bs s).log.filter (·.level != .debug) =
      (s.named responsive).flatMap (·.records bs.toList) := by
  have hwalk : ((s.named responsive).flatMap (·.records bs.toList)).filter (·.level != .debug) =
      (s.named responsive).flatMap (·.records bs.toList) := by
    rw [List.filter_eq_self]
    intro e he
    obtain ⟨a, -, ha⟩ := List.mem_flatMap.mp he
    simpa using AtRule.level_of_mem_records ha
  rw [log_of_report_eq_ok hne hok, List.filter_append, List.filter_append, hwalk]
  simp [List.filter_map, Function.comp_def, Event.level]

/-- The warnings and the traces of the log all stand in the walk. -/
theorem filter_level_log {bs : Breakpoints} {s : Stylesheet} {r : Report}
    (hne : s.named responsive ≠ []) (hok : (expand bs s).report = .ok r) {l : Level}
    (hl : l ≠ .debug) :
    (expand bs s).log.filter (·.level == l) =
      ((s.named responsive).flatMap (·.records bs.toList)).filter (·.level == l) := by
  rw [← filter_log hne hok, List.filter_filter]
  congr 1
  funext e
  by_cases he : e.level = l <;> simp [he, hl]

theorem countP_trace_log {bs : Breakpoints} {s : Stylesheet} {r : Report}
    (hne : s.named responsive ≠ []) (hok : (expand bs s).report = .ok r) :
    (expand bs s).log.countP (·.level == .trace) = r.variants := by
  rw [(report_for hok).variants, List.countP_eq_length_filter,
    filter_level_log hne hok (by decide : Level.trace ≠ .debug), ← List.countP_eq_length_filter,
    countP_trace_walk, List.sum_eq_foldr, List.foldr_map]
  rfl

theorem filter_warn_log {bs : Breakpoints} {s : Stylesheet} {r : Report}
    (hne : s.named responsive ≠ []) (hok : (expand bs s).report = .ok r) :
    (expand bs s).log.filter (·.level == .warn) =
      (s.named responsive).flatMap fun a => a.nestedRecords ++ a.warnings.map .unmatched := by
  rw [filter_level_log hne hok (by decide : Level.warn ≠ .debug), List.filter_flatMap]
  simp only [AtRule.filter_warn_records]

/-- Without the records of nested at-rules the warnings of the log are those of the report. -/
theorem map_message_warnings (blocks : List AtRule) :
    ((blocks.flatMap fun a => a.nestedRecords ++ a.warnings.map Event.unmatched).filter
        (!·.isNested)).map Event.message =
      (blocks.flatMap AtRule.warnings).map Warning.display := by
  have hblock : ∀ a : AtRule, (a.nestedRecords ++ a.warnings.map Event.unmatched).filter
      (!·.isNested) = a.warnings.map Event.unmatched := by
    intro a
    have hnested : a.nestedRecords.filter (!·.isNested) = [] := by
      unfold AtRule.nestedRecords
      split <;> rfl
    rw [List.filter_append, hnested, List.nil_append, List.filter_eq_self]
    intro e he
    obtain ⟨w, -, rfl⟩ := List.mem_map.mp he
    rfl
  rw [List.filter_flatMap, List.map_flatMap, List.map_flatMap]
  simp only [hblock, List.map_map]
  rfl

/-- Each breakpoint has its record, either of the block that it reuses or of its new one. -/
theorem countP_places_log {bs : Breakpoints} {s : Stylesheet} {r : Report}
    (hne : s.named responsive ≠ []) (hok : (expand bs s).report = .ok r) :
    (expand bs s).log.countP Event.isReusing + (expand bs s).log.countP Event.isAppending =
      bs.toList.length := by
  have hwalk : ∀ p : Event → Bool, (∀ e, p e = true → e.level = .debug) →
      ((s.named responsive).flatMap (·.records bs.toList)).countP p = 0 := by
    intro p hp
    rw [List.countP_eq_zero]
    intro e he hpe
    obtain ⟨a, -, ha⟩ := List.mem_flatMap.mp he
    exact AtRule.level_of_mem_records ha (hp e hpe)
  have hreusing : ∀ e : Event, e.isReusing = true → e.level = .debug := by
    intro e he
    cases e <;> first | rfl | cases he
  have happending : ∀ e : Event, e.isAppending = true → e.level = .debug := by
    intro e he
    cases e <;> first | rfl | cases he
  have hperm := (reused_created_perm (nodup_of_names bs.nodup) s).length_eq
  rw [List.length_append, List.length_map] at hperm
  rw [log_of_report_eq_ok hne hok]
  simp only [List.countP_append, List.countP_cons, List.countP_map, hwalk _ hreusing,
    hwalk _ happending, Function.comp_def, Event.isReusing, Event.isAppending]
  simpa using hperm

/-! ## The law -/

/-- The log agrees with what the expansion did. After a success on responsive blocks it has one
trace for each rule that was written. Beside the records of whole blocks it is the walk over the
responsive blocks, in each of which what is nested comes before the rules. So its warnings are,
block by block, that at-rules are dropped, with their number, and which rules are left out; the
latter are the warnings of the report. Every breakpoint has one record, of the block that it
reuses or of the new one. The number of blocks that went away stands in one record, behind all
warnings and traces and in front of all new blocks. After a fault the log knows neither of a
removal nor of new blocks. -/
theorem the_log_agrees_with_the_expansion (bs : Breakpoints) (s : Stylesheet) :
    (∀ r, (∃ n ∈ s.nodes, n.isNamed responsive = true) → (expand bs s).report = .ok r →
      (expand bs s).log.countP (·.level == .trace) = r.variants ∧
      (expand bs s).log.filter (·.level != .debug) =
        (s.named responsive).flatMap (·.records bs.toList) ∧
      (expand bs s).log.filter (·.level == .warn) = ((s.named responsive).flatMap fun a =>
        (if a.nestedCount = 0 then [] else [.droppingNested a.source a.nestedCount]) ++
          a.leftOut.map fun rule => .unmatched ⟨rule.selector, rule.source⟩) ∧
      (((expand bs s).log.filter (·.level == .warn)).filter (!·.isNested)).map Event.message =
        r.warnings.map Warning.display ∧
      (expand bs s).log.countP Event.isReusing + (expand bs s).log.countP Event.isAppending =
        bs.toList.length ∧
      ∃ before behind, (expand bs s).log = before ++ .removing r.removedBlocks :: behind ∧
        (∀ e ∈ before, e.isRemoving = false ∧ e.isAppending = false) ∧
        ∀ e ∈ behind, e.isAppending = true) ∧
    ∀ f, (expand bs s).report = .error f →
      ∀ e ∈ (expand bs s).log, e.isRemoving = false ∧ e.isAppending = false := by
  constructor
  · rintro r ⟨n, hn, hname⟩ hok
    have hne : s.named responsive ≠ [] := by
      intro hnil
      rw [Stylesheet.named_eq_nil_iff.mp hnil n hn] at hname
      cases hname
    have hfault := fault_of_report_eq_ok hok
    have hwarn := filter_warn_log hne hok
    refine ⟨countP_trace_log hne hok, filter_log hne hok, ?_, ?_, countP_places_log hne hok, ?_⟩
    · rw [hwarn]
      simp only [AtRule.warnings, List.map_map]
      rfl
    · rw [hwarn, map_message_warnings, (report_for hok).warnings, warnings_survey hfault]
    · refine ⟨surveyLog bs s, (created bs.toList (reused bs.toList s)).map .appending, ?_,
        fun e => not_isRemoving_of_mem_surveyLog, ?_⟩
      · rw [(report_for hok).removed, expand_of_no_fault bs hne hfault]
      · intro e he
        obtain ⟨b, -, rfl⟩ := List.mem_map.mp he
        rfl
  · intro f hf e he
    rw [report_eq_error_iff, Stylesheet.violations, ← fault_survey] at hf
    rw [expand_of_fault bs hf] at he
    exact not_isRemoving_of_mem_surveyLog he

/-- Two of three breakpoints share their query. One block has at-rules nested in it and a rule that
is left out. -/
theorem a_log_with_shared_queries_agrees :
    let bs := Breakpoints.ofList [⟨"m", "(a)"⟩, ⟨"t", "(b)"⟩, ⟨"d", "(a)"⟩]
    let s : Stylesheet :=
      ⟨[.block "responsive" "(.x)" [.rule ".x .w" [] ⟨1, 23⟩, .statement "import" "q" ⟨2, 1⟩,
          .rule ".y" [] ⟨3, 1⟩, .block "media" "(b)" [] ⟨4, 1⟩] ⟨1, 1⟩,
        .statement "media" "(a)" ⟨5, 1⟩, .block "responsive" "" [.rule ".q" [] ⟨6, 15⟩] ⟨6, 1⟩]⟩
    let r : Report := ⟨true, 2, 6, [⟨".y", ⟨3, 1⟩⟩]⟩
    (∃ n ∈ s.nodes, n.isNamed responsive = true) ∧ (expand bs s).report = .ok r ∧
      (expand bs s).log.countP (·.level == .trace) = 6 ∧
      ((expand bs s).log.filter (·.level == .warn)).map Event.message =
        ["1:1: dropping 2 at-rule(s) nested in @responsive",
          "responsive-query: 3:1: selector invalid under this responsive query's parameters " ++
            "(\".y\")"] ∧
      (expand bs s).log.countP Event.isReusing +
        (expand bs s).log.countP Event.isAppending = 3 := by
  intro bs s r
  have hblocks : ∃ n ∈ s.nodes, n.isNamed responsive = true := by decide +kernel
  have hok : (expand bs s).report = .ok r := by rfl
  obtain ⟨htraces, -, hwarnings, -, hplaces, -⟩ :=
    (the_log_agrees_with_the_expansion bs s).1 r hblocks hok
  refine ⟨hblocks, hok, htraces, ?_, hplaces⟩
  rw [hwarnings]
  decide +kernel

end Expansion

end ResponsiveCss
