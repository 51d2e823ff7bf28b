-- How a run comes to its expander: the options of the configuration file, if
-- one is named, and then the pairs of the command line on top of them. Where
-- several things are wrong, the file comes first, then the first bad pair, and
-- last that no breakpoints are given at all.
import Mathlib.Data.List.Forall2
import ResponsiveCss.Proofs.Breakpoints
import ResponsiveCss.Proofs.CommandLine.Phases

namespace ResponsiveCss

namespace Breakpoint

/-! ## Pairs one after the other -/

/-- The pairs are valid, and these are their breakpoints in order. -/
def AllRead (pairs : List String) (bs : List Breakpoint) : Prop :=
  List.Forall₂ (fun pair b => ofPair pair = .ok b) pairs bs

/-- This is wrong with one of the pairs, and those in front of it are valid. -/
def FirstFault (pairs : List String) (f : OptionsError) : Prop :=
  ∃ before pair behind, pairs = before ++ pair :: behind ∧
    (∀ p ∈ before, ∃ b, ofPair p = .ok b) ∧ ofPair pair = .error f

theorem firstFault_cons {pair : String} {more : List String} {f : OptionsError} :
    FirstFault (pair :: more) f ↔
      ofPair pair = .error f ∨ (∃ b, ofPair pair = .ok b) ∧ FirstFault more f := by
  constructor
  · rintro ⟨before, bad, behind, heq, hbefore, hbad⟩
    cases before with
    | nil =>
      cases heq
      exact Or.inl hbad
    | cons first before =>
      cases heq
      rw [List.forall_mem_cons] at hbefore
      exact Or.inr ⟨hbefore.1, before, bad, behind, rfl, hbefore.2, hbad⟩
  · rintro (hbad | ⟨hpair, before, bad, behind, rfl, hbefore, hbad⟩)
    · exact ⟨[], pair, more, rfl, by simp, hbad⟩
    · exact ⟨pair :: before, bad, behind, rfl, List.forall_mem_cons.mpr ⟨hpair, hbefore⟩, hbad⟩

theorem mapM_ofPair_eq_ok_iff {pairs : List String} {bs : List Breakpoint} :
    pairs.mapM ofPair = .ok bs ↔ AllRead pairs bs := by
  unfold AllRead
  induction pairs generalizing bs with
  | nil =>
    rw [List.forall₂_nil_left_iff]
    exact ⟨fun h => by cases h; rfl, fun h => h ▸ rfl⟩
  | cons pair more ih =>
    rw [List.mapM_cons]
    cases hpair : ofPair pair with
    | error f => cases bs <;> simp [bind, Except.bind, hpair]
    | ok b =>
      cases hmore : more.mapM ofPair with
      | error f => cases bs <;> simp [bind, Except.bind, ← ih, hmore]
      | ok others => cases bs <;> simp [bind, Except.bind, pure, Except.pure, ← ih, hmore, hpair]

theorem mapM_ofPair_eq_error_iff {pairs : List String} {f : OptionsError} :
    pairs.mapM ofPair = .error f ↔ FirstFault pairs f := by
  induction pairs with
  | nil => simp [FirstFault, pure, Except.pure]
  | cons pair more ih =>
    rw [List.mapM_cons, firstFault_cons, ← ih]
    cases ofPair pair with
    | error g => simp [bind, Except.bind]
    | ok b => cases more.mapM ofPair <;> simp [bind, Except.bind, pure, Except.pure]

/-! ## The place of a breakpoint -/

/-- The step: a breakpoint stays in its place, and gets the new query if that comes with its
name. -/
theorem getElem?_put {b c : Breakpoint} {l : List Breakpoint} (hnodup : (l.map (·.name)).Nodup)
    {i : Nat} (h : l[i]? = some c) :
    (put b l)[i]? = some (if b.name = c.name then b else c) := by
  induction l generalizing i with
  | nil => simp at h
  | cons d more ih =>
    rw [List.map_cons, List.nodup_cons] at hnodup
    unfold put
    cases i with
    | zero =>
      cases h
      by_cases hname : c.name = b.name
      · rw [if_pos hname, if_pos hname.symm, List.getElem?_cons_zero]
      · rw [if_neg hname, if_neg fun h => hname h.symm, List.getElem?_cons_zero]
    | succ i =>
      rw [List.getElem?_cons_succ] at h
      by_cases hd : d.name = b.name
      · -- The breakpoint with this name stands in front, so the others keep theirs.
        have hother : ¬ b.name = c.name := by
          intro hname
          apply hnodup.1
          rw [hd, hname]
          exact List.mem_map_of_mem (List.mem_of_getElem? h)
        rw [if_pos hd, if_neg hother, List.getElem?_cons_succ, h]
      · rw [if_neg hd, List.getElem?_cons_succ, ih hnodup.2 h]

end Breakpoint

namespace Breakpoints

open Breakpoint

/-- The run: a breakpoint stays in its place, and gets the last query that comes with its name. -/
theorem getElem?_insertAll {bs : Breakpoints} {c : Breakpoint} {i : Nat}
    (h : bs.toList[i]? = some c) (l : List Breakpoint) :
    (bs.insertAll l).toList[i]? = some ((l.filter (·.name == c.name)).getLast?.getD c) := by
  induction l generalizing bs c with
  | nil => exact h
  | cons b more ih =>
    have hput := getElem?_put (b := b) bs.nodup h
    rw [← toList_insert] at hput
    have hmore := ih hput
    by_cases hname : b.name = c.name
    · rw [if_pos hname, hname] at hmore
      simpa [insertAll, hname, List.getLast?_cons] using hmore
    · rw [if_neg hname] at hmore
      simpa [insertAll, hname] using hmore

theorem ofList_append (fed added : List Breakpoint) :
    ofList (fed ++ added) = (ofList fed).insertAll added := insertAll_append _ _ _

end Breakpoints

namespace CommandLine

open Files Breakpoint

/-! ## The configuration -/

section

variable {σ : Type} [FileAccess (StateM σ)]

/-- The options of the configuration file, or why there are none; without such a file no options
are set. -/
def configured (files : σ) : Option String → Except OptionsError Options
  | none => .ok .unset
  | some path =>
    match textAt files path with
    | .error e => .error (.unreadable path e.message)
    | .ok text => Options.ofJson text

theorem loadOptions_fst (path : String) (files : σ) :
    ((loadOptions path : StateM σ (Except OptionsError Options)) files).1 =
      configured files (some path) := by
  obtain ⟨text, files', hread⟩ : ∃ text files',
      (readText path : StateM σ (Except FileError String)) files = (text, files') := ⟨_, _, rfl⟩
  have htext : textAt files path = text := congrArg Prod.fst hread
  unfold loadOptions configured
  rw [bind_of_eq hread]
  dsimp only
  rw [htext]
  cases text <;> rfl

theorem expanderOf_eq (files : σ) (a : Arguments) :
    expanderOf a files = (configured files a.config).bind fun o =>
      (withPairs o a.breakpoints).bind Expander.ofOptions := by
  unfold expanderOf buildExpander
  cases a.config with
  | none => rfl
  | some path =>
    rw [← loadOptions_fst]
    rfl

/-! ## The pairs on top of the configuration -/

theorem withPairs_of_fault {o : Options} {pairs : List String} {f : OptionsError}
    (h : FirstFault pairs f) : withPairs o pairs = .error f := by
  have hne : pairs.isEmpty = false := by
    obtain ⟨before, pair, behind, rfl, -⟩ := h
    simp
  unfold withPairs
  rw [if_neg (by simp [hne]), mapM_ofPair_eq_error_iff.mpr h]
  rfl

theorem withPairs_of_read {o : Options} {pairs : List String} {added : List Breakpoint}
    (h : AllRead pairs added) :
    withPairs o pairs = .ok (if pairs = [] then o else
      ⟨some ((o.breakpoints.getD .empty).insertAll added)⟩) := by
  unfold withPairs
  cases pairs with
  | nil => rfl
  | cons pair more =>
    rw [mapM_ofPair_eq_ok_iff.mpr h]
    rfl

theorem read_or_fault (pairs : List String) :
    (∃ added, AllRead pairs added) ∨ ∃ f, FirstFault pairs f := by
  cases h : pairs.mapM ofPair with
  | ok added => exact Or.inl ⟨added, mapM_ofPair_eq_ok_iff.mp h⟩
  | error f => exact Or.inr ⟨f, mapM_ofPair_eq_error_iff.mp h⟩

/-- These are the breakpoints of the options with the added ones fed behind them. Those of the
options keep their places; where names are repeated, the last query counts. -/
structure Extends (o : Options) (added : List Breakpoint) (bs : Breakpoints) : Prop where
  fed : ∀ fed, o.breakpoints.getD .empty = .ofList fed → bs = .ofList (fed ++ added)
  places : ∀ (i : Nat) b, (o.breakpoints.getD .empty).toList[i]? = some b →
    bs.toList[i]? = some ((added.filter (·.name == b.name)).getLast?.getD b)

theorem extends_iff {o : Options} {added : List Breakpoint} {bs : Breakpoints} :
    Extends o added bs ↔ bs = (o.breakpoints.getD .empty).insertAll added := by
  constructor
  · intro h
    rw [h.fed _ (Breakpoints.ofList_toList _).symm, Breakpoints.ofList_append,
      Breakpoints.ofList_toList]
  · rintro rfl
    refine ⟨fun fed hfed => ?_, fun i b hb => Breakpoints.getElem?_insertAll hb added⟩
    rw [Breakpoints.ofList_append, hfed]

/-! ## The four endings -/

variable {files : σ} {a : Arguments} {o : Options} {f : OptionsError}

theorem expanderOf_of_unconfigured (hconfig : configured files a.config = .error f) :
    expanderOf a files = .error f := by
  rw [expanderOf_eq, hconfig]
  rfl

theorem expanderOf_of_fault (hconfig : configured files a.config = .ok o)
    (hfault : FirstFault a.breakpoints f) : expanderOf a files = .error f := by
  rw [expanderOf_eq, hconfig]
  dsimp only [Except.bind]
  rw [withPairs_of_fault hfault]

theorem expanderOf_of_none (hconfig : configured files a.config = .ok o)
    (hnone : o.breakpoints = none) (hpairs : a.breakpoints = []) :
    expanderOf a files = .error .missingBreakpoints := by
  have hoptions : Expander.ofOptions o = .error .missingBreakpoints := by
    unfold Expander.ofOptions
    rw [hnone]
  rw [expanderOf_eq, hconfig, hpairs]
  exact hoptions

theorem expanderOf_of_given {added : List Breakpoint} (hconfig : configured files a.config = .ok o)
    (hread : AllRead a.breakpoints added) (hgiven : o.breakpoints ≠ none ∨ a.breakpoints ≠ []) :
    expanderOf a files = .ok ⟨(o.breakpoints.getD .empty).insertAll added⟩ := by
  rw [expanderOf_eq, hconfig]
  dsimp only [Except.bind]
  rw [withPairs_of_read hread]
  by_cases hpairs : a.breakpoints = []
  · -- Without pairs the options themselves must have breakpoints.
    obtain ⟨bs, hbs⟩ := Option.ne_none_iff_exists'.mp (hgiven.resolve_right (not_not_intro hpairs))
    have hoptions : Expander.ofOptions o = .ok ⟨bs⟩ := by
      unfold Expander.ofOptions
      rw [hbs]
    rw [hpairs] at hread
    cases hread
    rw [if_pos hpairs, hbs]
    exact hoptions
  · rw [if_neg hpairs]
    rfl

/-- The ways in which a run comes to an expander, or to the lack of one. -/
inductive Ends (files : σ) (a : Arguments) : Except OptionsError Expander → Prop
  | unconfigured {f : OptionsError} (hconfig : configured files a.config = .error f) :
      Ends files a (.error f)
  | fault {o : Options} {f : OptionsError} (hconfig : configured files a.config = .ok o)
      (hfault : FirstFault a.breakpoints f) : Ends files a (.error f)
  | missing {o : Options} (hconfig : configured files a.config = .ok o)
      (hnone : o.breakpoints = none) (hpairs : a.breakpoints = []) :
      Ends files a (.error .missingBreakpoints)
  | given {o : Options} {added : List Breakpoint} {e : Expander}
      (hconfig : configured files a.config = .ok o) (hread : AllRead a.breakpoints added)
      (hgiven : o.breakpoints ≠ none ∨ a.breakpoints ≠ [])
      (hextends : Extends o added e.breakpoints) : Ends files a (.ok e)

theorem expanderOf_of_ends {r : Except OptionsError Expander} (h : Ends files a r) :
    expanderOf a files = r := by
  cases h with
  | unconfigured hconfig => exact expanderOf_of_unconfigured hconfig
  | fault hconfig hfault => exact expanderOf_of_fault hconfig hfault
  | missing hconfig hnone hpairs => exact expanderOf_of_none hconfig hnone hpairs
  | given hconfig hread hgiven hextends =>
    rw [expanderOf_of_given hconfig hread hgiven, ← extends_iff.mp hextends]

/-- Every run comes to one of the four endings. -/
theorem exists_ends (files : σ) (a : Arguments) : ∃ r, Ends files a r := by
  cases hconfig : configured files a.config with
  | error f => exact ⟨_, .unconfigured hconfig⟩
  | ok o =>
    rcases read_or_fault a.breakpoints with ⟨added, hread⟩ | ⟨f, hfault⟩
    · by_cases hgiven : o.breakpoints = none ∧ a.breakpoints = []
      · exact ⟨_, .missing hconfig hgiven.1 hgiven.2⟩
      · exact ⟨.ok ⟨_⟩, .given hconfig hread (not_and_or.mp hgiven) (extends_iff.mpr rfl)⟩
    · exact ⟨_, .fault hconfig hfault⟩

theorem expanderOf_eq_iff {r : Except OptionsError Expander} :
    expanderOf a files = r ↔ Ends files a r := by
  constructor
  · rintro rfl
    obtain ⟨r, hr⟩ := exists_ends files a
    rwa [expanderOf_of_ends hr]
  · exact expanderOf_of_ends

/-! ## The law -/

/-- A run has an expander just if its configuration file can be read and holds options, every pair
is valid, and breakpoints are given in one way or the other. It then has the breakpoints of the
configuration with those of the pairs fed behind them. Otherwise the fault of the configuration
comes first, then that of the first pair that is not valid, and last that there are no
breakpoints. -/
theorem an_expander_comes_from_the_configuration_and_the_pairs (files : σ) (a : Arguments) :
    (∀ e, expanderOf a files = .ok e ↔
      ∃ o added, configured files a.config = .ok o ∧ AllRead a.breakpoints added ∧
        (o.breakpoints ≠ none ∨ a.breakpoints ≠ []) ∧ Extends o added e.breakpoints) ∧
    ∀ f, expanderOf a files = .error f ↔
      configured files a.config = .error f ∨
      ∃ o, configured files a.config = .ok o ∧
        (FirstFault a.breakpoints f ∨
          o.breakpoints = none ∧ a.breakpoints = [] ∧ f = .missingBreakpoints) := by
  refine ⟨fun e => ?_, fun f => ?_⟩
  · rw [expanderOf_eq_iff]
    constructor
    · intro h
      cases h with
      | @given o added _ hconfig hread hgiven hextends =>
        exact ⟨o, added, hconfig, hread, hgiven, hextends⟩
    · rintro ⟨o, added, hconfig, hread, hgiven, hextends⟩
      exact .given hconfig hread hgiven hextends
  · rw [expanderOf_eq_iff]
    constructor
    · intro h
      cases h with
      | unconfigured hconfig => exact Or.inl hconfig
      | @fault o _ hconfig hfault => exact Or.inr ⟨o, hconfig, Or.inl hfault⟩
      | @missing o hconfig hnone hpairs =>
        exact Or.inr ⟨o, hconfig, Or.inr ⟨hnone, hpairs, rfl⟩⟩
    · rintro (hconfig | ⟨o, hconfig, hfault | ⟨hnone, hpairs, rfl⟩⟩)
      · exact .unconfigured hconfig
      · exact .fault hconfig hfault
      · exact .missing hconfig hnone hpairs

end

end CommandLine

end ResponsiveCss
