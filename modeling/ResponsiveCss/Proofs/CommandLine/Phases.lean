-- The phases of a run over files that may be of any kind: the expander is
-- built, all inputs are read, and only then comes the first result. The first
-- two phases leave the files as they are, so every fault in them ends the run
-- with nothing written and nothing printed.
import ResponsiveCss.CommandLine.Run
import ResponsiveCss.Proofs.Files.Access

namespace ResponsiveCss.CommandLine

open Files

section

variable {σ : Type} [FileAccess (StateM σ)] {files : σ} {a : Arguments}

/-- The expander of a run. -/
def expanderOf (a : Arguments) (files : σ) : Except OptionsError Expander :=
  ((buildExpander a : StateM σ (Except OptionsError Expander)) files).1

/-- The outputs for all inputs, one after the other. -/
def handleAll [Minifier] (a : Arguments) (e : Expander) (sources : List (String × String)) :
    StateM σ (List Output) := sources.mapM fun (path, text) => handle a e path text

theorem handleAll_cons [Minifier] (e : Expander) (path text : String) (more : List (String × String))
    (files : σ) :
    (handleAll a e ((path, text) :: more) : StateM σ (List Output)) files =
      let first := (handle a e path text : StateM σ Output) files
      let others := (handleAll a e more : StateM σ (List Output)) first.2
      (first.1 :: others.1, others.2) := by
  unfold handleAll
  rw [List.mapM_cons]
  rfl

theorem command_of_ofList [Minifier] {arguments : List String}
    (h : Arguments.ofList arguments = .ok a) (files : σ) :
    (command arguments : StateM σ Ending) files =
      (((run a : StateM σ Ending) files).1.underBanner, ((run a : StateM σ Ending) files).2) := by
  unfold command runWith
  rw [h]
  rfl

/-! ## Faults -/

theorem exists_texts {paths : List String}
    (h : ∀ path ∈ paths, ∀ f, textAt files path ≠ .error f) :
    ∃ texts : List String, paths.map (textAt files) = texts.map .ok := by
  induction paths with
  | nil => exact ⟨[], rfl⟩
  | cons path more ih =>
    rw [List.forall_mem_cons] at h
    obtain ⟨texts, htexts⟩ := ih h.2
    cases hpath : textAt files path with
    | error f => exact absurd hpath (h.1 f)
    | ok text => exact ⟨text :: texts, by rw [List.map_cons, List.map_cons, hpath, htexts]⟩

/-- A run has a fault in its options or its inputs, or an expander and a text for each input. -/
theorem fault_or_texts (a : Arguments) (files : σ) :
    ((∃ f, expanderOf a files = .error f) ∨
        ∃ path ∈ a.inputs, ∃ f, textAt files path = .error f) ∨
      ∃ e, expanderOf a files = .ok e ∧
        ∃ texts : List String, a.inputs.map (textAt files) = texts.map .ok := by
  cases he : expanderOf a files with
  | error f => exact .inl (.inl ⟨f, rfl⟩)
  | ok e =>
    by_cases hread : ∃ path ∈ a.inputs, ∃ f, textAt files path = .error f
    · exact .inl (.inr hread)
    · exact .inr ⟨e, rfl, exists_texts fun path hpath f hf => hread ⟨path, hpath, f, hf⟩⟩

variable [QuietReading σ]

/-! ## The expander -/

theorem loadOptions_snd (path : String) (files : σ) :
    ((loadOptions path : StateM σ (Except OptionsError Options)) files).2 = files := by
  unfold loadOptions
  rw [bind_of_eq (readText_eq path files)]
  cases textAt files path <;> rfl

theorem buildExpander_eq (a : Arguments) (files : σ) :
    (buildExpander a : StateM σ (Except OptionsError Expander)) files =
      (expanderOf a files, files) := by
  refine Prod.ext rfl ?_
  unfold buildExpander
  cases a.config with
  | none => rfl
  | some path => exact loadOptions_snd path files

/-! ## The inputs -/

theorem readInputs_of_texts {paths texts : List String}
    (h : paths.map (textAt files) = texts.map .ok) :
    (readInputs paths : StateM σ _) files = (.ok (paths.zip texts), files) := by
  induction paths generalizing texts with
  | nil =>
    cases texts with
    | nil => rfl
    | cons => cases h
  | cons path more ih =>
    cases texts with
    | nil => cases h
    | cons text others =>
      rw [List.map_cons, List.map_cons, List.cons.injEq] at h
      unfold readInputs
      rw [bind_of_eq (readText_eq path files), h.1]
      dsimp only
      rw [bind_of_eq (ih h.2)]
      rfl

/-- One path that cannot be read is enough, wherever it stands. -/
theorem readInputs_of_unreadable {paths : List String}
    (h : ∃ path ∈ paths, ∃ f, textAt files path = .error f) :
    ∃ path f, (readInputs paths : StateM σ _) files = (.error (path, f), files) := by
  induction paths with
  | nil => simp at h
  | cons path more ih =>
    unfold readInputs
    rw [bind_of_eq (readText_eq path files)]
    cases hpath : textAt files path with
    | error f => exact ⟨path, f, rfl⟩
    | ok text =>
      have hmore : ∃ other ∈ more, ∃ f, textAt files other = .error f := by
        obtain ⟨other, hother, f, hf⟩ := h
        rcases List.mem_cons.mp hother with rfl | hother
        · rw [hpath] at hf
          cases hf
        · exact ⟨other, hother, f, hf⟩
      obtain ⟨other, f, hread⟩ := ih hmore
      dsimp only
      rw [bind_of_eq hread]
      exact ⟨other, f, rfl⟩

/-! ## The run -/

/-- A fault in the options or in an input ends the run before anything is done. -/
theorem run_of_fault [Minifier] (h : (∃ f, expanderOf a files = .error f) ∨
      ∃ path ∈ a.inputs, ∃ f, textAt files path = .error f) :
    ∃ stderr, (run a : StateM σ Ending) files = (⟨1, "", stderr⟩, files) := by
  unfold run
  rw [bind_of_eq (buildExpander_eq a files)]
  cases he : expanderOf a files with
  | error f => exact ⟨_, rfl⟩
  | ok e =>
    obtain ⟨path, f, hread⟩ := readInputs_of_unreadable (h.resolve_left (by simp [he]))
    dsimp only
    rw [bind_of_eq hread]
    exact ⟨_, rfl⟩

/-- Without such a fault every input is handled, in order. -/
theorem run_of_texts [Minifier] {e : Expander} {texts : List String} (he : expanderOf a files = .ok e)
    (htexts : a.inputs.map (textAt files) = texts.map .ok) :
    (run a : StateM σ Ending) files =
      ((Output.concat (handleAll a e (a.inputs.zip texts) files).1).ending,
        (handleAll a e (a.inputs.zip texts) files).2) := by
  unfold run
  rw [bind_of_eq (buildExpander_eq a files), he]
  dsimp only
  rw [bind_of_eq (readInputs_of_texts htexts)]
  rfl

end

end ResponsiveCss.CommandLine
