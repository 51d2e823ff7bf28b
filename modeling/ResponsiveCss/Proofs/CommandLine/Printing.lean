-- What a run without a directory for its results prints: one piece for each
-- input, in order, and each piece comes from the result of its own input
-- alone. A result that is a failure prints nothing and makes the run end with 1.
import ResponsiveCss.Proofs.CommandLine.Phases
import ResponsiveCss.Proofs.Files.Tree

namespace ResponsiveCss.CommandLine

open Files

/-! ## One input -/

/-- What a result puts on the standard output: its text, with a line break at the end unless it
has one there. A failure puts nothing there. -/
def printed : Except Error Expander.Processed → String
  | .ok p => p.css ++ if p.css.toList.getLast? = some '\n' then "" else "\n"
  | .error _ => ""

/-- What a result of the input at a path has to complain of: its warnings, or its failure. -/
def complaint (path : String) : Except Error Expander.Processed → String
  | .ok p => String.join (p.report.warnings.map (warningLine path))
  | .error f => path ++ ": " ++ f.message ++ "\n"

/-- What is said about one result, if there is no directory for it. -/
def said (path : String) (result : Except Error Expander.Processed) : Output :=
  ⟨printed result, complaint path result, !result.isOk⟩

theorem Output.concat_cons (o : Output) (more : List Output) :
    concat (o :: more) = o.append (concat more) := rfl

/-- All that is said about several results: the pieces in order, and whether one is a failure. -/
theorem concat_said (result : String → Except Error Expander.Processed)
    {paths texts : List String} (hlength : paths.length = texts.length) :
    Output.concat ((paths.zip texts).map fun source => said source.1 (result source.2)) =
      ⟨String.join (texts.map fun text => printed (result text)),
        String.join (List.zipWith (fun path text => complaint path (result text)) paths texts),
        !texts.all fun text => (result text).isOk⟩ := by
  induction paths generalizing texts with
  | nil =>
    cases texts with
    | nil => rfl
    | cons => cases hlength
  | cons path more ih =>
    cases texts with
    | nil => cases hlength
    | cons text others =>
      rw [List.zip_cons_cons, List.map_cons, Output.concat_cons, ih (Nat.succ.inj hlength)]
      simp [Output.append, said]

section

variable {σ : Type} [FileAccess (StateM σ)] {files : σ} {a : Arguments} {e : Expander}

/-- The step: what an input comes to is said, and no file is touched. -/
theorem handle_eq [Minifier] (hdirectory : a.outDir = none) (path text : String) (files : σ) :
    (handle a e path text : StateM σ Output) files =
      (said path (e.process a.style text), files) := by
  unfold handle
  cases e.process a.style text with
  | error f => rfl
  | ok p =>
    have hprinted : asLines p.css = printed (.ok p) := by
      by_cases hend : p.css.toList.getLast? = some '\n' <;> simp [asLines, printed, hend]
    simp only [deliver, hdirectory]
    change (Output.append _ _, files) = _
    simp [Output.append, said, complaint, hprinted, Except.isOk, Except.toBool]

/-- The run: all inputs are handled one after the other, and no file is touched. -/
theorem handleAll_eq [Minifier] (hdirectory : a.outDir = none)
    (sources : List (String × String)) (files : σ) :
    (handleAll a e sources : StateM σ (List Output)) files =
      (sources.map fun source => said source.1 (e.process a.style source.2), files) := by
  unfold handleAll
  induction sources with
  | nil => rfl
  | cons source more ih =>
    rw [List.mapM_cons, bind_of_eq (handle_eq hdirectory source.1 source.2 files), bind_of_eq ih]
    rfl

/-! ## The law -/

/-- A run without a directory changes no file. If there is no expander, or one input cannot be
read, it prints nothing and ends with 1. Otherwise it prints what each result puts on the
standard output, in the order of the inputs, and ends with 1 just if one of them is a failure.
Every piece comes from the text of its own input. Complaints come in the same order, behind the
banner. -/
theorem a_run_prints_what_succeeded [Minifier] [QuietReading σ] (files : σ)
    (arguments : List String) (a : Arguments) (hargs : Arguments.ofList arguments = .ok a)
    (hdirectory : a.outDir = none) :
    (((∃ f, expanderOf a files = .error f) ∨
        ∃ path ∈ a.inputs, ∃ f, textAt files path = .error f) →
      ∃ stderr, (command arguments : StateM σ Ending) files = (⟨1, "", stderr⟩, files)) ∧
    ∀ (e : Expander) (texts : List String), expanderOf a files = .ok e →
      a.inputs.map (textAt files) = texts.map .ok →
      (command arguments : StateM σ Ending) files =
        (⟨if texts.all fun text => (e.process a.style text).isOk then 0 else 1,
          String.join (texts.map fun text => printed (e.process a.style text)),
          banner ++ "\n" ++ String.join (List.zipWith
            (fun path text => complaint path (e.process a.style text)) a.inputs texts)⟩,
          files) := by
  rw [command_of_ofList hargs]
  refine ⟨fun hfault => ?_, fun e texts he htexts => ?_⟩
  · obtain ⟨stderr, hrun⟩ := run_of_fault hfault
    rw [hrun]
    exact ⟨_, rfl⟩
  · have hlength : a.inputs.length = texts.length := by
      simpa using congrArg List.length htexts
    rw [run_of_texts he htexts, handleAll_eq hdirectory]
    dsimp only
    rw [concat_said _ hlength]
    cases hall : texts.all fun text => (e.process a.style text).isOk <;>
      simp [Output.ending, Ending.underBanner]

end

/-- One of three files has a brace too many and one has a warning; the latter is given twice.
Without the last file nothing is printed. -/
theorem a_faulty_input_keeps_no_other_back :
    let arguments := ["-b", "m=print", "--style", "compact", "a.css", "b.css", "c.css", "a.css"]
    let a : Arguments := ⟨["a.css", "b.css", "c.css", "a.css"], none, ["m=print"], none, .compact⟩
    let files : FileTree :=
      ⟨[(⟨false, ["a.css"]⟩, .file (.text "@responsive (.x) \x7b .x \x7b\x7d .y \x7b\x7d \x7d")),
        (⟨false, ["b.css"]⟩, .file (.text ".z \x7b\x7d \x7d")),
        (⟨false, ["c.css"]⟩, .file (.text ".z \x7b\x7d\n"))]⟩
    let warning := "a.css:1:26: " ++ Warning.message ++ " (\".y\")\n"
    let variant := "@media print \x7b .x-m \x7b\x7d \x7d\n"
    (Arguments.ofList arguments = .ok a ∧ a.outDir = none) ∧
      (command arguments : StateM FileTree Ending) files =
        (⟨1, variant ++ ".z \x7b\x7d\n" ++ variant,
          banner ++ "\n" ++
            (warning ++ "b.css: parse error at 1:7: Unexpected \x7d\n" ++ warning)⟩, files) ∧
      ∃ stderr, (command arguments : StateM FileTree Ending) ⟨files.entries.take 2⟩ =
        (⟨1, "", stderr⟩, ⟨files.entries.take 2⟩) := by
  intro arguments a files warning variant
  have hargs : Arguments.ofList arguments = .ok a := by rfl
  have he : expanderOf a files = .ok ⟨.ofList [⟨"m", "print"⟩]⟩ := by rfl
  have htexts : a.inputs.map (textAt files) =
      ["@responsive (.x) \x7b .x \x7b\x7d .y \x7b\x7d \x7d", ".z \x7b\x7d \x7d", ".z \x7b\x7d\n",
        "@responsive (.x) \x7b .x \x7b\x7d .y \x7b\x7d \x7d"].map .ok := by rfl
  have hrun := (a_run_prints_what_succeeded files arguments a hargs rfl).2 _ _ he htexts
  have hfault := (a_run_prints_what_succeeded (⟨files.entries.take 2⟩ : FileTree)
    arguments a hargs rfl).1 (Or.inr ⟨"c.css", by decide, .notFound, rfl⟩)
  exact ⟨⟨hargs, rfl⟩, hrun.trans (congrArg (·, files) (by decide +kernel)), hfault⟩

end ResponsiveCss.CommandLine
