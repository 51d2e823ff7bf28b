-- What a run with a directory for its results leaves there. Results go to the
-- directory one after the other, each under the name of its input alone, so the
-- last result of a name replaces those before it, and the run ends with 0.
import ResponsiveCss.Proofs.CommandLine.Phases
import ResponsiveCss.Proofs.Files.Tree

namespace ResponsiveCss.CommandLine

open Files FileTree

/-! ## Outputs without a failure -/

theorem Output.failed_append (a b : Output) : (a.append b).failed = (a.failed || b.failed) := rfl

/-- No output is a failure. -/
def Fine (all : List Output) : Prop := (Output.concat all).failed = false

theorem fine_cons {o : Output} {more : List Output} :
    Fine (o :: more) ↔ o.failed = false ∧ Fine more :=
  Bool.or_eq_false_iff

theorem fine_of_exit {all : List Output} (h : (Output.concat all).ending.exit = 0) : Fine all := by
  unfold Fine
  cases hfailed : (Output.concat all).failed with
  | false => rfl
  | true => simp [Output.ending, hfailed] at h

/-! ## Lists of inputs -/

/-- The texts of a list of inputs, cut where the inputs are cut. -/
theorem zip_of_append {files : FileTree} {before after texts : List String} {path : String}
    (h : (before ++ path :: after).map (textAt files) = texts.map .ok) :
    ∃ text before' after', files.read path = .ok text ∧
      (before ++ path :: after).zip texts = before' ++ (path, text) :: after' ∧
      after'.map Prod.fst = after := by
  induction before generalizing texts with
  | nil =>
    cases texts with
    | nil => cases h
    | cons text others =>
      rw [List.nil_append, List.map_cons, List.map_cons, List.cons.injEq] at h
      have hlength : after.length = others.length := by simpa using congrArg List.length h.2
      exact ⟨text, [], after.zip others, h.1, rfl, List.map_fst_zip (Nat.le_of_eq hlength)⟩
  | cons other more ih =>
    cases texts with
    | nil => cases h
    | cons text others =>
      rw [List.cons_append, List.map_cons, List.map_cons, List.cons.injEq] at h
      obtain ⟨text', before', after', hread, hzip, hafter⟩ := ih h.2
      refine ⟨text', (other, text) :: before', after', hread, ?_, hafter⟩
      rw [List.cons_append, List.zip_cons_cons, hzip, List.cons_append]

/-- Some input of a name is the last one of that name. -/
theorem exists_last {paths : List String} {path : String} (h : path ∈ paths) :
    ∃ before last after, paths = before ++ last :: after ∧ fileName? last = fileName? path ∧
      ∀ other ∈ after, fileName? other ≠ fileName? path := by
  induction paths generalizing path with
  | nil => cases h
  | cons first more ih =>
    by_cases hmore : ∃ other ∈ more, fileName? other = fileName? path
    · obtain ⟨other, hother, hname⟩ := hmore
      obtain ⟨before, last, after, rfl, hlast, hafter⟩ := ih hother
      rw [hname] at hlast hafter
      exact ⟨first :: before, last, after, rfl, hlast, hafter⟩
    · have hfirst : path = first := by
        rcases List.mem_cons.mp h with hfirst | hlater
        · exact hfirst
        · exact absurd ⟨path, hlater, rfl⟩ hmore
      subst hfirst
      exact ⟨[], path, more, rfl, rfl, fun other hother hname => hmore ⟨other, hother, hname⟩⟩

/-! ## One input -/

theorem replaces_of_store {directory path name text : String} {t : FileTree}
    (hname : fileName? path = some name)
    (h : ((store directory path text : StateM FileTree Output) t).1.failed = false) :
    Replaces directory name text t ((store directory path text : StateM FileTree Output) t).2 := by
  have hadds := adds_makeAll (lineage directory) t
  unfold store makeDirectories at h ⊢
  cases hmake : (makeAll (lineage directory) : StateM FileTree (Except FileError Unit)) t with
  | mk made t₁ =>
    rw [hmake] at hadds
    rw [bind_of_eq hmake] at h ⊢
    cases made with
    | error f => cases h
    | ok =>
      dsimp only at h ⊢
      rw [hname, Option.getD_some] at h ⊢
      cases hwrite : (writeText (inside directory name) text :
          StateM FileTree (Except FileError Unit)) t₁ with
      | mk wrote t₂ =>
        rw [bind_of_eq hwrite] at h ⊢
        cases wrote with
        | error f => cases h
        | ok =>
          have hreplaces := replaces_of_write (isName_of_fileName? hname) (eq_ok_of_update hwrite)
          refine ⟨hreplaces.written, fun hother hne hread => ?_⟩
          exact hreplaces.kept hother hne (read_inside_of_stays hadds hother hread)

section

variable [Minifier] {a : Arguments} {e : Expander} {directory : String} {t : FileTree}

theorem handle_of_result (hdirectory : a.outDir = some directory) {path text : String}
    {p : Expander.Processed} (hresult : e.process a.style text = .ok p) (t : FileTree) :
    (handle a e path text : StateM FileTree Output) t =
      let stored := (store directory path p.css : StateM FileTree Output) t
      (Output.append ⟨"", String.join (p.report.warnings.map (warningLine path)), false⟩ stored.1,
        stored.2) := by
  unfold handle
  rw [hresult]
  simp only [deliver, hdirectory]
  generalize (store directory path p.css : StateM FileTree Output) = step
  rfl

/-- The step: an input without a failure has its result in the directory. -/
theorem replaces_of_handle (hdirectory : a.outDir = some directory) {path name text : String}
    (hname : fileName? path = some name)
    (h : ((handle a e path text : StateM FileTree Output) t).1.failed = false) :
    ∃ p, e.process a.style text = .ok p ∧
      Replaces directory name p.css t ((handle a e path text : StateM FileTree Output) t).2 := by
  cases hresult : e.process a.style text with
  | error f =>
    unfold handle at h
    rw [hresult] at h
    cases h
  | ok p =>
    rw [handle_of_result hdirectory hresult] at h ⊢
    dsimp only at h ⊢
    rw [Output.failed_append, Bool.or_eq_false_iff] at h
    exact ⟨p, rfl, replaces_of_store hname h.2⟩

/-! ## All inputs -/

/-- The run: a file whose name no input has keeps its text. -/
theorem read_of_handleAll (hdirectory : a.outDir = some directory)
    {sources : List (String × String)}
    (hnames : ∀ source ∈ sources, ∃ name, fileName? source.1 = some name)
    (hfine : Fine ((handleAll a e sources : StateM FileTree (List Output)) t).1)
    {name text : String} (hname : IsName name)
    (hother : ∀ source ∈ sources, fileName? source.1 ≠ some name)
    (h : t.read (inside directory name) = .ok text) :
    ((handleAll a e sources : StateM FileTree (List Output)) t).2.read (inside directory name) =
      .ok text := by
  induction sources generalizing t with
  | nil => exact h
  | cons source more ih =>
    rw [handleAll_cons] at hfine ⊢
    rw [List.forall_mem_cons] at hnames hother
    obtain ⟨hfirst, hmore⟩ := fine_cons.mp hfine
    obtain ⟨name₁, hname₁⟩ := hnames.1
    obtain ⟨p, -, hreplaces⟩ := replaces_of_handle hdirectory hname₁ hfirst
    have hne : name ≠ name₁ := by
      rintro rfl
      exact hother.1 hname₁
    exact ih hnames.2 hmore hother.2 (hreplaces.kept hname hne h)

/-- The run: every input has a result, and the last input of a name has it in the directory. -/
theorem read_of_handleAll_last (hdirectory : a.outDir = some directory)
    {before after : List (String × String)} {path name text : String}
    (hnames : ∀ source ∈ before ++ (path, text) :: after, ∃ name, fileName? source.1 = some name)
    (hname : fileName? path = some name)
    (hfine : Fine ((handleAll a e (before ++ (path, text) :: after) :
      StateM FileTree (List Output)) t).1) :
    ∃ p, e.process a.style text = .ok p ∧
      ((∀ source ∈ after, fileName? source.1 ≠ some name) →
        ((handleAll a e (before ++ (path, text) :: after) :
          StateM FileTree (List Output)) t).2.read (inside directory name) = .ok p.css) := by
  induction before generalizing t with
  | nil =>
    rw [List.nil_append] at hnames hfine ⊢
    rw [handleAll_cons] at hfine ⊢
    rw [List.forall_mem_cons] at hnames
    obtain ⟨hfirst, hmore⟩ := fine_cons.mp hfine
    obtain ⟨p, hresult, hreplaces⟩ := replaces_of_handle hdirectory hname hfirst
    refine ⟨p, hresult, fun hlast => ?_⟩
    exact read_of_handleAll hdirectory hnames.2 hmore (isName_of_fileName? hname) hlast
      hreplaces.written
  | cons source more ih =>
    rw [List.cons_append] at hnames hfine ⊢
    rw [handleAll_cons] at hfine ⊢
    rw [List.forall_mem_cons] at hnames
    exact ih hnames.2 (fine_cons.mp hfine).2

/-! ## The law -/

/-- The text that the input at a path is made into, if it can be read and is no failure. -/
def resultAt (e : Expander) (style : OutputStyle) (files : FileTree) (path : String) :
    Option String :=
  match files.read path with
  | .ok text => (e.process style text).toOption.map (·.css)
  | .error _ => none

/-- After a run every input has its own result as the file of its name in the directory. -/
def KeepsEach (a : Arguments) (e : Expander) (directory : String) (before after : FileTree) :
    Prop :=
  ∀ path ∈ a.inputs, ∃ name css, fileName? path = some name ∧
    resultAt e a.style before path = some css ∧ after.read (inside directory name) = .ok css

/-- Every input has a result, and the last input of a name has its own as the file of that name in
the directory. -/
def KeepsLast (a : Arguments) (e : Expander) (directory : String) (before after : FileTree) :
    Prop :=
  ∀ earlier path later, a.inputs = earlier ++ path :: later →
    ∃ name css, fileName? path = some name ∧ resultAt e a.style before path = some css ∧
      ((∀ other ∈ later, fileName? other ≠ some name) →
        after.read (inside directory name) = .ok css)

theorem keepsLast_of_handleAll {texts : List String} (hdirectory : a.outDir = some directory)
    (htexts : a.inputs.map (textAt t) = texts.map .ok)
    (hfine : Fine ((handleAll a e (a.inputs.zip texts) : StateM FileTree (List Output)) t).1) :
    KeepsLast a e directory t
      ((handleAll a e (a.inputs.zip texts) : StateM FileTree (List Output)) t).2 := by
  intro earlier path later hinputs
  have hnames : ∀ source ∈ a.inputs.zip texts, ∃ name, fileName? source.1 = some name := by
    intro source hsource
    have hread := List.mem_map_of_mem (f := textAt t) (List.of_mem_zip hsource).1
    rw [htexts] at hread
    obtain ⟨text, -, htext⟩ := List.mem_map.mp hread
    exact fileName?_of_read htext.symm
  rw [hinputs] at htexts
  obtain ⟨text, before', after', hread, hzip, hlater⟩ := zip_of_append htexts
  rw [← hinputs] at hzip
  rw [hzip] at hnames hfine ⊢
  obtain ⟨name, hname⟩ := fileName?_of_read hread
  obtain ⟨p, hresult, hlast⟩ := read_of_handleAll_last hdirectory hnames hname hfine
  have hcss : resultAt e a.style t path = some p.css := by
    unfold resultAt
    rw [hread]
    dsimp only
    rw [hresult]
    rfl
  refine ⟨name, p.css, hname, hcss, fun hothers => hlast ?_⟩
  intro source hsource
  exact hothers _ (hlater ▸ List.mem_map_of_mem hsource)

/-- If the last of each name is kept, all are kept just if those of one name have one result. -/
theorem keepsEach_iff {before after : FileTree} (h : KeepsLast a e directory before after) :
    KeepsEach a e directory before after ↔
      ∀ path ∈ a.inputs, ∀ other ∈ a.inputs, fileName? path = fileName? other →
        resultAt e a.style before path = resultAt e a.style before other := by
  constructor
  · intro hkeeps path hpath other hother hnames
    obtain ⟨name, css, hname, hresult, hread⟩ := hkeeps path hpath
    obtain ⟨name', css', hname', hresult', hread'⟩ := hkeeps other hother
    rw [hnames, hname'] at hname
    cases hname
    rw [hread] at hread'
    cases hread'
    rw [hresult, hresult']
  · intro hsame path hpath
    obtain ⟨earlier, last, later, hinputs, hnames, hlater⟩ := exists_last hpath
    obtain ⟨name, css, hname, hresult, hread⟩ := h earlier last later hinputs
    have hlast : last ∈ a.inputs := by
      rw [hinputs]
      exact List.mem_append_right _ List.mem_cons_self
    rw [hnames] at hname
    rw [hname] at hlater
    exact ⟨name, css, hname, (hsame path hpath last hlast hnames.symm).trans hresult, hread hlater⟩

/-- A run that ends with 0 has a result for every input, and the last input of a name has its own
as the file of that name in the directory. So every input has its own there just if those of one
name have one result. -/
theorem a_directory_holds_the_last_result_of_each_name (t : FileTree) (arguments : List String)
    (a : Arguments) (directory : String) (hargs : Arguments.ofList arguments = .ok a)
    (hdirectory : a.outDir = some directory)
    (hexit : ((command arguments : StateM FileTree Ending) t).1.exit = 0) :
    let after := ((command arguments : StateM FileTree Ending) t).2
    ∃ e, expanderOf a t = .ok e ∧ KeepsLast a e directory t after ∧
      (KeepsEach a e directory t after ↔
        ∀ path ∈ a.inputs, ∀ other ∈ a.inputs, fileName? path = fileName? other →
          resultAt e a.style t path = resultAt e a.style t other) := by
  rw [command_of_ofList hargs] at hexit ⊢
  rcases fault_or_texts a t with hfault | ⟨e, he, texts, htexts⟩
  · obtain ⟨stderr, hrun⟩ := run_of_fault hfault
    rw [hrun] at hexit
    cases hexit
  · rw [run_of_texts he htexts] at hexit ⊢
    have hkept := keepsLast_of_handleAll hdirectory htexts (fine_of_exit hexit)
    exact ⟨e, he, hkept, keepsEach_iff hkept⟩

end

/-- Two inputs of one name have the same result, so that nothing is lost. -/
theorem equal_results_share_a_file :
    let arguments := ["-b", "m=print", "--style", "compact", "-o", "out", "a/x.css", "y.css",
      "b/x.css"]
    let a : Arguments :=
      ⟨["a/x.css", "y.css", "b/x.css"], none, ["m=print"], some "out", .compact⟩
    let files : FileTree :=
      ⟨[(⟨false, ["a"]⟩, .directory),
        (⟨false, ["a", "x.css"]⟩, .file (.text "@responsive \x7b .x \x7b\x7d \x7d")),
        (⟨false, ["b"]⟩, .directory),
        (⟨false, ["b", "x.css"]⟩, .file (.text "@responsive\x7b.x\x7b\x7d\x7d")),
        (⟨false, ["y.css"]⟩, .file (.text ".y\x7b\x7d"))]⟩
    (Arguments.ofList arguments = .ok a ∧ a.outDir = some "out" ∧
        ((command arguments : StateM FileTree Ending) files).1.exit = 0) ∧
      KeepsEach a ⟨.ofList [⟨"m", "print"⟩]⟩ "out" files
        ((command arguments : StateM FileTree Ending) files).2 := by
  intro arguments a files
  have hargs : Arguments.ofList arguments = .ok a := by rfl
  have hexpander : expanderOf a files = .ok ⟨.ofList [⟨"m", "print"⟩]⟩ := by rfl
  have hexit : ((command arguments : StateM FileTree Ending) files).1.exit = 0 := by
    decide +kernel
  obtain ⟨e, he, -, hkeeps⟩ :=
    a_directory_holds_the_last_result_of_each_name files arguments a "out" hargs rfl hexit
  rw [hexpander] at he
  cases he
  exact ⟨⟨hargs, rfl, hexit⟩, hkeeps.mpr (by decide +kernel)⟩

/-- Of two inputs with the same name the result of the first is lost, and the run ends with 0. -/
theorem an_earlier_result_of_the_same_name_is_lost :
    let arguments := ["-b", "m=print", "-o", "out", "a/x.css", "b/x.css"]
    let a : Arguments := ⟨["a/x.css", "b/x.css"], none, ["m=print"], some "out", .pretty⟩
    let files : FileTree :=
      ⟨[(⟨false, ["a"]⟩, .directory),
        (⟨false, ["a", "x.css"]⟩, .file (.text ".a\x7b\x7d")),
        (⟨false, ["b"]⟩, .directory),
        (⟨false, ["b", "x.css"]⟩, .file (.text ".b\x7b\x7d"))]⟩
    let e : Expander := ⟨.ofList [⟨"m", "print"⟩]⟩
    let after := ((command arguments : StateM FileTree Ending) files).2
    Arguments.ofList arguments = .ok a ∧ expanderOf a files = .ok e ∧
      ((command arguments : StateM FileTree Ending) files).1 = ⟨0, "", banner ++ "\n"⟩ ∧
      resultAt e a.style files "a/x.css" = some ".a\x7b\x7d" ∧
      fileName? "a/x.css" = some "x.css" ∧ after.read (inside "out" "x.css") = .ok ".b\x7b\x7d" ∧
      ¬ KeepsEach a e "out" files after := by
  intro arguments a files e after
  have hafter : after = ⟨files.entries ++ [(⟨false, ["out"]⟩, .directory),
      (⟨false, ["out", "x.css"]⟩, .file (.text ".b\x7b\x7d"))]⟩ := by decide +kernel
  have hresult : resultAt e a.style files "a/x.css" = some ".a\x7b\x7d" := by decide +kernel
  have hname : fileName? "a/x.css" = some "x.css" := by decide +kernel
  have hread : after.read (inside "out" "x.css") = .ok ".b\x7b\x7d" := by
    rw [hafter]
    rfl
  refine ⟨by rfl, by rfl, by decide +kernel, hresult, hname, hread, fun hkeeps => ?_⟩
  obtain ⟨name, css, hname', hresult', hread'⟩ := hkeeps "a/x.css" List.mem_cons_self
  rw [hname] at hname'
  cases hname'
  rw [hresult] at hresult'
  cases hresult'
  rw [hread, Except.ok.injEq] at hread'
  exact absurd hread' (by decide)

end ResponsiveCss.CommandLine
