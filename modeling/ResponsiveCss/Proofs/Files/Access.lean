-- Operations on files of any kind, how a step of them is followed by another,
-- and what it means that reading changes nothing. Also the steps of a path
-- inside a directory: those of the directory first, and the name last.
import ResponsiveCss.Files.Access
import ResponsiveCss.Proofs.Text.Occurrence

namespace ResponsiveCss

/-! ## Steps in a row -/

/-- Reading a file leaves all files as they are. -/
class QuietReading (σ : Type) [FileAccess (StateM σ)] : Prop where
  readText_snd : ∀ (path : String) (files : σ),
    ((readText path : StateM σ (Except FileError String)) files).2 = files

namespace Files

/-- A step, once what it comes to is known. -/
theorem bind_of_eq {σ α β : Type} {step : StateM σ α} {x : α} {files files' : σ}
    (h : step files = (x, files')) (next : α → StateM σ β) :
    (step >>= next) files = next x files' := by
  change next (step files).1 (step files).2 = next x files'
  rw [h]

/-- The text that a path leads to. -/
def textAt {σ : Type} [FileAccess (StateM σ)] (files : σ) (path : String) :
    Except FileError String :=
  ((readText path : StateM σ (Except FileError String)) files).1

theorem readText_eq {σ : Type} [FileAccess (StateM σ)] [QuietReading σ] (path : String)
    (files : σ) :
    (readText path : StateM σ (Except FileError String)) files = (textAt files path, files) :=
  Prod.ext rfl (QuietReading.readText_snd path files)

/-! ## Paths -/

open Text

/-- The text can be the name of an entry in a directory. -/
structure IsName (name : String) : Prop where
  noSlash : '/' ∉ name.toList
  notSpecial : isSpecial name = false

/-! ### Names of files -/

theorem noSlash_of_mem_steps {path step : String} (h : step ∈ steps path) :
    '/' ∉ step.toList := by
  obtain ⟨piece, hpiece, rfl⟩ := List.mem_map.mp h
  rw [String.toList_ofList]
  exact not_mem_of_mem_splitOn hpiece

theorem isName_of_fileName? {path name : String} (h : fileName? path = some name) :
    IsName name := by
  unfold fileName? at h
  split at h
  · cases h
  · rename_i step before hsteps
    split at h
    · cases h
    · rename_i hdots
      cases h
      have hmem : name ∈ (steps path).reverse.dropWhile stays := by
        rw [hsteps]
        exact List.mem_cons_self
      have hstays : stays name = false := by
        have hhead := List.head?_dropWhile_not stays (steps path).reverse
        rw [hsteps] at hhead
        simpa using hhead
      refine ⟨noSlash_of_mem_steps (List.mem_reverse.mp ((List.dropWhile_sublist _).mem hmem)), ?_⟩
      simp [isSpecial, hstays, hdots]

/-- A path whose last step has a name of its own ends with that name. -/
theorem fileName?_of_last {path last : String} {before : List String}
    (hsteps : (steps path).reverse = last :: before) (h : isSpecial last = false) :
    fileName? path = some last := by
  rw [isSpecial, Bool.or_eq_false_iff] at h
  have hdots : last ≠ ".." := by simpa using h.2
  unfold fileName?
  rw [hsteps, List.dropWhile_cons_of_neg (by simp [h.1])]
  simp [hdots]

/-! ### Paths inside a directory -/

/-- The steps that lead to a directory. -/
def around (directory : String) : List String := (steps (inside directory "")).dropLast

theorem toList_inside (directory : String) :
    ∃ d : List Char, ∀ name, (inside directory name).toList = d ++ '/' :: name.toList := by
  unfold inside
  split
  · rename_i hslash
    obtain ⟨d, hd⟩ := List.getLast?_eq_some_iff.mp hslash
    exact ⟨d, fun name => by simp [hd]⟩
  · exact ⟨directory.toList, fun name => by simp⟩

theorem steps_inside (directory : String) {name : String} (h : '/' ∉ name.toList) :
    steps (inside directory name) = around directory ++ [name] := by
  obtain ⟨d, hd⟩ := toList_inside directory
  have hsteps : ∀ last : String, '/' ∉ last.toList →
      steps (inside directory last) = (d.splitOn '/').map String.ofList ++ [last] := by
    intro last hlast
    rw [steps, hd, List.splitOn_append_cons_self, List.splitOn_eq_singleton hlast, List.map_append]
    simp
  rw [around, hsteps name h, hsteps "" (by simp), List.dropLast_concat]

/-- The first character of a path inside a directory does not depend on the name. -/
theorem head?_inside (directory name : String) :
    (inside directory name).toList.head? = (inside directory "").toList.head? := by
  obtain ⟨d, hd⟩ := toList_inside directory
  rw [hd, hd]
  cases d <;> rfl

end Files

end ResponsiveCss
