-- The directory in memory. A change at one place leaves the entries at all
-- other places, and directories are never turned into anything else. So a path
-- that led through directories leads to the same place after every change, and
-- a written text is read back until something else is written there.
import ResponsiveCss.Files.Tree
import ResponsiveCss.Proofs.Files.Access

namespace ResponsiveCss

open Files

instance : QuietReading FileTree := ⟨fun _ _ => rfl⟩

namespace FileTree

variable {t t' : FileTree}

/-! ## One entry -/

theorem find?_putEntry (place : Place) (e : FileEntry) (entries : List (Place × FileEntry))
    (q : Place) :
    (putEntry place e entries).find? (·.1 == q) =
      if q = place then some (place, e) else entries.find? (·.1 == q) := by
  induction entries with
  | nil =>
    by_cases hq : q = place
    · simp [putEntry, hq]
    · simp [putEntry, hq, Ne.symm hq]
  | cons x more ih =>
    unfold putEntry
    by_cases hx : x.1 = place
    · rw [if_pos hx, List.find?_cons, List.find?_cons]
      by_cases hq : q = place
      · simp [hq]
      · have hno : (place == q) = false := by simpa using Ne.symm hq
        simp [hq, hx, hno]
    · rw [if_neg hx, List.find?_cons, List.find?_cons, ih]
      by_cases hq : q = place
      · subst hq
        have hno : (x.1 == q) = false := by simpa using hx
        simp [hno]
      · simp [hq]

/-- The place has a name, so an entry can be put there. -/
theorem names_ne_nil {place : Place} (h : t.entry? place ≠ some .directory) :
    place.names ≠ [] := by
  intro hnil
  unfold entry? at h
  simp [hnil] at h

theorem entry_put {place : Place} (h : t.entry? place ≠ some .directory) (e : FileEntry)
    (q : Place) : entry? (t.put place e) q = if q = place then some e else t.entry? q := by
  have hnames := names_ne_nil h
  unfold entry? put
  by_cases hq : q = place
  · subst hq
    simp [hnames, find?_putEntry]
  · simp [hq, find?_putEntry]

/-! ## Changes -/

/-- Every entry stays, unless it is at this place. -/
def StaysBut (place : Place) (t t' : FileTree) : Prop :=
  ∀ q e, q ≠ place → t.entry? q = some e → t'.entry? q = some e

/-- Every entry stays. -/
def Stays (t t' : FileTree) : Prop := ∀ q e, t.entry? q = some e → t'.entry? q = some e

/-- Every directory stays one. -/
def DirectoriesStay (t t' : FileTree) : Prop :=
  ∀ q, t.entry? q = some .directory → t'.entry? q = some .directory

theorem Stays.refl (t : FileTree) : Stays t t := fun _ _ h => h

theorem Stays.trans {t'' : FileTree} (h : Stays t t') (h' : Stays t' t'') : Stays t t'' :=
  fun q e hq => h' q e (h q e hq)

theorem staysBut_put {place : Place} (h : t.entry? place ≠ some .directory) (e : FileEntry) :
    StaysBut place t (t.put place e) := by
  intro q e' hne hq
  rw [entry_put h, if_neg hne]
  exact hq

theorem stays_addDirectory {path : String} (h : t.addDirectory path = .ok t') : Stays t t' := by
  unfold addDirectory at h
  cases hplace : t.locate (String.ofList (path.toList.reverse.dropWhile (· == '/')).reverse) with
  | error e =>
    rw [hplace] at h
    cases h
  | ok place =>
    rw [hplace] at h
    dsimp only [Bind.bind, Except.bind] at h
    cases hnone : t.entry? place with
    | some e =>
      rw [hnone] at h
      cases h
    | none =>
      rw [hnone] at h
      cases h
      intro q e hq
      have hne : q ≠ place := by
        rintro rfl
        rw [hnone] at hq
        cases hq
      exact staysBut_put (by simp [hnone]) _ q e hne hq

/-- What a text that was written has changed. -/
theorem write_eq_ok {path text : String} (h : t.write path text = .ok t') :
    ∃ place, t.locate path = .ok place ∧ t'.entry? place = some (.file (.text text)) ∧
      StaysBut place t t' ∧ DirectoriesStay t t' := by
  unfold write at h
  cases hplace : t.locate path with
  | error e =>
    rw [hplace] at h
    cases h
  | ok place =>
    rw [hplace] at h
    dsimp only [Bind.bind, Except.bind] at h
    have hput : t.entry? place ≠ some .directory ∧ t' = t.put place (.file (.text text)) := by
      split at h
      · cases h
      · rename_i hdir
        cases h
        exact ⟨hdir, rfl⟩
    obtain ⟨hdir, rfl⟩ := hput
    have hbut := staysBut_put hdir (.file (.text text))
    refine ⟨place, rfl, ?_, hbut, ?_⟩
    · rw [entry_put hdir, if_pos rfl]
    · intro q hq
      exact hbut q _ (fun heq => hdir (heq ▸ hq)) hq

theorem eq_ok_of_update {change : FileTree → Except FileError FileTree}
    (h : update change t = (.ok (), t')) : change t = .ok t' := by
  unfold update at h
  cases hchange : change t with
  | error e =>
    rw [hchange] at h
    cases h
  | ok t₁ =>
    rw [hchange] at h
    cases h
    rfl

theorem read_eq_ok_iff {path text : String} :
    t.read path = .ok text ↔
      ∃ place, t.locate path = .ok place ∧ t.entry? place = some (.file (.text text)) := by
  unfold read
  cases hplace : t.locate path with
  | error e =>
    constructor
    · intro h
      cases h
    · rintro ⟨_, h, -⟩
      cases h
  | ok place =>
    dsimp only [Bind.bind, Except.bind]
    split <;> simp_all

/-! ## Directories that come to be -/

/-- Every entry stays, whatever the step comes to. -/
def Adds {α : Type} (step : StateM FileTree α) : Prop := ∀ t, Stays t (step t).2

theorem Adds.bind {α β : Type} {step : StateM FileTree α} {next : α → StateM FileTree β}
    (h : Adds step) (hnext : ∀ x, Adds (next x)) : Adds (step >>= next) :=
  fun t => (h t).trans (hnext _ _)

theorem adds_update {change : FileTree → Except FileError FileTree}
    (h : ∀ t t', change t = .ok t' → Stays t t') : Adds (update change) := by
  intro t
  unfold update
  cases hchange : change t with
  | error e => exact Stays.refl t
  | ok t' => exact h t t' hchange

theorem adds_makeDirectory (path : String) :
    Adds (makeDirectory path : StateM FileTree (Except FileError Unit)) :=
  adds_update fun _ _ => stays_addDirectory

theorem adds_pure {α : Type} (x : α) : Adds (pure x) := Stays.refl

theorem adds_settle (path : String) (e : FileError) :
    Adds (makeAll.settle path e : StateM FileTree (Except FileError Unit)) := by
  unfold makeAll.settle
  exact Adds.bind Stays.refl fun _ => adds_pure _

theorem adds_makeAll (paths : List String) :
    Adds (makeAll paths : StateM FileTree (Except FileError Unit)) := by
  induction paths with
  | nil =>
    unfold makeAll
    exact adds_pure _
  | cons path more ih =>
    unfold makeAll
    refine (adds_makeDirectory path).bind fun made => ?_
    split
    · exact adds_pure _
    · refine ih.bind fun all => ?_
      split
      · exact adds_pure _
      · refine (adds_makeDirectory path).bind fun last => ?_
        split
        · exact adds_pure _
        · exact adds_settle _ _
    · exact adds_settle _ _

/-! ## Paths through directories -/

theorem enter_of_directoriesStay (h : DirectoriesStay t t') {place place' : Place}
    {step : String} (hstep : t.enter place step = .ok place') :
    t'.enter place step = .ok place' := by
  unfold enter at hstep ⊢
  split at hstep
  · rename_i hstays
    rw [if_pos hstays]
    exact hstep
  · rename_i hstays
    rw [if_neg hstays]
    split at hstep
    · rename_i hdots
      rw [if_pos hdots]
      exact hstep
    · rename_i hdots
      rw [if_neg hdots]
      split at hstep
      · rename_i hdir
        rw [h _ hdir]
        exact hstep
      · cases hstep
      · cases hstep

theorem foldlM_enter_of_directoriesStay (h : DirectoriesStay t t') {steps : List String}
    {place place' : Place} (hsteps : steps.foldlM t.enter place = .ok place') :
    steps.foldlM t'.enter place = .ok place' := by
  induction steps generalizing place with
  | nil => exact hsteps
  | cons step more ih =>
    rw [List.foldlM_cons] at hsteps ⊢
    cases hstep : t.enter place step with
    | error e =>
      rw [hstep] at hsteps
      cases hsteps
    | ok next =>
      rw [hstep] at hsteps
      rw [enter_of_directoriesStay h hstep]
      exact ih hsteps

/-- The place that the paths inside a directory lead through. -/
def folder (t : FileTree) (directory : String) : Except FileError Place :=
  (around directory).foldlM t.enter
    (if (inside directory "").toList.head? = some '/' then .root else .top)

theorem folder_of_directoriesStay (h : DirectoriesStay t t') {directory : String} {place : Place}
    (hplace : t.folder directory = .ok place) : t'.folder directory = .ok place :=
  foldlM_enter_of_directoriesStay h hplace

theorem locate_inside (t : FileTree) (directory : String) {name : String} (h : IsName name) :
    t.locate (inside directory name) = (t.folder directory).map (·.child name) := by
  unfold locate folder
  rw [steps_inside directory h.noSlash, head?_inside, List.reverse_append]
  simp only [List.reverse_cons, List.reverse_nil, List.nil_append, List.singleton_append,
    List.reverse_reverse, h.notSpecial]
  cases (around directory).foldlM t.enter
    (if (inside directory "").toList.head? = some '/' then Place.root else Place.top) <;> rfl

theorem child_inj {place : Place} {m n : String} (h : place.child m = place.child n) : m = n := by
  simpa [Place.child] using h

/-! ## Files inside a directory -/

theorem read_inside_eq_ok_iff {directory name text : String} (h : IsName name) :
    t.read (inside directory name) = .ok text ↔
      ∃ place, t.folder directory = .ok place ∧
        t.entry? (place.child name) = some (.file (.text text)) := by
  rw [read_eq_ok_iff, locate_inside t directory h]
  cases t.folder directory <;> simp [Except.map]

/-- The directory's file of this name has this text now, and those of other names have the texts
they had. -/
structure Replaces (directory name text : String) (t t' : FileTree) : Prop where
  written : t'.read (inside directory name) = .ok text
  kept : ∀ {other css : String}, IsName other → other ≠ name →
    t.read (inside directory other) = .ok css → t'.read (inside directory other) = .ok css

theorem read_inside_of_stays (h : Stays t t') {directory name text : String} (hname : IsName name)
    (hread : t.read (inside directory name) = .ok text) :
    t'.read (inside directory name) = .ok text := by
  obtain ⟨place, hplace, hfile⟩ := (read_inside_eq_ok_iff hname).mp hread
  have hplace' := folder_of_directoriesStay (fun q => h q .directory) hplace
  exact (read_inside_eq_ok_iff hname).mpr ⟨place, hplace', h _ _ hfile⟩

theorem replaces_of_write {directory name text : String} (hname : IsName name)
    (h : t.write (inside directory name) text = .ok t') : Replaces directory name text t t' := by
  obtain ⟨target, htarget, hfile, hbut, hdirs⟩ := write_eq_ok h
  rw [locate_inside t directory hname] at htarget
  cases hplace : t.folder directory with
  | error e =>
    rw [hplace] at htarget
    cases htarget
  | ok place =>
    rw [hplace] at htarget
    cases htarget
    have hplace' := folder_of_directoriesStay hdirs hplace
    refine ⟨(read_inside_eq_ok_iff hname).mpr ⟨place, hplace', hfile⟩, ?_⟩
    intro other css hother hne hread
    obtain ⟨place₁, hplace₁, hcss⟩ := (read_inside_eq_ok_iff hother).mp hread
    rw [hplace] at hplace₁
    cases hplace₁
    have hapart : place.child other ≠ place.child name := fun heq => hne (child_inj heq)
    exact (read_inside_eq_ok_iff hother).mpr ⟨place, hplace', hbut _ _ hapart hcss⟩

/-! ## What can be read has a name -/

/-- The place was reached through directories. -/
def Reached (t : FileTree) (place : Place) : Prop :=
  ∀ names, names <+: place.names → t.entry? ⟨place.outside, names⟩ = some .directory

theorem reached_of_names_eq_nil {place : Place} (h : place.names = []) : t.Reached place := by
  intro names hnames
  rw [h, List.prefix_nil] at hnames
  unfold entry?
  simp [hnames]

theorem reached_parent {place : Place} (h : t.Reached place) : t.Reached place.parent := by
  unfold Place.parent
  split
  · exact reached_of_names_eq_nil rfl
  · intro names hnames
    exact h names (hnames.trans (List.dropLast_prefix _))

theorem reached_enter {place place' : Place} {step : String} (h : t.Reached place)
    (hstep : t.enter place step = .ok place') : t.Reached place' := by
  unfold enter at hstep
  split at hstep
  · cases hstep
    exact h
  · split at hstep
    · cases hstep
      exact reached_parent h
    · split at hstep
      · rename_i hdir
        cases hstep
        intro names hnames
        rcases List.prefix_concat_iff.mp hnames with rfl | hnames
        · exact hdir
        · exact h names hnames
      · cases hstep
      · cases hstep

theorem reached_foldlM {steps : List String} {place place' : Place} (h : t.Reached place)
    (hsteps : steps.foldlM t.enter place = .ok place') : t.Reached place' := by
  induction steps generalizing place with
  | nil =>
    cases hsteps
    exact h
  | cons step more ih =>
    rw [List.foldlM_cons] at hsteps
    cases hstep : t.enter place step with
    | error e =>
      rw [hstep] at hsteps
      cases hsteps
    | ok next =>
      rw [hstep] at hsteps
      exact ih (reached_enter h hstep) hsteps

/-- A path without a file name leads to a directory. -/
theorem reached_of_locate {path : String} {place : Place} (h : t.locate path = .ok place)
    (hname : fileName? path = none) : t.Reached place := by
  have horigin : t.Reached (if path.toList.head? = some '/' then Place.root else Place.top) := by
    apply reached_of_names_eq_nil
    split <;> rfl
  unfold locate at h
  dsimp only at h
  generalize (if path.toList.head? = some '/' then Place.root else Place.top) = origin at h horigin
  cases hsteps : (steps path).reverse with
  | nil =>
    rw [hsteps] at h
    cases h
    exact horigin
  | cons last before =>
    rw [hsteps] at h
    dsimp only at h
    cases hbefore : before.reverse.foldlM t.enter origin with
    | error e =>
      rw [hbefore] at h
      cases h
    | ok next =>
      have hspecial : isSpecial last = true := by
        cases hlast : isSpecial last with
        | true => rfl
        | false =>
          rw [fileName?_of_last hsteps hlast] at hname
          cases hname
      rw [hbefore] at h
      change (if isSpecial last then t.enter next last else .ok (next.child last)) = _ at h
      rw [if_pos hspecial] at h
      exact reached_enter (reached_foldlM horigin hbefore) h

theorem fileName?_of_read {path text : String} (h : t.read path = .ok text) :
    ∃ name, fileName? path = some name := by
  obtain ⟨place, hplace, hfile⟩ := read_eq_ok_iff.mp h
  cases hname : fileName? path with
  | some name => exact ⟨name, rfl⟩
  | none =>
    have hdir := reached_of_locate hplace hname place.names (List.prefix_refl _)
    rw [hfile] at hdir
    cases hdir

end FileTree

end ResponsiveCss
