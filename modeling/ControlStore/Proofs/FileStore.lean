import ControlStore.FileStore

/-!
# `ControlStore.Proofs.FileStore`: paths before and after a file is created

A file can be reached under many paths, from the working directory and from the root. `LeadsTo` says
which place a path leads to, and everything that a store tells about a path goes through this place
(`content?_eq_some_iff`).

* `leadsTo_put_file_iff`: paths lead to the same places before and after a file is created. A walk
  leaves only directories, and no directory is replaced by a file.
* `replaced_put_file`: so a new file shows under the paths that lead to it and nowhere else.
* `target_eq_ok`: a file is created at the place that its path leads to, unless a directory stands
  there.
* `openFile_eq_ok` and `openFile_of_content?_eq_none`: what is opened is the content of the file. A
  path without a file cannot be opened, or delivers nothing and fails.
-/

set_option autoImplicit false

namespace ControlStore.FileStore

/-- The place that a path leads to. -/
def LeadsTo (store : FileStore) (path : String) (place : Place) : Prop :=
  store.walk (store.start path) (components path) = .ok place

/-- The stores differ in the file at one place only, which has the given content in the second. -/
structure Replaced (store store' : FileStore) (place : Place) (content : List UInt8) : Prop where
  /-- The file stands at its place. -/
  here : store'.find? place = some (.file content)
  /-- All other places are as they were. -/
  elsewhere : ∀ other, other ≠ place → store'.find? other = store.find? other
  /-- The content shows under each path to the place. -/
  path_here : ∀ path, store.LeadsTo path place → store'.content? path = some content
  /-- Every other path shows what it showed before. -/
  path_elsewhere : ∀ path, ¬ store.LeadsTo path place → store'.content? path = store.content? path

/-! ### Walks -/

/-- A walk can be interrupted at any place and continued from there. -/
theorem walk_append (store : FileStore) (place : Place) (before after : List String) :
    store.walk place (before ++ after) =
      match store.walk place before with
      | .error fault => .error fault
      | .ok reached => store.walk reached after := by
  induction before generalizing place with
  | nil => rfl
  | cons component before ih =>
    rw [List.cons_append, walk, walk]
    cases store.find? place with
    | none => rfl
    | some node =>
      cases node with
      | directory => exact ih (place.enter component)
      | file content => rfl

/-- The last step of a walk leads on from a directory. -/
theorem walk_concat_eq_ok_iff {store : FileStore} {place reached : Place} {before : List String}
    {component : String} :
    store.walk place (before ++ [component]) = .ok reached ↔
      ∃ last, store.walk place before = .ok last ∧ store.find? last = some .directory ∧
        reached = last.enter component := by
  rw [walk_append]
  cases store.walk place before with
  | error fault => simp
  | ok last =>
    dsimp only
    rw [walk]
    cases hfind : store.find? last with
    | none => simp [hfind]
    | some node =>
      cases node with
      | directory => simp [hfind, walk, eq_comm]
      | file content => simp [hfind]

section
variable {store : FileStore} {place : Place} {content : List UInt8}

/-- A place that is no directory has no working directory below it. -/
theorem not_holdsWorking_of_find? (h : store.find? place ≠ some .directory) :
    ¬ store.HoldsWorking place :=
  fun hholds => h (if_pos hholds)

/-- A walk ends at the same place before and after a file is put somewhere, because it can pass
through that place in neither case. -/
theorem walk_put_file_eq_ok_iff (h : store.find? place ≠ some .directory) (start : Place)
    (components : List String) {reached : Place} :
    (store.put place (.file content)).walk start components = .ok reached ↔
      store.walk start components = .ok reached := by
  induction components generalizing start with
  | nil => exact Iff.rfl
  | cons component components ih =>
    rw [walk, walk]
    by_cases hstart : start = place
    · subst hstart
      rw [find?_put_self store (not_holdsWorking_of_find? h)]
      cases hfind : store.find? start with
      | none => simp
      | some node =>
        cases node with
        | directory => exact absurd hfind h
        | file old => simp
    · rw [find?_put_ne store hstart]
      cases store.find? start with
      | none => exact Iff.rfl
      | some node =>
        cases node with
        | directory => exact ih (start.enter component)
        | file old => exact Iff.rfl

/-- Every path leads to the same place before and after a file is put somewhere. -/
theorem leadsTo_put_file_iff (h : store.find? place ≠ some .directory) {path : String}
    {reached : Place} :
    (store.put place (.file content)).LeadsTo path reached ↔ store.LeadsTo path reached :=
  walk_put_file_eq_ok_iff h (store.start path) (components path)

/-! ### What paths show -/

/-- A path shows the file at the place that it leads to. -/
theorem content?_eq_some_iff {path : String} :
    store.content? path = some content ↔
      ∃ place, store.LeadsTo path place ∧ store.find? place = some (.file content) := by
  unfold content? LeadsTo
  cases store.walk (store.start path) (components path) with
  | error fault => simp
  | ok reached =>
    cases hfind : store.find? reached with
    | none => simp [hfind]
    | some node => cases node <;> simp [hfind]

/-- A file that is put somewhere shows under the paths to its place, and nothing else changes. -/
theorem replaced_put_file (h : store.find? place ≠ some .directory) (content : List UInt8) :
    Replaced store (store.put place (.file content)) place content where
  here := find?_put_self store (not_holdsWorking_of_find? h) (.file content)
  elsewhere other hother := find?_put_ne store hother (.file content)
  path_here path hpath := by
    refine content?_eq_some_iff.mpr ⟨place, (leadsTo_put_file_iff h).mpr hpath, ?_⟩
    exact find?_put_self store (not_holdsWorking_of_find? h) (.file content)
  path_elsewhere path hpath := by
    refine Option.ext fun shown => ?_
    show _ = some shown ↔ _ = some shown
    rw [content?_eq_some_iff, content?_eq_some_iff]
    refine exists_congr fun reached => ?_
    rw [leadsTo_put_file_iff h]
    refine and_congr_right fun hreached => ?_
    have hne : reached ≠ place := fun heq => hpath (heq ▸ hreached)
    rw [find?_put_ne store hne]

/-! ### Creating and opening -/

/-- A path without slashes at its end leads through a directory to its last component. -/
theorem leadsTo_enter {path name : String} {above : List String} {directory : Place}
    (hslashes : (components path).reverse.takeWhile (· = "") = [])
    (hname : (components path).reverse.dropWhile (· = "") = name :: above)
    (hwalk : store.walk (store.start path) (above.reverse ++ ["."]) = .ok directory) :
    store.LeadsTo path (directory.enter name) := by
  have hcomponents : components path = above.reverse ++ [name] := by
    have hsplit : (components path).reverse = name :: above := by
      rw [← List.takeWhile_append_dropWhile (p := (· = "")) (l := (components path).reverse),
        hslashes, hname, List.nil_append]
    rw [← List.reverse_reverse (components path), hsplit, List.reverse_cons]
  -- The step by a dot stays where it is, and shows that this is a directory.
  obtain ⟨last, hlast, hdirectory, hdot⟩ := walk_concat_eq_ok_iff.mp hwalk
  have hstay : directory = last := by simpa [Place.enter] using hdot
  rw [LeadsTo, hcomponents, hstay]
  exact walk_concat_eq_ok_iff.mpr ⟨last, hlast, hdirectory, rfl⟩

/-- A file is created where its path leads to. -/
theorem target_eq_ok {path : String} (h : store.target path = .ok place) :
    store.LeadsTo path place ∧ store.find? place ≠ some .directory := by
  simp only [target] at h
  split at h
  · cases h
  split at h
  · cases h
  next name above hname =>
  split at h
  · cases h
  next directory hwalk =>
  split at h
  · cases h
  next hform =>
  split at h
  · cases h
  next hfind =>
  have hslashes : (components path).reverse.takeWhile (· = "") = [] := by
    simpa using (not_or.mp hform).1
  obtain rfl := Except.ok.inj h
  exact ⟨leadsTo_enter hslashes hname hwalk, hfind⟩

/-- A file that can be created is put at its target. -/
theorem createFile_eq_ok {path : String} (h : store.target path = .ok place)
    (content : List UInt8) :
    store.createFile path content = .ok (store.put place (.file content)) := by
  rw [createFile, h]
  rfl

/-- Without a target, no file is created. -/
theorem createFile_eq_error {path : String} {fault : FileFault}
    (h : store.target path = .error fault) (content : List UInt8) :
    store.createFile path content = .error fault := by
  rw [createFile, h]
  rfl

/-- No file has the empty path. -/
theorem content?_empty (store : FileStore) : store.content? "" = none := by
  have hcomponents : components "" = [""] := by decide
  have hstart : store.start "" = store.working := if_neg (by decide)
  have hwalk : store.walk store.working [""] = .ok store.working := by
    simp [walk, Place.enter]
  rw [content?, hcomponents, hstart, hwalk]
  simp

/-- Opening a path with a file gives all of its content. -/
theorem openFile_eq_ok {path : String} (h : store.content? path = some content) :
    store.openFile path = .ok { bytes := content } := by
  have hpath : path ≠ "" := by
    intro hempty
    rw [hempty, content?_empty] at h
    cases h
  obtain ⟨reached, hreached, hfind⟩ := content?_eq_some_iff.mp h
  rw [openFile, if_neg hpath, hreached]
  simp only [hfind]

/-- A path without a file cannot be opened, or it leads to a directory, which delivers nothing. -/
theorem openFile_of_content?_eq_none {path : String} (h : store.content? path = none) :
    (∃ fault, store.openFile path = .error fault) ∨
      ∃ reason, store.openFile path = .ok ⟨[], some reason⟩ := by
  unfold openFile
  split
  · exact Or.inl ⟨_, rfl⟩
  · cases hwalk : store.walk (store.start path) (components path) with
    | error fault => exact Or.inl ⟨fault, rfl⟩
    | ok reached =>
      dsimp only
      cases hfind : store.find? reached with
      | none => exact Or.inl ⟨_, rfl⟩
      | some node =>
        cases node with
        | directory => exact Or.inr ⟨_, rfl⟩
        | file content =>
          rw [content?_eq_some_iff.mpr ⟨reached, hwalk, hfind⟩] at h
          cases h

end

end ControlStore.FileStore
