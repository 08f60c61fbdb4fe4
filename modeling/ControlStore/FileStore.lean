import ControlStore.Source

/-!
# `ControlStore.FileStore`: files by path

A `FileStore` holds files and directories in one tree, with a working directory in it. A path is a
list of components with slashes between them. It is walked from the working directory, or from the
root if it starts with a slash, and every component is looked up in a directory: a missing place on
the way is not found, and a file on the way is not a directory. An empty component, as a slash at
the end leaves it, stays where it is. So a file in a working directory `/w` is `t`, `/w/t` and
`../w/t` alike.

Opening gives the content of a file. A directory can be opened but not read. Creating a file
replaces its content, and what cannot be the name of a file is a directory.
-/

set_option autoImplicit false

namespace ControlStore

/-- Why a file was not opened or created. -/
inductive FileFault where
  /-- A place on the path does not exist. -/
  | notFound
  /-- A place on the path is a file. -/
  | notDirectory
  /-- The path leads to a directory. -/
  | isDirectory
  deriving DecidableEq, Repr

/-- The wording of a file fault. -/
def FileFault.message : FileFault → String
  | .notFound => "No such file or directory"
  | .notDirectory => "Not a directory"
  | .isDirectory => "Is a directory"

/-- The number of a file fault. -/
def FileFault.code : FileFault → Nat
  | .notFound => 2
  | .notDirectory => 20
  | .isDirectory => 21

/-- The wording of a file fault with its number. -/
def FileFault.numbered (fault : FileFault) : String :=
  s!"{fault.message} (os error {fault.code})"

/-- A place in the tree of directories. -/
structure Place where
  /-- The names from the place up to the root, which has none. -/
  names : List String
  deriving DecidableEq, Repr

namespace Place

/-- The root directory. -/
def root : Place := ⟨[]⟩

/-- The directory that holds the place. The root holds itself. -/
def parent (place : Place) : Place :=
  ⟨place.names.tail⟩

/-- The place that a component leads to. -/
def enter (place : Place) (component : String) : Place :=
  if component = "" ∨ component = "." then place
  else if component = ".." then place.parent
  else ⟨component :: place.names⟩

/-- The directories above a place, up to the root. -/
def ancestors (place : Place) : List Place :=
  (List.range place.names.length).map fun i => ⟨place.names.drop (i + 1)⟩

end Place

/-- What stands at a place. -/
inductive Node where
  | directory
  | file (content : List UInt8)
  deriving DecidableEq, Repr

/-- Files and directories, with a working directory among them. -/
structure FileStore where
  /-- The working directory. -/
  working : Place
  /-- The places in use. For a place that is listed twice the first mention counts. -/
  nodes : List (Place × Node) := []
  deriving DecidableEq, Repr

namespace FileStore

/-- The place is the working directory or a directory above it, the root included. -/
def HoldsWorking (store : FileStore) (place : Place) : Prop :=
  place.names <:+ store.working.names

instance (store : FileStore) (place : Place) : Decidable (store.HoldsWorking place) :=
  inferInstanceAs (Decidable (_ <:+ _))

/-- What stands at a place. The working directory and all above it are there in any case. -/
def find? (store : FileStore) (place : Place) : Option Node :=
  if store.HoldsWorking place then some .directory else store.nodes.lookup place

/-- Puts something at a place. -/
def put (store : FileStore) (place : Place) (node : Node) : FileStore :=
  { store with nodes := (place, node) :: store.nodes }

/-- What is put at a place is found there, unless the working directory is below it. -/
@[simp] theorem find?_put_self (store : FileStore) {place : Place}
    (h : ¬ store.HoldsWorking place) (node : Node) :
    (store.put place node).find? place = some node := by
  have hput : ¬ (store.put place node).HoldsWorking place := h
  rw [find?, if_neg hput]
  exact List.lookup_cons_self

/-- What is put at one place does not show at another. -/
@[simp] theorem find?_put_ne (store : FileStore) {place other : Place} (h : other ≠ place)
    (node : Node) : (store.put place node).find? other = store.find? other := by
  have hbeq : (other == place) = false := by simpa using h
  have hlookup : (store.put place node).nodes.lookup other = store.nodes.lookup other := by
    simp [put, List.lookup_cons, hbeq]
  rw [find?, hlookup]
  rfl

/-- The working directory is a directory. -/
@[simp] theorem find?_working (store : FileStore) :
    store.find? store.working = some .directory :=
  if_pos (List.suffix_refl store.working.names)

/-- The components of a path. -/
def components (path : String) : List String :=
  (path.toList.splitOn '/').map String.ofList

/-- The place that a path is walked from. -/
def start (store : FileStore) (path : String) : Place :=
  if path.toList.head? = some '/' then .root else store.working

/-- Walks components from a place. Each place that is left has to be a directory. -/
def walk (store : FileStore) (place : Place) : List String → Except FileFault Place
  | [] => .ok place
  | component :: components =>
    match store.find? place with
    | none => .error .notFound
    | some (.file _) => .error .notDirectory
    | some .directory => store.walk (place.enter component) components

/-- Opens a file for reading. -/
def openFile (store : FileStore) (path : String) : Except FileFault Source :=
  if path = "" then .error .notFound
  else
    match store.walk (store.start path) (components path) with
    | .error fault => .error fault
    | .ok place =>
      match store.find? place with
      | none => .error .notFound
      | some (.file content) => .ok { bytes := content }
      | some .directory => .ok { bytes := [], failure := some FileFault.isDirectory.numbered }

/-- The place of a file that can be created under a path. The last component has to name a file,
without a slash behind it, in a directory that exists. -/
def target (store : FileStore) (path : String) : Except FileFault Place :=
  if path = "" then .error .notFound
  else
    let slashes := (components path).reverse.takeWhile (· = "")
    match (components path).reverse.dropWhile (· = "") with
    | [] => .error .isDirectory
    | name :: above =>
      -- The step by a dot asks that the place reached before it be a directory.
      match store.walk (store.start path) (above.reverse ++ ["."]) with
      | .error fault => .error fault
      | .ok directory =>
        if slashes ≠ [] ∨ name = "." ∨ name = ".." then .error .isDirectory
        else if store.find? (directory.enter name) = some .directory then .error .isDirectory
        else .ok (directory.enter name)

/-- Creates a file with the given content, or replaces the content it has. -/
def createFile (store : FileStore) (path : String) (content : List UInt8) :
    Except FileFault FileStore :=
  (store.target path).map fun place => store.put place (.file content)

/-- The content of the file under a path, if there is such a file. -/
def content? (store : FileStore) (path : String) : Option (List UInt8) :=
  match store.walk (store.start path) (components path) with
  | .error _ => none
  | .ok place =>
    match store.find? place with
    | some (.file content) => some content
    | _ => none

/-- The place that a path names in a store where all its directories exist. -/
def placeOf (store : FileStore) (path : String) : Place :=
  (components path).foldl Place.enter (store.start path)

/-- Puts something at a path, with the directories above it. -/
def plant (store : FileStore) (path : String) (node : Node) : FileStore :=
  let place := store.placeOf path
  (place.ancestors.foldl (fun store above => store.put above .directory) store).put place node

end FileStore

end ControlStore
