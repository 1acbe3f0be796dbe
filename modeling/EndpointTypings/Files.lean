import EndpointTypings.FileTree

/-!
# Operations on files

What a run does with files, for any monad that has the operations: the state of a file tree has
them (`StateM FileTree`), and so does the machine the program runs on. Each operation changes the
files completely or fails and leaves them as they were.
-/

namespace EndpointTypings

/-- A monad with the operations on files that a run needs. -/
class Files (m : Type → Type) where
  /-- The working directory, if there still is one. -/
  workingDir : m (Except OsError Path)
  /-- Whether a path leads to a file. -/
  isFile : Path → m Bool
  /-- Whether a path leads to a folder. -/
  isDir : Path → m Bool
  /-- The bytes of a file. -/
  read : Path → m (Except OsError ByteArray)
  /-- The tree below the folder that a path leads to; the bytes of files do not matter. -/
  folder? : Path → m (Option Node)
  /-- Makes one folder. -/
  makeDir : Path → m (Except OsError Unit)
  /-- Replaces the bytes of a file, or makes one. -/
  write : Path → ByteArray → m (Except OsError Unit)

/-- A change of a file tree that may fail, as a step of a state. -/
def FileTree.change (step : FileTree → Except OsError FileTree) :
    StateM FileTree (Except OsError Unit) := fun tree =>
  match step tree with
  | .ok changed => (.ok (), changed)
  | .error error => (.error error, tree)

/-- A file tree as the state of a run. Its working directory is one of its folders. -/
instance : Files (StateM FileTree) where
  workingDir := fun tree => (.ok tree.workingPath, tree)
  isFile path := fun tree => (tree.isFile path, tree)
  isDir path := fun tree => (tree.isDir path, tree)
  read path := fun tree => (tree.read path, tree)
  folder? path := fun tree => (tree.folder? path, tree)
  makeDir path := FileTree.change (·.makeDir path)
  write path content := FileTree.change (·.write path content)

/-- Why a file cannot be read as a text. -/
inductive ReadFault where
  /-- It cannot be read. -/
  | os (error : OsError)
  /-- Its bytes are no UTF-8. -/
  | notText
  deriving DecidableEq, Repr

/-- The words for a fault. -/
def ReadFault.message : ReadFault → String
  | os error => error.message
  | notText => "stream did not contain valid UTF-8"

namespace Files

variable {m : Type → Type} [Monad m] [Files m]

/-- The text of a file. -/
def readText (path : Path) : m (Except ReadFault String) := do
  match ← read path with
  | .error error => return .error (.os error)
  | .ok content =>
    match String.fromUTF8? content with
    | some text => return .ok text
    | none => return .error .notText

/-- Makes the first of a sequence of folders, each inside the next one, and before it those of
the others that are missing. A folder that is there already is as good as made. -/
def makeDirsAmong : List Path → m (Except OsError Unit)
  | [] => return .ok ()
  | path :: outer => do
    match ← makeDir path with
    | .ok () => return .ok ()
    | .error .notFound => do
      match ← makeDirsAmong outer with
      | .error error => return .error error
      | .ok () =>
        match ← makeDir path with
        | .ok () => return .ok ()
        | .error error => if ← isDir path then return .ok () else return .error error
    | .error error => if ← isDir path then return .ok () else return .error error

/-- Makes a folder and the folders above it that are missing. -/
def makeDirs (path : Path) : m (Except OsError Unit) :=
  makeDirsAmong path.ancestors

end Files

end EndpointTypings
