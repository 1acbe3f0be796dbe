import EndpointTypings.FileTree.Walk

/-!
# File trees

A file tree is the state of a file system: a folder of files, folders and symbolic links, and the
working directory from which relative paths are seen, which is one of the folders. `FileTree.place`
follows a path through it; what a path stands for is a `Place`. Every other operation asks for the
place first and says, for each kind of place, what it gives or why it fails.

An operation that changes the tree gives a new tree or an error, so that a failure changes
nothing. New nodes are set only where nothing lies below (`FileTree.set`), and what holds the
working directory is not taken away (`FileTree.erase`): so the working directory stays a folder.
-/

namespace EndpointTypings

/-- The state of a file system. -/
@[ext] structure FileTree where
  /-- The folder at the root. -/
  root : Node
  /-- The names that lead from the root to the working directory. -/
  workingDir : List String
  /-- The working directory is a folder. -/
  at?_workingDir : ∃ entries, root.at? workingDir = some (.folder entries)

namespace FileTree

/-- The tree of a root folder in which a folder is the working directory. -/
def empty (workingDir : List String) : FileTree where
  root := workingDir.foldr (fun name node => .folder [(name, node)]) (.folder [])
  workingDir := workingDir
  at?_workingDir := by
    induction workingDir with
    | nil => exact ⟨[], rfl⟩
    | cons name rest ih => simpa [Node.at?, Entries.get?] using ih

/-- The tree of a root folder with entries, which is the working directory. -/
def ofEntries (entries : List (String × Node)) : FileTree :=
  ⟨.folder entries, [], entries, rfl⟩

/-- The path of the working directory. -/
def workingPath (tree : FileTree) : Path :=
  ⟨"/" ++ String.intercalate "/" tree.workingDir⟩

/-- The tree with a node set at a place that takes a file. -/
def set (tree : FileTree) (names : List String) (new : Node) (h : tree.root.TakesFile names) :
    FileTree where
  root := tree.root.set names new
  workingDir := tree.workingDir
  at?_workingDir := h.exists_folder_set new tree.at?_workingDir

/-- A node is set below the root. -/
@[simp] theorem root_set (tree : FileTree) (names : List String) (new : Node)
    (h : tree.root.TakesFile names) : (tree.set names new h).root = tree.root.set names new := rfl

/-- The working directory stays where it was. -/
@[simp] theorem workingDir_set (tree : FileTree) (names : List String) (new : Node)
    (h : tree.root.TakesFile names) : (tree.set names new h).workingDir = tree.workingDir := rfl

/-- The tree without the node at the end of names. What holds the working directory is in use. -/
def erase (tree : FileTree) (names : List String) : Except OsError FileTree :=
  if h : names <+: tree.workingDir then .error .busy
  else .ok ⟨tree.root.erase names, tree.workingDir, Node.exists_folder_erase h tree.at?_workingDir⟩

/-- What a path stands for. -/
def place (tree : FileTree) (path : Path) (aim : Aim) : Except OsError Place :=
  if path.text.isEmpty then .error .notFound
  else if path.text.toList.contains '\x00' then .error .nullInPath
  else if maxPath ≤ path.text.utf8ByteSize then .error .nameTooLong
  else walkLinks tree.root aim maxLinks (segmentsOf path)
    (if path.isAbsolute then [] else tree.workingDir)

/-- A place that a path stands for stands in the tree. -/
theorem place_stands {tree : FileTree} {path : Path} {aim : Aim} {place : Place}
    (h : tree.place path aim = .ok place) : place.Stands tree.root := by
  unfold FileTree.place at h
  split at h
  · cases h
  split at h
  · cases h
  split at h
  · cases h
  · exact walkLinks_stands h

/-- Whether a path leads to a file. -/
def isFile (tree : FileTree) (path : Path) : Bool :=
  match tree.place path .target with
  | .ok (.file _ _) => true
  | _ => false

/-- Whether a path leads to a folder. -/
def isDir (tree : FileTree) (path : Path) : Bool :=
  match tree.place path .target with
  | .ok (.folder _) => true
  | _ => false

/-- The node of the folder that a path leads to. -/
def folder? (tree : FileTree) (path : Path) : Option Node :=
  match tree.place path .target with
  | .ok (.folder names) => tree.root.at? names
  | _ => none

/-- The bytes of the file that a path leads to. -/
def read (tree : FileTree) (path : Path) : Except OsError ByteArray := do
  match ← tree.place path .target with
  | .file _ content => return content
  | .folder _ => .error .isADirectory
  | .link _ => .error .notFound
  | .vacant _ => .error .notFound

/-- The names of a path at which nothing is yet. Slashes at its end do not count, and a link that
stands there is not followed. -/
def vacancy (tree : FileTree) (path : Path) : Except OsError (List String) := do
  let bare := path.dropSlashes
  if bare.text.isEmpty && !path.text.isEmpty then .error .alreadyExists
  else
    match ← tree.place bare .entry with
    | .vacant names => return names
    | _ => .error .alreadyExists

/-- Where nothing is yet a file can be set. -/
theorem takesFile_of_vacancy {tree : FileTree} {path : Path} {names : List String}
    (h : tree.vacancy path = .ok names) : tree.root.TakesFile names := by
  unfold vacancy at h
  dsimp only at h
  split at h
  · cases h
  cases hplace : tree.place path.dropSlashes .entry with
  | error error =>
    rw [hplace] at h
    cases h
  | ok place =>
    rw [hplace] at h
    cases place with
    | vacant found =>
      obtain rfl : found = names := Except.ok.inj h
      exact (place_stands hplace).takesFile rfl
    | _ => cases h

/-- The tree with a new folder at a path. -/
def makeDir (tree : FileTree) (path : Path) : Except OsError FileTree :=
  match h : tree.vacancy path with
  | .ok names => .ok (tree.set names (.folder []) (takesFile_of_vacancy h))
  | .error error => .error error

/-- The tree with the bytes of the file at a path replaced, or a new file. Where a slash ends the
path, or the target of a link followed at its end, there is no place to write to. -/
def write (tree : FileTree) (path : Path) (content : ByteArray) : Except OsError FileTree :=
  match h : tree.place path .writing with
  | .ok (.file names _) => .ok (tree.set names (.file content) ((place_stands h).takesFile rfl))
  | .ok (.vacant names) => .ok (tree.set names (.file content) ((place_stands h).takesFile rfl))
  | .ok (.folder _) => .error .isADirectory
  | .ok (.link _) => .error .notFound
  | .error error => .error error

/-- The tree with a new link at a path that does not end with a slash. -/
def makeLink (tree : FileTree) (path target : Path) : Except OsError FileTree :=
  match h : tree.vacancy path with
  | .ok names =>
    if path.endsWithSlash then .error .notFound
    else .ok (tree.set names (.link target) (takesFile_of_vacancy h))
  | .error error => .error error

/-- The tree without what a path stands for. -/
def remove (tree : FileTree) (path : Path) : Except OsError FileTree := do
  match ← tree.place path .entry with
  | .folder names => tree.erase names
  | .file names _ => tree.erase names
  | .link names => tree.erase names
  | .vacant _ => .error .notFound

mutual

/-- The paths below a node, each behind a text; those of folders end with a slash. -/
def listing (path : String) : Node → List String
  | .folder entries => listingIn path entries
  | _ => []

/-- The paths of the entries of a folder and below them. -/
def listingIn (path : String) : List (String × Node) → List String
  | [] => []
  | (name, .folder entries) :: rest =>
    (path ++ name ++ "/") :: (listingIn (path ++ name ++ "/") entries ++ listingIn path rest)
  | (name, _) :: rest => (path ++ name) :: listingIn path rest

end

/-- Every path below the working directory, as seen from it. -/
def paths (tree : FileTree) : List String :=
  match tree.root.at? tree.workingDir with
  | some node => listing "" node
  | none => []

end FileTree

end EndpointTypings
