import EndpointTypings.Config.File
import EndpointTypings.Failure
import EndpointTypings.Output
import EndpointTypings.Registry.Source

/-!
# Steps that only look

A run works on a file tree by steps of a state. `FileTree.run` is what a step gives from a tree and
the tree it leaves; `FileTree.attempt` is the same for the steps that may fail. What the operations
that read give is read off the tree (`Config.run_discover`, `Registry.run_load` and their like), and
the tree stays as it was: such a step `OnlyLooks`.
-/

namespace EndpointTypings

namespace FileTree

variable {α β : Type}

/-- What a step gives from a tree, and the tree it leaves. -/
def run (tree : FileTree) (step : StateM FileTree α) : α × FileTree :=
  StateT.run step tree

/-- What a step that may fail gives from a tree, and the tree it leaves. -/
def attempt (tree : FileTree) (step : ExceptT Failure (StateM FileTree) α) :
    Except Failure α × FileTree :=
  tree.run step.run

/-- Nothing is done by a step that only gives a value. -/
theorem run_pure (tree : FileTree) (a : α) : tree.run (pure a) = (a, tree) := rfl

/-- A sequence of steps goes on from the tree that its first step leaves. -/
theorem run_bind (tree : FileTree) (step : StateM FileTree α) (next : α → StateM FileTree β) :
    tree.run (step >>= next) = (tree.run step).2.run (next (tree.run step).1) := rfl

/-- A sequence of steps goes on with what its first step gave. -/
theorem attempt_bind_ok {tree after : FileTree} {step : ExceptT Failure (StateM FileTree) α}
    {next : α → ExceptT Failure (StateM FileTree) β} {a : α}
    (h : tree.attempt step = (.ok a, after)) :
    tree.attempt (step >>= next) = after.attempt (next a) := by
  have hb : tree.attempt (step >>= next)
      = (tree.attempt step).2.run (ExceptT.bindCont next (tree.attempt step).1) := rfl
  rw [hb, h]
  rfl

/-- A sequence of steps ends with the failure of its first step. -/
theorem attempt_bind_error {tree after : FileTree} {step : ExceptT Failure (StateM FileTree) α}
    {next : α → ExceptT Failure (StateM FileTree) β} {failure : Failure}
    (h : tree.attempt step = (.error failure, after)) :
    tree.attempt (step >>= next) = (.error failure, after) := by
  have hb : tree.attempt (step >>= next)
      = (tree.attempt step).2.run (ExceptT.bindCont next (tree.attempt step).1) := rfl
  rw [hb, h]
  rfl

/-- A step leaves every tree as it was. -/
def OnlyLooks (step : StateM FileTree α) : Prop :=
  ∀ tree : FileTree, (tree.run step).2 = tree

/-- What a step that only looks gives comes with the tree it was given. -/
theorem OnlyLooks.run_eq {step : StateM FileTree α} (h : OnlyLooks step) (tree : FileTree) :
    tree.run step = ((tree.run step).1, tree) :=
  Prod.ext rfl (h tree)

end FileTree

open FileTree (OnlyLooks)

/-! ## Operations that read -/

/-- The text of the file that a path leads to. -/
def FileTree.readText (tree : FileTree) (path : Path) : Except ReadFault String :=
  match tree.read path with
  | .error error => .error (.os error)
  | .ok content =>
    match String.fromUTF8? content with
    | some text => .ok text
    | none => .error .notText

/-- Reading a text gives the text in the tree and only looks. -/
theorem FileTree.run_readText (tree : FileTree) (path : Path) :
    tree.run (Files.readText path) = (tree.readText path, tree) := by
  have hread : tree.run (Files.read path) = (tree.read path, tree) := rfl
  rw [Files.readText, run_bind, hread, readText]
  cases tree.read path with
  | error error => rfl
  | ok content =>
    dsimp only
    cases String.fromUTF8? content <;> rfl

/-- Bytes read as a text exactly if they are its UTF-8 form. -/
theorem Text.fromUTF8?_eq_some_iff {content : ByteArray} {text : String} :
    String.fromUTF8? content = some text ↔ content = text.toUTF8 := by
  simp only [String.fromUTF8?, String.toUTF8_eq_toByteArray]
  constructor
  · intro h
    split at h
    · cases h
      rfl
    · cases h
  · rintro rfl
    rw [dif_pos text.isValidUTF8]
    rfl

/-- A file reads as a text exactly if it holds its UTF-8 form. -/
theorem FileTree.readText_eq_ok_iff {tree : FileTree} {path : Path} {text : String} :
    tree.readText path = .ok text ↔ tree.read path = .ok text.toUTF8 := by
  rw [readText]
  cases tree.read path with
  | error error => simp
  | ok content =>
    rw [Except.ok.injEq, ← Text.fromUTF8?_eq_some_iff]
    dsimp only
    cases String.fromUTF8? content <;> simp

/-- A text is not found exactly if its file is not. -/
theorem FileTree.readText_eq_notFound_iff {tree : FileTree} {path : Path} :
    tree.readText path = .error (.os .notFound) ↔ tree.read path = .error .notFound := by
  rw [readText]
  cases tree.read path with
  | error error => simp
  | ok content =>
    dsimp only
    cases String.fromUTF8? content <;> simp

/-- Loading a configuration reads its file. -/
theorem Config.run_load (tree : FileTree) (path : Path) :
    tree.run (Config.load path) = (match tree.readText path with
      | .ok text => parse text
      | .error fault =>
        .error (.configuration ("failed to read " ++ path.text ++ ": " ++ fault.message)),
      tree) := by
  rw [Config.load, FileTree.run_bind, FileTree.run_readText]
  cases tree.readText path <;> rfl

/-- Looking for a configuration loads the one of the directory, if there is one. -/
theorem Config.run_discover (tree : FileTree) (base : Path) :
    tree.run (Config.discover base) = (if tree.isFile (base.join ⟨fileName⟩)
      then (tree.run (Config.load (base.join ⟨fileName⟩))).1 else .ok standard, tree) := by
  have hfile : tree.run (Files.isFile (base.join ⟨fileName⟩))
      = (tree.isFile (base.join ⟨fileName⟩), tree) := rfl
  rw [Config.discover, FileTree.run_bind, hfile]
  cases tree.isFile (base.join ⟨fileName⟩) with
  | false => rfl
  | true =>
    dsimp only
    rw [if_pos rfl, if_pos rfl, Config.run_load]

/-- Loading a registry reads its file, if there is one. -/
theorem Registry.run_load (tree : FileTree) (path : Path) :
    tree.run (Registry.load path) = (if tree.isFile path then
        match tree.readText path with
        | .ok text => (parse text).mapError DocumentFault.toError
        | .error fault => .error
          (.malformedRegistry ("failed to read " ++ path.text ++ ": " ++ fault.message) none)
      else .error (.sourceNotFound path.text), tree) := by
  have hfile : tree.run (Files.isFile path) = (tree.isFile path, tree) := rfl
  rw [Registry.load, FileTree.run_bind, hfile]
  cases tree.isFile path with
  | false => rfl
  | true =>
    dsimp only
    rw [if_pos rfl, if_pos rfl, FileTree.run_bind, FileTree.run_readText]
    cases tree.readText path <;> rfl

/-- Looking for a registry document looks for the first one in a folder. -/
theorem Registry.run_discover (tree : FileTree) (base : Path) :
    tree.run (Registry.discover base) =
      (match (tree.folder? (base.join sourceRoot)).bind (Node.firstFile? sourceName) with
      | some names => .ok (names.foldl (fun path name => path.join ⟨name⟩) (base.join sourceRoot))
      | none => .error (.sourceNotFound
        (((base.join sourceRoot).join ⟨"**"⟩).join ⟨sourceName⟩).text), tree) := by
  have hfolder : tree.run (Files.folder? (base.join sourceRoot))
      = (tree.folder? (base.join sourceRoot), tree) := rfl
  rw [Registry.discover, FileTree.run_bind, hfolder]
  dsimp only
  cases (tree.folder? (base.join sourceRoot)).bind (Node.firstFile? sourceName) <;> rfl

/-- Loading a configuration only looks. -/
theorem Config.onlyLooks_load (path : Path) : OnlyLooks (Config.load path) := fun tree =>
  congrArg Prod.snd (Config.run_load tree path)

/-- Looking for a configuration only looks. -/
theorem Config.onlyLooks_discover (base : Path) : OnlyLooks (Config.discover base) := fun tree =>
  congrArg Prod.snd (Config.run_discover tree base)

/-- Loading a registry only looks. -/
theorem Registry.onlyLooks_load (path : Path) : OnlyLooks (Registry.load path) := fun tree =>
  congrArg Prod.snd (Registry.run_load tree path)

/-- Looking for a registry document only looks. -/
theorem Registry.onlyLooks_discover (base : Path) : OnlyLooks (Registry.discover base) :=
  fun tree =>
  congrArg Prod.snd (Registry.run_discover tree base)

/-- Comparing a file with a text is decided by how the file reads. -/
theorem Output.run_isUpToDate (tree : FileTree) (path : Path) (text : String) :
    tree.run (Output.isUpToDate path text) = (match tree.readText path with
      | .ok existing => .ok (existing = text)
      | .error (.os .notFound) => .ok false
      | .error fault => .error (.writeFailed path.text fault.message), tree) := by
  rw [Output.isUpToDate, FileTree.run_bind, FileTree.run_readText]
  cases tree.readText path with
  | ok existing => rfl
  | error fault =>
    cases fault with
    | notText => rfl
    | os error => cases error <;> rfl

end EndpointTypings
