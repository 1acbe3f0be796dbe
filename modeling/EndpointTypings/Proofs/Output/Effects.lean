import EndpointTypings.Output
import EndpointTypings.Proofs.FileTree.Growth

/-!
# What writing an output changes

Writing makes the directories above the path, and then the file. `Output.run_write` says how it
ends: folders were added for paths above the output, and if nothing failed the file was then written
into that tree. What either does to a tree is `FileTree.ChangesOnly`: of all that can be seen,
nothing changes but what is new, and what is new are folders above the path. Where the file was
written is the one exception (`Output.changesOnly_of_write`).
-/

namespace EndpointTypings

namespace FileTree

variable {tree mid after : FileTree} {path : Path} {content : ByteArray}

/-- A tree differs from another only at names that are let out, and by folders that are new there
and lie above a path. -/
structure ChangesOnly (tree after : FileTree) (path : Path) (letOut : List String → Prop) :
    Prop where
  /-- The working directory is the same. -/
  workingDir_eq : after.workingDir = tree.workingDir
  /-- At any other names stands what stood there, or a folder that is new. -/
  look_cases : ∀ names, ¬ letOut names →
    after.root.look names = tree.root.look names ∨
      tree.root.look names = none ∧ after.root.look names = some (.folder []) ∧
        ∃ above, above.IsAbove path ∧ after.place above .target = .ok (.folder names)

/-- Where folders were added for paths above a path, nothing else changed. -/
theorem AddsFolders.changesOnly (h : AddsFolders (·.IsAbove path) tree after) :
    ChangesOnly tree after path fun _ => False :=
  ⟨h.workingDir_eq, fun names _ => h.look_cases names⟩

/-- Where folders were added for paths above a path and then the path was written to, nothing else
changed, but for the file. -/
theorem AddsFolders.changesOnly_of_write (h : AddsFolders (·.IsAbove path) tree mid)
    (hw : mid.write path content = .ok after) :
    ∃ written, after.place path .target = .ok (.file written content) ∧
      ChangesOnly tree after path (· = written) := by
  obtain ⟨written, htakes, heq, hplace⟩ := place_of_write hw
  have hroot : after.root = mid.root.set written (.file content) := by rw [heq, root_set]
  have hdir : after.workingDir = mid.workingDir := by rw [heq, workingDir_set]
  refine ⟨written, hplace .target (.inr rfl), hdir.trans h.workingDir_eq, fun names hne => ?_⟩
  have hsame : after.root.look names = mid.root.look names := by
    rw [hroot, htakes.look_set_of_ne (Node.isLeaf_file content) hne]
  rw [hsame]
  refine (h.look_cases names).imp_right fun ⟨hnone, hnew, above, habove, hleads⟩ => ?_
  have hways : mid.root.KeepsWays after.root := by
    rw [hroot]
    exact htakes.keepsWays _
  exact ⟨hnone, hnew, above, habove, place_folder_of_keepsWays hways hdir hleads⟩

/-- Writing leaves the tree that it makes, or the one it was given. -/
theorem run_write (tree : FileTree) (path : Path) (content : ByteArray) :
    tree.run (Files.write path content) = match tree.write path content with
      | .ok after => (.ok (), after)
      | .error error => (.error error, tree) := by
  simp only [run, StateT.run, Files.write, change]
  cases tree.write path content <;> rfl

end FileTree

namespace Output

open FileTree (AddsFolders run_bind)

variable {tree mid after : FileTree} {path : Path} {text : String}

/-- The directory that holds a path is there, if there has to be one. -/
def HasParent (tree : FileTree) (path : Path) : Prop :=
  ∀ parent, path.parent? = some parent → parent.text ≠ "" →
    ∃ names, tree.place parent .target = .ok (.folder names)

/-- An output was written: folders were added above it, and it was written into the last of them. -/
structure Wrote (tree mid after : FileTree) (path : Path) (text : String) : Prop where
  /-- The folders above it were added. -/
  adds : AddsFolders (·.IsAbove path) tree mid
  /-- The last of them is there. -/
  hasParent : HasParent mid path
  /-- The file was written. -/
  writes : mid.write path text.toUTF8 = .ok after

/-- Making the directories above a path adds folders for paths above it, and leaves the directory
that holds the path or is a failed write. -/
theorem run_makeParent (tree : FileTree) (path : Path) :
    ∃ after, AddsFolders (·.IsAbove path) tree after ∧
      ((tree.run (makeParent path) = (.ok (), after) ∧ HasParent after path) ∨
        ∃ parent source,
          tree.run (makeParent path) = (.error (.writeFailed parent source), after)) := by
  rw [makeParent]
  cases hfilter : path.parent?.filter (!·.text.isEmpty) with
  | none =>
    refine ⟨tree, .refl, .inl ⟨rfl, fun parent hparent hne => ?_⟩⟩
    rw [hparent] at hfilter
    simp [hne] at hfilter
  | some parent =>
    obtain ⟨hparent, hne⟩ : path.parent? = some parent ∧ parent.text ≠ "" := by
      simpa [Option.filter_eq_some_iff] using hfilter
    have habove := Path.isAbove_of_parent? hparent
    have hmakes := Files.run_makeDirs tree hne (Path.isTidy_parent? hparent)
    dsimp only
    rw [run_bind]
    cases hmade : tree.run (Files.makeDirs parent) with
    | mk result after =>
      rw [hmade] at hmakes
      obtain ⟨hadds, hleads⟩ := hmakes
      refine ⟨after, hadds.mono fun other hother => ?_, ?_⟩
      · rcases hother with rfl | hother
        · exact habove
        · exact hother.trans habove
      · cases result with
        | error error => exact .inr ⟨parent.text, error.message, rfl⟩
        | ok _ =>
          refine .inl ⟨rfl, fun other hother _ => ?_⟩
          obtain rfl : parent = other := Option.some.inj (hparent.symm.trans hother)
          exact hleads rfl

/-- Writing a text writes it, or is a failed write that adds no more than folders above the path. -/
theorem run_write (tree : FileTree) (path : Path) (text : String) :
    (∃ mid after, Wrote tree mid after path text ∧ tree.run (write path text) = (.ok (), after)) ∨
      ∃ failed source after, AddsFolders (·.IsAbove path) tree after ∧
        tree.run (write path text) = (.error (.writeFailed failed source), after) := by
  rw [write, run_bind]
  -- the directories above are there or can be made, or else it ends here
  obtain ⟨mid, hadds, ⟨hmade, hparent⟩ | ⟨failed, source, hfailed⟩⟩ := run_makeParent tree path
  · rw [hmade]
    dsimp only
    rw [run_bind, FileTree.run_write]
    cases hwrite : mid.write path text.toUTF8 with
    | ok after => exact .inl ⟨mid, after, ⟨hadds, hparent, hwrite⟩, rfl⟩
    | error error => exact .inr ⟨path.text, error.message, mid, hadds, rfl⟩
  · rw [hfailed]
    exact .inr ⟨failed, source, mid, hadds, rfl⟩

end Output

end EndpointTypings
