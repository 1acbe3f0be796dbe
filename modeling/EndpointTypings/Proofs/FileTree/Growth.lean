import EndpointTypings.Proofs.FileTree.Looking
import EndpointTypings.Proofs.FileTree.Written
import EndpointTypings.Proofs.Path.Components

/-!
# Trees that grow

Making the directories above a file adds folders to a tree, one at a time and each where nothing
was. `FileTree.AddsFolder` is one such step and `FileTree.AddsFolders` a sequence of them. What a
step leaves alone is said in one lemma about `Node.look`, which sees what stands at the end of names
but not what a folder holds: a node that is set at a place which takes a file changes the look of
that place and of no other (`Node.TakesFile.look_set_of_ne`). By induction on the steps, a sequence
of them changes nothing that was there (`FileTree.AddsFolders.look_cases`).

`Files.run_makeDirs` says that making directories is such a sequence, also where it fails half way,
and that it ends with the directory in place if it does not fail.
-/

namespace EndpointTypings

/-! ## What a tree shows -/

namespace Node

variable {root new : Node} {names other : List String}

/-- A node without what it holds if it is a folder. -/
def bare : Node → Node
  | folder _ => folder []
  | node => node

/-- What stands at the end of names; of a folder, only that it is one. -/
def look (root : Node) (names : List String) : Option Node :=
  (root.at? names).map bare

/-- A file is seen exactly where it stands. -/
theorem look_eq_file_iff {content : ByteArray} :
    root.look names = some (file content) ↔ root.at? names = some (file content) := by
  rw [look]
  cases root.at? names with
  | none => simp
  | some node => cases node <;> simp [bare]

/-- A folder is seen exactly where one stands, whatever it holds. -/
theorem look_eq_folder_iff :
    root.look names = some (folder []) ↔ ∃ entries, root.at? names = some (folder entries) := by
  rw [look]
  cases root.at? names with
  | none => simp
  | some node => cases node <;> simp [bare]

/-- Nothing is seen exactly where nothing stands. -/
theorem look_eq_none_iff : root.look names = none ↔ root.at? names = none := by
  rw [look, Option.map_eq_none_iff]

/-- What is set below a node does not change what it is. -/
theorem bare_set (node : Node) (name : String) (more : List String) (new : Node) :
    (node.set (name :: more) new).bare = node.bare := by
  cases node with
  | file content => rfl
  | link target => rfl
  | folder entries =>
    obtain ⟨entries', hset⟩ := set_folder entries name more new
    rw [hset]
    rfl

/-- Whether nothing lies below a node. -/
def IsLeaf (node : Node) : Prop :=
  ∀ name more, node.at? (name :: more) = none

/-- Nothing lies below a file. -/
theorem isLeaf_file (content : ByteArray) : IsLeaf (file content) := fun _ _ => rfl

/-- Nothing lies below an empty folder. -/
theorem isLeaf_folder : IsLeaf (folder []) := fun _ _ => rfl

/-- What stands where names end stands in a folder, so there is something at the end of all but the
last of the names. -/
theorem TakesFile.at?_ne_none (h : root.TakesFile names) (hinit : other <+: names)
    (hne : other ≠ names) : root.at? other ≠ none := by
  obtain ⟨more, rfl⟩ := hinit
  have habove : ∀ node, root.at? (other ++ more) = some node → root.at? other ≠ none := by
    intro node hsome hnone
    rw [at?_append, hnone] at hsome
    cases hsome
  rcases h with ⟨content, hfile⟩ | ⟨above, name, entries, heq, hfolder, -⟩
  · exact habove _ hfile
  · rcases List.eq_nil_or_concat more with rfl | ⟨init, last, rfl⟩
    · exact absurd (List.append_nil other).symm hne
    · rw [List.concat_eq_append, ← List.append_assoc] at heq
      obtain ⟨rfl, -⟩ := List.append_inj' heq rfl
      intro hnone
      rw [at?_append, hnone] at hfolder
      cases hfolder

/-- What is set at a place that takes a file is seen there. -/
theorem TakesFile.look_set_self (h : root.TakesFile names) :
    (root.set names new).look names = some new.bare := by
  rw [look, h.at?_set_self]
  rfl

/-- A node with nothing below it that is set at a place which takes a file is seen nowhere else. -/
theorem TakesFile.look_set_of_ne (h : root.TakesFile names) (hnew : new.IsLeaf)
    (hne : other ≠ names) : (root.set names new).look other = root.look other := by
  rw [look, look]
  cases ho : root.at? other with
  | some node =>
    rcases h.at?_set_of_ne hne ho with same | ⟨name, more, -, changed⟩
    · rw [same]
    · rw [changed, Option.map_some, Option.map_some, bare_set]
  | none =>
    -- where nothing was is not on the way to the place nor, with nothing below the node, below it
    have hnone : (root.set names new).at? other = none := by
      by_cases habove : other <+: names
      · exact absurd ho (h.at?_ne_none habove hne)
      · by_cases hbelow : names <+: other
        · obtain ⟨more, rfl⟩ := hbelow
          cases more with
          | nil => exact absurd (List.append_nil names) hne
          | cons name more => rw [at?_append, h.at?_set_self, Option.bind_some, hnew]
        · rw [at?_set_of_apart hbelow habove, ho]
    rw [hnone]

/-- The other files are the same where a node with nothing below it is set. -/
theorem TakesFile.at?_set_eq_file_iff {content : ByteArray} (h : root.TakesFile names)
    (hnew : new.IsLeaf) (hne : other ≠ names) :
    (root.set names new).at? other = some (file content) ↔
      root.at? other = some (file content) := by
  rw [← look_eq_file_iff, ← look_eq_file_iff, h.look_set_of_ne hnew hne]

end Node

/-! ## Steps -/

namespace FileTree

variable {tree mid after : FileTree} {path : Path} {allowed : Path → Prop} {names : List String}
  {place : Place}

/-- A step that makes a folder where nothing was; the path leads to it from then on. -/
structure AddsFolder (tree after : FileTree) (path : Path) (names : List String) : Prop where
  /-- Nothing was there. -/
  vacant : (Place.vacant names).Stands tree.root
  /-- Now there is a folder. -/
  eq_set : after = tree.set names (.folder []) (vacant.takesFile rfl)
  /-- The path leads to it. -/
  leads : after.place path .target = .ok (.folder names)

/-- A sequence of steps that make folders, for paths that are allowed. -/
inductive AddsFolders (allowed : Path → Prop) : FileTree → FileTree → Prop
  /-- No step. -/
  | refl {tree : FileTree} : AddsFolders allowed tree tree
  /-- One step and more. -/
  | step {tree mid after : FileTree} {path : Path} {names : List String} (hallowed : allowed path)
      (hstep : AddsFolder tree mid path names) (onward : AddsFolders allowed mid after) :
      AddsFolders allowed tree after

/-- A step is made at a place that takes a file. -/
theorem AddsFolder.takesFile (h : AddsFolder tree after path names) : tree.root.TakesFile names :=
  h.vacant.takesFile rfl

/-- A step keeps all ways. -/
theorem AddsFolder.keepsWays (h : AddsFolder tree after path names) :
    tree.root.KeepsWays after.root := by
  rw [h.eq_set]
  exact h.takesFile.keepsWays _

/-- The working directory stays the same. -/
theorem AddsFolders.workingDir_eq (h : AddsFolders allowed tree after) :
    after.workingDir = tree.workingDir := by
  induction h with
  | refl => rfl
  | step _ hstep _ ih => rw [ih, hstep.eq_set, workingDir_set]

/-- A sequence of steps keeps all ways. -/
theorem AddsFolders.keepsWays (h : AddsFolders allowed tree after) :
    tree.root.KeepsWays after.root := by
  induction h with
  | refl => exact .refl _
  | step _ hstep _ ih => exact hstep.keepsWays.trans ih

/-- A path that leads to a folder leads there as long as all ways are kept. -/
theorem place_folder_of_keepsWays {aim : Aim} (hk : tree.root.KeepsWays after.root)
    (hd : after.workingDir = tree.workingDir) (h : tree.place path aim = .ok (.folder names)) :
    after.place path aim = .ok (.folder names) := by
  obtain ⟨entries, hfolder⟩ := place_stands h
  obtain ⟨entries', hfolder'⟩ := hk.folder hfolder
  exact place_becomes hk hd (.inl rfl) h (.folder hfolder')

/-- More paths may be allowed. -/
theorem AddsFolders.mono {allowed' : Path → Prop} (hmore : ∀ path, allowed path → allowed' path)
    (h : AddsFolders allowed tree after) : AddsFolders allowed' tree after := by
  induction h with
  | refl => exact .refl
  | step hallowed hstep _ ih => exact .step (hmore _ hallowed) hstep ih

/-- A sequence of steps may follow another. -/
theorem AddsFolders.trans (h : AddsFolders allowed tree mid) (h' : AddsFolders allowed mid after) :
    AddsFolders allowed tree after := by
  induction h with
  | refl => exact h'
  | step hallowed hstep _ ih => exact .step hallowed hstep (ih h')

/-- A sequence of steps changes nothing that was there, and what is new are folders that allowed
paths lead to. -/
theorem AddsFolders.look_cases (h : AddsFolders allowed tree after) (names : List String) :
    after.root.look names = tree.root.look names ∨
      tree.root.look names = none ∧ after.root.look names = some (.folder []) ∧
        ∃ path, allowed path ∧ after.place path .target = .ok (.folder names) := by
  induction h with
  | refl => exact .inl rfl
  | @step tree mid after path made hallowed hstep onward ih =>
    -- the first step changes the look of one place only; the later steps find a folder there
    have hmid : mid.root = tree.root.set made (.folder []) := by rw [hstep.eq_set, root_set]
    by_cases hmade : names = made
    · subst hmade
      have hvacant : tree.root.look names = none := by
        obtain ⟨-, -, -, -, -, hnone⟩ := hstep.vacant
        exact Node.look_eq_none_iff.2 hnone
      have hfolder : mid.root.look names = some (.folder []) := by
        rw [hmid, hstep.takesFile.look_set_self]
        rfl
      refine .inr ⟨hvacant, ?_, path, hallowed,
        place_folder_of_keepsWays onward.keepsWays onward.workingDir_eq hstep.leads⟩
      rcases ih with same | ⟨hnone, -, -⟩
      · rw [same, hfolder]
      · rw [hnone] at hfolder
        cases hfolder
    · have hsame : mid.root.look names = tree.root.look names := by
        rw [hmid, hstep.takesFile.look_set_of_ne Node.isLeaf_folder hmade]
      rw [hsame] at ih
      exact ih

/-! ## Making directories -/

/-- Where a path that does not end with a slash can be made is asked of the entry that it names. -/
theorem vacancy_of_endsWithSlash (tree : FileTree) (hslash : path.endsWithSlash = false) :
    tree.vacancy path = (tree.place path .entry).bind fun place =>
      match place with
      | .vacant names => .ok names
      | _ => .error .alreadyExists := by
  have hsome : (path.text.isEmpty && !path.text.isEmpty) = false := Bool.and_not_self _
  rw [vacancy, Path.dropSlashes_eq_self hslash, hsome]
  rfl

/-- Where a tidy path can be made is asked of the entry that it names; the root is there already. -/
theorem vacancy_of_isTidy (tree : FileTree) (ht : path.IsTidy) :
    tree.vacancy path = .error .alreadyExists ∨
      tree.vacancy path = (tree.place path .entry).bind fun place =>
        match place with
        | .vacant names => .ok names
        | _ => .error .alreadyExists := by
  rcases ht with hslash | hroot
  · exact .inr (vacancy_of_endsWithSlash tree hslash)
  · have hbare : path.dropSlashes.text.isEmpty && !path.text.isEmpty := by
      rw [Path.dropSlashes, hroot]
      rfl
    rw [vacancy, if_pos hbare]
    exact .inl rfl

/-- Where a tidy path can be made, it stands for nothing. -/
theorem place_of_vacancy (ht : path.IsTidy) (h : tree.vacancy path = .ok names) :
    tree.place path .entry = .ok (.vacant names) := by
  rcases vacancy_of_isTidy tree ht with hexists | hasked
  · rw [hexists] at h
    cases h
  · rw [hasked] at h
    cases hplace : tree.place path .entry with
    | error error =>
      rw [hplace] at h
      cases h
    | ok place =>
      rw [hplace] at h
      cases place with
      | vacant found =>
        obtain rfl : found = names := Except.ok.inj h
        rfl
      | _ => cases h

/-- A directory is made where nothing is. -/
theorem makeDir_of_vacancy (h : tree.vacancy path = .ok names) :
    tree.makeDir path = .ok (tree.set names (.folder []) (takesFile_of_vacancy h)) := by
  unfold makeDir
  split
  · next found hfound =>
    obtain rfl : found = names := Except.ok.inj (hfound.symm.trans h)
    rfl
  · next error herror => cases herror.symm.trans h

/-- No directory is made where something is or nothing can be. -/
theorem makeDir_of_vacancy_error {error : OsError} (h : tree.vacancy path = .error error) :
    tree.makeDir path = .error error := by
  unfold makeDir
  split
  · next found hfound => cases hfound.symm.trans h
  · next other hother => exact congrArg _ (Except.error.inj (hother.symm.trans h))

/-- What is a folder cannot be made. -/
theorem makeDir_of_place_folder (ht : path.IsTidy)
    (h : tree.place path .entry = .ok (.folder names)) :
    tree.makeDir path = .error .alreadyExists := by
  have hexists : tree.vacancy path = .error .alreadyExists := by
    rcases vacancy_of_isTidy tree ht with hexists | hasked
    · exact hexists
    · rw [hasked, h]
      rfl
  exact makeDir_of_vacancy_error hexists

/-- Making a directory adds a folder. -/
theorem addsFolder_of_makeDir (ht : path.IsTidy) (h : tree.makeDir path = .ok after) :
    ∃ names, AddsFolder tree after path names := by
  unfold makeDir at h
  split at h
  · next names hvacancy =>
    have hplace := place_of_vacancy ht hvacancy
    have htakes : tree.root.TakesFile names := takesFile_of_vacancy hvacancy
    obtain rfl : tree.set names (.folder []) htakes = after := Except.ok.inj h
    exact ⟨names, place_stands hplace, rfl,
      place_becomes (htakes.keepsWays _) rfl (.inr rfl) hplace (.made htakes.at?_set_self)⟩
  · cases h

/-- A path is a directory exactly if it leads to a folder. -/
theorem isDir_iff :
    tree.isDir path = true ↔ ∃ names, tree.place path .target = .ok (.folder names) := by
  rw [isDir]
  split
  · next names heq => simp [heq]
  · next hother =>
    refine ⟨nofun, fun ⟨names, heq⟩ => ?_⟩
    exact absurd heq (hother names)

/-- Making a directory leaves the tree that it makes, or the one it was given. -/
theorem run_makeDir (tree : FileTree) (path : Path) :
    tree.run (Files.makeDir path) = match tree.makeDir path with
      | .ok after => (.ok (), after)
      | .error error => (.error error, tree) := by
  simp only [run, StateT.run, Files.makeDir, change]
  cases tree.makeDir path <;> rfl

end FileTree

namespace Files

open FileTree (run_bind run_makeDir AddsFolders AddsFolder addsFolder_of_makeDir isDir_iff)

variable {path : Path} {outer : List Path} {tree : FileTree}

/-- A run in a tree ends in another, to which folders were added for paths that are allowed; if it
succeeds a path leads to a folder there. -/
def Makes (allowed : Path → Prop) (path : Path) (tree : FileTree)
    (ended : Except OsError Unit × FileTree) : Prop :=
  AddsFolders allowed tree ended.2 ∧
    (ended.1 = .ok () → ∃ names, ended.2.place path .target = .ok (.folder names))

/-- What is made after folders were added is made with them. -/
theorem Makes.after {allowed : Path → Prop} {tree mid : FileTree}
    {ended : Except OsError Unit × FileTree} (h : AddsFolders allowed tree mid)
    (hm : Makes allowed path mid ended) : Makes allowed path tree ended :=
  ⟨h.trans hm.1, hm.2⟩

/-- A directory that is made is added. -/
theorem makes_makeDir {allowed : Path → Prop} {tree after : FileTree} (hallowed : allowed path)
    (ht : path.IsTidy) (h : tree.makeDir path = .ok after) :
    Makes allowed path tree (.ok (), after) := by
  obtain ⟨names, hstep⟩ := addsFolder_of_makeDir ht h
  exact ⟨.step hallowed hstep .refl, fun _ => ⟨names, hstep.leads⟩⟩

/-- Where a directory cannot be made it may be there already. -/
theorem makes_isDir (allowed : Path → Prop) (path : Path) (tree : FileTree) (error : OsError) :
    Makes allowed path tree
      (tree.run (do if ← isDir path then return .ok () else return .error error)) := by
  have hrun : tree.run (isDir path) = (tree.isDir path, tree) := rfl
  rw [run_bind, hrun]
  cases hdir : tree.isDir path with
  | true => exact ⟨.refl, fun _ => isDir_iff.1 hdir⟩
  | false => exact ⟨.refl, nofun⟩

/-- Making a directory inside others adds folders if making the others does, and if it succeeds the
directory is there. -/
theorem makes_makeDirsAmong_cons (htidy : ∀ other ∈ path :: outer, other.IsTidy)
    (houter : AddsFolders (· ∈ outer) tree (tree.run (makeDirsAmong outer)).2) :
    Makes (· ∈ path :: outer) path tree (tree.run (makeDirsAmong (path :: outer))) := by
  have hmem : path ∈ path :: outer := List.mem_cons_self
  have ht : path.IsTidy := htidy path hmem
  rw [makeDirsAmong, run_bind, run_makeDir]
  cases hmake : tree.makeDir path with
  | ok after => exact makes_makeDir hmem ht hmake
  | error error =>
    dsimp only
    cases error with
    | notFound =>
      -- a directory above is missing: those are made first, and then this one is tried again
      have habove : AddsFolders (· ∈ path :: outer) tree (tree.run (makeDirsAmong outer)).2 :=
        houter.mono fun other hm => List.mem_cons_of_mem path hm
      rw [run_bind]
      cases hmade : tree.run (makeDirsAmong outer) with
      | mk result mid =>
        rw [hmade] at habove
        cases result with
        | error error => exact ⟨habove, nofun⟩
        | ok _ =>
          refine Makes.after habove ?_
          rw [run_bind, run_makeDir]
          cases hagain : mid.makeDir path with
          | ok after => exact makes_makeDir hmem ht hagain
          | error error => exact makes_isDir _ path mid error
    | _ => exact makes_isDir _ path tree _

/-- Making directories one inside the other adds folders for their paths. -/
theorem addsFolders_makeDirsAmong (tree : FileTree) (paths : List Path)
    (ht : ∀ path ∈ paths, path.IsTidy) :
    AddsFolders (· ∈ paths) tree (tree.run (makeDirsAmong paths)).2 := by
  induction paths with
  | nil => exact .refl
  | cons path outer ih =>
    have houter := ih fun other hm => ht other (List.mem_cons_of_mem path hm)
    exact (makes_makeDirsAmong_cons ht houter).1

/-- Making a directory that is not empty, and those above it, adds folders for its path and for
paths above it, and if it succeeds the directory is there. -/
theorem run_makeDirs (tree : FileTree) (hne : path.text ≠ "") (ht : path.IsTidy) :
    Makes (fun other => other = path ∨ other.IsAbove path) path tree
      (tree.run (makeDirs path)) := by
  have htidy : ∀ other ∈ path.ancestors, other.IsTidy := fun other hm =>
    (Path.of_mem_ancestors hm ht).1
  obtain ⟨outer, houter⟩ := Path.ancestors_eq_cons hne
  rw [makeDirs, houter]
  rw [houter] at htidy
  have habove := addsFolders_makeDirsAmong tree outer fun other hm =>
    htidy other (List.mem_cons_of_mem path hm)
  obtain ⟨hadds, hleads⟩ := makes_makeDirsAmong_cons htidy habove
  refine ⟨hadds.mono fun other hm => ?_, hleads⟩
  exact (Path.of_mem_ancestors (houter ▸ hm) ht).2

end Files

end EndpointTypings
