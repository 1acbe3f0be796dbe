import EndpointTypings.Files
import Mathlib.Tactic.SplitIfs

/-!
# Written files are read back

`FileTree.read_of_write` says that a path that was written to reads as the bytes that were
written. The path may go through any folders, also up by `..` and over links, so the proof has to
show that the walk that found the place to write to is still there once the place is filled.

A walk only looks at folders and links on its way. So wherever folders stay folders and links stay
the links they were (`Node.KeepsWays`), a walk ends at the same names and finds what stands there
now (`FileTree.place_becomes`). Setting a file at a place that is vacant or a file keeps all ways
(`Node.TakesFile.keepsWays`), because nothing lies below such a place.
-/

namespace EndpointTypings

namespace Node

variable {root : Node} {names : List String}

/-- What a walk passes in one tree it passes in another: folders are folders, whatever they hold,
and links are the same links. -/
structure KeepsWays (root after : Node) : Prop where
  /-- Folders stay folders. -/
  folder : ∀ {names : List String} {entries : List (String × Node)},
    root.at? names = some (folder entries) → ∃ entries', after.at? names = some (folder entries')
  /-- Links stay as they are. -/
  link : ∀ {names : List String} {target : Path},
    root.at? names = some (link target) → after.at? names = some (link target)

/-- A tree keeps its own ways. -/
theorem KeepsWays.refl (root : Node) : root.KeepsWays root where
  folder ho := ⟨_, ho⟩
  link ho := ho

/-- Ways that are kept twice are kept. -/
theorem KeepsWays.trans {mid after : Node} (h : root.KeepsWays mid) (h' : mid.KeepsWays after) :
    root.KeepsWays after where
  folder ho := by
    obtain ⟨entries, hmid⟩ := h.folder ho
    exact h'.folder hmid
  link ho := h'.link (h.link ho)

/-- Setting a node at a place that takes a file keeps all ways. -/
theorem TakesFile.keepsWays (h : root.TakesFile names) (new : Node) :
    root.KeepsWays (root.set names new) where
  folder ho := h.exists_folder_set new ⟨_, ho⟩
  link {other target} ho := by
    rcases h.at?_set_of_ne (h.ne_of_at? ho nofun) ho with same | ⟨name, more, -, changed⟩
    · exact same
    · rw [changed]
      rfl

end Node

/-- What a place becomes in another tree: a folder is a folder, a file is a file with the bytes it
has there, and where nothing was there may be a folder, or a file if that is what the path was
followed for. -/
inductive Place.Becomes (after : Node) (aim : Aim) : Place → Place → Prop
  /-- A folder. -/
  | folder {names : List String} {entries : List (String × Node)}
      (found : after.at? names = some (.folder entries)) :
      Becomes after aim (.folder names) (.folder names)
  /-- A file. -/
  | file {names : List String} {old new : ByteArray} (found : after.at? names = some (.file new)) :
      Becomes after aim (.file names old) (.file names new)
  /-- A folder where nothing was. -/
  | made {names : List String} {entries : List (String × Node)}
      (found : after.at? names = some (.folder entries)) :
      Becomes after aim (.vacant names) (.folder names)
  /-- A file where nothing was. -/
  | written {names : List String} {content : ByteArray}
      (found : after.at? names = some (.file content)) (ha : aim = .writing) :
      Becomes after aim (.vacant names) (.file names content)

namespace FileTree

variable {root : Node} {aim : Aim}
  {onLink onLink' : List String → Path → List String → Except OsError Place}
  {segments names : List String} {place : Place}

/-- Slashes behind a folder stay in it. -/
theorem leads_slashes {entries : List (String × Node)}
    (h : root.at? names = some (.folder entries)) (hs : ∀ segment ∈ segments, segment = "") :
    Leads root aim onLink segments names (.folder names) := by
  induction segments with
  | nil => exact .folder h
  | cons segment rest ih =>
    exact .idle h (.inl (hs segment List.mem_cons_self))
      (ih fun other hm => hs other (List.mem_cons_of_mem segment hm))

/-- Segments lead to what their place has become, in a tree in which all ways are kept. -/
theorem Leads.becomes {after : Node} {aim' : Aim} {place' : Place} (hk : root.KeepsWays after)
    (ha : aim' = aim ∨ aim' = .target)
    (hlink : ∀ names target rest place, onLink names target rest = .ok place →
      place.Becomes after aim place' → onLink' names target rest = .ok place')
    (h : Leads root aim onLink segments names place) (hb : place.Becomes after aim place') :
    Leads after aim' onLink' segments names place' := by
  have hr : ∀ rest, MayFollow aim rest → MayFollow aim' rest := by
    rintro rest hrest ⟨hw, hslash⟩
    rcases ha with rfl | rfl
    · exact hrest ⟨hw, hslash⟩
    · cases hw
  induction h with
  | folder =>
    cases hb with
    | folder found => exact .folder found
  | file =>
    cases hb with
    | file found => exact .file found
  | idle at_names hs _ ih =>
    obtain ⟨entries', at_names'⟩ := hk.folder at_names
    exact .idle at_names' hs (ih hb)
  | up at_names _ ih =>
    obtain ⟨entries', at_names'⟩ := hk.folder at_names
    exact .up at_names' (ih hb)
  | @vacant segment rest names entries at_names hs hrest missing last =>
    obtain ⟨entries', at_names'⟩ := hk.folder at_names
    cases hb with
    | made found => exact .enter at_names' hs (hr _ hrest) found nofun (leads_slashes found last)
    | written found hw =>
      -- nothing follows the name of a file to be written
      obtain rfl : rest = [] := by
        by_cases hne : rest = []
        · exact hne
        · exact absurd ⟨hw, hne, last⟩ hrest
      exact .enter at_names' hs (hr _ hrest) found nofun (.file found)
  | link => cases hb
  | follow at_names hs hrest hne found onward =>
    obtain ⟨entries', at_names'⟩ := hk.folder at_names
    refine .follow at_names' hs (hr _ hrest) (fun hend => hne ⟨hend.1, ?_⟩) (hk.link found)
      (hlink _ _ _ _ onward hb)
    rcases ha with rfl | rfl
    · exact hend.2
    · cases hend.2
  | @enter segment rest names entries node place at_names hs hrest found noLink onward ih =>
    obtain ⟨entries', at_names'⟩ := hk.folder at_names
    cases node with
    | link target => exact absurd rfl (noLink target)
    | folder inner =>
      obtain ⟨inner', found'⟩ := hk.folder found
      exact .enter at_names' hs (hr _ hrest) found' nofun (ih hb)
    | file content =>
      -- nothing lies behind a file, so the way ends here
      obtain ⟨rfl, rfl⟩ : rest = [] ∧ place = .file (names ++ [segment]) content := by
        cases onward with
        | file at_file => exact ⟨rfl, by simp_all⟩
        | _ => simp_all
      cases hb with
      | file found' => exact .enter at_names' hs (hr _ hrest) found' nofun (.file found')

/-- The same over any number of links. -/
theorem walkLinks_becomes {after : Node} {aim' : Aim} {place' : Place} {links : Nat}
    (hk : root.KeepsWays after) (ha : aim' = aim ∨ aim' = .target)
    (h : walkLinks root aim links segments names = .ok place)
    (hb : place.Becomes after aim place') :
    walkLinks after aim' links segments names = .ok place' := by
  induction links generalizing segments names place with
  | zero =>
    exact ((Leads.of_walk h).becomes hk ha (fun _ _ _ _ hl _ => by cases hl) hb).walk_eq
  | succ links ih =>
    exact ((Leads.of_walk h).becomes hk ha (fun _ _ _ _ hl hb' => ih hl hb') hb).walk_eq

/-- A path stands for what its place has become, in a tree in which all ways are kept. -/
theorem place_becomes {tree after : FileTree} {path : Path} {aim' : Aim} {place' : Place}
    (hk : tree.root.KeepsWays after.root) (hd : after.workingDir = tree.workingDir)
    (ha : aim' = aim ∨ aim' = .target) (h : tree.place path aim = .ok place)
    (hb : place.Becomes after.root aim place') : after.place path aim' = .ok place' := by
  simp only [FileTree.place, hd] at h ⊢
  split_ifs at h ⊢
  · exact walkLinks_becomes hk ha h hb
  · exact walkLinks_becomes hk ha h hb

/-- What can be written to is written to. -/
theorem write_of_place {tree : FileTree} {path : Path} (h : tree.place path .writing = .ok place)
    (hw : place.isWritableAt names) (content : ByteArray) :
    tree.write path content
      = .ok (tree.set names (.file content) ((place_stands h).takesFile hw)) := by
  unfold write
  split
  · next found old heq =>
    obtain rfl : .file found old = place := Except.ok.inj (heq.symm.trans h)
    obtain rfl : found = names := hw
    rfl
  · next found heq =>
    obtain rfl : .vacant found = place := Except.ok.inj (heq.symm.trans h)
    obtain rfl : found = names := hw
    rfl
  · next found heq =>
    obtain rfl : .folder found = place := Except.ok.inj (heq.symm.trans h)
    exact absurd hw id
  · next found heq =>
    obtain rfl : .link found = place := Except.ok.inj (heq.symm.trans h)
    exact absurd hw id
  · next error heq => cases heq.symm.trans h

/-- A write that succeeds sets its file at a place that takes one. -/
theorem write_eq_ok {tree after : FileTree} {path : Path} {content : ByteArray}
    (h : tree.write path content = .ok after) :
    ∃ names place, tree.place path .writing = .ok place ∧ place.isWritableAt names ∧
      ∃ htakes, after = tree.set names (.file content) htakes := by
  unfold write at h
  split at h
  · next names old hplace => exact ⟨names, _, hplace, rfl, _, (Except.ok.inj h).symm⟩
  · next names hplace => exact ⟨names, _, hplace, rfl, _, (Except.ok.inj h).symm⟩
  · cases h
  · cases h
  · cases h

/-- A write that succeeds sets its file at a place that takes one, and the path stands for that file
from then on. -/
theorem place_of_write {tree after : FileTree} {path : Path} {content : ByteArray}
    (h : tree.write path content = .ok after) :
    ∃ names, ∃ htakes, after = tree.set names (.file content) htakes ∧
      ∀ aim, aim = .writing ∨ aim = .target → after.place path aim = .ok (.file names content) := by
  obtain ⟨names, place, hp, hw, htakes, rfl⟩ := write_eq_ok h
  have hset : (tree.root.set names (.file content)).at? names = some (.file content) :=
    htakes.at?_set_self
  have hb : place.Becomes (tree.root.set names (.file content)) .writing (.file names content) := by
    cases place with
    | folder found => exact absurd hw id
    | link found => exact absurd hw id
    | file found old =>
      obtain rfl : found = names := hw
      exact .file hset
    | vacant found =>
      obtain rfl : found = names := hw
      exact .written hset rfl
  exact ⟨names, htakes, rfl, fun aim ha => place_becomes (htakes.keepsWays _) rfl ha hp hb⟩

/-- A path that was written to reads as what was written. -/
theorem read_of_write {tree after : FileTree} {path : Path} {content : ByteArray}
    (h : tree.write path content = .ok after) : after.read path = .ok content := by
  obtain ⟨names, -, -, hplace⟩ := place_of_write h
  simp only [read, hplace .target (.inr rfl)]
  rfl

end FileTree

end EndpointTypings
