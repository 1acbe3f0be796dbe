import EndpointTypings.Proofs.FileTree.Growth
import EndpointTypings.Proofs.Path.Joined

/-!
# Trees without links

Where no link stands, following a path is passing its segments one by one: it makes no difference
how links would be followed, nor, unless a file is to be written, what the path is followed for.
`FileTree.Reaches` is the walk that is left. It goes through the folders on its way
(`FileTree.Reaches.split`), and a file it ends at is called what the path ends with
(`FileTree.fileName?_of_place_file`).
-/

namespace EndpointTypings

namespace Node

variable {root new : Node} {names : List String}

/-- No link stands in a tree. -/
def LinkFree (root : Node) : Prop :=
  ∀ names target, root.at? names ≠ some (link target)

/-- There is no link in a file. -/
theorem linkFree_file (content : ByteArray) : LinkFree (file content) := by
  intro names target
  cases names <;> simp [at?]

/-- There is no link in a folder if there is none in its entries. -/
theorem linkFree_folder {entries : List (String × Node)}
    (h : ∀ name child, Entries.get? name entries = some child → child.LinkFree) :
    LinkFree (folder entries) := by
  intro names target hlink
  cases names with
  | nil => simp at hlink
  | cons name names =>
    rw [at?, Option.bind_eq_some_iff] at hlink
    obtain ⟨child, hchild, hbelow⟩ := hlink
    exact h name child hchild names target hbelow

/-- Where no link is set, there still is none. -/
theorem LinkFree.set (h : root.LinkFree) (ht : root.TakesFile names) (hleaf : new.IsLeaf)
    (hnew : ∀ target, new ≠ link target) : (root.set names new).LinkFree := by
  intro other target hlink
  by_cases heq : other = names
  · subst heq
    rw [ht.at?_set_self] at hlink
    exact hnew target (Option.some.inj hlink)
  · have hlook : (root.set names new).look other = root.look other :=
      ht.look_set_of_ne hleaf heq
    rw [look, look, hlink] at hlook
    cases hother : root.at? other with
    | none =>
      rw [hother] at hlook
      cases hlook
    | some node =>
      rw [hother] at hlook
      cases node with
      | file content => cases hlook
      | folder entries => cases hlook
      | link target' => exact h other target' hother

/-- What is above something is a folder. -/
theorem at?_dropLast {node : Node} (hne : names ≠ []) (h : root.at? names = some node) :
    ∃ entries, root.at? names.dropLast = some (folder entries) := by
  rw [← List.dropLast_concat_getLast hne, at?_append] at h
  cases habove : root.at? names.dropLast with
  | none =>
    rw [habove] at h
    cases h
  | some above =>
    rw [habove] at h
    cases above with
    | folder entries => exact ⟨entries, rfl⟩
    | file content => cases h
    | link target => cases h

/-- What is above a folder is a folder, and the root is above itself. -/
theorem at?_dropLast_of_folder {node : Node} {entries : List (String × Node)}
    (h : node.at? names = some (folder entries)) :
    ∃ entries', node.at? names.dropLast = some (folder entries') := by
  by_cases hroot : names = []
  · subst hroot
    exact ⟨entries, h⟩
  · exact at?_dropLast hroot h

end Node

namespace FileTree

variable {root : Node} {aim aim' : Aim}
  {onLink onLink' : List String → Path → List String → Except OsError Place}
  {segments more names inner found : List String} {segment : String} {place : Place}
  {content : ByteArray}

/-! ## Walks without links -/

/-- Where no link stands, it makes no difference how links are followed; and slashes may follow the
last name unless the path is followed to write a file. -/
theorem Leads.of_linkFree (hfree : root.LinkFree) (ha : aim' ≠ .writing)
    (h : Leads root aim onLink segments names place) :
    Leads root aim' onLink' segments names place := by
  have hr : ∀ rest, MayFollow aim' rest := fun _ hslashes => ha hslashes.1
  induction h with
  | folder at_names => exact .folder at_names
  | file at_names => exact .file at_names
  | idle at_names hs _ ih => exact .idle at_names hs ih
  | up at_names _ ih => exact .up at_names ih
  | vacant at_names hs _ missing last => exact .vacant at_names hs (hr _) missing last
  | link _ _ _ found => exact absurd found (hfree _ _)
  | follow _ _ _ _ found _ => exact absurd found (hfree _ _)
  | enter at_names hs _ found noLink _ ih => exact .enter at_names hs (hr _) found noLink ih

/-- The places that segments lead to over no links. -/
abbrev Reaches (root : Node) : List String → List String → Place → Prop :=
  Leads root .target fun _ _ _ => .error .tooManyLinks

/-- Segments lead to one place at most. -/
theorem Reaches.unique {other : Place} (h : Reaches root segments names place)
    (h' : Reaches root segments names other) : place = other :=
  Except.ok.inj (h.walk_eq.symm.trans h'.walk_eq)

/-- Where no link stands, a walk over links is one over none. -/
theorem walkLinks_eq_ok_iff (links : Nat) (hfree : root.LinkFree) (ha : aim ≠ .writing) :
    walkLinks root aim links segments names = .ok place ↔ Reaches root segments names place := by
  cases links with
  | zero =>
    exact walk_eq_ok_iff.trans ⟨.of_linkFree hfree (by decide), .of_linkFree hfree ha⟩
  | succ links =>
    exact walk_eq_ok_iff.trans ⟨.of_linkFree hfree (by decide), .of_linkFree hfree ha⟩

/-- Only a folder can be passed. -/
theorem Reaches.at_names (h : Reaches root (segment :: segments) names place) :
    ∃ entries, root.at? names = some (.folder entries) := by
  cases h <;> exact ⟨_, by assumption⟩

/-- What leads to a folder ends in one. -/
theorem Reaches.finish (h : Reaches root segments names (.folder inner)) :
    ∃ entries, root.at? inner = some (.folder entries) :=
  Leads.stands (fun _ _ _ _ hlink => by cases hlink) h

/-- Segments behind others go on from the folder that those lead to. -/
theorem Reaches.append (h : Reaches root segments names (.folder inner))
    (hmore : Reaches root more inner place) : Reaches root (segments ++ more) names place := by
  induction segments generalizing names with
  | nil =>
    cases h
    exact hmore
  | cons segment rest ih =>
    have hr : MayFollow .target (rest ++ more) := fun hslashes => nomatch hslashes.1
    cases h with
    | idle at_names hs onward => exact .idle at_names hs (ih onward)
    | up at_names onward => exact .up at_names (ih onward)
    | follow _ _ _ _ _ onward => cases onward
    | enter at_names hs _ found noLink onward =>
      exact .enter at_names hs hr found noLink (ih onward)

/-- If not just slashes follow, segments lead to a folder from which those that follow go on. -/
theorem Reaches.split (h : Reaches root (segments ++ more) names place)
    (hmore : ∃ segment ∈ more, segment ≠ "") :
    ∃ inner, Reaches root segments names (.folder inner) ∧ Reaches root more inner place := by
  induction segments generalizing names with
  | nil =>
    -- a segment follows, and only a folder can be passed
    obtain ⟨segment, hmem, -⟩ := hmore
    obtain ⟨first, rest, rfl⟩ := List.exists_cons_of_ne_nil (List.ne_nil_of_mem hmem)
    obtain ⟨entries, hfolder⟩ := Reaches.at_names h
    exact ⟨names, .folder hfolder, h⟩
  | cons segment rest ih =>
    have hr : MayFollow .target rest := fun hslashes => nomatch hslashes.1
    rw [List.cons_append] at h
    generalize hall : rest ++ more = all at h
    cases h with
    | idle at_names hs onward =>
      obtain ⟨inner, hinner, honward⟩ := ih (hall ▸ onward)
      exact ⟨inner, .idle at_names hs hinner, honward⟩
    | up at_names onward =>
      obtain ⟨inner, hinner, honward⟩ := ih (hall ▸ onward)
      exact ⟨inner, .up at_names hinner, honward⟩
    | vacant _ _ _ _ last =>
      -- behind a missing name there would be nothing but slashes
      obtain ⟨other, hmem, hne⟩ := hmore
      exact absurd (last other (hall ▸ List.mem_append_right rest hmem)) hne
    | link _ _ ha => cases ha
    | follow _ _ _ _ _ onward => cases onward
    | enter at_names hs _ found noLink onward =>
      obtain ⟨inner, hinner, honward⟩ := ih (hall ▸ onward)
      exact ⟨inner, .enter at_names hs hr found noLink hinner, honward⟩

/-- A file that one name leads to stands in the folder under it. -/
theorem reaches_file_iff (hs : IsName segment) :
    Reaches root [segment] names (.file found content) ↔
      (∃ entries, root.at? names = some (.folder entries)) ∧ found = names ++ [segment] ∧
        root.at? found = some (.file content) := by
  constructor
  · intro h
    refine ⟨Reaches.at_names h, ?_⟩
    cases h with
    | idle _ hidle => exact absurd hidle hs.1
    | up => exact absurd rfl hs.2.1
    | follow _ _ _ _ _ onward => cases onward
    | enter _ _ _ _ _ onward =>
      cases onward with
      | file at_file => exact ⟨rfl, at_file⟩
  · rintro ⟨⟨entries, hfolder⟩, rfl, hfile⟩
    exact .enter hfolder hs (fun hslashes => nomatch hslashes.1) hfile nofun (.file hfile)

/-- A file that segments lead to is called what the last of them says. -/
theorem Reaches.getLast?_eq (h : Reaches root segments names (.file found content))
    (hne : segments ≠ []) :
    ∃ segment, segments.getLast? = some segment ∧ IsName segment ∧
      found.getLast? = some segment := by
  induction segments generalizing names with
  | nil => exact absurd rfl hne
  | cons segment rest ih =>
    -- more segments may follow, and then it is the last of them
    have honward : ∀ {next}, Reaches root rest next (.file found content) → rest ≠ [] →
        ∃ last, (segment :: rest).getLast? = some last ∧ IsName last ∧
          found.getLast? = some last := by
      intro next hnext hrest
      obtain ⟨last, hlast, hname⟩ := ih hnext hrest
      obtain ⟨before, rfl⟩ := List.getLast?_eq_some_iff.1 hlast
      exact ⟨last, by rw [← List.cons_append, List.getLast?_concat], hname⟩
    by_cases hrest : rest = []
    · -- the last segment has to name the file: one that stays or goes up ends in a folder
      subst hrest
      cases h with
      | idle at_names _ onward =>
        cases onward with
        | file at_file => simp [at_names] at at_file
      | up at_names onward =>
        cases onward with
        | file at_file =>
          obtain ⟨entries, hfolder⟩ := Node.at?_dropLast_of_folder at_names
          simp [hfolder] at at_file
      | follow _ _ _ _ _ onward => cases onward
      | enter _ hs _ _ _ onward =>
        cases onward with
        | file => exact ⟨segment, rfl, hs, List.getLast?_concat⟩
    · cases h with
      | idle _ _ onward => exact honward onward hrest
      | up _ onward => exact honward onward hrest
      | follow _ _ _ _ _ onward => cases onward
      | enter _ _ _ _ _ onward => exact honward onward hrest

/-! ## Steps that set no link -/

/-- Where folders are added there is no link if there was none. -/
theorem AddsFolders.linkFree {allowed : Path → Prop} {tree after : FileTree}
    (h : AddsFolders allowed tree after) (hfree : tree.root.LinkFree) : after.root.LinkFree := by
  induction h with
  | refl => exact hfree
  | step _ hstep _ ih =>
    refine ih ?_
    rw [hstep.eq_set]
    exact hfree.set hstep.takesFile Node.isLeaf_folder nofun

/-- Where a file is written there is no link if there was none. -/
theorem linkFree_of_write {tree after : FileTree} {path : Path}
    (h : tree.write path content = .ok after) (hfree : tree.root.LinkFree) :
    after.root.LinkFree := by
  obtain ⟨names, htakes, heq, -⟩ := place_of_write h
  rw [heq]
  exact hfree.set htakes (Node.isLeaf_file content) nofun

/-! ## Paths -/

variable {tree after : FileTree} {path base : Path}

/-- A path can be followed at all: it is not empty, has no null character and is not too long. -/
def CanBeFollowed (path : Path) : Prop :=
  path.text.isEmpty = false ∧ path.text.toList.contains '\x00' = false ∧
    ¬ maxPath ≤ path.text.utf8ByteSize

/-- The names from which a path is followed. -/
def startOf (tree : FileTree) (path : Path) : List String :=
  if path.isAbsolute then [] else tree.workingDir

/-- Where no link stands, a path stands for what its segments lead to over none. -/
theorem place_eq_ok_iff (hfree : tree.root.LinkFree) (ha : aim ≠ .writing) :
    tree.place path aim = .ok place ↔
      CanBeFollowed path ∧ Reaches tree.root (segmentsOf path) (tree.startOf path) place := by
  rw [← walkLinks_eq_ok_iff maxLinks hfree ha, FileTree.place, CanBeFollowed, startOf]
  split_ifs with hempty hnull hlong <;> simp_all

/-- A file that a path leads to is called what the path ends with. -/
theorem fileName?_of_place_file (hfree : tree.root.LinkFree) (ha : aim ≠ .writing)
    (h : tree.place path aim = .ok (.file names content)) :
    ∃ name, path.fileName? = some name ∧ names.getLast? = some (String.ofList name) := by
  obtain ⟨-, hreaches⟩ := (place_eq_ok_iff hfree ha).1 h
  have hne : segmentsOf path ≠ [] := by
    simpa [segmentsOf, Path.segments] using Text.split_ne_nil '/' path.text.toList
  obtain ⟨segment, hlast, ⟨hidle, hup, -⟩, hname⟩ := hreaches.getLast?_eq hne
  rw [segmentsOf, List.getLast?_map, Option.map_eq_some_iff] at hlast
  obtain ⟨name, hsegment, rfl⟩ := hlast
  refine ⟨name, Path.fileName?_eq_some_iff.2 ?_, hname⟩
  -- the last segment is a name, so it is the last component
  have hcomponent : Path.component? name = some (.normal name) := by
    have hidle' : Path.isIdle name = false := by
      simpa [Path.isIdle, IsIdle, ← String.toList_inj] using hidle
    have hup' : name ≠ ['.', '.'] := fun heq => hup (by rw [heq])
    simp [Path.component?, hidle', hup']
  obtain ⟨before, hbefore⟩ := List.getLast?_eq_some_iff.1 hsegment
  rw [hbefore, Path.steps_append]
  simp [Path.steps, hcomponent]

/-- What a relative path, seen from a base, is followed by and from where. -/
theorem segmentsOf_join (tree : FileTree) (base : Path) (h : path.isAbsolute = false) :
    segmentsOf (base.join path) = base.innerSegments.map String.ofList ++ segmentsOf path ∧
      tree.startOf (base.join path) = tree.startOf base := by
  obtain ⟨hsegments, habsolute⟩ := Path.segments_join base h
  rw [segmentsOf, hsegments, startOf, habsolute, List.map_append]
  exact ⟨rfl, rfl⟩

/-- Where a base can be passed, a file in it that a name leads to later, when all ways were kept, is
led to already if it was there. -/
theorem place_file_of_sibling {folder file : Path} (hfree : tree.root.LinkFree)
    (hfree' : after.root.LinkFree) (hk : tree.root.KeepsWays after.root)
    (hd : after.workingDir = tree.workingDir) (hfolder : folder.isAbsolute = false)
    (hnamed : ∃ segment ∈ segmentsOf folder, segment ≠ "") (hfile : file.isAbsolute = false)
    (hone : segmentsOf file = [segment]) (hs : IsName segment)
    (hpassed : tree.place (base.join folder) .target = .ok (.folder inner))
    (h : after.place (base.join file) .target = .ok (.file names content))
    (hthere : tree.root.at? names = some (.file content)) :
    tree.place (base.join file) .target = .ok (.file names content) := by
  have ha : Aim.target ≠ .writing := by decide
  obtain ⟨hsegments, hstart⟩ := segmentsOf_join tree base hfolder
  obtain ⟨hsegments', hstart'⟩ := segmentsOf_join tree base hfile
  have hstart'' : after.startOf (base.join file) = tree.startOf base := by
    rw [← hstart', startOf, startOf, hd]
  rw [place_eq_ok_iff hfree ha, hsegments, hstart] at hpassed
  rw [place_eq_ok_iff hfree' ha, hsegments', hstart'', hone] at h
  rw [place_eq_ok_iff hfree ha, hsegments', hstart', hone]
  -- the base leads to the same folder before and after
  obtain ⟨above, habove, -⟩ := Reaches.split hpassed.2 hnamed
  obtain ⟨above', habove', hlast⟩ := Reaches.split h.2 ⟨segment, List.mem_cons_self, fun heq =>
    hs.1 (.inl heq)⟩
  obtain ⟨entries, hstands⟩ := habove.finish
  have hbecomes : (Place.folder above).Becomes after.root .target (.folder above) := by
    obtain ⟨entries', hstands'⟩ := hk.folder hstands
    exact .folder hstands'
  have hkept : Reaches after.root (base.innerSegments.map String.ofList) (tree.startOf base)
      (.folder above) := habove.becomes hk (.inl rfl) (fun _ _ _ _ hl _ => by cases hl) hbecomes
  obtain rfl : above = above' := Place.folder.inj (hkept.unique habove')
  -- from there the name leads to the file
  obtain ⟨-, hnames, -⟩ := (reaches_file_iff hs).1 hlast
  exact ⟨h.1, habove.append ((reaches_file_iff hs).2 ⟨⟨entries, hstands⟩, hnames, hthere⟩)⟩

end FileTree

end EndpointTypings
