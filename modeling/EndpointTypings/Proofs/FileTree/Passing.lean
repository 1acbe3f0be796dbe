import EndpointTypings.Proofs.FileTree.LinkFree
import EndpointTypings.Proofs.Path.Parents

/-!
# Passing folders

In a tree without links a path is a matter of the folders on its way. Which folder it leads to is
spelled by its segments (`FileTree.Reaches.eq_foldl`); the tree only says whether it leads there.
Idle segments make no difference (`FileTree.reaches_named_iff`), so the parent of a path that leads
to a folder leads to one too (`FileTree.place_parent?`). A path that can be written to names an
entry of the folder that its other segments lead to (`FileTree.exists_of_place_writing`).
-/

namespace EndpointTypings

namespace FileTree

variable {root : Node} {tree : FileTree} {aim : Aim}
  {onLink : List String → Path → List String → Except OsError Place}
  {before more names inner : List String} {segments : List (List Char)}
  {entries : List (String × Node)} {path parent : Path} {content : ByteArray}

/-- A path is followed from a folder. -/
theorem at?_startOf (tree : FileTree) (path : Path) :
    ∃ entries, tree.root.at? (tree.startOf path) = some (.folder entries) := by
  obtain ⟨entries, hfolder⟩ := tree.at?_workingDir
  rw [startOf]
  split_ifs
  · by_cases hroot : tree.workingDir = []
    · exact ⟨entries, hroot ▸ hfolder⟩
    · -- what a folder below the root lies in is a folder
      obtain ⟨first, rest, hnames⟩ := List.exists_cons_of_ne_nil hroot
      rw [hnames] at hfolder
      cases hnode : tree.root with
      | folder entries => exact ⟨entries, rfl⟩
      | file content => simp [hnode, Node.at?] at hfolder
      | link target => simp [hnode, Node.at?] at hfolder
  · exact ⟨entries, hfolder⟩

/-- No link stands in a tree of one working directory. -/
theorem linkFree_empty (workingDir : List String) : (empty workingDir).root.LinkFree := by
  rw [empty]
  dsimp only
  induction workingDir with
  | nil => exact Node.linkFree_folder nofun
  | cons name rest ih =>
    refine Node.linkFree_folder fun other child hchild => ?_
    rw [Entries.get?] at hchild
    split_ifs at hchild
    · exact Option.some.inj hchild ▸ ih
    · cases hchild

/-! ## Segments -/

/-- The names that a segment leads to from others, if it can be passed. -/
def stepTo (names : List String) (segment : String) : List String :=
  if IsIdle segment then names else if segment = ".." then names.dropLast else names ++ [segment]

/-- An idle segment stays. -/
theorem stepTo_of_isIdle {segment : String} (hs : IsIdle segment) :
    stepTo names segment = names :=
  if_pos hs

/-- Two dots lead to the names above. -/
theorem stepTo_up : stepTo names ".." = names.dropLast := rfl

/-- A name is one more. -/
theorem stepTo_of_isName {segment : String} (hs : IsName segment) :
    stepTo names segment = names ++ [segment] := by
  rw [stepTo, if_neg hs.1, if_neg hs.2.1]

/-- What leads to a folder starts in one. -/
theorem Reaches.start (h : Reaches root before names (.folder inner)) :
    ∃ entries, root.at? names = some (.folder entries) := by
  cases before with
  | nil =>
    cases h with
    | folder at_names => exact ⟨_, at_names⟩
  | cons segment rest => exact h.at_names

/-- A segment is passed on the way to a folder if it starts in one, and the names it leads to go on
there. -/
theorem reaches_cons_iff {segment : String} {rest : List String} :
    Reaches root (segment :: rest) names (.folder inner) ↔
      (∃ entries, root.at? names = some (.folder entries)) ∧
        (IsIdle segment ∨ segment = ".." ∨ IsName segment) ∧
        Reaches root rest (stepTo names segment) (.folder inner) := by
  constructor
  · intro h
    refine ⟨h.at_names, ?_⟩
    cases h with
    | idle at_names hs onward =>
      rw [stepTo_of_isIdle hs]
      exact ⟨.inl hs, onward⟩
    | up at_names onward => exact ⟨.inr (.inl rfl), onward⟩
    | follow _ _ _ _ _ onward => cases onward
    | enter _ hs _ _ _ onward =>
      rw [stepTo_of_isName hs]
      exact ⟨.inr (.inr hs), onward⟩
  · rintro ⟨⟨entries, hfolder⟩, hs | rfl | hs, onward⟩
    · rw [stepTo_of_isIdle hs] at onward
      exact .idle hfolder hs onward
    · exact .up hfolder onward
    · rw [stepTo_of_isName hs] at onward
      obtain ⟨entries', hentered⟩ := onward.start
      exact .enter hfolder hs (fun hslashes => nomatch hslashes.1) hentered nofun onward

/-- The folder that segments lead to is the one that they spell. -/
theorem Reaches.eq_foldl (h : Reaches root before names (.folder inner)) :
    inner = before.foldl stepTo names := by
  induction before generalizing names with
  | nil =>
    cases h
    rfl
  | cons segment rest ih => exact ih (reaches_cons_iff.1 h).2.2

/-- A segment stays in a folder exactly if it is idle. -/
theorem isIdle_ofList_iff {segment : List Char} :
    IsIdle (String.ofList segment) ↔ Path.isIdle segment = true := by
  simp [Path.isIdle, IsIdle, ← String.toList_inj]

/-- Segments lead from a folder to the one that those of them lead to that name something. -/
theorem reaches_named_iff :
    Reaches root (segments.map String.ofList) names (.folder inner) ↔
      (∃ entries, root.at? names = some (.folder entries)) ∧
        Reaches root ((Path.named segments).map String.ofList) names (.folder inner) := by
  induction segments generalizing names with
  | nil => exact (and_iff_right_of_imp Reaches.start).symm
  | cons segment rest ih =>
    rw [List.map_cons, reaches_cons_iff, ih, Path.named_cons]
    by_cases hidle : Path.isIdle segment = true
    · have hs : IsIdle (String.ofList segment) := isIdle_ofList_iff.2 hidle
      rw [if_pos hidle, stepTo_of_isIdle hs]
      exact ⟨fun h => h.2.2, fun h => ⟨h.1, .inl hs, h⟩⟩
    · rw [if_neg hidle, List.map_cons, reaches_cons_iff]
      -- the folder that the segment leads to is the one the others start in
      exact ⟨fun h => ⟨h.1, h.1, h.2.1, h.2.2.2⟩,
        fun h => ⟨h.1, h.2.2.1, h.2.2.2.start, h.2.2.2⟩⟩

/-- A walk passes the segments that lead to a folder, if not just slashes follow. -/
theorem walk_append (h : Reaches root before names (.folder inner))
    (hmore : ∃ segment ∈ more, segment ≠ "") :
    walk root aim onLink (before ++ more) names = walk root aim onLink more inner := by
  induction before generalizing names with
  | nil =>
    cases h
    rfl
  | cons segment rest ih =>
    obtain ⟨⟨entries, hfolder⟩, hs, onward⟩ := reaches_cons_iff.1 h
    rw [← ih onward, List.cons_append]
    rcases hs with hs | rfl | hs
    · rw [walk_idle hfolder hs, stepTo_of_isIdle hs]
    · rw [walk_up hfolder, stepTo_up]
    · have hr : MayFollow aim (rest ++ more) := by
        rintro ⟨-, -, hslashes⟩
        obtain ⟨other, hmem, hne⟩ := hmore
        exact hne (hslashes other (List.mem_append_right rest hmem))
      obtain ⟨entries', hentered⟩ := onward.start
      rw [stepTo_of_isName hs] at hentered ⊢
      rw [walk_name hfolder hs hr, hentered]

/-! ## Paths -/

/-- What a path can be followed by can be passed as a walk. -/
theorem exists_walk (hf : CanBeFollowed path) (tree : FileTree) (aim : Aim) :
    ∃ onLink, tree.place path aim =
      walk tree.root aim onLink (segmentsOf path) (tree.startOf path) := by
  obtain ⟨hempty, hnull, hshort⟩ := hf
  exact ⟨_, by
    rw [FileTree.place, if_neg (Bool.eq_false_iff.1 hempty), if_neg (Bool.eq_false_iff.1 hnull),
      if_neg hshort]
    rfl⟩

/-- The segments of a path that name something, as names. -/
def namedOf (path : Path) : List String :=
  (Path.named path.segments).map String.ofList

/-- What a path names is not idle. -/
theorem not_isIdle_of_mem_namedOf {name : String} (h : name ∈ namedOf path) : ¬ IsIdle name := by
  rw [namedOf, List.mem_map] at h
  obtain ⟨segment, hsegment, rfl⟩ := h
  intro hidle
  simp [Path.named, isIdle_ofList_iff.1 hidle] at hsegment

/-- A path leads to the folder that what it names leads to. -/
theorem place_folder_iff (hfree : tree.root.LinkFree) (ha : aim ≠ .writing) :
    tree.place path aim = .ok (.folder inner) ↔
      CanBeFollowed path ∧
        Reaches tree.root (namedOf path) (tree.startOf path) (.folder inner) := by
  rw [place_eq_ok_iff hfree ha, segmentsOf, reaches_named_iff, namedOf,
    and_iff_right (tree.at?_startOf path)]

/-- It makes no difference for what a path to a folder is followed, unless it is to write a file. -/
theorem place_folder_congr {aim' : Aim} (hfree : tree.root.LinkFree) (ha : aim ≠ .writing)
    (ha' : aim' ≠ .writing) :
    tree.place path aim = .ok (.folder inner) ↔ tree.place path aim' = .ok (.folder inner) :=
  (place_folder_iff hfree ha).trans (place_folder_iff hfree ha').symm

/-- Where a path is followed from depends on the working directory. -/
theorem startOf_congr {other : FileTree} (hd : tree.workingDir = other.workingDir) (path : Path) :
    tree.startOf path = other.startOf path := by
  rw [startOf, startOf, hd]

/-- The parent of a path is followed from where the path is. -/
theorem startOf_parent? (tree : FileTree) (h : path.parent? = some parent) :
    tree.startOf parent = tree.startOf path := by
  rw [startOf, startOf, (Path.segments_parent? h).1]

/-- The parent of a path names what the path names, but the last. -/
theorem namedOf_parent? (h : path.parent? = some parent) :
    namedOf parent = (namedOf path).dropLast := by
  rw [namedOf, namedOf, Path.named_parent? h, List.map_dropLast]

/-- The parent of a path can be followed if it is not empty. -/
theorem canBeFollowed_parent? (h : path.parent? = some parent) (hne : parent.text ≠ "")
    (hf : CanBeFollowed path) : CanBeFollowed parent := by
  obtain ⟨-, hnull, hshort⟩ := hf
  obtain ⟨more, hmore⟩ := Path.prefix_of_parent? h
  have htext : path.text = parent.text ++ String.ofList more := by
    rw [← String.toList_inj, String.toList_append, String.toList_ofList, hmore]
  refine ⟨by simpa using hne, ?_, ?_⟩
  · rw [htext, String.toList_append, List.contains_append, Bool.or_eq_false_iff] at hnull
    exact hnull.1
  · rw [htext, String.utf8ByteSize_append] at hshort
    omega

/-- The parent of a path that leads to a folder leads to one if it is not empty. -/
theorem place_parent? (hfree : tree.root.LinkFree) (h : path.parent? = some parent)
    (hne : parent.text ≠ "") (hfolder : tree.place path .target = .ok (.folder inner)) :
    ∃ outer, tree.place parent .target = .ok (.folder outer) := by
  have ha : Aim.target ≠ .writing := by decide
  obtain ⟨hf, hreaches⟩ := (place_folder_iff hfree ha).1 hfolder
  simp only [place_folder_iff hfree ha, startOf_parent? tree h, namedOf_parent? h]
  refine (exists_and_left).2 ⟨canBeFollowed_parent? h hne hf, ?_⟩
  rcases List.eq_nil_or_concat (namedOf path) with hnil | ⟨front, last, hconcat⟩
  · exact ⟨inner, hnil ▸ hreaches⟩
  · rw [List.concat_eq_append] at hconcat
    have hlast : ¬ IsIdle last :=
      not_isIdle_of_mem_namedOf (hconcat ▸ List.mem_append_right front List.mem_cons_self)
    rw [hconcat] at hreaches ⊢
    obtain ⟨outer, houter, -⟩ :=
      hreaches.split ⟨last, List.mem_cons_self, fun hempty => hlast (.inl hempty)⟩
    exact ⟨outer, by rwa [List.dropLast_concat]⟩

/-- What lies before the last segment of a path leads to the folder that all but the last of what it
names leads to. -/
theorem reaches_before {front : List (List Char)} {last : List Char}
    (hsegments : path.segments = front ++ [last]) (hidle : Path.isIdle last = false)
    (h : Reaches tree.root (namedOf path).dropLast (tree.startOf path) (.folder inner)) :
    Reaches tree.root (front.map String.ofList) (tree.startOf path) (.folder inner) := by
  have hone : Path.named [last] = [last] := by simp [Path.named, hidle]
  have hnamed : (namedOf path).dropLast = (Path.named front).map String.ofList := by
    rw [namedOf, hsegments, Path.named_append, hone, List.map_append, List.map_singleton,
      List.dropLast_concat]
  exact reaches_named_iff.2 ⟨tree.at?_startOf path, hnamed ▸ h⟩

/-! ## Places to write to -/

/-- Segments that lead to a place to write to lead to a folder, and then name an entry of it, unless
they start at a file and stay there. -/
theorem Leads.of_isWritableAt {place : Place} (hfree : root.LinkFree)
    (h : Leads root .writing onLink before names place) (hw : place.isWritableAt inner) :
    (before = [] ∧ inner = names ∧ ∃ content, root.at? names = some (.file content)) ∨
      ∃ front last above, before = front ++ [last] ∧ IsName last ∧ inner = above ++ [last] ∧
        Reaches root front names (.folder above) := by
  have hr : ∀ rest, MayFollow .target rest := fun _ hslashes => nomatch hslashes.1
  induction h with
  | folder => exact absurd hw id
  | @file names content at_names =>
    obtain rfl : names = inner := hw
    exact .inl ⟨rfl, rfl, content, at_names⟩
  | @idle segment rest names entries place at_names hs _ ih =>
    rcases ih hw with ⟨-, -, content, hfile⟩ | ⟨front, last, above, rfl, hlast, hinner, hfront⟩
    · simp [at_names] at hfile
    · exact .inr ⟨segment :: front, last, above, rfl, hlast, hinner, .idle at_names hs hfront⟩
  | @up rest names entries place at_names _ ih =>
    rcases ih hw with ⟨-, -, content, hfile⟩ | ⟨front, last, above, rfl, hlast, hinner, hfront⟩
    · -- above a folder there is no file
      obtain ⟨entries', hfolder⟩ := Node.at?_dropLast_of_folder at_names
      simp [hfolder] at hfile
    · exact .inr ⟨".." :: front, last, above, rfl, hlast, hinner, .up at_names hfront⟩
  | @vacant segment rest names entries at_names hs hrest missing hslashes =>
    obtain rfl : names ++ [segment] = inner := hw
    obtain rfl : rest = [] := by
      by_contra hne
      exact hrest ⟨rfl, hne, hslashes⟩
    exact .inr ⟨[], segment, names, rfl, hs, rfl, .folder at_names⟩
  | link => exact absurd hw id
  | follow _ _ _ _ found _ => exact absurd found (hfree _ _)
  | @enter segment rest names entries node place at_names hs hrest found noLink onward ih =>
    rcases ih hw with ⟨rfl, rfl, -⟩ | ⟨front, last, above, rfl, hlast, hinner, hfront⟩
    · exact .inr ⟨[], segment, names, rfl, hs, rfl, .folder at_names⟩
    · exact .inr ⟨segment :: front, last, above, rfl, hlast, hinner,
        .enter at_names hs (hr _) found noLink hfront⟩

/-- A path that stands for something can be followed. -/
theorem canBeFollowed_of_place {place : Place} (h : tree.place path aim = .ok place) :
    CanBeFollowed path := by
  rw [FileTree.place] at h
  split_ifs at h with hempty hnull hlong <;>
    exact ⟨Bool.eq_false_iff.2 hempty, Bool.eq_false_iff.2 hnull, hlong⟩

/-- A path to write to names an entry of a folder that the segments before its name lead to. -/
theorem exists_of_place_writing {place : Place} {written : List String} (hfree : tree.root.LinkFree)
    (h : tree.place path .writing = .ok place) (hw : place.isWritableAt written) :
    ∃ front last above, path.segments = front ++ [last] ∧ IsName (String.ofList last) ∧
      written = above ++ [String.ofList last] ∧
      Reaches tree.root (front.map String.ofList) (tree.startOf path) (.folder above) := by
  obtain ⟨onLink, hwalk⟩ := exists_walk (canBeFollowed_of_place h) tree .writing
  rcases (Leads.of_walk (hwalk.symm.trans h)).of_isWritableAt hfree hw with
    ⟨-, -, content, hfile⟩ | ⟨front, last, above, hsegments, hlast, hwritten, hfront⟩
  · obtain ⟨entries, hstart⟩ := tree.at?_startOf path
    simp [hstart] at hfile
  · rw [segmentsOf, List.map_eq_append_iff] at hsegments
    obtain ⟨front, lasts, hsegments, rfl, hlasts⟩ := hsegments
    obtain ⟨last, rfl, rfl⟩ := List.map_eq_singleton_iff.1 hlasts
    exact ⟨front, last, above, hsegments, hlast, hwritten, hfront⟩

end FileTree

end EndpointTypings
