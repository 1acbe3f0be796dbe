import EndpointTypings.Proofs.FileTree.Passing

/-!
# Trees that lack folders

A tree `FileTree.LacksFolders` of another if it has the same files and no folder that the other has
not. Following a path in it ends as in the other, or where a folder is missing
(`FileTree.LacksFolders.place_endsShort`). So directories that are there in the larger tree can be
made in the smaller one, and then it still only lacks folders (`Files.completes_makeDirs`): what
stands in the way of a directory would do so in the larger tree as well. The same holds of a file
that can be written (`FileTree.LacksFolders.write`).
-/

namespace EndpointTypings

namespace FileTree

variable {small mid large after : FileTree} {allowed : Path → Prop} {aim : Aim}
  {segments names inner outer : List String} {path : Path} {content : ByteArray}

/-! ## The relation -/

/-- A tree is like another, but for folders that it lacks. -/
structure LacksFolders (small large : FileTree) : Prop where
  /-- The working directory is the same. -/
  workingDir_eq : small.workingDir = large.workingDir
  /-- What stands at names is the same, or a folder is missing. -/
  look_cases : ∀ names, small.root.look names = large.root.look names ∨
    small.root.look names = none ∧ large.root.look names = some (.folder [])

/-- A tree lacks nothing of itself. -/
theorem LacksFolders.refl (tree : FileTree) : LacksFolders tree tree where
  workingDir_eq := rfl
  look_cases _ := .inl rfl

/-- What lacks folders of a tree that lacks folders of another lacks folders of that one. -/
theorem LacksFolders.trans (h : LacksFolders small mid) (h' : LacksFolders mid large) :
    LacksFolders small large where
  workingDir_eq := h.workingDir_eq.trans h'.workingDir_eq
  look_cases names := by
    rcases h.look_cases names with same | ⟨hnone, hfolder⟩
    · rw [same]
      exact h'.look_cases names
    · refine .inr ⟨hnone, ?_⟩
      rcases h'.look_cases names with same | ⟨hmid, -⟩
      · rw [← same, hfolder]
      · rw [hfolder] at hmid
        cases hmid

/-- A tree lacks the folders that are added to it. -/
theorem AddsFolders.lacksFolders (h : AddsFolders allowed small large) :
    LacksFolders small large where
  workingDir_eq := h.workingDir_eq.symm
  look_cases names := (h.look_cases names).imp Eq.symm fun ⟨hnone, hfolder, _⟩ => ⟨hnone, hfolder⟩

/-- The files are the same. -/
theorem LacksFolders.at?_file_iff (h : LacksFolders small large) :
    small.root.at? names = some (.file content) ↔ large.root.at? names = some (.file content) := by
  rw [← Node.look_eq_file_iff, ← Node.look_eq_file_iff]
  rcases h.look_cases names with same | ⟨hnone, hfolder⟩
  · rw [same]
  · rw [hnone, hfolder]
    exact ⟨nofun, nofun⟩

/-- Nothing is where there is nothing in the larger tree. -/
theorem LacksFolders.at?_eq_none (h : LacksFolders small large)
    (hnone : large.root.at? names = none) : small.root.at? names = none := by
  rw [← Node.look_eq_none_iff] at hnone ⊢
  rcases h.look_cases names with same | ⟨hsmall, -⟩
  · rw [same, hnone]
  · exact hsmall

/-- A folder is there or missing. -/
theorem LacksFolders.at?_folder (h : LacksFolders small large)
    (hlarge : ∃ entries, large.root.at? names = some (.folder entries)) :
    (∃ entries, small.root.at? names = some (.folder entries)) ∨
      small.root.at? names = none := by
  rw [← Node.look_eq_folder_iff] at hlarge ⊢
  rw [← Node.look_eq_none_iff]
  rcases h.look_cases names with same | ⟨hnone, -⟩
  · exact .inl (same.trans hlarge)
  · exact .inr hnone

/-- Where the same file is written to both trees, the same folders are missing. -/
theorem LacksFolders.set (h : LacksFolders small large) (hs : small.root.TakesFile names)
    (hl : large.root.TakesFile names) (content : ByteArray) :
    LacksFolders (small.set names (.file content) hs) (large.set names (.file content) hl) where
  workingDir_eq := h.workingDir_eq
  look_cases other := by
    by_cases heq : other = names
    · subst heq
      exact .inl (hs.look_set_self.trans hl.look_set_self.symm)
    · have hleaf : (Node.file content).IsLeaf := Node.isLeaf_file content
      rw [root_set, root_set, hs.look_set_of_ne hleaf heq, hl.look_set_of_ne hleaf heq]
      exact h.look_cases other

/-! ## Walks -/

/-- How following a number of segments that lead to a folder of a larger tree may end in one that
lacks folders: there, or where it is missing, or where one on the way to it is missing, if there is
one. -/
def EndsShort (names : List String) (count : Nat) (result : Except OsError Place) : Prop :=
  result = .ok (.folder names) ∨ result = .ok (.vacant names) ∨
    result = .error .notFound ∧ 1 < count

/-- Segments that lead to a folder of the larger tree end there in the smaller one, or short of
it. -/
theorem LacksFolders.walk_endsShort (h : LacksFolders small large)
    (onLink : List String → Path → List String → Except OsError Place) (ha : aim ≠ .writing)
    (hstart : ∃ entries, small.root.at? names = some (.folder entries))
    (hr : Reaches large.root segments names (.folder inner)) :
    EndsShort inner segments.length (walk small.root aim onLink segments names) := by
  induction segments generalizing names with
  | nil =>
    obtain ⟨entries, hfolder⟩ := hstart
    cases hr
    exact .inl (by rw [walk, hfolder])
  | cons segment rest ih =>
    obtain ⟨-, hs, onward⟩ := reaches_cons_iff.1 hr
    obtain ⟨entries, hfolder⟩ := hstart
    have honward : (∃ entries, small.root.at? (stepTo names segment) = some (.folder entries)) →
        EndsShort inner (segment :: rest).length
          (walk small.root aim onLink rest (stepTo names segment)) := by
      refine fun hnext => (ih hnext onward).imp_right (.imp_right (.imp_right fun hlong => ?_))
      exact hlong.trans (Nat.lt_succ_self _)
    rcases hs with hs | rfl | hs
    · rw [stepTo_of_isIdle hs] at honward
      rw [walk_idle hfolder hs]
      exact honward ⟨entries, hfolder⟩
    · rw [stepTo_up] at honward
      rw [walk_up hfolder]
      exact honward (Node.at?_dropLast_of_folder hfolder)
    · have hrest : MayFollow aim rest := fun hslashes => ha hslashes.1
      rw [stepTo_of_isName hs] at honward onward
      rw [walk_name hfolder hs hrest]
      rcases h.at?_folder onward.start with ⟨entries', hfound⟩ | hmissing
      · rw [hfound]
        exact honward ⟨entries', hfound⟩
      · -- the folder is missing: it is the last one if just slashes follow
        rw [hmissing]
        by_cases hlast : ∀ segment ∈ rest, segment = ""
        · obtain ⟨entries', hfound⟩ := onward.start
          obtain rfl : inner = names ++ [segment] :=
            Place.folder.inj (onward.unique (leads_slashes hfound hlast))
          exact .inr (.inl (if_pos (by simpa using hlast)))
        · refine .inr (.inr ⟨if_neg (by simpa using hlast), ?_⟩)
          rw [List.length_cons, Nat.lt_add_left_iff_pos, List.length_pos_iff]
          rintro rfl
          exact hlast (by simp)

/-- Trees with one working directory agree which folder a path leads to, if it leads to one. -/
theorem place_folder_unique (hs : small.root.LinkFree) (hl : large.root.LinkFree)
    (hd : small.workingDir = large.workingDir)
    (h : small.place path .target = .ok (.folder inner))
    (h' : large.place path .target = .ok (.folder outer)) : inner = outer := by
  have ha : Aim.target ≠ .writing := by decide
  rw [((place_folder_iff hs ha).1 h).2.eq_foldl, ((place_folder_iff hl ha).1 h').2.eq_foldl,
    startOf_congr hd path]

/-- Segments of a path that lead to a folder of the larger tree are those that lead there from where
the path is followed in the smaller one. -/
theorem LacksFolders.reaches_of_place (h : LacksFolders small large) (hl : large.root.LinkFree)
    (hlarge : large.place path .target = .ok (.folder inner)) :
    CanBeFollowed path ∧
      Reaches large.root (segmentsOf path) (small.startOf path) (.folder inner) := by
  rw [startOf_congr h.workingDir_eq path]
  exact (place_eq_ok_iff hl (by decide)).1 hlarge

/-- A path that leads to a folder of the larger tree ends there in the smaller one, or short of
it. -/
theorem LacksFolders.place_endsShort (h : LacksFolders small large) (hl : large.root.LinkFree)
    (ha : aim ≠ .writing) (hlarge : large.place path .target = .ok (.folder inner)) :
    EndsShort inner (segmentsOf path).length (small.place path aim) := by
  obtain ⟨hf, hreaches⟩ := h.reaches_of_place hl hlarge
  obtain ⟨onLink, hwalk⟩ := exists_walk hf small aim
  rw [hwalk]
  exact h.walk_endsShort onLink ha (small.at?_startOf path) hreaches

/-- Where the folder above it is there, no other is missed. -/
theorem LacksFolders.place_ne_notFound (h : LacksFolders small large) (hs : small.root.LinkFree)
    (hl : large.root.LinkFree) (ha : aim ≠ .writing)
    (hlarge : large.place path .target = .ok (.folder inner)) (hends : path.EndsNamed)
    (habove : Reaches small.root (namedOf path).dropLast (small.startOf path) (.folder outer)) :
    small.place path aim ≠ .error .notFound := by
  obtain ⟨hf, hreaches⟩ := h.reaches_of_place hl hlarge
  rcases hends with hnothing | ⟨before, last, hsegments, hidle⟩
  · have hnil : namedOf path = [] := congrArg _ hnothing
    rw [hnil, List.dropLast_nil] at habove
    rw [(place_folder_iff hs ha).2 ⟨hf, hnil ▸ habove⟩]
    rintro ⟨⟩
  · -- the walk arrives at the folder above, from which the last segment goes on
    have hlast : ¬ IsIdle (String.ofList last) := fun hstays => by
      simp [isIdle_ofList_iff.1 hstays] at hidle
    have hsplit : ∃ segment ∈ [String.ofList last], segment ≠ "" :=
      ⟨_, List.mem_cons_self, fun hempty => hlast (.inl hempty)⟩
    have hwritten : segmentsOf path = before.map String.ofList ++ [String.ofList last] := by
      rw [segmentsOf, hsegments, List.map_append, List.map_singleton]
    have hfront := reaches_before hsegments hidle habove
    rw [hwritten] at hreaches
    obtain ⟨other, hother, honward⟩ := hreaches.split hsplit
    obtain rfl : other = outer := hother.eq_foldl.trans hfront.eq_foldl.symm
    obtain ⟨onLink, hwalk⟩ := exists_walk hf small aim
    rw [hwalk, hwritten, walk_append hfront hsplit]
    intro hmissed
    rcases h.walk_endsShort onLink ha hfront.finish honward with
      hthere | hvacant | ⟨-, hlong⟩
    · cases hmissed.symm.trans hthere
    · cases hmissed.symm.trans hvacant
    · exact absurd hlong (lt_irrefl 1)

/-! ## Making a directory -/

/-- A path that names something does not end with a slash if it is tidy. -/
theorem endsWithSlash_of_isTidy (ht : path.IsTidy) (hnamed : namedOf path ≠ []) :
    path.endsWithSlash = false := by
  refine ht.resolve_right fun hroot => hnamed ?_
  rw [namedOf, Path.segments, hroot]
  rfl

/-- A directory that is there in the larger tree can be made in the smaller one, or it is there, or
one above it is missing. -/
theorem LacksFolders.makeDir_cases (h : LacksFolders small large) (hs : small.root.LinkFree)
    (hl : large.root.LinkFree) (ht : path.IsTidy)
    (hlarge : large.place path .target = .ok (.folder inner)) :
    (∃ after, small.makeDir path = .ok after) ∨ small.place path .target = .ok (.folder inner) ∨
      small.makeDir path = .error .notFound ∧ small.place path .entry = .error .notFound := by
  have ha : Aim.entry ≠ .writing := by decide
  have ha' : Aim.target ≠ .writing := by decide
  by_cases hthere : small.place path .entry = .ok (.folder inner)
  · exact .inr (.inl ((place_folder_congr hs ha ha').1 hthere))
  · -- it is not, so the path names something and can be asked for
    have hf : CanBeFollowed path := ((place_folder_iff hl ha').1 hlarge).1
    have hnamed : namedOf path ≠ [] := by
      intro hnil
      obtain ⟨entries, hstart⟩ := small.at?_startOf path
      have hfolder : small.place path .entry = .ok (.folder (small.startOf path)) :=
        (place_folder_iff hs ha).2 ⟨hf, hnil ▸ .folder hstart⟩
      have hfolder' := (place_folder_congr hs ha ha').1 hfolder
      rw [place_folder_unique hs hl h.workingDir_eq hfolder' hlarge] at hfolder
      exact hthere hfolder
    have hvacancy := vacancy_of_endsWithSlash small (endsWithSlash_of_isTidy ht hnamed)
    rcases h.place_endsShort hl ha hlarge with hfolder | hvacant | ⟨hmissing, -⟩
    · exact absurd hfolder hthere
    · rw [hvacant] at hvacancy
      exact .inl ⟨_, makeDir_of_vacancy hvacancy⟩
    · rw [hmissing] at hvacancy
      exact .inr (.inr ⟨makeDir_of_vacancy_error hvacancy, hmissing⟩)

/-! ## Writing -/

/-- A file that can be written in the larger tree can be written in the smaller one, if the folder
above it is there. -/
theorem LacksFolders.write (h : LacksFolders small large) (hl : large.root.LinkFree)
    (hw : large.write path content = .ok after)
    (habove : Reaches small.root (namedOf path).dropLast (small.startOf path) (.folder outer)) :
    ∃ after', small.write path content = .ok after' ∧ LacksFolders after' after := by
  obtain ⟨names, place, hplace, hwritable, htakes, rfl⟩ := write_eq_ok hw
  obtain ⟨front, last, above, hsegments, hlast, rfl, hreaches⟩ :=
    exists_of_place_writing hl hplace hwritable
  have hidle : Path.isIdle last = false := by
    rw [← Bool.not_eq_true, ← isIdle_ofList_iff]
    exact hlast.1
  -- in both trees the same folder is above the file
  have hfront := reaches_before hsegments hidle habove
  obtain rfl : above = outer := by
    rw [hreaches.eq_foldl, hfront.eq_foldl, startOf_congr h.workingDir_eq path]
  obtain ⟨entries, hfolder⟩ := hfront.finish
  obtain ⟨place', hplace', hwritable'⟩ : ∃ place', small.place path .writing = .ok place' ∧
      place'.isWritableAt (above ++ [String.ofList last]) := by
    obtain ⟨onLink, hwalk⟩ := exists_walk (canBeFollowed_of_place hplace) small .writing
    rw [hwalk, segmentsOf, hsegments, List.map_append, List.map_singleton,
      walk_append hfront ⟨_, List.mem_cons_self, fun hempty => hlast.1 (.inl hempty)⟩,
      walk_name hfolder hlast fun hslashes => hslashes.2.1 rfl]
    rcases htakes with ⟨old, hfile⟩ | ⟨_, _, _, -, -, hnone⟩
    · have hfile' := h.at?_file_iff.2 hfile
      rw [hfile']
      exact ⟨.file _ old, by rw [walk, hfile'], rfl⟩
    · rw [h.at?_eq_none hnone]
      exact ⟨.vacant _, rfl, rfl⟩
  exact ⟨_, write_of_place hplace' hwritable' content,
    h.set ((place_stands hplace').takesFile hwritable') htakes content⟩

end FileTree

namespace Files

open FileTree (LacksFolders AddsFolders CanBeFollowed Reaches namedOf run_bind run_makeDir
  place_folder_iff place_folder_congr root_set)

variable {small mid large after : FileTree} {inner : List String} {path : Path}

/-- A run ends well in a tree that lacks folders of another, where a path leads to a folder. -/
structure Completes (large : FileTree) (path : Path)
    (ended : Except OsError Unit × FileTree) : Prop where
  /-- It does not fail. -/
  succeeds : ended.1 = .ok ()
  /-- No link stands in the tree. -/
  linkFree : ended.2.root.LinkFree
  /-- What is in the tree is in the other one. -/
  lacksFolders : LacksFolders ended.2 large
  /-- The path leads to a folder. -/
  leads : ∃ names, ended.2.place path .target = .ok (.folder names)

/-- A directory that is made is one that the larger tree has. -/
theorem completes_makeDir (h : LacksFolders small large) (hs : small.root.LinkFree)
    (hl : large.root.LinkFree) (ht : path.IsTidy)
    (hlarge : large.place path .target = .ok (.folder inner))
    (hmake : small.makeDir path = .ok after) : Completes large path (.ok (), after) := by
  obtain ⟨names, hstep⟩ := FileTree.addsFolder_of_makeDir ht hmake
  have hadds : AddsFolders (fun _ => True) small after := .step trivial hstep .refl
  have hafter : after.root.LinkFree := hadds.linkFree hs
  have hd : after.workingDir = large.workingDir := hadds.workingDir_eq.trans h.workingDir_eq
  obtain rfl : names = inner :=
    FileTree.place_folder_unique hafter hl hd hstep.leads hlarge
  refine ⟨rfl, hafter, ⟨hd, fun other => ?_⟩, names, hstep.leads⟩
  have hroot : after.root = small.root.set names (.folder []) := by rw [hstep.eq_set, root_set]
  dsimp only
  rw [hroot]
  by_cases heq : other = names
  · subst heq
    obtain ⟨entries, hfolder⟩ := FileTree.place_stands hlarge
    rw [hstep.takesFile.look_set_self, Node.look_eq_folder_iff.2 ⟨entries, hfolder⟩]
    exact .inl rfl
  · rw [hstep.takesFile.look_set_of_ne Node.isLeaf_folder heq]
    exact h.look_cases other

/-- A directory that is there need not be made. -/
theorem completes_isDir (h : LacksFolders small large) (hs : small.root.LinkFree)
    (hthere : small.place path .target = .ok (.folder inner)) (error : OsError) :
    Completes large path
      (small.run (do if ← isDir path then return .ok () else return .error error)) := by
  have hdir : small.isDir path = true := FileTree.isDir_iff.2 ⟨inner, hthere⟩
  have hrun : small.run (isDir path) = (true, small) := by
    rw [← hdir]
    rfl
  rw [run_bind, hrun]
  exact ⟨rfl, hs, h, inner, hthere⟩

/-- A directory that is there in the larger tree is completed in the smaller one, if those above it
can be. -/
theorem completes_makeDirsAmong_cons {outer : List Path} (hl : large.root.LinkFree)
    (h : LacksFolders small large) (hs : small.root.LinkFree)
    (hlarge : large.place path .target = .ok (.folder inner)) (hends : path.EndsNamed)
    (ht : path.IsTidy) (hmid : small.run (makeDirsAmong outer) = (.ok (), mid))
    (h' : LacksFolders mid large) (hm : mid.root.LinkFree)
    (habove : ∃ names,
      Reaches mid.root (namedOf path).dropLast (mid.startOf path) (.folder names)) :
    Completes large path (small.run (makeDirsAmong (path :: outer))) := by
  have ha : Aim.target ≠ .writing := by decide
  have ha' : Aim.entry ≠ .writing := by decide
  rw [makeDirsAmong, run_bind, run_makeDir]
  rcases h.makeDir_cases hs hl ht hlarge with ⟨after, hmake⟩ | hthere | ⟨hmissed, -⟩
  · rw [hmake]
    exact completes_makeDir h hs hl ht hlarge hmake
  · rw [FileTree.makeDir_of_place_folder ht ((place_folder_congr hs ha ha').1 hthere)]
    exact completes_isDir h hs hthere _
  · -- a directory above is missing: those are completed first, and then this one is tried again
    obtain ⟨names, hreaches⟩ := habove
    rw [hmissed]
    dsimp only
    rw [run_bind, hmid]
    dsimp only
    rw [run_bind, run_makeDir]
    rcases h'.makeDir_cases hm hl ht hlarge with ⟨after, hmake⟩ | hthere | ⟨-, hmissing⟩
    · rw [hmake]
      exact completes_makeDir h' hm hl ht hlarge hmake
    · rw [FileTree.makeDir_of_place_folder ht ((place_folder_congr hm ha ha').1 hthere)]
      exact completes_isDir h' hm hthere _
    · exact absurd hmissing (h'.place_ne_notFound hm hl ha' hlarge hends hreaches)

/-- Directories that are there in the larger tree, one inside the other, are completed in the
smaller one. -/
theorem completes_makeDirsAmong (hl : large.root.LinkFree) (steps : Nat)
    (h : LacksFolders small large) (hs : small.root.LinkFree)
    (hlarge : large.place path .target = .ok (.folder inner))
    (hends : path.EndsNamed) (ht : path.IsTidy) (hsteps : (namedOf path).length < steps) :
    Completes large path (small.run (makeDirsAmong (path.ancestorsFrom steps))) := by
  induction steps generalizing small path inner with
  | zero => exact absurd hsteps (Nat.not_lt_zero _)
  | succ steps ih =>
    have ha : Aim.target ≠ .writing := by decide
    have hf : CanBeFollowed path := ((place_folder_iff hl ha).1 hlarge).1
    have hne : path.text ≠ "" := by simpa using hf.1
    rw [namedOf, List.length_map, Nat.lt_succ_iff] at hsteps
    rcases Path.ancestorsFrom_succ hne hsteps with
      ⟨halone, hnil⟩ | ⟨parent, hparent, hne', hlisted, hshort⟩
    · -- nothing is above the path but where it is followed from
      obtain ⟨entries, hstart⟩ := small.at?_startOf path
      rw [halone]
      refine completes_makeDirsAmong_cons hl h hs hlarge hends ht rfl h hs ⟨small.startOf path, ?_⟩
      rw [namedOf, ← List.map_dropLast, hnil]
      exact .folder hstart
    · obtain ⟨names, hfolder⟩ := FileTree.place_parent? hl hparent hne' hlarge
      have hdone := ih h hs hfolder (Path.endsNamed_parent? hparent)
        (Path.isTidy_parent? hparent) (by rwa [namedOf, List.length_map])
      obtain ⟨found, hfound⟩ := hdone.leads
      have hreaches := ((place_folder_iff hdone.linkFree ha).1 hfound).2
      rw [FileTree.namedOf_parent? hparent, FileTree.startOf_parent? _ hparent] at hreaches
      rw [hlisted]
      exact completes_makeDirsAmong_cons hl h hs hlarge hends ht (Prod.ext hdone.succeeds rfl)
        hdone.lacksFolders hdone.linkFree ⟨found, hreaches⟩

/-- Directories that are there in the larger tree are completed in the smaller one. -/
theorem completes_makeDirs (hl : large.root.LinkFree) (h : LacksFolders small large)
    (hs : small.root.LinkFree) (hlarge : large.place path .target = .ok (.folder inner))
    (hends : path.EndsNamed) (ht : path.IsTidy) :
    Completes large path (small.run (makeDirs path)) := by
  refine completes_makeDirsAmong hl _ h hs hlarge hends ht ?_
  rw [namedOf, List.length_map, Nat.lt_succ_iff]
  exact Path.length_named_le path.segments

end Files

end EndpointTypings
