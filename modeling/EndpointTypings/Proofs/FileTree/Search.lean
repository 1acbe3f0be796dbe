import EndpointTypings.Proofs.FileTree.LinkFree

/-!
# Searches that find the same

Whoever looks for files of one name is not disturbed by folders that are new, nor by files of other
names. `FileTree.AgreeOn` says that two trees are the same for such a search: files of the name
stand where they stood, and the first of them in a folder is the same. It holds for a single step
(`FileTree.agreeOn_set`), so for making directories and for writing a file of another name.
-/

namespace EndpointTypings

/-- Putting what a name stands for already changes nothing. -/
theorem Entries.put_eq_self {α : Type} {name : String} {value : α} {entries : List (String × α)}
    (h : get? name entries = some value) : put name value entries = entries := by
  induction entries with
  | nil => cases h
  | cons entry rest ih =>
    rw [get?] at h
    rw [put]
    split_ifs at h ⊢ with heq
    · rw [← heq, ← Option.some.inj h]
    · rw [ih h]

namespace Node

variable {name last entry : String} {root new child : Node} {names other : List String}
  {entries : List (String × Node)}

/-- Setting what stands somewhere already changes nothing. -/
theorem set_eq_self (h : root.at? names = some new) : root.set names new = root := by
  induction names generalizing root with
  | nil =>
    rw [at?_nil, Option.some.injEq] at h
    exact h.symm
  | cons first rest ih =>
    cases root with
    | file content => rfl
    | link target => rfl
    | folder entries =>
      rw [at?, Option.bind_eq_some_iff] at h
      obtain ⟨child, hchild, hrest⟩ := h
      simp only [set, hchild]
      rw [ih hrest, Entries.put_eq_self hchild]

/-! ## The first file of a name -/

/-- The names that lead to the first file with a given name, from an entry of a folder. -/
def firstUnder? (name entry : String) : Node → Option (List String)
  | file _ => if entry = name then some [entry] else none
  | node => (firstFile? name node).map (entry :: ·)

/-- The first file of entries is that of the first entry or of the others. -/
theorem firstFileIn?_cons (name entry : String) (child : Node) (entries : List (String × Node)) :
    firstFileIn? name ((entry, child) :: entries) =
      match firstUnder? name entry child, firstFileIn? name entries with
      | none, there => there
      | some here, none => some here
      | some here, some there => if there.headD "" < entry then some there else some here := by
  cases child <;> rfl

/-- The names of the first file of an entry end with its name, if those below the entry do. -/
theorem getLast?_firstUnder? (hbelow : ∀ {names}, firstFile? name child = some names →
    names.getLast? = some name) (h : firstUnder? name entry child = some names) :
    names.getLast? = some name := by
  cases child with
  | file content =>
    rw [firstUnder?] at h
    split_ifs at h with heq
    obtain rfl : [entry] = names := Option.some.inj h
    rw [heq, List.getLast?_singleton]
  | link target => cases h
  | folder entries =>
    have hmap : (firstFile? name (folder entries)).map (entry :: ·) = some names := h
    rw [Option.map_eq_some_iff] at hmap
    obtain ⟨more, hmore, rfl⟩ := hmap
    obtain ⟨before, rfl⟩ := List.getLast?_eq_some_iff.1 (hbelow hmore)
    rw [← List.cons_append, List.getLast?_concat]

mutual

/-- The names of the first file below a node end with its name. -/
theorem getLast?_firstFile? (name : String) : ∀ (node : Node) {names : List String},
    firstFile? name node = some names → names.getLast? = some name
  | folder entries, names, h => by
    rw [firstFile?] at h
    exact getLast?_firstFileIn? name entries h
  | file _, _, h => by cases h
  | link _, _, h => by cases h

/-- The names of the first file of entries end with its name. -/
theorem getLast?_firstFileIn? (name : String) : ∀ (entries : List (String × Node))
    {names : List String}, firstFileIn? name entries = some names → names.getLast? = some name
  | [], _, h => by cases h
  | (entry, child) :: rest, names, h => by
    have hunder : ∀ {names}, firstUnder? name entry child = some names →
        names.getLast? = some name := getLast?_firstUnder? (getLast?_firstFile? name child)
    have hrest : ∀ {names}, firstFileIn? name rest = some names → names.getLast? = some name :=
      getLast?_firstFileIn? name rest
    rw [firstFileIn?_cons] at h
    -- the first is found under this entry or under the others
    split at h
    · exact hrest h
    · next here hhere _ => exact hunder (h ▸ hhere)
    · next here there hhere hthere =>
      split_ifs at h
      · exact hrest (h ▸ hthere)
      · exact hunder (h ▸ hhere)

end

/-- An entry that is put matters as much as what was there. -/
theorem firstFileIn?_put
    (h : firstUnder? name entry new = (Entries.get? entry entries).bind (firstUnder? name entry)) :
    firstFileIn? name (Entries.put entry new entries) = firstFileIn? name entries := by
  induction entries with
  | nil =>
    have hnone : firstUnder? name entry new = none := h
    rw [Entries.put, firstFileIn?_cons, hnone]
  | cons pair rest ih =>
    obtain ⟨present, child⟩ := pair
    rw [Entries.get?] at h
    rw [Entries.put]
    split_ifs at h ⊢ with heq
    · obtain rfl : present = entry := heq
      have hsame : firstUnder? name present new = firstUnder? name present child := h
      rw [firstFileIn?_cons, firstFileIn?_cons, hsame]
    · rw [firstFileIn?_cons, firstFileIn?_cons, ih h]

/-- A node that is set matters as much as what was there. -/
theorem firstFile?_set (h : firstUnder? name last new
      = (root.at? (names ++ [last])).bind (firstUnder? name last)) :
    firstFile? name (root.set (names ++ [last]) new) = firstFile? name root := by
  induction names generalizing root with
  | nil =>
    cases root with
    | file content => rfl
    | link target => rfl
    | folder entries =>
      have hput : (folder entries).set [last] new = folder (Entries.put last new entries) := by
        cases hget : Entries.get? last entries <;> simp [set, hget]
      have hget : (folder entries).at? [last] = Entries.get? last entries := by
        cases hget : Entries.get? last entries <;> simp [at?, hget]
      rw [List.nil_append, hget] at h
      rw [List.nil_append, hput, firstFile?, firstFile?, firstFileIn?_put h]
  | cons first rest ih =>
    cases root with
    | file content => rfl
    | link target => rfl
    | folder entries =>
      cases hget : Entries.get? first entries with
      | none =>
        have hset : (folder entries).set (first :: rest ++ [last]) new = folder entries := by
          cases rest <;> simp [set, hget]
        rw [hset]
      | some child =>
        have hat : (folder entries).at? (first :: rest ++ [last]) = child.at? (rest ++ [last]) := by
          simp [at?, hget]
        have hset : (folder entries).set (first :: rest ++ [last]) new
            = folder (Entries.put first (child.set (rest ++ [last]) new) entries) := by
          simp [set, hget]
        rw [hat] at h
        rw [hset, firstFile?, firstFile?, firstFileIn?_put]
        rw [hget, Option.bind_some]
        -- what is below a file or a link is not set
        cases child with
        | file content => cases rest <;> rfl
        | link target => cases rest <;> rfl
        | folder inner =>
          obtain ⟨first', more, hcons⟩ := List.exists_cons_of_ne_nil
            (show rest ++ [last] ≠ [] by simp)
          obtain ⟨inner', hinner⟩ := set_folder inner first' more new
          have hunder : ∀ inner, firstUnder? name first (folder inner)
              = (firstFile? name (folder inner)).map (first :: ·) := fun _ => rfl
          have hfirst := ih h
          rw [hcons, hinner] at hfirst ⊢
          rw [hunder, hunder, hfirst]

/-- What is set at names is noticed by nobody who looks for files called otherwise: a folder where
nothing was, or a file that is not called so. -/
def Unnoticed (name : String) (root : Node) (names : List String) (new : Node) : Prop :=
  (new = folder [] ∧ root.at? names = none) ∨
    ∃ content, new = file content ∧ names.getLast? ≠ some name

/-- Nothing lies below a node that is set unnoticed. -/
theorem Unnoticed.isLeaf (h : Unnoticed name root names new) : new.IsLeaf := by
  rcases h with ⟨rfl, -⟩ | ⟨content, rfl, -⟩
  · exact isLeaf_folder
  · exact isLeaf_file content

/-- A search finds the same where a node is set unnoticed. -/
theorem Unnoticed.firstFile?_eq (h : Unnoticed name root names new) (ht : root.TakesFile names)
    (hfolder : root.at? other = some (folder entries)) :
    ∃ entries', (root.set names new).at? other = some (folder entries') ∧
      firstFile? name (folder entries') = firstFile? name (folder entries) := by
  have hcases : (root.set names new).at? other = some (folder entries) ∨
      ∃ first more, names = other ++ first :: more ∧
        (root.set names new).at? other = some ((folder entries).set (first :: more) new) :=
    ht.at?_set_of_ne (ht.ne_of_at? hfolder nofun) hfolder
  rcases hcases with same | ⟨first, more, rfl, changed⟩
  · exact ⟨entries, same, rfl⟩
  · obtain ⟨entries', hentries'⟩ := set_folder entries first more new
    refine ⟨entries', by rw [changed, hentries'], ?_⟩
    obtain ⟨before, last, hlast⟩ := List.eq_nil_or_concat (first :: more) |>.resolve_left (by simp)
    rw [List.concat_eq_append] at hlast
    have hend : (other ++ first :: more).getLast? = some last := by
      rw [hlast, ← List.append_assoc, List.getLast?_concat]
    have hbelow : (folder entries).at? (before ++ [last]) = root.at? (other ++ first :: more) := by
      rw [← hlast, at?_append, hfolder, Option.bind_some]
    rw [← hentries', hlast]
    refine firstFile?_set ?_
    rw [hbelow]
    -- neither what was there nor what is there now matters
    rcases h with ⟨rfl, hnone⟩ | ⟨content, rfl, hname⟩
    · rw [hnone]
      rfl
    · have hne : last ≠ name := fun heq => hname (heq ▸ hend)
      rw [firstUnder?, if_neg hne]
      rcases ht with ⟨old, hold⟩ | ⟨_, _, _, -, -, hnone⟩
      · rw [hold, Option.bind_some, firstUnder?, if_neg hne]
      · rw [hnone]
        rfl

end Node

namespace FileTree

variable {tree mid after : FileTree} {path : Path} {allowed : Path → Prop} {name : String}
  {names : List String} {new : Node} {content : ByteArray}

/-- Two trees are the same for whoever looks for files of a name. -/
structure AgreeOn (name : String) (tree after : FileTree) : Prop where
  /-- They have the same working directory. -/
  workingDir_eq : after.workingDir = tree.workingDir
  /-- All ways are kept. -/
  keepsWays : tree.root.KeepsWays after.root
  /-- The files of the name are the same. -/
  file_iff : ∀ {names content}, names.getLast? = some name →
    (after.root.at? names = some (.file content) ↔ tree.root.at? names = some (.file content))
  /-- The first of them in a folder is the same. -/
  firstFile?_eq : ∀ {names entries}, tree.root.at? names = some (.folder entries) →
    ∃ entries', after.root.at? names = some (.folder entries') ∧
      Node.firstFile? name (.folder entries') = Node.firstFile? name (.folder entries)

/-- A tree agrees with itself. -/
theorem AgreeOn.refl (name : String) (tree : FileTree) : AgreeOn name tree tree where
  workingDir_eq := rfl
  keepsWays := .refl tree.root
  file_iff _ := Iff.rfl
  firstFile?_eq h := ⟨_, h, rfl⟩

/-- Trees that agree with one in between agree. -/
theorem AgreeOn.trans (h : AgreeOn name tree mid) (h' : AgreeOn name mid after) :
    AgreeOn name tree after where
  workingDir_eq := h'.workingDir_eq.trans h.workingDir_eq
  keepsWays := h.keepsWays.trans h'.keepsWays
  file_iff hlast := (h'.file_iff hlast).trans (h.file_iff hlast)
  firstFile?_eq hfolder := by
    obtain ⟨entries, hmid, heq⟩ := h.firstFile?_eq hfolder
    obtain ⟨entries', hafter, heq'⟩ := h'.firstFile?_eq hmid
    exact ⟨entries', hafter, heq'.trans heq⟩

/-- Trees agree where a node is set unnoticed. -/
theorem agreeOn_set (ht : tree.root.TakesFile names)
    (hnew : Node.Unnoticed name tree.root names new) :
    AgreeOn name tree (tree.set names new ht) where
  workingDir_eq := rfl
  keepsWays := ht.keepsWays new
  firstFile?_eq hfolder := hnew.firstFile?_eq ht hfolder
  file_iff {other content} hlast := by
    by_cases heq : other = names
    · subst heq
      rw [root_set, ht.at?_set_self]
      rcases hnew with ⟨rfl, hnone⟩ | ⟨written, rfl, hname⟩
      · rw [hnone]
        exact ⟨nofun, nofun⟩
      · exact absurd hlast hname
    · exact ht.at?_set_eq_file_iff hnew.isLeaf heq

/-- Making folders disturbs no search. -/
theorem AddsFolders.agreeOn (name : String) (h : AddsFolders allowed tree after) :
    AgreeOn name tree after := by
  induction h with
  | refl => exact .refl name _
  | @step tree mid after path names _ hstep _ ih =>
    refine .trans ?_ ih
    rw [hstep.eq_set]
    have hmissing : tree.root.at? names = none := by
      obtain ⟨-, -, -, -, -, hmissing⟩ := hstep.vacant
      exact hmissing
    exact agreeOn_set hstep.takesFile (.inl ⟨rfl, hmissing⟩)

/-- Writing a file disturbs no search for files of another name. -/
theorem agreeOn_of_write (hw : tree.write path content = .ok after)
    (hplace : after.place path .target = .ok (.file names content))
    (hname : names.getLast? ≠ some name) : AgreeOn name tree after := by
  obtain ⟨written, htakes, heq, hwritten⟩ := place_of_write hw
  obtain rfl : written = names := by
    have hsame := (hwritten .target (.inr rfl)).symm.trans hplace
    exact (Place.file.inj (Except.ok.inj hsame)).1
  rw [heq]
  exact agreeOn_set htakes (.inr ⟨content, rfl, hname⟩)

end FileTree

end EndpointTypings
