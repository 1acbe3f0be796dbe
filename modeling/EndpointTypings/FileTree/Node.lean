import EndpointTypings.Entries
import EndpointTypings.Path

/-!
# Nodes of file trees

A node is a file, a folder of named nodes or a symbolic link. Nodes are found, set and taken away
by the names that lead to them (`Node.at?`, `Node.set`, `Node.erase`); links are not followed
here. The laws of `set` are those of a store: what was set is found (`Node.at?_set_self`), and
what is neither below it nor on the way to it stays as it was (`Node.at?_set_of_apart`).

Nothing gets lost where a node is set at a place with nothing below it (`Node.TakesFile`): every
other node is still there, so folders stay folders (`Node.TakesFile.exists_folder_set`). They also
do where a node is taken away that they do not lie in (`Node.exists_folder_erase`).
-/

namespace EndpointTypings

/-- What a name in a folder stands for. -/
inductive Node where
  /-- A file with its bytes. -/
  | file (content : ByteArray)
  /-- A folder with its entries. -/
  | folder (entries : List (String × Node))
  /-- A symbolic link with the path it leads to. -/
  | link (target : Path)

namespace Node

/-- The node at the end of a sequence of names. -/
def at? : Node → List String → Option Node
  | node, [] => some node
  | folder entries, name :: names => (Entries.get? name entries).bind fun child => at? child names
  | _, _ :: _ => none

/-- The node with another one at the end of a sequence of names. Only the last name may be new. -/
def set : Node → List String → Node → Node
  | _, [], new => new
  | folder entries, name :: names, new =>
    match Entries.get? name entries, names with
    | some child, _ => folder (Entries.put name (set child names new) entries)
    | none, [] => folder (Entries.put name new entries)
    | none, _ :: _ => folder entries
  | node, _ :: _, _ => node

/-- The node without the one at the end of a sequence of names. -/
def erase : Node → List String → Node
  | folder entries, [name] => folder (Entries.erase name entries)
  | folder entries, name :: next :: names =>
    match Entries.get? name entries with
    | some child => folder (Entries.put name (erase child (next :: names)) entries)
    | none => folder entries
  | node, _ => node

mutual

/-- The names that lead from a folder to the first file with a given name. Links are not
followed. -/
def firstFile? (name : String) : Node → Option (List String)
  | folder entries => firstFileIn? name entries
  | _ => none

/-- The names that lead to the first file with a given name, of all that the entries of a folder
hold: the entry with the least name goes first. -/
def firstFileIn? (name : String) : List (String × Node) → Option (List String)
  | [] => none
  | (entry, node) :: entries =>
    let here := match node with
      | file _ => if entry = name then some [entry] else none
      | node => (firstFile? name node).map (entry :: ·)
    match here, firstFileIn? name entries with
    | none, there => there
    | some here, none => some here
    | some here, some there => if there.headD "" < entry then some there else some here

end

/-- Every node is at the end of no names. -/
@[simp] theorem at?_nil (node : Node) : node.at? [] = some node := by
  cases node <;> rfl

/-- What stands at the end of more names is found from what stands at the end of the first. -/
theorem at?_append (node : Node) (names more : List String) :
    node.at? (names ++ more) = (node.at? names).bind fun inner => inner.at? more := by
  induction names generalizing node with
  | nil => simp
  | cons name names ih =>
    cases node with
    | folder entries => cases h : Entries.get? name entries <;> simp [at?, h, ih]
    | file content => rfl
    | link target => rfl

/-- A node set into a folder that exists is found where it was set. -/
theorem at?_set_self {node : Node} {names : List String} {name : String} {new : Node}
    {entries : List (String × Node)} (h : node.at? names = some (folder entries)) :
    (node.set (names ++ [name]) new).at? (names ++ [name]) = some new := by
  induction names generalizing node with
  | nil =>
    obtain rfl : node = folder entries := by simpa using h
    simp only [List.nil_append, set]
    -- the last name may be new or not
    cases hg : Entries.get? name entries <;> simp [at?]
  | cons first names ih =>
    cases node with
    | file content => simp [at?] at h
    | link target => simp [at?] at h
    | folder outer =>
      cases hg : Entries.get? first outer with
      | none => simp [at?, hg] at h
      | some child =>
        have hc : child.at? names = some (folder entries) := by simpa [at?, hg] using h
        simp [set, at?, hg, ih hc]

/-- Setting a node changes only what is below it or on the way to it. -/
theorem at?_set_of_apart {node : Node} {names other : List String} {new : Node}
    (below : ¬ names <+: other) (above : ¬ other <+: names) :
    (node.set names new).at? other = node.at? other := by
  induction names generalizing node other with
  | nil => exact absurd ⟨other, rfl⟩ below
  | cons name names ih =>
    cases other with
    | nil => exact absurd ⟨name :: names, rfl⟩ above
    | cons step other =>
      cases node with
      | file content => rfl
      | link target => rfl
      | folder entries =>
        by_cases same : step = name
        · subst same
          have below' : ¬ names <+: other := fun h => below (by simpa using h)
          have above' : ¬ other <+: names := fun h => above (by simpa using h)
          cases hg : Entries.get? step entries with
          | some child => simp [set, at?, hg, ih below' above']
          | none =>
            cases names with
            | nil => exact absurd ⟨other, rfl⟩ below'
            | cons next names => simp [set, hg]
        · cases hg : Entries.get? name entries with
          | some child => simp [set, at?, hg, Entries.get?_put_of_ne same]
          | none =>
            cases names with
            | nil => simp [set, at?, hg, Entries.get?_put_of_ne same]
            | cons next names => simp [set, hg]

/-- A step below a folder is a look among its entries. -/
theorem at?_concat {node : Node} {names : List String} {entries : List (String × Node)}
    (h : node.at? names = some (folder entries)) (name : String) :
    node.at? (names ++ [name]) = Entries.get? name entries := by
  rw [at?_append, h]
  cases hg : Entries.get? name entries <;> simp [at?, hg]

/-- A node on the way to where another one is set is found with that one set below it. -/
theorem at?_set_append {node inner new : Node} {names : List String} (more : List String)
    (h : node.at? names = some inner) :
    (node.set (names ++ more) new).at? names = some (inner.set more new) := by
  induction names generalizing node with
  | nil =>
    obtain rfl : node = inner := by simpa using h
    simp
  | cons name names ih =>
    cases node with
    | file content => simp [at?] at h
    | link target => simp [at?] at h
    | folder entries =>
      cases hg : Entries.get? name entries with
      | none => simp [at?, hg] at h
      | some child =>
        have hc : child.at? names = some inner := by simpa [at?, hg] using h
        simp [set, at?, hg, ih hc]

/-- A folder with a node set below it is a folder. -/
theorem set_folder (entries : List (String × Node)) (name : String) (more : List String)
    (new : Node) : ∃ entries', (folder entries).set (name :: more) new = folder entries' := by
  cases hg : Entries.get? name entries with
  | some child => exact ⟨Entries.put name (child.set more new) entries, by simp [set, hg]⟩
  | none =>
    cases more with
    | nil => exact ⟨Entries.put name new entries, by simp [set, hg]⟩
    | cons next more => exact ⟨entries, by simp [set, hg]⟩

/-! ## Setting a node where nothing lies below -/

/-- Whether a file can be set at the end of names without anything else getting lost: a file is
there already, or nothing is, in a folder. -/
def TakesFile (root : Node) (names : List String) : Prop :=
  (∃ content, root.at? names = some (file content)) ∨
    ∃ above name entries, names = above ++ [name] ∧ root.at? above = some (folder entries) ∧
      root.at? names = none

variable {root new : Node} {names other : List String}

/-- Nothing lies below a place that takes a file. -/
theorem TakesFile.at?_below (h : root.TakesFile names) (name : String) (more : List String) :
    root.at? (names ++ name :: more) = none := by
  rw [at?_append]
  rcases h with ⟨content, h⟩ | ⟨_, _, _, -, -, h⟩
  · rw [h]
    rfl
  · rw [h]
    rfl

/-- What is set at a place that takes a file is found there. -/
theorem TakesFile.at?_set_self (h : root.TakesFile names) :
    (root.set names new).at? names = some new := by
  rcases h with ⟨content, h⟩ | ⟨above, name, entries, rfl, hf, -⟩
  · have hs : (root.set (names ++ []) new).at? names = some new := by
      rw [at?_set_append [] h]
      rfl
    rwa [List.append_nil] at hs
  · exact Node.at?_set_self hf

/-- A node other than the place that a file is set at is still there, with the file set below it
if it is on the way. -/
theorem TakesFile.at?_set_of_ne {node : Node} (h : root.TakesFile names) (hne : other ≠ names)
    (ho : root.at? other = some node) :
    (root.set names new).at? other = some node ∨
      ∃ name more, names = other ++ name :: more ∧
        (root.set names new).at? other = some (node.set (name :: more) new) := by
  by_cases above : other <+: names
  · obtain ⟨more, rfl⟩ := above
    cases more with
    | nil => exact absurd (List.append_nil other).symm hne
    | cons name more => exact .inr ⟨name, more, rfl, at?_set_append _ ho⟩
  · by_cases below : names <+: other
    · obtain ⟨more, rfl⟩ := below
      cases more with
      | nil => exact absurd (List.append_nil names) hne
      | cons name more =>
        rw [h.at?_below] at ho
        cases ho
    · exact .inl ((at?_set_of_apart below above).trans ho)

/-- A folder or a link does not stand at a place that takes a file. -/
theorem TakesFile.ne_of_at? {node : Node} (h : root.TakesFile names)
    (ho : root.at? other = some node) (hnode : ∀ content, node ≠ file content) :
    other ≠ names := by
  rintro rfl
  rcases h with ⟨content, h⟩ | ⟨_, _, _, -, -, h⟩
  · exact hnode content (Option.some.inj (ho.symm.trans h))
  · cases ho.symm.trans h

/-- Folders stay folders where a node is set at a place that takes a file. -/
theorem TakesFile.exists_folder_set (h : root.TakesFile names) (new : Node)
    (ho : ∃ entries, root.at? other = some (folder entries)) :
    ∃ entries, (root.set names new).at? other = some (folder entries) := by
  obtain ⟨entries, ho⟩ := ho
  rcases h.at?_set_of_ne (h.ne_of_at? ho nofun) ho with same | ⟨name, more, -, changed⟩
  · exact ⟨entries, same⟩
  · obtain ⟨entries', he⟩ := set_folder entries name more new
    exact ⟨entries', by rw [changed, he]⟩

/-! ## Taking a node away -/

/-- A folder without something in it is a folder. -/
theorem erase_folder (entries : List (String × Node)) (names : List String) :
    ∃ entries', (folder entries).erase names = folder entries' := by
  cases names with
  | nil => exact ⟨entries, rfl⟩
  | cons name names =>
    cases names with
    | nil => exact ⟨Entries.erase name entries, rfl⟩
    | cons next names =>
      cases hg : Entries.get? name entries with
      | none => exact ⟨entries, by simp [erase, hg]⟩
      | some child => exact ⟨_, by rw [erase, hg]⟩

/-- Folders stay folders where a node is taken away that they do not lie in. -/
theorem exists_folder_erase (hout : ¬ names <+: other)
    (ho : ∃ entries, root.at? other = some (folder entries)) :
    ∃ entries, (root.erase names).at? other = some (folder entries) := by
  induction names generalizing root other with
  | nil => exact absurd List.nil_prefix hout
  | cons name names ih =>
    obtain ⟨inner, ho⟩ := ho
    cases root with
    | file content => cases other <;> simp [at?] at ho
    | link target => cases other <;> simp [at?] at ho
    | folder entries =>
      cases other with
      | nil =>
        obtain ⟨entries', herase⟩ := erase_folder entries (name :: names)
        exact ⟨entries', by rw [herase, at?_nil]⟩
      | cons step other =>
        rw [at?] at ho
        by_cases same : step = name
        · subst same
          have hout' : ¬ names <+: other := fun h => hout (by simpa using h)
          cases names with
          | nil => exact absurd List.nil_prefix hout'
          | cons next names =>
            cases hg : Entries.get? step entries with
            | none => simp [hg] at ho
            | some child =>
              obtain ⟨entries', hchild⟩ := ih hout' ⟨inner, by simpa [hg] using ho⟩
              exact ⟨entries', by simp [erase, hg, at?, hchild]⟩
        · refine ⟨inner, ?_⟩
          cases names with
          | nil => rw [erase, at?, Entries.get?_erase_of_ne same, ho]
          | cons next names =>
            cases hg : Entries.get? name entries with
            | none => simp only [erase, hg, at?, ho]
            | some child => simp only [erase, hg, at?, Entries.get?_put_of_ne same, ho]

end Node

end EndpointTypings
