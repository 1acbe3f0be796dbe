import EndpointTypings.Proofs.Entries
import EndpointTypings.Proofs.FileTree.Search
import EndpointTypings.Proofs.Text.Bytes

/-!
# Walks through folders

A walk through a folder visits its entries in the order of their names, each before what is below
it. `Node.firstFile?` finds the first file of a name that is visited (`Node.firstFile?_eq_find?`).
In a tree where the names of a folder are distinct, the visits are the nodes below the folder
(`Node.mem_visits_iff`), and they are sorted by the names on the way, compared one after the other
by their bytes (`Node.pairwise_visits`). So the first file is the least one of the whole tree, and
the walk may stop there (`Node.firstFile?_eq_some_iff`): a file under `a` comes before one that
stands beside `a` under a greater name, however deep it is.
-/

namespace EndpointTypings

namespace Node

/-! ## Visits -/

mutual

/-- What a walk through a folder visits: each node with the names that lead to it. -/
def visits : Node → List (List String × Node)
  | folder entries => (Entries.sortByName (visitsIn entries)).flatMap Prod.snd
  | _ => []

/-- What is visited under each entry of a folder: the entry itself, then what is below it. -/
def visitsIn : List (String × Node) → List (String × List (List String × Node))
  | [] => []
  | (entry, child) :: entries =>
    (entry, ([entry], child) :: (visits child).map fun visit => (entry :: visit.1, visit.2))
      :: visitsIn entries

end

/-- What is visited under an entry. -/
def visitsUnder (entry : String) (child : Node) : List (List String × Node) :=
  ([entry], child) :: (visits child).map fun visit => (entry :: visit.1, visit.2)

/-- A file with a given name is visited. -/
def isFileNamed (name : String) (visit : List String × Node) : Bool :=
  match visit.2 with
  | file _ => visit.1.getLast? = some name
  | _ => false

variable {name entry : String} {names other : List String} {root node child inner : Node}
  {entries : List (String × Node)}

/-- What is visited under the entries of a folder. -/
theorem visitsIn_eq_map (entries : List (String × Node)) :
    visitsIn entries = entries.map fun pair => (pair.1, visitsUnder pair.1 pair.2) := by
  induction entries with
  | nil => rfl
  | cons pair rest ih => rw [visitsIn, ih, List.map_cons, visitsUnder]

/-- Something is visited in a folder if it is visited under one of its entries. -/
theorem mem_visits_folder_iff {visit : List String × Node} : visit ∈ visits (folder entries) ↔
    ∃ pair ∈ entries, visit ∈ visitsUnder pair.1 pair.2 := by
  have hmem : ∀ under, under ∈ Entries.sortByName (visitsIn entries) ↔
      ∃ pair ∈ entries, (pair.1, visitsUnder pair.1 pair.2) = under := by
    intro under
    rw [(Entries.perm_sortByName _).mem_iff, visitsIn_eq_map, List.mem_map]
  rw [visits, List.mem_flatMap]
  constructor
  · rintro ⟨under, hunder, hvisit⟩
    obtain ⟨pair, hpair, rfl⟩ := (hmem under).1 hunder
    exact ⟨pair, hpair, hvisit⟩
  · rintro ⟨pair, hpair, hvisit⟩
    exact ⟨_, (hmem _).2 ⟨pair, hpair, rfl⟩, hvisit⟩

/-- The names of what is visited under an entry start with the entry. -/
theorem exists_of_mem_visitsUnder (h : (names, inner) ∈ visitsUnder entry child) :
    ∃ more, names = entry :: more := by
  rcases List.mem_cons.1 h with heq | hbelow
  · exact ⟨[], congrArg Prod.fst heq⟩
  · obtain ⟨visit, -, heq⟩ := List.mem_map.1 hbelow
    exact ⟨visit.1, (congrArg Prod.fst heq).symm⟩

/-- Nothing is visited without a name. -/
theorem ne_nil_of_mem_visits (h : (names, inner) ∈ visits node) : names ≠ [] := by
  cases node with
  | folder entries =>
    obtain ⟨pair, -, hunder⟩ := mem_visits_folder_iff.1 h
    obtain ⟨more, rfl⟩ := exists_of_mem_visitsUnder hunder
    exact List.cons_ne_nil _ _
  | file content => cases h
  | link target => cases h

/-! ## The first file -/

/-- Names under an entry do not change whether a file of a name is visited. -/
theorem find?_map_cons (name entry : String) {visits : List (List String × Node)}
    (hne : ∀ visit ∈ visits, visit.1 ≠ []) :
    ((visits.map fun visit => (entry :: visit.1, visit.2)).find? (isFileNamed name)).map Prod.fst
      = ((visits.find? (isFileNamed name)).map Prod.fst).map (entry :: ·) := by
  induction visits with
  | nil => rfl
  | cons visit rest ih =>
    obtain ⟨hvisit, hrest⟩ := List.forall_mem_cons.1 hne
    have hsame : isFileNamed name (entry :: visit.1, visit.2) = isFileNamed name visit := by
      unfold isFileNamed
      rw [List.getLast?_cons_of_ne_nil hvisit]
    rw [List.map_cons, List.find?_cons, List.find?_cons, hsame]
    cases isFileNamed name visit with
    | true => rfl
    | false => exact ih hrest

/-- The first file under an entry is the first that is visited there, if this holds below the
entry. -/
theorem firstUnder?_eq_find?
    (hbelow : firstFile? name child = ((visits child).find? (isFileNamed name)).map Prod.fst) :
    firstUnder? name entry child
      = ((visitsUnder entry child).find? (isFileNamed name)).map Prod.fst := by
  have hskip : (∀ content, child ≠ file content) →
      ((visitsUnder entry child).find? (isFileNamed name)).map Prod.fst
        = (firstFile? name child).map (entry :: ·) := by
    intro hnot
    have hentry : isFileNamed name ([entry], child) = false := by
      cases child with
      | file content => exact absurd rfl (hnot content)
      | folder entries => rfl
      | link target => rfl
    rw [visitsUnder, List.find?_cons_of_neg (by simp [hentry]), hbelow,
      find?_map_cons name entry fun visit hvisit => ne_nil_of_mem_visits hvisit]
  cases child with
  | file content =>
    by_cases hname : entry = name
    · simp [firstUnder?, visitsUnder, visits, isFileNamed, hname]
    · simp [firstUnder?, visitsUnder, visits, isFileNamed, hname]
  | folder entries => exact (hskip fun _ => Node.noConfusion).symm
  | link target => exact (hskip fun _ => Node.noConfusion).symm

/-- What is found under an entry starts with the entry. -/
theorem headD_of_find? {names : List String}
    (h : ((visitsUnder entry child).find? (isFileNamed name)).map Prod.fst = some names) :
    names.headD "" = entry := by
  obtain ⟨visit, hvisit, rfl⟩ := Option.map_eq_some_iff.1 h
  obtain ⟨more, hmore⟩ := exists_of_mem_visitsUnder (List.mem_of_find?_eq_some hvisit)
  rw [hmore]
  rfl

mutual

/-- The first file with a name is the first that is visited. -/
theorem firstFile?_eq_find? (name : String) : ∀ node,
    firstFile? name node = ((visits node).find? (isFileNamed name)).map Prod.fst
  | folder entries => by
    rw [firstFile?, firstFileIn?_eq_findSome? name entries, visits, List.find?_flatMap,
      List.map_findSome?]
    rfl
  | file _ => rfl
  | link _ => rfl

/-- The first file of entries is found in the first of them in which one is visited. -/
theorem firstFileIn?_eq_findSome? (name : String) : ∀ entries, firstFileIn? name entries
    = (Entries.sortByName (visitsIn entries)).findSome? fun under =>
      (under.2.find? (isFileNamed name)).map Prod.fst
  | [] => rfl
  | (entry, child) :: rest => by
    have hsort : Entries.sortByName (visitsIn ((entry, child) :: rest))
        = Entries.insertByName (entry, visitsUnder entry child)
          (Entries.sortByName (visitsIn rest)) := rfl
    have hhead : ∀ under ∈ Entries.sortByName (visitsIn rest), ∀ names,
        (under.2.find? (isFileNamed name)).map Prod.fst = some names →
          names.headD "" = under.1 := by
      intro under hunder names hnames
      rw [(Entries.perm_sortByName _).mem_iff, visitsIn_eq_map] at hunder
      obtain ⟨pair, -, rfl⟩ := List.mem_map.1 hunder
      exact headD_of_find? hnames
    rw [firstFileIn?_cons, firstUnder?_eq_find? (firstFile?_eq_find? name child),
      firstFileIn?_eq_findSome? name rest, hsort]
    refine Eq.trans ?_
      (Entries.findSome?_insertByName (Entries.pairwise_sortByName _) hhead).symm
    rfl

end

/-! ## Plain trees -/

/-- What a file or a folder may be called: a name that can be passed, without a slash or a null
character in it. -/
def IsEntryName (name : String) : Prop :=
  FileTree.IsName name ∧ '/' ∉ name.toList ∧ '\x00' ∉ name.toList

instance : DecidablePred IsEntryName := fun _ => inferInstanceAs (Decidable (_ ∧ _ ∧ _))

/-- A tree of files and folders only, in which the names in a folder are distinct. -/
inductive IsPlain : Node → Prop
  /-- A file. -/
  | file (content : ByteArray) : IsPlain (file content)
  /-- A folder of files and folders. -/
  | folder {entries : List (String × Node)} (hd : (Entries.names entries).Nodup)
      (hn : ∀ name ∈ Entries.names entries, IsEntryName name)
      (hc : ∀ pair ∈ entries, IsPlain pair.2) : IsPlain (folder entries)

/-- A file is plain. -/
@[simp] theorem isPlain_file (content : ByteArray) : IsPlain (file content) := .file content

/-- A folder is plain if its names are distinct names of entries and the entries are plain. -/
@[simp] theorem isPlain_folder_iff : IsPlain (folder entries) ↔
    (Entries.names entries).Nodup ∧ (∀ name ∈ Entries.names entries, IsEntryName name) ∧
      ∀ pair ∈ entries, IsPlain pair.2 := by
  refine ⟨fun h => ?_, fun ⟨hd, hn, hc⟩ => .folder hd hn hc⟩
  cases h with
  | folder hd hn hc => exact ⟨hd, hn, hc⟩

/-- What a folder of a plain tree holds. -/
theorem isPlain_of_get? (h : (folder entries).IsPlain)
    (hget : Entries.get? entry entries = some child) : IsEntryName entry ∧ child.IsPlain := by
  obtain ⟨-, hn, hc⟩ := isPlain_folder_iff.1 h
  have hmem := Entries.mem_of_get? hget
  exact ⟨hn entry (List.mem_map_of_mem hmem), hc _ hmem⟩

/-- Every node below a plain one is plain, and its names are those of entries. -/
theorem isPlain_of_at? (h : root.IsPlain) (hat : root.at? names = some node) :
    (∀ name ∈ names, IsEntryName name) ∧ node.IsPlain := by
  induction names generalizing root with
  | nil =>
    obtain rfl : root = node := by simpa using hat
    exact ⟨List.forall_mem_nil _, h⟩
  | cons first rest ih =>
    cases root with
    | file content => cases hat
    | link target => cases hat
    | folder entries =>
      obtain ⟨child, hchild, hrest⟩ := Option.bind_eq_some_iff.1 hat
      obtain ⟨hfirst, hplain⟩ := isPlain_of_get? h hchild
      obtain ⟨hnames, hnode⟩ := ih hplain hrest
      exact ⟨List.forall_mem_cons.2 ⟨hfirst, hnames⟩, hnode⟩

/-- There is no link in a plain tree. -/
theorem IsPlain.linkFree (h : root.IsPlain) : root.LinkFree := by
  intro names target hlink
  cases (isPlain_of_at? h hlink).2

/-- The visits in a plain tree are the nodes below it. -/
theorem mem_visits_iff (h : node.IsPlain) :
    (names, inner) ∈ visits node ↔ names ≠ [] ∧ node.at? names = some inner := by
  induction h generalizing names with
  | file content =>
    cases names with
    | nil => exact ⟨nofun, fun h => absurd rfl h.1⟩
    | cons first rest => exact ⟨nofun, fun h => nomatch h.2⟩
  | @folder entries hd hn hc ih =>
    rw [mem_visits_folder_iff]
    -- under an entry there is the entry and what is below it
    have hunder : ∀ pair ∈ entries, (names, inner) ∈ visitsUnder pair.1 pair.2 ↔
        ∃ more, names = pair.1 :: more ∧ pair.2.at? more = some inner := by
      intro pair hpair
      rw [visitsUnder, List.mem_cons, List.mem_map]
      constructor
      · rintro (heq | ⟨⟨more, below⟩, hbelow, heq⟩)
        · obtain ⟨rfl, rfl⟩ := Prod.mk.inj heq
          exact ⟨[], rfl, at?_nil _⟩
        · obtain ⟨rfl, rfl⟩ := Prod.mk.inj heq
          exact ⟨more, rfl, ((ih pair hpair).1 hbelow).2⟩
      · rintro ⟨more, rfl, hat⟩
        by_cases hmore : more = []
        · subst hmore
          rw [at?_nil, Option.some.injEq] at hat
          exact .inl (by rw [hat])
        · exact .inr ⟨(more, inner), (ih pair hpair).2 ⟨hmore, hat⟩, rfl⟩
    constructor
    · rintro ⟨pair, hpair, hvisit⟩
      obtain ⟨more, rfl, hat⟩ := (hunder pair hpair).1 hvisit
      refine ⟨List.cons_ne_nil _ _, ?_⟩
      rw [at?, Entries.get?_of_mem hd hpair]
      exact hat
    · rintro ⟨hne, hat⟩
      obtain ⟨first, more, rfl⟩ := List.exists_cons_of_ne_nil hne
      obtain ⟨child, hchild, hmore⟩ := Option.bind_eq_some_iff.1 hat
      have hmem := Entries.mem_of_get? hchild
      exact ⟨_, hmem, (hunder _ hmem).2 ⟨more, rfl, hmore⟩⟩

/-! ## The order of visits -/

/-- Names on a way come before others: compared one after the other, each by its bytes. -/
def Before (names other : List String) : Prop :=
  names.map Text.bytes < other.map Text.bytes

/-- Of two ways only one comes before the other. -/
theorem Before.asymm (h : Before names other) : ¬ Before other names :=
  List.lt_asymm h

/-- A folder comes before what is below it. -/
theorem before_of_ne_nil (entry : String) (h : names ≠ []) : Before [entry] (entry :: names) := by
  obtain ⟨first, rest, rfl⟩ := List.exists_cons_of_ne_nil h
  exact .cons .nil

/-- Ways through one folder are ordered below it. -/
theorem Before.cons (entry : String) (h : Before names other) :
    Before (entry :: names) (entry :: other) :=
  List.cons_lt_cons_iff.2 (.inr ⟨rfl, h⟩)

/-- Ways through two folders are ordered as their names are. -/
theorem before_of_lt (h : name < entry) (names other : List String) :
    Before (name :: names) (entry :: other) :=
  List.cons_lt_cons_iff.2 (.inl (Text.bytes_lt_of_lt h))

/-- What is visited under an entry stands in order if what is below it does. -/
theorem pairwise_visitsUnder (entry : String)
    (h : (visits child).Pairwise fun visit next => Before visit.1 next.1) :
    (visitsUnder entry child).Pairwise fun visit next => Before visit.1 next.1 := by
  refine List.pairwise_cons.2 ⟨fun visit hvisit => ?_, ?_⟩
  · obtain ⟨below, hbelow, rfl⟩ := List.mem_map.1 hvisit
    exact before_of_ne_nil entry (ne_nil_of_mem_visits hbelow)
  · exact List.pairwise_map.2 (h.imp fun hbefore => hbefore.cons entry)

/-- What is visited under different entries stands in the order of their names. -/
theorem before_of_mem_visitsUnder {visit next : List String × Node} {other : Node}
    (hlt : name < entry) (hvisit : visit ∈ visitsUnder name child)
    (hnext : next ∈ visitsUnder entry other) : Before visit.1 next.1 := by
  obtain ⟨more, hmore⟩ := exists_of_mem_visitsUnder hvisit
  obtain ⟨more', hmore'⟩ := exists_of_mem_visitsUnder hnext
  rw [hmore, hmore']
  exact before_of_lt hlt more more'

/-- The visits in a plain tree stand in order. -/
theorem pairwise_visits (h : node.IsPlain) :
    (visits node).Pairwise fun visit next => Before visit.1 next.1 := by
  induction h with
  | file content => exact .nil
  | @folder entries hd hn hc ih =>
    -- the names of the entries are distinct, so they rise
    have hnames : (Entries.sortByName (visitsIn entries)).Pairwise fun under next =>
        under.1 < next.1 := by
      have hsame : Entries.names (visitsIn entries) = Entries.names entries := by
        rw [visitsIn_eq_map, Entries.names, List.map_map]
        rfl
      have hne : (Entries.sortByName (visitsIn entries)).Pairwise fun under next =>
          under.1 ≠ next.1 :=
        List.pairwise_map.1 (Entries.nodup_names_sortByName (hsame ▸ hd))
      exact (Entries.pairwise_sortByName _).imp₂ (fun _ _ => lt_of_le_of_ne) hne
    have hunder : ∀ under ∈ Entries.sortByName (visitsIn entries), ∃ pair ∈ entries,
        (pair.1, visitsUnder pair.1 pair.2) = under := by
      intro under hunder
      rw [(Entries.perm_sortByName _).mem_iff, visitsIn_eq_map] at hunder
      exact List.mem_map.1 hunder
    rw [visits, List.pairwise_flatMap]
    refine ⟨fun under hmem => ?_, hnames.imp_of_mem fun {under next} hmem hmem' hlt => ?_⟩
    · obtain ⟨pair, hpair, rfl⟩ := hunder under hmem
      exact pairwise_visitsUnder pair.1 (ih pair hpair)
    · obtain ⟨pair, hpair, rfl⟩ := hunder under hmem
      obtain ⟨pair', hpair', rfl⟩ := hunder next hmem'
      exact fun visit hvisit next hnext => before_of_mem_visitsUnder hlt hvisit hnext

/-- The first of items in order that pass a test is the least of all that do. -/
theorem find?_eq_some_iff_of_pairwise {α : Type} {before : α → α → Prop} {p : α → Bool}
    {items : List α} {item : α} (hs : items.Pairwise before)
    (hasymm : ∀ item other, before item other → ¬ before other item) :
    items.find? p = some item ↔ item ∈ items ∧ p item = true ∧
      ∀ other ∈ items, p other = true → other = item ∨ before item other := by
  have hleast : ∀ item, items.find? p = some item → item ∈ items ∧ p item = true ∧
      ∀ other ∈ items, p other = true → other = item ∨ before item other := by
    intro item h
    obtain ⟨hp, front, back, rfl, hfront⟩ := List.find?_eq_some_iff_append.1 h
    refine ⟨List.mem_append_right _ List.mem_cons_self, hp, fun other hother hp' => ?_⟩
    rcases List.mem_append.1 hother with hother | hother
    · exact absurd hp' (by simpa using hfront other hother)
    · refine (List.mem_cons.1 hother).imp_right fun hback => ?_
      exact (List.pairwise_cons.1 (List.pairwise_append.1 hs).2.1).1 other hback
  refine ⟨hleast item, fun ⟨hmem, hp, hbefore⟩ => ?_⟩
  -- something is found, and two least items are one
  obtain ⟨found, hfound⟩ := Option.isSome_iff_exists.1 (List.find?_isSome.2 ⟨item, hmem, hp⟩)
  obtain ⟨hfmem, hfp, hfbefore⟩ := hleast found hfound
  rcases hbefore found hfmem hfp with rfl | hlt
  · exact hfound
  · rcases hfbefore item hmem hp with rfl | hgt
    · exact hfound
    · exact absurd hgt (hasymm _ _ hlt)

/-! ## The least file -/

/-- Names lead to a file that is called by the last of them. -/
def IsFileAt (name : String) (node : Node) (names : List String) : Prop :=
  (∃ content, node.at? names = some (file content)) ∧ names.getLast? = some name

/-- The files of a name that are visited in a plain tree are those below it. -/
theorem isFileNamed_iff {visit : List String × Node} (h : node.IsPlain)
    (hvisit : visit ∈ visits node) :
    isFileNamed name visit = true ↔ IsFileAt name node visit.1 := by
  obtain ⟨names, inner⟩ := visit
  obtain ⟨-, hat⟩ := (mem_visits_iff h).1 hvisit
  rw [IsFileAt, hat, isFileNamed]
  cases inner with
  | file content => simp
  | folder entries => simp
  | link target => simp

/-- A file of a name is visited. -/
theorem exists_mem_visits (h : node.IsPlain) (hfile : IsFileAt name node names) :
    ∃ inner, (names, inner) ∈ visits node := by
  obtain ⟨⟨content, hat⟩, hlast⟩ := hfile
  have hne : names ≠ [] := by
    rintro rfl
    cases hlast
  exact ⟨_, (mem_visits_iff h).2 ⟨hne, hat⟩⟩

/-- In a plain tree the first file of a name is the least of all that are called so. -/
theorem firstFile?_eq_some_iff (h : node.IsPlain) : firstFile? name node = some names ↔
    IsFileAt name node names ∧
      ∀ other, IsFileAt name node other → other = names ∨ Before names other := by
  have hasymm : ∀ visit next : List String × Node, Before visit.1 next.1 →
      ¬ Before next.1 visit.1 := fun _ _ hbefore => hbefore.asymm
  rw [firstFile?_eq_find?, Option.map_eq_some_iff]
  simp only [find?_eq_some_iff_of_pairwise (pairwise_visits h) hasymm]
  constructor
  · rintro ⟨visit, ⟨hvisit, hfile, hleast⟩, rfl⟩
    refine ⟨(isFileNamed_iff h hvisit).1 hfile, fun other hother => ?_⟩
    obtain ⟨inner, hmem⟩ := exists_mem_visits h hother
    exact (hleast _ hmem ((isFileNamed_iff h hmem).2 hother)).imp_left (congrArg Prod.fst)
  · rintro ⟨hfile, hleast⟩
    obtain ⟨inner, hmem⟩ := exists_mem_visits h hfile
    refine ⟨(names, inner), ⟨hmem, (isFileNamed_iff h hmem).2 hfile, ?_⟩, rfl⟩
    rintro ⟨other, inner'⟩ hother hfile'
    refine (hleast other ((isFileNamed_iff h hother).1 hfile')).imp_left ?_
    rintro rfl
    -- names lead to one node only
    have heq := ((mem_visits_iff h).1 hother).2.symm.trans ((mem_visits_iff h).1 hmem).2
    rw [Option.some.inj heq]

/-- In a plain tree no file of a name is found exactly if none is called so. -/
theorem firstFile?_eq_none_iff (h : node.IsPlain) :
    firstFile? name node = none ↔ ∀ names, ¬ IsFileAt name node names := by
  rw [firstFile?_eq_find?, Option.map_eq_none_iff, List.find?_eq_none]
  constructor
  · intro hnone names hfile
    obtain ⟨inner, hmem⟩ := exists_mem_visits h hfile
    exact hnone _ hmem ((isFileNamed_iff h hmem).2 hfile)
  · exact fun hnone visit hvisit hfile => hnone _ ((isFileNamed_iff h hvisit).1 hfile)

end Node

end EndpointTypings
