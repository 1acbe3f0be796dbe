import EndpointTypings.Proofs.FileTree.Looking
import EndpointTypings.Proofs.FileTree.Visits

/-!
# Which document is discovered

Where no document is named, one is searched for below the directory `src` of the base.
`Registry.SourceAt` says what may be found: a file called `apiList.json`, however deep it is.
`Registry.discover_spec` says what is found: of all of them the one whose names on the way are
least, and nothing only if there is none. Folders may be called so too; they are no documents, but
there may be documents in them.

Files that are called otherwise do not matter. Trees that differ in nothing else
(`Node.SameFor`) have the same folders, so the base leads to the same one, and the same documents
below it.
-/

namespace EndpointTypings

namespace Node

/-- Two trees have the same folders, and the same files of a name: they differ in other files at
most. -/
structure SameFor (name : String) (root other : Node) : Prop where
  /-- The folders are the same. -/
  folder_iff : ∀ names, (∃ entries, root.at? names = some (.folder entries)) ↔
    ∃ entries, other.at? names = some (.folder entries)
  /-- The files of the name are the same, whatever they hold. -/
  file_iff : ∀ names, names.getLast? = some name →
    ((∃ content, root.at? names = some (.file content)) ↔
      ∃ content, other.at? names = some (.file content))

variable {name : String} {root other : Node} {names inner : List String} {content : ByteArray}

/-- Trees that differ in other files differ in other files both ways. -/
theorem SameFor.symm (h : SameFor name root other) : SameFor name other root where
  folder_iff names := (h.folder_iff names).symm
  file_iff names hlast := (h.file_iff names hlast).symm

/-- Trees without links that differ in other files have the same ways. -/
theorem SameFor.keepsWays (h : SameFor name root other) (hfree : root.LinkFree) :
    root.KeepsWays other where
  folder hfolder := (h.folder_iff _).1 ⟨_, hfolder⟩
  link hlink := absurd hlink (hfree _ _)

/-- A file of another name, new or with another content, is no difference. -/
theorem sameFor_set (ht : root.TakesFile names) (hlast : names.getLast? ≠ some name)
    (content : ByteArray) : SameFor name root (root.set names (file content)) where
  folder_iff other := by
    by_cases heq : other = names
    · subst heq
      rw [ht.at?_set_self]
      exact ⟨fun ⟨_, hfolder⟩ => absurd rfl (ht.ne_of_at? hfolder nofun), nofun⟩
    · rw [← look_eq_folder_iff, ← look_eq_folder_iff, ht.look_set_of_ne (isLeaf_file content) heq]
  file_iff other hother := by
    have heq : other ≠ names := fun heq => hlast (heq ▸ hother)
    simp only [ht.at?_set_eq_file_iff (isLeaf_file content) heq]

/-- The names of a file lead to it from any folder on the way. -/
theorem reaches_of_at? (hfree : root.LinkFree) (hnames : ∀ name ∈ names, FileTree.IsName name)
    (hat : root.at? (inner ++ names) = some (.file content)) :
    FileTree.Reaches root names inner (.file (inner ++ names) content) := by
  induction names generalizing inner with
  | nil =>
    rw [List.append_nil] at hat ⊢
    exact .file hat
  | cons first rest ih =>
    obtain ⟨hfirst, hrest⟩ := List.forall_mem_cons.1 hnames
    have hsplit : inner ++ first :: rest = inner ++ [first] ++ rest := by simp
    -- only a folder has something below it
    have habove := hat
    rw [at?_append, Option.bind_eq_some_iff] at habove
    obtain ⟨above, hinner, hbelow⟩ := habove
    cases above with
    | file content => cases hbelow
    | link target => cases hbelow
    | folder entries =>
      obtain ⟨child, hchild, -⟩ := Option.bind_eq_some_iff.1 hbelow
      have hfound : root.at? (inner ++ [first]) = some child := by rw [at?_concat hinner, hchild]
      rw [hsplit] at hat ⊢
      refine .enter hinner hfirst (fun hslashes => nomatch hslashes.1) hfound ?_ (ih hrest hat)
      rintro target rfl
      exact hfree _ _ hfound

end Node

namespace Path

variable {path : Path} {name : String} {names : List String}

/-- A path behind which a name is put with a slash: it is not empty and does not end with a
slash. -/
def TakesName (path : Path) : Prop :=
  path.text.toList.getLast?.all (· = '/') = false

/-- The path of a sequence of names, seen from another path. -/
def below (path : Path) (names : List String) : Path :=
  names.foldl (fun path name => path.join ⟨name⟩) path

/-- The name of an entry is a relative path. -/
theorem isAbsolute_entryName (h : Node.IsEntryName name) : isAbsolute ⟨name⟩ = false := by
  rw [isAbsolute, decide_eq_false_iff_not]
  exact fun hhead => h.2.1 (List.mem_of_head? hhead)

/-- The name of an entry is not empty. -/
theorem toList_entryName_ne_nil (h : Node.IsEntryName name) : name.toList ≠ [] := by
  rw [ne_eq, String.toList_eq_nil_iff]
  rintro rfl
  exact h.1.1 (.inl rfl)

/-- The name of an entry does not end with a slash. -/
theorem getLast?_entryName (h : Node.IsEntryName name) :
    name.toList.getLast?.all (· = '/') = false := by
  have hne := toList_entryName_ne_nil h
  rw [List.getLast?_eq_some_getLast hne, Option.all_some, decide_eq_false_iff_not]
  exact fun hlast => h.2.1 (hlast ▸ List.getLast_mem hne)

/-- A name joined to any path can be followed by another. -/
theorem takesName_join (path : Path) (h : Node.IsEntryName name) :
    TakesName (path.join ⟨name⟩) := by
  have hname := toList_entryName_ne_nil h
  rw [TakesName, toList_text_join (isAbsolute_entryName h)]
  split_ifs
  · rw [List.getLast?_append_of_ne_nil _ hname, getLast?_entryName h]
  · rw [List.getLast?_append_of_ne_nil _ (List.cons_ne_nil _ _),
      List.getLast?_cons_of_ne_nil hname, getLast?_entryName h]

/-- A name stands behind a slash. -/
theorem text_join (hpath : path.TakesName) (h : Node.IsEntryName name) :
    (path.join ⟨name⟩).text = path.text ++ "/" ++ name := by
  rw [TakesName] at hpath
  rw [← String.toList_inj, toList_text_join (isAbsolute_entryName h), hpath,
    if_neg Bool.false_ne_true]
  simp

/-- The names of entries stand behind a path, a slash before each of them. -/
theorem text_below (hpath : path.TakesName) (h : ∀ name ∈ names, Node.IsEntryName name) :
    (path.below names).text = path.text ++ String.join (names.map ("/" ++ ·)) := by
  induction names generalizing path with
  | nil => rw [List.map_nil, String.join_nil, String.append_empty, below, List.foldl_nil]
  | cons first rest ih =>
    obtain ⟨hfirst, hrest⟩ := List.forall_mem_cons.1 h
    have hstep : path.below (first :: rest) = (path.join ⟨first⟩).below rest := rfl
    rw [hstep, ih (takesName_join path hfirst) hrest, text_join hpath hfirst, List.map_cons,
      String.join_cons]
    simp only [String.append_assoc]

/-- The names of entries are the segments behind those of a path. -/
theorem segmentsOf_below (tree : FileTree) (hpath : path.TakesName)
    (h : ∀ name ∈ names, Node.IsEntryName name) :
    FileTree.segmentsOf (path.below names) = FileTree.segmentsOf path ++ names ∧
      tree.startOf (path.below names) = tree.startOf path := by
  induction names generalizing path with
  | nil => exact ⟨(List.append_nil _).symm, rfl⟩
  | cons first rest ih =>
    obtain ⟨hfirst, hrest⟩ := List.forall_mem_cons.1 h
    have hstep : path.below (first :: rest) = (path.join ⟨first⟩).below rest := rfl
    obtain ⟨hsegments, hstart⟩ := ih (takesName_join path hfirst) hrest
    obtain ⟨hjoin, hstart'⟩ := FileTree.segmentsOf_join tree path (isAbsolute_entryName hfirst)
    have hinner : path.innerSegments = path.segments := by
      rw [TakesName] at hpath
      rw [innerSegments, hpath, if_neg Bool.false_ne_true]
    have hone : FileTree.segmentsOf ⟨first⟩ = [first] := by
      rw [FileTree.segmentsOf, segments, Text.split_of_not_mem hfirst.2.1]
      exact congrArg (fun name => [name]) String.ofList_toList
    rw [hstep, hsegments, hstart, hjoin, hstart', hone, hinner, List.append_assoc]
    exact ⟨rfl, rfl⟩

end Path

namespace FileTree

variable {tree : FileTree} {path : Path} {dir names : List String} {content : ByteArray}

/-- A path behind which the names of a file are put leads to the file, if it led to the folder they
start from and is not too long now. -/
theorem place_below (h : tree.root.IsPlain) (hpath : path.TakesName)
    (hfolder : tree.place path .target = .ok (.folder dir))
    (hat : tree.root.at? (dir ++ names) = some (.file content))
    (hcan : CanBeFollowed (path.below names)) :
    tree.place (path.below names) .target = .ok (.file (dir ++ names) content) := by
  have ha : Aim.target ≠ .writing := by decide
  have hnames : ∀ name ∈ names, Node.IsEntryName name := fun name hname =>
    (Node.isPlain_of_at? h hat).1 name (List.mem_append_right dir hname)
  obtain ⟨hsegments, hstart⟩ := Path.segmentsOf_below tree hpath hnames
  have hdir := ((place_eq_ok_iff h.linkFree ha).1 hfolder).2
  rw [place_eq_ok_iff h.linkFree ha, hsegments, hstart]
  exact ⟨hcan, hdir.append (Node.reaches_of_at? h.linkFree (fun name hname => (hnames name hname).1)
    hat)⟩

end FileTree

namespace Registry

open FileTree (CanBeFollowed)

variable {tree other : FileTree} {base path : Path} {dir names : List String} {content : ByteArray}

/-- The directory in which documents are looked for takes names behind it. -/
theorem takesName_sourceRoot (base : Path) : (base.join sourceRoot).TakesName :=
  Path.takesName_join base (by decide : Node.IsEntryName "src")

/-- A document that may be discovered: a file called `apiList.json` below the directory `src` of a
base. The first names lead to the directory, and the others from there to the file. -/
structure SourceAt (tree : FileTree) (base : Path) (dir names : List String)
    (content : ByteArray) : Prop where
  /-- The directory is there. -/
  folder : tree.place (base.join sourceRoot) .target = .ok (.folder dir)
  /-- The file is below it. -/
  file : tree.root.at? (dir ++ names) = some (.file content)
  /-- It is called so. -/
  named : names.getLast? = some "apiList.json"

/-- A document that may be discovered and comes before all others. -/
structure FirstSourceAt (tree : FileTree) (base : Path) (dir names : List String)
    (content : ByteArray) : Prop extends SourceAt tree base dir names content where
  /-- What else may be discovered has greater names on the way. -/
  first : ∀ names' content', SourceAt tree base dir names' content' →
    names' = names ∨ Node.Before names names'

/-- The path of a document has the names behind that of the directory, a slash before each. -/
theorem SourceAt.text_below (h : SourceAt tree base dir names content)
    (hplain : tree.root.IsPlain) : ((base.join sourceRoot).below names).text
      = (base.join sourceRoot).text ++ String.join (names.map ("/" ++ ·)) :=
  Path.text_below (takesName_sourceRoot base) fun name hname =>
    (Node.isPlain_of_at? hplain h.file).1 name (List.mem_append_right dir hname)

/-- Below a directory that is there, the documents that may be discovered are the files of the
name. -/
theorem sourceAt_iff {entries : List (String × Node)}
    (hfolder : tree.place (base.join sourceRoot) .target = .ok (.folder dir))
    (hentries : tree.root.at? dir = some (.folder entries)) :
    (∃ content, SourceAt tree base dir names content) ↔
      Node.IsFileAt sourceName (.folder entries) names := by
  have hat : tree.root.at? (dir ++ names) = (Node.folder entries).at? names := by
    rw [Node.at?_append, hentries, Option.bind_some]
  constructor
  · rintro ⟨content, hsource⟩
    exact ⟨⟨content, hat ▸ hsource.file⟩, hsource.named⟩
  · rintro ⟨⟨content, hfile⟩, hlast⟩
    exact ⟨content, hfolder, hat.trans hfile, hlast⟩

/-- Only one document is first. -/
theorem FirstSourceAt.unique {dir' names' : List String} {content' : ByteArray}
    (h : FirstSourceAt tree base dir names content)
    (h' : FirstSourceAt tree base dir' names' content') : dir' = dir ∧ names' = names := by
  obtain rfl : dir' = dir := Place.folder.inj (Except.ok.inj (h'.folder.symm.trans h.folder))
  refine ⟨rfl, ?_⟩
  rcases h.first names' content' h'.toSourceAt with heq | hbefore
  · exact heq
  · rcases h'.first names content h.toSourceAt with heq | hafter
    · exact heq.symm
    · exact absurd hafter hbefore.asymm

/-- A search gives the path of the first document, or fails because there is none. -/
theorem run_discover_cases (h : tree.root.IsPlain) (base : Path) :
    (∃ dir names content, FirstSourceAt tree base dir names content ∧
      (tree.run (discover base)).1 = .ok ((base.join sourceRoot).below names)) ∨
    ((∀ dir names content, ¬ SourceAt tree base dir names content) ∧
      (tree.run (discover base)).1 = .error (.sourceNotFound
        (((base.join sourceRoot).join ⟨"**"⟩).join ⟨sourceName⟩).text)) := by
  rw [run_discover]
  by_cases hfolder : ∃ dir, tree.place (base.join sourceRoot) .target = .ok (.folder dir)
  · obtain ⟨dir, hfolder⟩ := hfolder
    obtain ⟨entries, hentries⟩ := FileTree.place_stands hfolder
    have hplain := (Node.isPlain_of_at? h hentries).2
    have hrun : tree.folder? (base.join sourceRoot) = some (.folder entries) := by
      rw [FileTree.folder?, hfolder]
      exact hentries
    rw [hrun, Option.bind_some]
    cases hfirst : Node.firstFile? sourceName (.folder entries) with
    | some names =>
      obtain ⟨hfile, hleast⟩ := (Node.firstFile?_eq_some_iff hplain).1 hfirst
      obtain ⟨content, hsource⟩ := (sourceAt_iff hfolder hentries).2 hfile
      exact .inl ⟨dir, names, content, ⟨hsource, fun names' content' hother =>
        hleast names' ((sourceAt_iff hfolder hentries).1 ⟨content', hother⟩)⟩, rfl⟩
    | none =>
      refine .inr ⟨fun dir' names content hsource => ?_, rfl⟩
      obtain rfl : dir' = dir :=
        Place.folder.inj (Except.ok.inj (hsource.folder.symm.trans hfolder))
      exact (Node.firstFile?_eq_none_iff hplain).1 hfirst names
        ((sourceAt_iff hfolder hentries).1 ⟨content, hsource⟩)
  · -- without the directory there is nothing below it
    refine .inr ⟨fun dir names content hsource => hfolder ⟨dir, hsource.folder⟩, ?_⟩
    have hrun : tree.folder? (base.join sourceRoot) = none := by
      rw [FileTree.folder?]
      split
      · next dir hplace => exact absurd ⟨dir, hplace⟩ hfolder
      · rfl
    rw [hrun]
    rfl

/-- The words of the failure name every path at which a document is looked for. -/
theorem text_notFound (base : Path) :
    (((base.join sourceRoot).join ⟨"**"⟩).join ⟨sourceName⟩).text
      = (base.join sourceRoot).text ++ "/**/apiList.json" := by
  have hnames : ∀ name ∈ ["**", sourceName], Node.IsEntryName name := by decide
  have htext := Path.text_below (takesName_sourceRoot base) hnames
  rw [show String.join (["**", sourceName].map ("/" ++ ·)) = "/**/apiList.json" by decide] at htext
  exact htext

/-! ## Other files -/

/-- In trees that differ in other files, the same documents may be discovered. -/
theorem SourceAt.of_sameFor (h : SourceAt tree base dir names content)
    (hplain : tree.root.IsPlain) (hd : other.workingDir = tree.workingDir)
    (hsame : Node.SameFor sourceName tree.root other.root) :
    ∃ content', SourceAt other base dir names content' := by
  have hlast : (dir ++ names).getLast? = some sourceName := by
    have hne : names ≠ [] := by
      rintro rfl
      cases h.named
    rw [List.getLast?_append_of_ne_nil _ hne]
    exact h.named
  obtain ⟨content', hfile⟩ := (hsame.file_iff _ hlast).1 ⟨content, h.file⟩
  exact ⟨content', FileTree.place_folder_of_keepsWays (hsame.keepsWays hplain.linkFree) hd h.folder,
    hfile, h.named⟩

/-- In trees that differ in other files, the same document is first. -/
theorem FirstSourceAt.of_sameFor (h : FirstSourceAt tree base dir names content)
    (hplain : tree.root.IsPlain) (hplain' : other.root.IsPlain)
    (hd : other.workingDir = tree.workingDir)
    (hsame : Node.SameFor sourceName tree.root other.root) :
    ∃ content', FirstSourceAt other base dir names content' := by
  obtain ⟨content', hsource⟩ := h.toSourceAt.of_sameFor hplain hd hsame
  refine ⟨content', hsource, fun names' inner hother => ?_⟩
  obtain ⟨inner', hback⟩ := hother.of_sameFor hplain' hd.symm hsame.symm
  exact h.first names' inner' hback

/-- Files that are called otherwise do not change what a search gives. -/
theorem run_discover_of_sameFor (hplain : tree.root.IsPlain) (hplain' : other.root.IsPlain)
    (hd : other.workingDir = tree.workingDir)
    (hsame : Node.SameFor sourceName tree.root other.root) :
    (other.run (discover base)).1 = (tree.run (discover base)).1 := by
  rcases run_discover_cases hplain base with ⟨dir, names, content, hfirst, hrun⟩ | ⟨hnone, hrun⟩
  · obtain ⟨content', hfirst'⟩ := hfirst.of_sameFor hplain hplain' hd hsame
    rcases run_discover_cases hplain' base with ⟨_, names', _, hother, hrun'⟩ | ⟨hnone, -⟩
    · rw [hrun, hrun', (hfirst'.unique hother).2]
    · exact absurd hfirst'.toSourceAt (hnone _ _ _)
  · rcases run_discover_cases hplain' base with ⟨dir, names, content, hother, -⟩ | ⟨-, hrun'⟩
    · obtain ⟨content', hsource⟩ := hother.toSourceAt.of_sameFor hplain' hd.symm hsame.symm
      exact absurd hsource (hnone _ _ _)
    · rw [hrun, hrun']

/-! ## The answer -/

/-- In a tree of files and folders, what is discovered is the document below the directory `src`
of the base whose names on the way are least, compared one after the other by their bytes. Its path
leads to it unless it is too long to be followed. It is not found exactly if there is no such
document, and files that are called otherwise make no difference. -/
theorem discover_spec {tree : FileTree} (hplain : tree.root.IsPlain) (base : Path) :
    (∀ path, (tree.run (discover base)).1 = .ok path ↔
      ∃ dir names content, FirstSourceAt tree base dir names content ∧
        path.text = (base.join sourceRoot).text ++ String.join (names.map ("/" ++ ·)) ∧
        (CanBeFollowed path → tree.place path .target = .ok (.file (dir ++ names) content))) ∧
    (∀ error, (tree.run (discover base)).1 = .error error ↔
      error = .sourceNotFound ((base.join sourceRoot).text ++ "/**/apiList.json") ∧
        ∀ dir names content, ¬ SourceAt tree base dir names content) ∧
    ∀ other : FileTree, other.root.IsPlain → other.workingDir = tree.workingDir →
      Node.SameFor "apiList.json" tree.root other.root →
        (other.run (discover base)).1 = (tree.run (discover base)).1 := by
  refine ⟨fun path => ⟨fun hrun => ?_, ?_⟩, fun error => ⟨fun hrun => ?_, ?_⟩,
    fun other hplain' hd hsame => run_discover_of_sameFor hplain hplain' hd hsame⟩
  · rcases run_discover_cases hplain base with ⟨dir, names, content, hfirst, hok⟩ | ⟨-, herror⟩
    · obtain rfl : (base.join sourceRoot).below names = path := Except.ok.inj (hok.symm.trans hrun)
      refine ⟨dir, names, content, hfirst, hfirst.toSourceAt.text_below hplain, fun hcan => ?_⟩
      exact FileTree.place_below hplain (takesName_sourceRoot base) hfirst.folder hfirst.file hcan
    · rw [herror] at hrun
      cases hrun
  · rintro ⟨dir, names, content, hfirst, htext, -⟩
    rcases run_discover_cases hplain base with ⟨dir', names', content', hfirst', hok⟩ | ⟨hnone, -⟩
    · rw [hok, (hfirst.unique hfirst').2]
      exact congrArg (fun text => Except.ok (Path.mk text))
        ((hfirst.toSourceAt.text_below hplain).trans htext.symm)
    · exact absurd hfirst.toSourceAt (hnone _ _ _)
  · rcases run_discover_cases hplain base with ⟨dir, names, content, -, hok⟩ | ⟨hnone, herror⟩
    · rw [hok] at hrun
      cases hrun
    · rw [herror, text_notFound, Except.error.injEq] at hrun
      exact ⟨hrun.symm, hnone⟩
  · rintro ⟨rfl, hnone⟩
    rcases run_discover_cases hplain base with ⟨dir, names, content, hfirst, -⟩ | ⟨-, herror⟩
    · exact absurd hfirst.toSourceAt (hnone _ _ _)
    · rw [herror, text_notFound]

/-- A tree with two documents in `src/apiList.json`, one of them in a folder `aaa` beside the other,
and what else is there. -/
def nestedDocuments (besides : List (String × Node)) : FileTree :=
  .ofEntries [("src", .folder [("main.ts", .file ⟨#[]⟩), ("apiList.json",
    .folder ([("apiList.json", .file "second".toUTF8),
      ("aaa", .folder [("apiList.json", .file "first".toUTF8)])] ++ besides))])]

/-- The document in the folder `aaa` is the first, and a new file changes nothing. -/
theorem discover_nestedDocuments :
    (nestedDocuments []).root.IsPlain ∧
    (nestedDocuments [("a.txt", .file ⟨#[]⟩)]).root.IsPlain ∧
    (∃ dir names content, FirstSourceAt (nestedDocuments []) ⟨""⟩ dir names content ∧
      "src/apiList.json/aaa/apiList.json" = "src" ++ String.join (names.map ("/" ++ ·))) ∧
    ((nestedDocuments [("a.txt", .file ⟨#[]⟩)]).run (discover ⟨""⟩)).1
      = .ok ⟨"src/apiList.json/aaa/apiList.json"⟩ := by
  have hname : ∀ name ∈ ["a.txt", "aaa", "apiList.json", "main.ts", "src"],
      Node.IsEntryName name := by
    decide
  have hplain : ∀ besides, besides = [] ∨ besides = [("a.txt", .file ⟨#[]⟩)] →
      (nestedDocuments besides).root.IsPlain := by
    rintro besides (rfl | rfl) <;> simp [nestedDocuments, FileTree.ofEntries, Entries.names, hname]
  have hrun : ((nestedDocuments []).run (discover ⟨""⟩)).1
      = .ok ⟨"src/apiList.json/aaa/apiList.json"⟩ := by
    decide +kernel
  have hsame : Node.SameFor "apiList.json" (nestedDocuments []).root
      (nestedDocuments [("a.txt", .file ⟨#[]⟩)]).root := by
    have htakes : (nestedDocuments []).root.TakesFile ["src", "apiList.json", "a.txt"] :=
      .inr ⟨["src", "apiList.json"], "a.txt", _, rfl, rfl, rfl⟩
    exact Node.sameFor_set htakes (by decide) ⟨#[]⟩
  obtain ⟨hok, -, hother⟩ := discover_spec (hplain [] (.inl rfl)) ⟨""⟩
  obtain ⟨dir, names, content, hfirst, htext, -⟩ := (hok _).1 hrun
  exact ⟨hplain _ (.inl rfl), hplain _ (.inr rfl), ⟨dir, names, content, hfirst, htext⟩,
    (hother _ (hplain _ (.inr rfl)) rfl hsame).trans hrun⟩

end Registry

end EndpointTypings
