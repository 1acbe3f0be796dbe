import EndpointTypings.Proofs.FileTree.Fewer
import EndpointTypings.Proofs.Output.Effects

/-!
# Outputs written one after the other

Writes to any paths, in any order, get in each other's way: one makes a directory where the next
needs a file, or a file where the next needs a directory, and a write that fails may leave
directories behind. `Output.writeEach_spec` says what holds afterwards all the same: each file that
was written holds what was written to it last, all other files are as they were, and the writes that
failed might as well not have been tried.

What one write does to the files is `Output.Puts` if it succeeds, and nothing if it fails; by
induction on the calls this gives what every file holds in the end (`Output.at?_treeAfter_iff`).
That the failing ones can be left out is a simulation: the tree without them only lacks folders
(`FileTree.LacksFolders`), and a call that succeeds in the larger tree succeeds in the smaller one
and keeps that (`Output.run_write_of_lacksFolders`).
-/

namespace EndpointTypings

namespace FileTree

variable {tree mid after : FileTree} {path : Path} {names found : List String} {content : ByteArray}

/-- A path leads to the file at names. -/
def Denotes (tree : FileTree) (path : Path) (names : List String) : Prop :=
  ∃ content, tree.place path .target = .ok (.file names content)

/-- A path leads to one file at most. -/
theorem Denotes.unique (h : Denotes tree path names) (h' : Denotes tree path found) :
    names = found := by
  obtain ⟨content, h⟩ := h
  obtain ⟨content', h'⟩ := h'
  exact (Place.file.inj (Except.ok.inj (h.symm.trans h'))).1

/-- A file that a path leads to is there. -/
theorem Denotes.place_eq (h : Denotes tree path names)
    (hfile : tree.root.at? names = some (.file content)) :
    tree.place path .target = .ok (.file names content) := by
  obtain ⟨content', hplace⟩ := h
  have hstands : tree.root.at? names = some (.file content') := place_stands hplace
  rw [hfile] at hstands
  rw [hplace, Node.file.inj (Option.some.inj hstands)]

/-- The same files stand in two trees. -/
def SameFiles (tree after : FileTree) : Prop :=
  ∀ names content,
    tree.root.at? names = some (.file content) ↔ after.root.at? names = some (.file content)

/-- A tree has all folders and files of another, whatever the files hold. -/
structure Grows (tree after : FileTree) : Prop where
  /-- The working directory is the same. -/
  workingDir_eq : after.workingDir = tree.workingDir
  /-- All ways are kept. -/
  keepsWays : tree.root.KeepsWays after.root
  /-- Files stay files. -/
  file : ∀ {names content}, tree.root.at? names = some (.file content) →
    ∃ content', after.root.at? names = some (.file content')

/-- A tree has all that it has. -/
theorem Grows.refl (tree : FileTree) : Grows tree tree where
  workingDir_eq := rfl
  keepsWays := .refl tree.root
  file h := ⟨_, h⟩

/-- A tree may grow twice. -/
theorem Grows.trans (h : Grows tree mid) (h' : Grows mid after) : Grows tree after where
  workingDir_eq := h'.workingDir_eq.trans h.workingDir_eq
  keepsWays := h.keepsWays.trans h'.keepsWays
  file hfile := by
    obtain ⟨content, hmid⟩ := h.file hfile
    exact h'.file hmid

/-- A path leads to the same file in a tree that has grown. -/
theorem Grows.denotes (h : Grows tree after) (hd : Denotes tree path names) :
    Denotes after path names := by
  obtain ⟨content, hplace⟩ := hd
  obtain ⟨content', hfile⟩ := h.file (place_stands hplace)
  exact ⟨content', place_becomes h.keepsWays h.workingDir_eq (.inl rfl) hplace (.file hfile)⟩

/-- A tree grows by the folders that are added. -/
theorem AddsFolders.grows {allowed : Path → Prop} (h : AddsFolders allowed tree after) :
    Grows tree after where
  workingDir_eq := h.workingDir_eq
  keepsWays := h.keepsWays
  file hfile := ⟨_, h.lacksFolders.at?_file_iff.1 hfile⟩

/-- A tree grows by a file that is written. -/
theorem grows_of_write (h : tree.write path content = .ok after) : Grows tree after := by
  obtain ⟨written, htakes, rfl, -⟩ := place_of_write h
  refine ⟨rfl, htakes.keepsWays _, fun {names old} hfile => ?_⟩
  by_cases heq : names = written
  · subst heq
    exact ⟨content, htakes.at?_set_self⟩
  · exact ⟨old, (htakes.at?_set_eq_file_iff (Node.isLeaf_file content) heq).2 hfile⟩

end FileTree

namespace Output

open FileTree (Denotes SameFiles Grows LacksFolders AddsFolders Reaches namedOf run_bind)

section

variable {m : Type → Type} [Monad m] [Files m]

/-- Writes texts to files one after the other, whichever of them fail. -/
def writeEach (calls : List (Path × String)) : m (List (Except Error Unit)) :=
  calls.mapM fun call => write call.1 call.2

end

variable {tree mid after small : FileTree} {path : Path} {text : String} {names : List String}
  {calls : List (Path × String)} {call last : Path × String}

/-- The tree that calls leave. -/
def treeAfter (tree : FileTree) (calls : List (Path × String)) : FileTree :=
  (tree.run (writeEach calls)).2

/-- The calls that succeed. -/
def succeeding (tree : FileTree) (calls : List (Path × String)) : List (Path × String) :=
  ((calls.zip (tree.run (writeEach calls)).1).filter (·.2.isOk)).map Prod.fst

/-- The last of some calls whose paths lead to a file. -/
def IsLastFor (tree : FileTree) (names : List String) (calls : List (Path × String))
    (last : Path × String) : Prop :=
  ∃ front back, calls = front ++ last :: back ∧ Denotes tree last.1 names ∧
    ∀ call ∈ back, ¬ Denotes tree call.1 names

/-! ## One call -/

/-- A tree differs from another in one file, to which a path leads and which holds a text. -/
structure Puts (tree after : FileTree) (path : Path) (names : List String) (text : String) :
    Prop where
  /-- Nothing else is gone. -/
  grows : Grows tree after
  /-- The path leads to the file with the text. -/
  leads : after.place path .target = .ok (.file names text.toUTF8)
  /-- The other files are the same. -/
  others : ∀ {other}, other ≠ names → ∀ content,
    (after.root.at? other = some (.file content) ↔ tree.root.at? other = some (.file content))

/-- What was written is put into the tree. -/
theorem Wrote.puts (h : Wrote tree mid after path text) :
    ∃ names, Puts tree after path names text := by
  obtain ⟨names, htakes, hafter, hplace⟩ := FileTree.place_of_write h.writes
  refine ⟨names, h.adds.grows.trans (FileTree.grows_of_write h.writes),
    hplace .target (.inr rfl), ?_⟩
  intro other hne content
  have hroot : after.root = mid.root.set names (.file text.toUTF8) := by
    rw [hafter, FileTree.root_set]
  rw [h.adds.lacksFolders.at?_file_iff, hroot]
  exact htakes.at?_set_eq_file_iff (Node.isLeaf_file _) hne

/-- A call puts its text into the file that its path leads to, or fails and adds no more than
folders. -/
theorem write_cases (tree : FileTree) (path : Path) (text : String) :
    (∃ mid after names, tree.run (write path text) = (.ok (), after) ∧
        Wrote tree mid after path text ∧ Puts tree after path names text) ∨
      ∃ error after, tree.run (write path text) = (.error error, after) ∧
        AddsFolders (·.IsAbove path) tree after := by
  rcases run_write tree path text with ⟨mid, after, hwrote, hrun⟩ | ⟨_, _, after, hadds, hrun⟩
  · obtain ⟨names, hputs⟩ := hwrote.puts
    exact .inl ⟨mid, after, names, hrun, hwrote, hputs⟩
  · exact .inr ⟨_, after, hrun, hadds⟩

/-! ## Calls one after the other -/

/-- No call leaves the tree as it was. -/
@[simp] theorem treeAfter_nil (tree : FileTree) : treeAfter tree [] = tree := rfl

/-- Of no calls none succeeds. -/
@[simp] theorem succeeding_nil (tree : FileTree) : succeeding tree [] = [] := rfl

/-- Calls are run one after the other. -/
theorem run_writeEach_cons (tree : FileTree) (call : Path × String) (calls : List (Path × String)) :
    tree.run (writeEach (call :: calls)) =
      ((tree.run (write call.1 call.2)).1 ::
        ((tree.run (write call.1 call.2)).2.run (writeEach calls)).1,
        treeAfter (tree.run (write call.1 call.2)).2 calls) := by
  rw [writeEach, List.mapM_cons]
  rfl

/-- The other calls go on from the tree that the first leaves. -/
theorem treeAfter_cons {result : Except Error Unit}
    (h : tree.run (write call.1 call.2) = (result, mid)) (calls : List (Path × String)) :
    treeAfter tree (call :: calls) = treeAfter mid calls := by
  rw [treeAfter, run_writeEach_cons, h]

/-- A call that succeeds is the first of those that do. -/
theorem succeeding_cons_of_ok (h : tree.run (write call.1 call.2) = (.ok (), mid))
    (calls : List (Path × String)) :
    succeeding tree (call :: calls) = call :: succeeding mid calls := by
  rw [succeeding, run_writeEach_cons, h]
  rfl

/-- A call that fails is none of those that succeed. -/
theorem succeeding_cons_of_error {error : Error}
    (h : tree.run (write call.1 call.2) = (.error error, mid)) (calls : List (Path × String)) :
    succeeding tree (call :: calls) = succeeding mid calls := by
  rw [succeeding, run_writeEach_cons, h]
  rfl

/-- More calls go on from the tree that the first leave. -/
theorem treeAfter_append (tree : FileTree) (calls more : List (Path × String)) :
    treeAfter tree (calls ++ more) = treeAfter (treeAfter tree calls) more := by
  induction calls generalizing tree with
  | nil => rfl
  | cons call calls ih =>
    rw [List.cons_append, treeAfter_cons rfl, treeAfter_cons rfl, ih]

/-- The tree grows with every call. -/
theorem grows_treeAfter (tree : FileTree) (calls : List (Path × String)) :
    Grows tree (treeAfter tree calls) := by
  induction calls generalizing tree with
  | nil => exact .refl tree
  | cons call calls ih =>
    rcases write_cases tree call.1 call.2 with
      ⟨_, mid, names, hrun, -, hputs⟩ | ⟨error, mid, hrun, hadds⟩
    · rw [treeAfter_cons hrun]
      exact hputs.grows.trans (ih mid)
    · rw [treeAfter_cons hrun]
      exact hadds.grows.trans (ih mid)

/-! ## What files hold in the end -/

/-- The last call for a file is among the later ones, or it is the first one and none of those. -/
theorem isLastFor_cons_iff :
    IsLastFor tree names (call :: calls) last ↔ IsLastFor tree names calls last ∨
      last = call ∧ Denotes tree call.1 names ∧ ∀ other ∈ calls, ¬ Denotes tree other.1 names := by
  constructor
  · rintro ⟨front, back, hsplit, hlast, hback⟩
    cases front with
    | nil =>
      obtain ⟨rfl, rfl⟩ := List.cons.inj hsplit
      exact .inr ⟨rfl, hlast, hback⟩
    | cons first front =>
      obtain ⟨-, rfl⟩ := List.cons.inj hsplit
      exact .inl ⟨front, back, rfl, hlast, hback⟩
  · rintro (⟨front, back, rfl, hlast, hback⟩ | ⟨rfl, hlast, hback⟩)
    · exact ⟨call :: front, back, rfl, hlast, hback⟩
    · exact ⟨[], calls, rfl, hlast, hback⟩

/-- If some call is for a file there is a last one. -/
theorem exists_isLastFor (hmem : call ∈ calls) (hcall : Denotes tree call.1 names) :
    ∃ last, IsLastFor tree names calls last := by
  induction calls generalizing call with
  | nil => exact absurd hmem List.not_mem_nil
  | cons first calls ih =>
    simp only [isLastFor_cons_iff]
    by_cases hlater : ∃ other ∈ calls, Denotes tree other.1 names
    · obtain ⟨other, hother, hdenotes⟩ := hlater
      obtain ⟨last, hlast⟩ := ih hother hdenotes
      exact ⟨last, .inl hlast⟩
    · obtain rfl : call = first := by
        rcases List.mem_cons.1 hmem with rfl | hmem
        · rfl
        · exact absurd ⟨call, hmem, hcall⟩ hlater
      exact ⟨call, .inr ⟨rfl, hcall, fun other hother hdenotes =>
        hlater ⟨other, hother, hdenotes⟩⟩⟩

/-- The path of a call that succeeds leads to a file in the end. -/
theorem exists_denotes_of_mem (hmem : call ∈ succeeding tree calls) :
    ∃ names, Denotes (treeAfter tree calls) call.1 names := by
  induction calls generalizing tree with
  | nil => exact absurd hmem List.not_mem_nil
  | cons first calls ih =>
    rcases write_cases tree first.1 first.2 with
      ⟨_, mid, names, hrun, -, hputs⟩ | ⟨error, mid, hrun, -⟩
    · rw [succeeding_cons_of_ok hrun] at hmem
      rw [treeAfter_cons hrun]
      rcases List.mem_cons.1 hmem with rfl | hmem
      · exact ⟨names, (grows_treeAfter mid calls).denotes ⟨_, hputs.leads⟩⟩
      · exact ih hmem
    · rw [succeeding_cons_of_error hrun] at hmem
      rw [treeAfter_cons hrun]
      exact ih hmem

/-- A file holds in the end what the last call for it wrote, or what it held if there was none. -/
theorem at?_treeAfter_iff (tree : FileTree) (calls : List (Path × String)) (names : List String)
    (content : ByteArray) :
    (treeAfter tree calls).root.at? names = some (.file content) ↔
      (∃ last, IsLastFor (treeAfter tree calls) names (succeeding tree calls) last ∧
        content = last.2.toUTF8) ∨
      (∀ call ∈ succeeding tree calls, ¬ Denotes (treeAfter tree calls) call.1 names) ∧
        tree.root.at? names = some (.file content) := by
  induction calls generalizing tree with
  | nil => simp [IsLastFor]
  | cons call calls ih =>
    rcases write_cases tree call.1 call.2 with
      ⟨_, mid, written, hrun, -, hputs⟩ | ⟨error, mid, hrun, hadds⟩
    · have hcall : Denotes (treeAfter mid calls) call.1 written :=
        (grows_treeAfter mid calls).denotes ⟨_, hputs.leads⟩
      simp only [treeAfter_cons hrun, succeeding_cons_of_ok hrun, ih, isLastFor_cons_iff,
        List.forall_mem_cons]
      by_cases hnames : names = written
      · -- the file of this call: it holds its text unless it is written again
        subst hnames
        have hmid : mid.root.at? names = some (.file content) ↔ content = call.2.toUTF8 := by
          have hfile : mid.root.at? names = some (.file call.2.toUTF8) :=
            FileTree.place_stands hputs.leads
          rw [hfile, Option.some.injEq, Node.file.injEq, eq_comm]
        rw [hmid]
        constructor
        · rintro (⟨last, hlast, htext⟩ | ⟨hnone, htext⟩)
          · exact .inl ⟨last, .inl hlast, htext⟩
          · exact .inl ⟨call, .inr ⟨rfl, hcall, hnone⟩, htext⟩
        · rintro (⟨last, hlast | ⟨rfl, -, hnone⟩, htext⟩ | ⟨⟨hother, -⟩, -⟩)
          · exact .inl ⟨last, hlast, htext⟩
          · exact .inr ⟨hnone, htext⟩
          · exact absurd hcall hother
      · have hother : ¬ Denotes (treeAfter mid calls) call.1 names :=
          fun hdenotes => hnames (hdenotes.unique hcall)
        rw [hputs.others hnames]
        simp [hother]
    · have hmid : tree.root.at? names = some (.file content) ↔
          mid.root.at? names = some (.file content) := hadds.lacksFolders.at?_file_iff
      rw [treeAfter_cons hrun, succeeding_cons_of_error hrun, ih, ← hmid]

/-! ## Without the calls that fail -/

/-- The folder above a path that has its parent is led to by what the path names, but the last. -/
theorem HasParent.reaches (h : HasParent tree path) (hfree : tree.root.LinkFree) :
    ∃ outer, Reaches tree.root (namedOf path).dropLast (tree.startOf path) (.folder outer) := by
  obtain ⟨entries, hstart⟩ := tree.at?_startOf path
  have hhere : (namedOf path).dropLast = [] →
      ∃ outer, Reaches tree.root (namedOf path).dropLast (tree.startOf path) (.folder outer) :=
    fun hnil => ⟨tree.startOf path, hnil ▸ .folder hstart⟩
  cases hparent : path.parent? with
  | none =>
    refine hhere ?_
    rw [namedOf, Path.named_of_parent?_eq_none hparent]
    rfl
  | some parent =>
    have hnamed := FileTree.namedOf_parent? hparent
    by_cases hempty : parent.text = ""
    · refine hhere ?_
      rw [← hnamed, namedOf, Path.segments, hempty]
      rfl
    · obtain ⟨outer, hfolder⟩ := h parent hparent hempty
      have hreaches := ((FileTree.place_folder_iff hfree (by decide)).1 hfolder).2
      rw [hnamed, FileTree.startOf_parent? tree hparent] at hreaches
      exact ⟨outer, hreaches⟩

/-- The directories above a path can be made where they lack in a tree that has them. -/
theorem run_makeParent_of_lacksFolders (h : LacksFolders small mid) (hs : small.root.LinkFree)
    (hl : mid.root.LinkFree) (hparent : HasParent mid path) :
    ∃ after, small.run (makeParent path) = (.ok (), after) ∧ after.root.LinkFree ∧
      LacksFolders after mid ∧ HasParent after path := by
  obtain ⟨after, -, hresult⟩ := run_makeParent small path
  have hdone : (small.run (makeParent path)).1 = .ok () ∧
      (small.run (makeParent path)).2.root.LinkFree ∧
      LacksFolders (small.run (makeParent path)).2 mid := by
    rw [makeParent]
    cases hfilter : path.parent?.filter (!·.text.isEmpty) with
    | none => exact ⟨rfl, hs, h⟩
    | some parent =>
      obtain ⟨hsome, hne⟩ : path.parent? = some parent ∧ parent.text ≠ "" := by
        simpa [Option.filter_eq_some_iff] using hfilter
      obtain ⟨outer, hfolder⟩ := hparent parent hsome hne
      have hcompletes := Files.completes_makeDirs hl h hs hfolder (Path.endsNamed_parent? hsome)
        (Path.isTidy_parent? hsome)
      dsimp only
      rw [run_bind, hcompletes.succeeds]
      exact ⟨rfl, hcompletes.linkFree, hcompletes.lacksFolders⟩
  rcases hresult with ⟨hrun, hparent'⟩ | ⟨failed, source, hrun⟩
  · rw [hrun] at hdone
    exact ⟨after, hrun, hdone.2.1, hdone.2.2, hparent'⟩
  · rw [hrun] at hdone
    cases hdone.1

/-- A call that succeeds in a tree succeeds in one that lacks folders of it, and after it that one
lacks no more than folders. -/
theorem run_write_of_lacksFolders (h : LacksFolders small tree) (hs : small.root.LinkFree)
    (hl : tree.root.LinkFree) (hwrote : Wrote tree mid after path text) :
    ∃ after', small.run (write path text) = (.ok (), after') ∧ after'.root.LinkFree ∧
      LacksFolders after' after := by
  have hmid : mid.root.LinkFree := hwrote.adds.linkFree hl
  obtain ⟨mid', hmade, hs', h', hparent⟩ :=
    run_makeParent_of_lacksFolders (h.trans hwrote.adds.lacksFolders) hs hmid hwrote.hasParent
  obtain ⟨outer, hreaches⟩ := hparent.reaches hs'
  obtain ⟨after', hwritten, hafter⟩ := h'.write hmid hwrote.writes hreaches
  refine ⟨after', ?_, FileTree.linkFree_of_write hwritten hs', hafter⟩
  rw [write, run_bind, hmade]
  dsimp only
  rw [run_bind, FileTree.run_write, hwritten]
  rfl

/-- Where no link stands, none does once a file is written. -/
theorem Wrote.linkFree (h : Wrote tree mid after path text) (hfree : tree.root.LinkFree) :
    after.root.LinkFree :=
  FileTree.linkFree_of_write h.writes (h.adds.linkFree hfree)

/-- The calls that succeed all succeed without the others, in a tree that lacks folders, and after
them it lacks no more than folders. -/
theorem run_succeeding (calls : List (Path × String)) (h : LacksFolders small tree)
    (hs : small.root.LinkFree) (hl : tree.root.LinkFree) :
    (∀ result ∈ (small.run (writeEach (succeeding tree calls))).1, result = .ok ()) ∧
      LacksFolders (treeAfter small (succeeding tree calls)) (treeAfter tree calls) := by
  induction calls generalizing small tree with
  | nil => exact ⟨nofun, h⟩
  | cons call calls ih =>
    rcases write_cases tree call.1 call.2 with
      ⟨_, mid, _, hrun, hwrote, -⟩ | ⟨error, mid, hrun, hadds⟩
    · -- the call is run in both trees
      obtain ⟨after', hrun', hs', h'⟩ := run_write_of_lacksFolders h hs hl hwrote
      obtain ⟨hresults, hlacks⟩ := ih h' hs' (hwrote.linkFree hl)
      rw [succeeding_cons_of_ok hrun, treeAfter_cons hrun, treeAfter_cons hrun',
        run_writeEach_cons, hrun']
      exact ⟨List.forall_mem_cons.2 ⟨rfl, hresults⟩, hlacks⟩
    · -- the call is left out, and the folders it added are missing
      rw [succeeding_cons_of_error hrun, treeAfter_cons hrun]
      exact ih (h.trans hadds.lacksFolders) hs (hadds.linkFree hl)

/-! ## The history of a tree -/

/-- What holds after calls of which some may have failed. -/
structure History (tree : FileTree) (calls : List (Path × String)) : Prop where
  /-- A path that was written is up to date with the text of the last call for its file, and with no
  other. -/
  upToDate : ∀ call ∈ succeeding tree calls, ∃ names last,
    Denotes (treeAfter tree calls) call.1 names ∧
      IsLastFor (treeAfter tree calls) names (succeeding tree calls) last ∧
      ∀ text, (treeAfter tree calls).run (isUpToDate call.1 text)
        = (.ok (last.2 = text), treeAfter tree calls)
  /-- A path that led to a file at any time leads to it still. -/
  denotes : ∀ front back, calls = front ++ back → ∀ path names,
    Denotes (treeAfter tree front) path names → Denotes (treeAfter tree calls) path names
  /-- A file that no call wrote is as it was, and there are no others. -/
  untouched : ∀ names,
    (∀ call ∈ succeeding tree calls, ¬ Denotes (treeAfter tree calls) call.1 names) →
    ∀ content, (treeAfter tree calls).root.at? names = some (.file content) ↔
      tree.root.at? names = some (.file content)
  /-- A folder that was there is there. -/
  folders : ∀ names entries, tree.root.at? names = some (.folder entries) →
    ∃ entries', (treeAfter tree calls).root.at? names = some (.folder entries')
  /-- No call that fails makes or changes a file. -/
  failing : ∀ front call back, calls = front ++ call :: back → ∀ error after,
    (treeAfter tree front).run (write call.1 call.2) = (.error error, after) →
      SameFiles (treeAfter tree front) after
  /-- Without the calls that fail the others succeed, and the files are the same. -/
  withoutFailing :
    (∀ result ∈ (tree.run (writeEach (succeeding tree calls))).1, result = .ok ()) ∧
      SameFiles (treeAfter tree (succeeding tree calls)) (treeAfter tree calls)

/-- A path whose file holds a text is up to date with that text and with no other. -/
theorem run_isUpToDate_of_place (h : tree.place path .target = .ok (.file names text.toUTF8))
    (other : String) : tree.run (isUpToDate path other) = (.ok (text = other), tree) := by
  have hread : tree.read path = .ok text.toUTF8 := by
    rw [FileTree.read, h]
    rfl
  rw [run_isUpToDate, FileTree.readText_eq_ok_iff.2 hread]

/-- After any calls on a tree of files and folders, each file that was written holds what the last
call for it wrote, everything else is as it was, and the calls that failed make no difference. -/
theorem writeEach_spec (hfree : tree.root.LinkFree) (calls : List (Path × String)) :
    History tree calls where
  upToDate call hmem := by
    obtain ⟨names, hdenotes⟩ := exists_denotes_of_mem hmem
    obtain ⟨last, hlast⟩ := exists_isLastFor hmem hdenotes
    have hfile : (treeAfter tree calls).root.at? names = some (.file last.2.toUTF8) :=
      (at?_treeAfter_iff tree calls names _).2 (.inl ⟨last, hlast, rfl⟩)
    exact ⟨names, last, hdenotes, hlast, run_isUpToDate_of_place (hdenotes.place_eq hfile)⟩
  denotes := by
    rintro front back rfl path names hdenotes
    rw [treeAfter_append]
    exact (grows_treeAfter _ back).denotes hdenotes
  untouched names hnone content := by
    rw [at?_treeAfter_iff]
    refine ⟨?_, fun hfile => .inr ⟨hnone, hfile⟩⟩
    rintro (⟨last, ⟨front, back, hsplit, hlast, -⟩, -⟩ | ⟨-, hfile⟩)
    · exact absurd hlast (hnone last (hsplit ▸ List.mem_append_right front List.mem_cons_self))
    · exact hfile
  folders names entries hfolder := (grows_treeAfter tree calls).keepsWays.folder hfolder
  failing := by
    rintro front call back - error after hrun names content
    rcases write_cases (treeAfter tree front) call.1 call.2 with
      ⟨_, other, _, hok, -⟩ | ⟨_, other, hfailed, hadds⟩
    · rw [hrun] at hok
      cases hok
    · rw [hrun] at hfailed
      obtain ⟨-, rfl⟩ := Prod.mk.inj hfailed
      exact hadds.lacksFolders.at?_file_iff
  withoutFailing := by
    obtain ⟨hresults, hlacks⟩ := run_succeeding calls (LacksFolders.refl tree) hfree hfree
    exact ⟨hresults, fun names content => hlacks.at?_file_iff⟩

/-- Writes that get in each other's way: the second needs a file where the first made a directory,
the third needs a directory where the first wrote a file and leaves a new one behind, into which the
last one writes. -/
def tangledCalls : List (Path × String) :=
  [(⟨"a/b.ts"⟩, "x"), (⟨"a"⟩, "y"), (⟨"new/../a/b.ts/c.ts"⟩, "z"), (⟨"a/./b.ts"⟩, "w"),
    (⟨"new/c.ts"⟩, "v")]

/-- Of these calls the second and the third fail. -/
theorem writeEach_tangledCalls :
    (FileTree.empty ["work"]).root.LinkFree ∧
      succeeding (FileTree.empty ["work"]) tangledCalls
        = [(⟨"a/b.ts"⟩, "x"), (⟨"a/./b.ts"⟩, "w"), (⟨"new/c.ts"⟩, "v")] ∧
      History (FileTree.empty ["work"]) tangledCalls :=
  ⟨FileTree.linkFree_empty ["work"], by decide +kernel,
    writeEach_spec (FileTree.linkFree_empty ["work"]) tangledCalls⟩

end Output

end EndpointTypings
