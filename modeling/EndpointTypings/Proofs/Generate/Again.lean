import EndpointTypings.Proofs.FileTree.Search
import EndpointTypings.Proofs.Generate.Modes

/-!
# Running again

A run that looks for its registry document and its configuration, run again where it left its
output, finds the same ones: what it wrote is called `….ts`, which is neither the name of a document
nor of a configuration file (`Generate.Settles.again`). So it settles the same text and writes it
where it stands already, which changes nothing (`Output.run_write_again`). `run_again` puts the two
together.

Links would spoil this: an output written over a link that is called `….ts` may be a document.
-/

namespace EndpointTypings

variable {tree mid after : FileTree} {path base : Path} {text : String} {names : List String}
  {content : ByteArray}

/-! ## Looking again -/

namespace FileTree

/-- A path is a file exactly if it leads to one. -/
theorem isFile_iff : tree.isFile path = true ↔
    ∃ names content, tree.place path .target = .ok (.file names content) := by
  rw [isFile]
  split
  · next names content heq => simp [heq]
  · next hother =>
    refine ⟨nofun, fun ⟨names, content, heq⟩ => ?_⟩
    exact absurd heq (hother names content)

/-- What a path that leads to a file reads as depends on the bytes of the file alone. -/
theorem readText_congr (h : tree.place path .target = .ok (.file names content))
    (h' : after.place path .target = .ok (.file names content)) :
    after.readText path = tree.readText path := by
  have hread : tree.read path = .ok content := by
    simp only [read, h]
    rfl
  have hread' : after.read path = .ok content := by
    simp only [read, h']
    rfl
  rw [readText, readText, hread, hread']

/-- A path that ends with a name leads to the same file in trees that agree on the files of that
name. -/
theorem AgreeOn.place_file {name : String} (h : AgreeOn name tree after)
    (hfree : tree.root.LinkFree) (hname : path.fileName? = some name.toList)
    (hp : tree.place path .target = .ok (.file names content)) :
    after.place path .target = .ok (.file names content) := by
  obtain ⟨found, hfound, hlast⟩ := fileName?_of_place_file hfree (by decide) hp
  obtain rfl : name.toList = found := Option.some.inj (hname.symm.trans hfound)
  rw [String.ofList_toList] at hlast
  exact place_becomes h.keepsWays h.workingDir_eq (.inl rfl) hp
    (.file ((h.file_iff hlast).2 (place_stands hp)))

end FileTree

open FileTree (AgreeOn isFile_iff readText_congr)

/-- The name of a configuration file is a name by itself. -/
theorem Config.isName_fileName : FileTree.segmentsOf ⟨fileName⟩ = [fileName] ∧
    FileTree.IsName fileName := by
  decide

/-- The configuration of a directory is the same in trees that agree on configuration files, if the
directory holds a folder. -/
theorem Config.run_discover_again (h : AgreeOn fileName tree after) (hfree : tree.root.LinkFree)
    (hfree' : after.root.LinkFree)
    (hroot : tree.place (base.join Registry.sourceRoot) .target = .ok (.folder names)) :
    after.isFile (base.join ⟨fileName⟩) = tree.isFile (base.join ⟨fileName⟩) ∧
      (after.run (discover base)).1 = (tree.run (discover base)).1 := by
  have hname : (base.join ⟨fileName⟩).fileName? = some fileName.toList :=
    Path.fileName?_join (by decide)
  rw [run_discover, run_discover]
  cases hfile : tree.isFile (base.join ⟨fileName⟩) with
  | true =>
    obtain ⟨found, content, hplace⟩ := isFile_iff.1 hfile
    have hplace' := h.place_file hfree hname hplace
    rw [isFile_iff.2 ⟨found, content, hplace'⟩, if_pos rfl, if_pos rfl, run_load, run_load,
      readText_congr hplace hplace']
    exact ⟨rfl, rfl⟩
  | false =>
    -- what is no file must not become one: here the folder of sources is needed, which shows that
    -- the directory could be passed before
    have hfile' : after.isFile (base.join ⟨fileName⟩) = false := by
      rw [Bool.eq_false_iff, ne_eq, isFile_iff]
      rintro ⟨found, content, hplace'⟩
      -- a file found there later stands there already
      obtain ⟨name, hname', hlast⟩ := FileTree.fileName?_of_place_file hfree' (by decide) hplace'
      obtain rfl : fileName.toList = name := Option.some.inj (hname.symm.trans hname')
      rw [String.ofList_toList] at hlast
      have hthere := (h.file_iff hlast).1 (FileTree.place_stands hplace')
      have hnamed : ∃ segment ∈ FileTree.segmentsOf Registry.sourceRoot, segment ≠ "" :=
        ⟨"src", by decide, by decide⟩
      have hplace := FileTree.place_file_of_sibling hfree hfree' h.keepsWays h.workingDir_eq
        (by decide) hnamed (by decide) isName_fileName.1 isName_fileName.2 hroot hplace' hthere
      rw [isFile_iff.2 ⟨found, content, hplace⟩] at hfile
      cases hfile
    rw [hfile', if_neg (by decide), if_neg (by decide)]
    exact ⟨rfl, rfl⟩

namespace Registry

/-- A document that is found stands in the folder of sources and is called what documents are
called. -/
theorem exists_of_run_discover {source : Path}
    (h : tree.run (discover base) = (.ok source, tree)) :
    (∃ names, tree.place (base.join sourceRoot) .target = .ok (.folder names)) ∧
      source.fileName? = some sourceName.toList := by
  rw [run_discover] at h
  cases hfolder : tree.folder? (base.join sourceRoot) with
  | none =>
    rw [hfolder] at h
    cases h
  | some node =>
    rw [hfolder, Option.bind_some] at h
    cases hfirst : Node.firstFile? sourceName node with
    | none =>
      rw [hfirst] at h
      cases h
    | some names =>
      rw [hfirst] at h
      obtain rfl := Except.ok.inj (congrArg Prod.fst h)
      constructor
      · rw [FileTree.folder?] at hfolder
        split at hfolder
        · next found hplace => exact ⟨found, hplace⟩
        · cases hfolder
      · obtain ⟨before, rfl⟩ := List.getLast?_eq_some_iff.1
          (Node.getLast?_firstFile? sourceName node hfirst)
        have hname : (⟨sourceName⟩ : Path).fileName? = some sourceName.toList := by decide
        rw [List.foldl_append, List.foldl_cons, List.foldl_nil, Path.fileName?_join hname]

/-- In a folder, the first document is the same in trees that agree on documents. -/
theorem run_discover_again (h : AgreeOn sourceName tree after)
    (hroot : tree.place (base.join sourceRoot) .target = .ok (.folder names)) :
    (after.run (discover base)).1 = (tree.run (discover base)).1 := by
  obtain ⟨entries, hentries⟩ := FileTree.place_stands hroot
  obtain ⟨entries', hentries', hfirst⟩ := h.firstFile?_eq hentries
  have hroot' : after.place (base.join sourceRoot) .target = .ok (.folder names) :=
    FileTree.place_folder_of_keepsWays h.keepsWays h.workingDir_eq hroot
  have hfolder : tree.folder? (base.join sourceRoot) = some (.folder entries) := by
    rw [FileTree.folder?, hroot]
    exact hentries
  have hfolder' : after.folder? (base.join sourceRoot) = some (.folder entries') := by
    rw [FileTree.folder?, hroot']
    exact hentries'
  rw [run_discover, run_discover, hfolder, hfolder', Option.bind_some, Option.bind_some, hfirst]

/-- A registry loaded from a document is loaded from it in trees that agree on documents. -/
theorem run_load_again {source : Path} {registry : Registry} (h : AgreeOn sourceName tree after)
    (hfree : tree.root.LinkFree) (hname : source.fileName? = some sourceName.toList)
    (hload : tree.run (load source) = (.ok registry, tree)) :
    after.run (load source) = (.ok registry, after) := by
  rw [run_load] at hload ⊢
  cases hfile : tree.isFile source with
  | false =>
    rw [hfile] at hload
    cases hload
  | true =>
    obtain ⟨found, content, hplace⟩ := isFile_iff.1 hfile
    have hplace' := h.place_file hfree hname hplace
    rw [hfile] at hload
    rw [isFile_iff.2 ⟨found, content, hplace'⟩, readText_congr hplace hplace']
    exact congrArg (·, after) (congrArg Prod.fst hload)

end Registry

/-! ## Writing again -/

namespace Output

open FileTree (run_bind run_makeDir isDir_iff)

/-- Where the directory that holds a path is there, nothing is made. -/
theorem run_makeParent_of_hasParent (hfree : tree.root.LinkFree) (h : HasParent tree path) :
    tree.run (makeParent path) = (.ok (), tree) := by
  rw [makeParent]
  cases hfilter : path.parent?.filter (!·.text.isEmpty) with
  | none => rfl
  | some parent =>
    obtain ⟨hparent, hne⟩ : path.parent? = some parent ∧ parent.text ≠ "" := by
      simpa [Option.filter_eq_some_iff] using hfilter
    obtain ⟨names, hplace⟩ := h parent hparent hne
    -- no link is in the way, so the entry that is asked for is the folder itself
    have hentry : tree.place parent .entry = .ok (.folder names) := by
      rw [FileTree.place_eq_ok_iff hfree (by decide)] at hplace ⊢
      exact hplace
    have hmake := FileTree.makeDir_of_place_folder (Path.isTidy_parent? hparent) hentry
    have hdir : tree.run (Files.isDir parent) = (true, tree) :=
      congrArg (·, tree) (isDir_iff.2 ⟨names, hplace⟩)
    obtain ⟨outer, houter⟩ := Path.ancestors_eq_cons hne
    have hmade : tree.run (Files.makeDirs parent) = (.ok (), tree) := by
      rw [Files.makeDirs, houter, Files.makeDirsAmong, run_bind, run_makeDir, hmake]
      dsimp only
      rw [run_bind, hdir]
      rfl
    dsimp only
    rw [run_bind, hmade]
    rfl

/-- An output that was written is written again without any change. -/
theorem run_write_again (h : Wrote tree mid after path text) (hfree : after.root.LinkFree) :
    after.run (write path text) = (.ok (), after) := by
  obtain ⟨names, htakes, heq, hplace⟩ := FileTree.place_of_write h.writes
  have hways : mid.root.KeepsWays after.root := by
    rw [heq]
    exact htakes.keepsWays _
  have hparent : HasParent after path := by
    intro parent hparent hne
    obtain ⟨found, hfound⟩ := h.hasParent parent hparent hne
    exact ⟨found, FileTree.place_folder_of_keepsWays hways (congrArg (·.workingDir) heq) hfound⟩
  have hwrite : after.write path text.toUTF8 = .ok after := by
    have hwriting := hplace .writing (.inl rfl)
    have hsame : after.root.set names (.file text.toUTF8) = after.root :=
      Node.set_eq_self (FileTree.place_stands hwriting)
    rw [FileTree.write_of_place hwriting rfl]
    exact congrArg Except.ok (FileTree.ext hsame rfl)
  rw [write, run_bind, run_makeParent_of_hasParent hfree hparent]
  dsimp only
  rw [run_bind, FileTree.run_write, hwrite]
  rfl

end Output

/-! ## Running again -/

namespace Generate

open FileTree (attempt_bind_ok attempt_bind_error)
open Output (Wrote)

variable {request : GenerateRequest} {format : OutputFormat} {colored : Bool} {config : Config}
  {source : Path} {registry : Registry} {outcome : Outcome}

/-- The configuration of a run that names no file is that of the directory, with all that the
request sets. -/
theorem attempt_resolveConfig_eq_ok_iff (hc : request.config = none) :
    tree.attempt (resolveConfig request base) = (.ok config, tree) ↔
      ∃ found, (tree.run (Config.discover base)).1 = .ok found ∧
        overrideAll request found = .ok config := by
  have hfile : tree.attempt (fileConfig request base)
      = ((tree.run (Config.discover base)).1.mapError fun error =>
          (Failure.ofError error).within ("failed to load " ++ Config.fileName), tree) := by
    simp only [fileConfig, hc, attempt_orFailWithin]
    rw [Config.onlyLooks_discover base tree]
  rw [resolveConfig]
  cases hfound : (tree.run (Config.discover base)).1 with
  | error error =>
    rw [hfound] at hfile
    rw [attempt_bind_error hfile]
    simp
  | ok found =>
    rw [hfound] at hfile
    rw [attempt_bind_ok hfile, attempt_orFail, FileTree.run_pure]
    cases hover : overrideAll request found <;> simp [Except.mapError, hover]

/-- The registry document of a run that names none is the one that is found. -/
theorem attempt_resolveSource_eq_ok_iff (hs : request.source = none) :
    tree.attempt (resolveSource request base) = (.ok source, tree) ↔
      tree.run (Registry.discover base) = (.ok source, tree) := by
  simp only [resolveSource, hs, attempt_orFail]
  rw [(Registry.onlyLooks_discover base).run_eq tree]
  cases (tree.run (Registry.discover base)).1 <;> simp [Except.mapError]

/-- A run sees relative paths from the same directory in trees with the same working directory. -/
theorem baseIn_congr (request : GenerateRequest) (h : after.workingDir = tree.workingDir) :
    baseIn after request = baseIn tree request := by
  rw [baseIn, baseIn, FileTree.workingPath, FileTree.workingPath, h]

/-- What a run that looks for its files settles, it settles again in a tree that agrees on documents
and on configuration files; and it finds the same ones. -/
theorem Settles.again (h : Settles tree request config source registry text)
    (hs : request.source = none) (hc : request.config = none) (hfree : tree.root.LinkFree)
    (hfree' : after.root.LinkFree) (hconfig : AgreeOn Config.fileName tree after)
    (hsource : AgreeOn Registry.sourceName tree after) :
    Settles after request config source registry text ∧
      after.isFile ((baseIn tree request).join ⟨Config.fileName⟩)
        = tree.isFile ((baseIn tree request).join ⟨Config.fileName⟩) ∧
      (after.run (Config.discover (baseIn tree request))).1
        = (tree.run (Config.discover (baseIn tree request))).1 := by
  have hbase : baseIn after request = baseIn tree request :=
    baseIn_congr request hconfig.workingDir_eq
  -- the folder of sources is there, as a document was found in it
  have hfound := (attempt_resolveSource_eq_ok_iff hs).1 h.found
  obtain ⟨⟨names, hroot⟩, hname⟩ := Registry.exists_of_run_discover hfound
  obtain ⟨hisFile, hdiscover⟩ := Config.run_discover_again hconfig hfree hfree' hroot
  obtain ⟨found, hfile, hover⟩ := (attempt_resolveConfig_eq_ok_iff hc).1 h.configured
  refine ⟨⟨?_, ?_, Registry.run_load_again hsource hfree hname h.loaded, h.assembled⟩,
    hisFile, hdiscover⟩
  · rw [hbase, attempt_resolveConfig_eq_ok_iff hc, hdiscover]
    exact ⟨found, hfile, hover⟩
  · rw [hbase, attempt_resolveSource_eq_ok_iff hs,
      (Registry.onlyLooks_discover (baseIn tree request)).run_eq after,
      Registry.run_discover_again hsource hroot, hfound]

/-- A run that writes and succeeds has settled all its stages and written its output. -/
theorem wrote_of_run (h : tree.attempt (run (request.inMode .write) format colored)
      = (.ok outcome, after)) :
    ∃ config source registry text mid, Settles tree request config source registry text ∧
      Wrote tree mid after (draftOf tree request config source registry text).outputPath text ∧
      outcome = ⟨summary format colored (draftOf tree request config source registry text) .written,
        .success⟩ := by
  rcases fails_or_settles tree request with
    ⟨failure, hfails⟩ | ⟨config, source, registry, text, hsettles⟩
  · rw [attempt_run_of_error (attempt_prepare_of_failsEarly hfails)] at h
    cases h
  have hrun := attempt_run_finish format colored (show Mode.write ≠ .print by decide)
    (attempt_prepare_of_settles hsettles)
  rw [h, decide_eq_false (by decide), attempt_finish_false] at hrun
  -- the draft is named, as the path of the output is a long term
  generalize hdraft : draftOf tree request config source registry text = draft at hrun
  have htext : draft.text = text := by rw [← hdraft]; rfl
  rcases Output.run_write tree draft.outputPath draft.text with
    ⟨mid, written, hwrote, hw⟩ | ⟨failed, reason, written, -, hw⟩
  · rw [hw] at hrun
    obtain ⟨houtcome, rfl⟩ := Prod.mk.inj hrun
    rw [htext] at hwrote
    exact ⟨config, source, registry, text, mid, hsettles, hdraft ▸ hwrote,
      hdraft ▸ Except.ok.inj houtcome⟩
  · rw [hw] at hrun
    cases hrun

/-- A run that settles its stages and writes its output succeeds. -/
theorem attempt_run_write {draft : Draft} (format : OutputFormat) (colored : Bool)
    (hp : tree.attempt (prepare request) = (.ok draft, tree))
    (hw : tree.run (Output.write draft.outputPath draft.text) = (.ok (), after)) :
    tree.attempt (run (request.inMode .write) format colored)
      = (.ok ⟨summary format colored draft .written, .success⟩, after) := by
  rw [attempt_run_finish format colored (by decide) hp, decide_eq_false (by decide),
    attempt_finish_false, hw]
  rfl

/-- The name of an output is neither that of a configuration file nor that of a document. -/
theorem outputPath_fileName?_ne {draft : Draft}
    (h : draft = draftOf tree request config source registry text) {name : List Char}
    (hname : draft.outputPath.fileName? = some name) :
    String.ofList name ≠ Config.fileName ∧ String.ofList name ≠ Registry.sourceName := by
  -- the extension of an output is `ts`, that of the others is not
  have hextension : (Path.cutExtension name).2 = some ['t', 's'] := by
    have hts := Output.extension?_resolve (baseIn tree request) request.outdir source
      config.defaultOutputDir
    have hpath : draft.outputPath = Output.resolve (baseIn tree request) request.outdir source
        config.defaultOutputDir := by rw [h]; rfl
    rw [← hpath, Path.extension?, hname] at hts
    exact hts
  constructor <;>
  · intro heq
    rw [← String.toList_inj, String.toList_ofList] at heq
    rw [heq] at hextension
    exact absurd hextension (by decide)

/-- A tree without links in which an output was written agrees with the one before on documents and
on configuration files. -/
theorem agreeOn_of_wrote {draft : Draft}
    (h : draft = draftOf tree request config source registry text)
    (hfree : after.root.LinkFree) (hwrote : Wrote tree mid after draft.outputPath text) :
    AgreeOn Config.fileName tree after ∧ AgreeOn Registry.sourceName tree after := by
  obtain ⟨names, -, -, hplace⟩ := FileTree.place_of_write hwrote.writes
  have htarget := hplace .target (.inr rfl)
  obtain ⟨name, hname, hlast⟩ := FileTree.fileName?_of_place_file hfree (by decide) htarget
  obtain ⟨hconfig, hsource⟩ := outputPath_fileName?_ne h hname
  have hagree : ∀ other, String.ofList name ≠ other → AgreeOn other tree after := by
    intro other hne
    refine (hwrote.adds.agreeOn other).trans (FileTree.agreeOn_of_write hwrote.writes htarget ?_)
    rw [hlast]
    exact fun heq => hne (Option.some.inj heq)
  exact ⟨hagree _ hconfig, hagree _ hsource⟩

/-- Where no link stands, a run that looks for its document and its configuration and writes its
output finds the same ones where it left it. Run again it gives the same report and changes nothing,
and a check finds the output up to date. -/
theorem run_again (hfree : tree.root.LinkFree) (hs : request.source = none)
    (hc : request.config = none)
    (h : tree.attempt (run (request.inMode .write) format colored) = (.ok outcome, after)) :
    after.attempt (run (request.inMode .write) format colored) = (.ok outcome, after) ∧
      (∃ summary, after.attempt (run (request.inMode .check) format colored)
        = (.ok ⟨summary, .success⟩, after)) ∧
      baseIn after request = baseIn tree request ∧
      (∃ source, tree.run (Registry.discover (baseIn tree request)) = (.ok source, tree) ∧
        after.run (Registry.discover (baseIn tree request)) = (.ok source, after)) ∧
      after.isFile ((baseIn tree request).join ⟨Config.fileName⟩)
        = tree.isFile ((baseIn tree request).join ⟨Config.fileName⟩) ∧
      (after.run (Config.discover (baseIn tree request))).1
        = (tree.run (Config.discover (baseIn tree request))).1 := by
  obtain ⟨config, source, registry, text, mid, hsettles, hwrote, rfl⟩ := wrote_of_run h
  have hfree' : after.root.LinkFree :=
    FileTree.linkFree_of_write hwrote.writes (hwrote.adds.linkFree hfree)
  obtain ⟨hconfig, hsource⟩ := agreeOn_of_wrote rfl hfree' hwrote
  have hbase : baseIn after request = baseIn tree request :=
    baseIn_congr request hconfig.workingDir_eq
  obtain ⟨hagain, hisFile, hdiscover⟩ := hsettles.again hs hc hfree hfree' hconfig hsource
  -- the same is settled, so the same text goes to the same path
  have hdraft : draftOf after request config source registry text
      = draftOf tree request config source registry text := by
    rw [draftOf, draftOf, hbase]
  have hp := attempt_prepare_of_settles hagain
  rw [hdraft] at hp
  refine ⟨attempt_run_write format colored hp (Output.run_write_again hwrote hfree'), ?_, hbase,
    ⟨source, (attempt_resolveSource_eq_ok_iff hs).1 hsettles.found, ?_⟩, hisFile, hdiscover⟩
  · exact (attempt_run_check format colored hp).1.2
      (FileTree.readText_eq_ok_iff.2 (FileTree.read_of_write hwrote.writes))
  · rw [← hbase]
    exact (attempt_resolveSource_eq_ok_iff hs).1 hagain.found

/-- A project with a document of one endpoint. -/
def smallProject : FileTree :=
  .ofEntries [("src", .folder [("apiList.json",
    .file "\x7b\"default\":\x7b\"getUser\":\x7b\"res\":\"IUser\"\x7d\x7d\x7d".toUTF8)])]

/-- A request for an output among the sources. -/
def amongSources : GenerateRequest :=
  { GenerateRequest.empty with outdir := some ⟨"src/generated"⟩ }

/-- A run whose output goes among the sources, in folders that are new, and is written again. -/
theorem run_again_smallProject :
    smallProject.root.LinkFree ∧ ∃ outcome after,
      smallProject.attempt (run (amongSources.inMode .write) .text false) = (.ok outcome, after) ∧
      after.attempt (run (amongSources.inMode .write) .text false) = (.ok outcome, after) ∧
      ∃ summary, after.attempt (run (amongSources.inMode .check) .text false)
        = (.ok ⟨summary, .success⟩, after) := by
  have hfree : smallProject.root.LinkFree := by
    refine Node.linkFree_folder fun name child hchild => ?_
    rw [Entries.get?] at hchild
    split_ifs at hchild
    · obtain rfl := Option.some.inj hchild
      refine Node.linkFree_folder fun name child hchild => ?_
      rw [Entries.get?] at hchild
      split_ifs at hchild
      · obtain rfl := Option.some.inj hchild
        exact Node.linkFree_file _
      · cases hchild
    · cases hchild
  have hok :
      (smallProject.attempt (run (amongSources.inMode .write) .text false)).1.isOk = true := by
    decide +kernel
  cases hrun : smallProject.attempt (run (amongSources.inMode .write) .text false) with
  | mk result after =>
    cases result with
    | error failure =>
      rw [hrun] at hok
      cases hok
    | ok outcome =>
      obtain ⟨hagain, hcheck, -⟩ := run_again hfree rfl rfl hrun
      exact ⟨hfree, outcome, after, rfl, hagain, hcheck⟩

end Generate

end EndpointTypings
