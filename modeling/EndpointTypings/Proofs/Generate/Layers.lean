import EndpointTypings.Proofs.Config.Document
import EndpointTypings.Proofs.Generate.Stages

/-!
# The layers of a configuration

The configuration of a run has three layers: the texts of the request, those of a configuration
file, and those of the standard configuration. `Generate.resolveConfig_layers` says of every tree,
request and base directory what comes of them. A file that is chosen has to hold a configuration
document, whatever the request says; then every text of the request has to be allowed, whatever the
file says; then the configuration is valid and takes each setting from the first layer that has it.

`Generate.FileSets` is the layer of the file, with nothing in it if no file is chosen. The file and
the request are settled by a lemma each, and the result is put together from the two.
-/

namespace EndpointTypings

/-- The text that a request gives a setting; there is none for the output directory. -/
def GenerateRequest.text? (request : GenerateRequest) : Config.Setting → Option String
  | .interfaceName => request.interfaceName
  | .headerDescription => request.headerDescription
  | .ambientNamespace => request.ambientNamespace
  | .defaultOutputDir => none

namespace Generate

open Config (Setting)

/-- The configuration file of a run: the one that the request names, or that of the base directory
if it is a file. -/
def configFile? (tree : FileTree) (request : GenerateRequest) (base : Path) : Option Path :=
  match request.config with
  | some path => some (base.join path)
  | none =>
    if tree.isFile (base.join ⟨Config.fileName⟩) then some (base.join ⟨Config.fileName⟩) else none

/-- The texts that a configuration file sets: none without a file, and otherwise those of the
configuration document that the file holds. -/
inductive FileSets (tree : FileTree) : Option Path → (Setting → Option String) → Prop
  /-- There is no file. -/
  | nothing : FileSets tree none fun _ => none
  /-- The file holds a configuration document. -/
  | document {path : Path} {text : String} {table : Toml.Table}
      (hread : tree.readText path = .ok text) (htable : Toml.parse text = .ok table)
      (hdocument : Config.IsDocument table) : FileSets tree (some path) (Config.textIn? table)

/-- A configuration that is valid and takes each setting from the first of three layers that has
it: the request, the file and the standard configuration. -/
structure Layered (request : GenerateRequest) (file : Setting → Option String) (config : Config) :
    Prop where
  /-- The text of each setting. -/
  texts : ∀ setting, config.text? setting
    = ((request.text? setting).or (file setting)).or (Config.standard.text? setting)
  /-- The configuration as a whole. -/
  valid : config.validate = .ok ()
  /-- The name of the interface is an identifier. -/
  interfaceName : isIdentifier config.interfaceName.text.toList = true
  /-- The namespace is a dotted path of identifiers. -/
  ambientNamespace : ∀ space ∈ config.ambientNamespace, isDottedPath space.text.toList = true

/-! ## The file -/

/-- What comes of a configuration file: it is refused with an error about the configuration, or
gives a valid configuration with the texts it sets, and those of the standard one where it sets
none. -/
inductive LoadsFile (tree : FileTree) (path? : Option Path) : Except Error Config → Prop
  /-- The file holds no configuration document. -/
  | refused (hnone : ¬ ∃ file, FileSets tree path? file) (reason : String) :
      LoadsFile tree path? (.error (.configuration reason))
  /-- The file holds a configuration document, or there is none. -/
  | accepted {file : Setting → Option String} {config : Config} (hsets : FileSets tree path? file)
      (hvalid : config.validate = .ok ()) (htexts : Config.HasTexts file .standard config) :
      LoadsFile tree path? (.ok config)

/-- A configuration file that is named. -/
theorem loadsFile_load (tree : FileTree) (path : Path) :
    LoadsFile tree (some path) (tree.run (Config.load path)).1 := by
  rw [Config.run_load]
  cases hread : tree.readText path with
  | error fault =>
    refine .refused ?_ _
    rintro ⟨file, hfile⟩
    cases hfile with
    | document hread' htable hdocument =>
      rw [hread] at hread'
      cases hread'
  | ok text =>
    show LoadsFile tree (some path) (Config.parse text)
    cases hparse : Config.parse text with
    | error error =>
      obtain ⟨reason, rfl⟩ := Config.configuration_of_parse hparse
      refine .refused ?_ reason
      rintro ⟨file, hfile⟩
      cases hfile with
      | document hread' htable hdocument =>
        obtain rfl := Except.ok.inj (hread.symm.trans hread')
        obtain ⟨config, hconfig⟩ := Config.exists_parse_of_isDocument htable hdocument
        rw [hparse] at hconfig
        cases hconfig
    | ok config =>
      obtain ⟨table, htable, hdocument, htexts⟩ := Config.parse_eq_ok_iff.1 hparse
      exact .accepted (.document hread htable hdocument) (Config.validate_of_parse hparse) htexts

/-- The configuration file of a run is loaded, and its refusal told with what the run was doing. -/
theorem attempt_fileConfig (tree : FileTree) (request : GenerateRequest) (base : Path) :
    ∃ context result, LoadsFile tree (configFile? tree request base) result ∧
      tree.attempt (fileConfig request base)
        = (result.mapError fun error => (Failure.ofError error).within context, tree) := by
  unfold fileConfig configFile?
  cases request.config with
  | some path =>
    refine ⟨"failed to load config " ++ path.text, _, loadsFile_load tree (base.join path), ?_⟩
    rw [attempt_orFailWithin, (Config.onlyLooks_load (base.join path)).run_eq]
  | none =>
    refine ⟨"failed to load " ++ Config.fileName, (tree.run (Config.discover base)).1, ?_, ?_⟩
    · rw [Config.run_discover]
      dsimp only
      split_ifs
      · exact loadsFile_load tree _
      · exact .accepted .nothing (by decide) fun setting => rfl
    · rw [attempt_orFailWithin, (Config.onlyLooks_discover base).run_eq]

/-! ## The request -/

variable {config : Config}

/-- A setting that a request may make is refused, or has the text of the request if there is
one. -/
theorem override_cases (setting : Setting) (value : Option String) (config : Config) :
    (∃ text ∈ value, ¬ setting.Allows text ∧
      override setting value config = .error (setting.refusal text)) ∨
    ∃ changed, override setting value config = .ok changed ∧
      Config.HasTexts (Config.onlyText setting value) config changed := by
  cases value with
  | none => exact .inr ⟨config, rfl, fun other => by simp [Config.onlyText]⟩
  | some text =>
    rcases config.set_cases setting text with ⟨hnot, herror⟩ | ⟨changed, hchanged, htexts⟩
    · exact .inl ⟨text, rfl, hnot, herror⟩
    · exact .inr ⟨changed, hchanged, htexts⟩

/-- The settings of a request are refused for one of its texts, or give a valid configuration with
all of them. -/
theorem overrideAll_cases (request : GenerateRequest) (hvalid : config.validate = .ok ()) :
    (∃ setting, ∃ text ∈ request.text? setting, ¬ setting.Allows text ∧
      overrideAll request config = .error (setting.refusal text)) ∨
    ∃ changed, overrideAll request config = .ok changed ∧ changed.validate = .ok () ∧
      Config.HasTexts request.text? config changed := by
  rcases override_cases .interfaceName request.interfaceName config with
    ⟨text, htext, hnot, herror⟩ | ⟨named, hnamed, htexts₁⟩
  · exact .inl ⟨.interfaceName, text, htext, hnot, by rw [overrideAll, herror]; rfl⟩
  have hfirst : overrideAll request config
      = override .ambientNamespace request.ambientNamespace named >>= fun config =>
        override .headerDescription request.headerDescription config >>= Config.build := by
    rw [overrideAll, hnamed]
    rfl
  rcases override_cases .ambientNamespace request.ambientNamespace named with
    ⟨text, htext, hnot, herror⟩ | ⟨placed, hplaced, htexts₂⟩
  · exact .inl ⟨.ambientNamespace, text, htext, hnot, by rw [hfirst, herror]; rfl⟩
  have hsecond : overrideAll request config
      = override .headerDescription request.headerDescription placed >>= Config.build := by
    rw [hfirst, hplaced]
    rfl
  rcases override_cases .headerDescription request.headerDescription placed with
    ⟨text, htext, hnot, herror⟩ | ⟨described, hdescribed, htexts₃⟩
  · exact .inl ⟨.headerDescription, text, htext, hnot, by rw [hsecond, herror]; rfl⟩
  have hall : overrideAll request config = described.build := by
    rw [hsecond, hdescribed]
    rfl
  have htexts : Config.HasTexts request.text? config described := by
    intro setting
    rw [htexts₃, htexts₂, htexts₁]
    cases setting <;> simp [GenerateRequest.text?, Config.onlyText]
  have hdir : Setting.defaultOutputDir.Allows described.defaultOutputDir :=
    Config.allows_of_text? hvalid (htexts .defaultOutputDir).symm
  rw [hall]
  rcases Config.build_cases hdir with ⟨hnot, herror⟩ | ⟨hbuild, hvalid'⟩
  · -- a header description that is refused is that of the request, since the other one is valid
    have hheader : (request.text? .headerDescription).or (config.text? .headerDescription)
        = some described.headerDescription := (htexts .headerDescription).symm
    rcases Option.or_eq_some_iff.1 hheader with htext | ⟨-, htext⟩
    · exact .inl ⟨.headerDescription, _, htext, hnot, herror⟩
    · exact absurd (Config.allows_of_text? hvalid htext) hnot
  · exact .inr ⟨described, hbuild, hvalid', htexts⟩

/-! ## The layers -/

/-- Settling the configuration of a run only looks at the tree. It fails with an error about the
configuration if a file is chosen that does not hold a configuration document; otherwise it fails if
a text of the request is not allowed; otherwise it gives a valid configuration that takes each
setting from the request, or else from the file, or else from the standard configuration. -/
theorem resolveConfig_layers (tree : FileTree) (request : GenerateRequest) (base : Path) :
    ∃ result, tree.attempt (resolveConfig request base) = (result, tree) ∧
      ((¬ ∃ file, FileSets tree (configFile? tree request base) file) ∧
          (∃ context reason, result = .error ⟨[context], .error (.configuration reason)⟩) ∨
        ∃ file, FileSets tree (configFile? tree request base) file ∧
          ((∃ setting, ∃ text ∈ request.text? setting, ¬ setting.Allows text ∧
              result = .error (.ofError (setting.refusal text))) ∨
            (∀ setting, ∀ text ∈ request.text? setting, setting.Allows text) ∧
              ∃ config, result = .ok config ∧ Layered request file config)) := by
  obtain ⟨context, loaded, hloads, hattempt⟩ := attempt_fileConfig tree request base
  cases hloads with
  | refused hnone reason =>
    refine ⟨_, FileTree.attempt_bind_error hattempt, .inl ⟨hnone, context, reason, rfl⟩⟩
  | @accepted file config hsets hvalid htexts =>
    have hresolve : tree.attempt (resolveConfig request base)
        = ((overrideAll request config).mapError Failure.ofError, tree) :=
      FileTree.attempt_bind_ok hattempt
    refine ⟨_, hresolve, .inr ⟨file, hsets, ?_⟩⟩
    rcases overrideAll_cases request hvalid with
      ⟨setting, text, htext, hnot, herror⟩ | ⟨changed, hchanged, hvalid', htexts'⟩
    · exact .inl ⟨setting, text, htext, hnot, by rw [herror]; rfl⟩
    · refine .inr ⟨fun setting text htext => ?_, changed, by rw [hchanged]; rfl, ?_⟩
      · refine Config.allows_of_text? hvalid' ?_
        rw [htexts', Option.mem_def.1 htext]
        rfl
      · refine ⟨fun setting => ?_, hvalid', changed.interfaceName.isIdentifier_text,
          fun space _ => space.isDottedPath_text⟩
        rw [htexts', htexts, Option.or_assoc]

end Generate

end EndpointTypings
