import EndpointTypings.Config
import EndpointTypings.Proofs.Steps
import EndpointTypings.Proofs.Text.FirstAt

/-!
# Settings and their texts

A configuration is told by the texts of its settings (`Config.text?`), and making a setting changes
the text of that setting only (`Config.set_cases`). Two checks stand behind a configuration: a name
is refused when it is made, and a plain text when the configuration is checked as a whole.
`Setting.Allows` puts both into one condition on a setting and its text, and
`Config.allows_of_text?` says that no valid configuration has a text that the condition forbids.
-/

namespace EndpointTypings

/-- Names with the same text are the same. -/
@[ext] theorem InterfaceName.ext {name other : InterfaceName} (h : name.text = other.text) :
    name = other := by
  cases name
  cases other
  simp_all

/-- Namespaces with the same text are the same. -/
@[ext] theorem AmbientNamespace.ext {space other : AmbientNamespace} (h : space.text = other.text) :
    space = other := by
  cases space
  cases other
  simp_all

namespace Config

/-- The text of a setting; no namespace has none. -/
def text? (config : Config) : Setting → Option String
  | .interfaceName => some config.interfaceName.text
  | .headerDescription => some config.headerDescription
  | .ambientNamespace => config.ambientNamespace.map AmbientNamespace.text
  | .defaultOutputDir => some config.defaultOutputDir

/-- What a setting asks of its text: an identifier, a text without the mark that ends a comment, a
dotted path of identifiers, or a text that is not blank. -/
def Setting.Allows : Setting → String → Prop
  | interfaceName, text => isIdentifier text.toList = true
  | headerDescription, text => ¬ ['*', '/'] <:+: text.toList
  | ambientNamespace, text => isDottedPath text.toList = true
  | defaultOutputDir, text => Text.isBlankText text = false

/-- The error that a text is refused with. -/
def Setting.refusal : Setting → String → Error
  | interfaceName, text => .validation "interface_name"
      (if text = "" then "must not be empty"
        else "'" ++ text ++ "' is not a valid TypeScript identifier")
  | headerDescription, _ => .configuration "header_description must not contain '*/'"
  | ambientNamespace, text => .validation "ambient_namespace"
      ("'" ++ text ++ "' is not a dotted TypeScript identifier path")
  | defaultOutputDir, _ => .configuration "default_output_dir must not be empty"

/-- A text that is refused is one that the user gave. -/
theorem Setting.isUserError_refusal (setting : Setting) (text : String) :
    (setting.refusal text).isUserError = true := by
  cases setting <;> rfl

/-- A configuration is another one with some texts made, and has the other texts from that. -/
def HasTexts (texts : Setting → Option String) (config made : Config) : Prop :=
  ∀ setting, made.text? setting = (texts setting).or (config.text? setting)

/-- The text of one setting, and none of the others. -/
def onlyText (setting : Setting) (text : Option String) : Setting → Option String :=
  fun other => if other = setting then text else none

variable {config built other : Config} {setting : Setting} {text : String}

/-- Configurations with the same texts are the same. -/
theorem ext_text? (h : ∀ setting, config.text? setting = other.text? setting) : config = other := by
  have hname : config.interfaceName = other.interfaceName :=
    InterfaceName.ext (Option.some.inj (h .interfaceName))
  have hheader : config.headerDescription = other.headerDescription :=
    Option.some.inj (h .headerDescription)
  have hspace : config.ambientNamespace = other.ambientNamespace :=
    Option.map_injective (fun _ _ => AmbientNamespace.ext) (h .ambientNamespace)
  have hdir : config.defaultOutputDir = other.defaultOutputDir :=
    Option.some.inj (h .defaultOutputDir)
  cases config
  cases other
  simp_all

/-! ## Names -/

/-- The name of an interface is refused, or it is the text. -/
theorem ofString_interfaceName_cases (text : String) :
    (¬ Setting.interfaceName.Allows text ∧
      InterfaceName.ofString text = .error (Setting.interfaceName.refusal text)) ∨
    ∃ name : InterfaceName, InterfaceName.ofString text = .ok name ∧ name.text = text := by
  unfold InterfaceName.ofString
  split_ifs with hname hempty
  · exact .inr ⟨_, rfl, rfl⟩
  · have htext : text = "" := String.isEmpty_iff.1 hempty
    exact .inl ⟨hname, by rw [Setting.refusal, if_pos htext]⟩
  · have htext : text ≠ "" := fun htext => hempty (String.isEmpty_iff.2 htext)
    exact .inl ⟨hname, by rw [Setting.refusal, if_neg htext]⟩

/-- A namespace is refused, or it is the text. -/
theorem ofString_ambientNamespace_cases (text : String) :
    (¬ Setting.ambientNamespace.Allows text ∧
      AmbientNamespace.ofString text = .error (Setting.ambientNamespace.refusal text)) ∨
    ∃ space : AmbientNamespace, AmbientNamespace.ofString text = .ok space ∧ space.text = text := by
  unfold AmbientNamespace.ofString
  split_ifs with hspace
  · exact .inr ⟨_, rfl, rfl⟩
  · exact .inl ⟨hspace, rfl⟩

/-- A text that is made a setting is refused, or becomes the text of that setting and changes no
other one. -/
theorem set_cases (config : Config) (setting : Setting) (text : String) :
    (¬ setting.Allows text ∧ config.set setting text = .error (setting.refusal text)) ∨
    ∃ changed, config.set setting text = .ok changed ∧
      HasTexts (onlyText setting (some text)) config changed := by
  cases setting with
  | interfaceName =>
    rcases ofString_interfaceName_cases text with ⟨hnot, herror⟩ | ⟨name, hname, rfl⟩
    · exact .inl ⟨hnot, by rw [set, herror]; rfl⟩
    · refine .inr ⟨{ config with interfaceName := name }, by rw [set, hname]; rfl, fun other => ?_⟩
      cases other <;> rfl
  | headerDescription =>
    refine .inr ⟨{ config with headerDescription := text }, rfl, fun other => ?_⟩
    cases other <;> rfl
  | ambientNamespace =>
    rcases ofString_ambientNamespace_cases text with ⟨hnot, herror⟩ | ⟨space, hspace, rfl⟩
    · exact .inl ⟨hnot, by rw [set, herror]; rfl⟩
    · refine .inr ⟨{ config with ambientNamespace := some space }, by rw [set, hspace]; rfl,
        fun other => ?_⟩
      cases other <;> rfl
  | defaultOutputDir =>
    refine .inr ⟨{ config with defaultOutputDir := text }, rfl, fun other => ?_⟩
    cases other <;> rfl

/-! ## Configurations as a whole -/

/-- The mark that ends a comment is looked for in a header description. -/
theorem contains_mark_iff : Text.contains text "*/" = true ↔ ['*', '/'] <:+: text.toList :=
  Text.occurs_iff

/-- A configuration is valid exactly if its plain texts are allowed. -/
theorem validate_eq_ok_iff : config.validate = .ok () ↔
    Setting.headerDescription.Allows config.headerDescription ∧
      Setting.defaultOutputDir.Allows config.defaultOutputDir := by
  unfold validate
  simp only [Setting.Allows, ← contains_mark_iff]
  split_ifs with hheader hdir
  · simp [hheader]
  · simp [hdir]
  · simp [hheader, hdir]

/-- A configuration is built exactly if it is valid, and is what is built. -/
theorem build_eq_ok_iff : config.build = .ok built ↔ config.validate = .ok () ∧ config = built := by
  unfold build
  rw [map_eq_ok_iff]
  exact ⟨fun ⟨(), hvalid, heq⟩ => ⟨hvalid, heq⟩, fun ⟨hvalid, heq⟩ => ⟨(), hvalid, heq⟩⟩

/-- A configuration that names a directory for its output is built unless its header description is
refused. -/
theorem build_cases (hdir : Setting.defaultOutputDir.Allows config.defaultOutputDir) :
    (¬ Setting.headerDescription.Allows config.headerDescription ∧
      config.build = .error (Setting.headerDescription.refusal config.headerDescription)) ∨
    config.build = .ok config ∧ config.validate = .ok () := by
  by_cases hheader : Setting.headerDescription.Allows config.headerDescription
  · have hvalid := validate_eq_ok_iff.2 ⟨hheader, hdir⟩
    exact .inr ⟨build_eq_ok_iff.2 ⟨hvalid, rfl⟩, hvalid⟩
  · have hmark := contains_mark_iff.2 (not_not.1 hheader)
    exact .inl ⟨hheader, by rw [build, validate, if_pos hmark]; rfl⟩

/-- A configuration is refused with an error about the configuration. -/
theorem configuration_of_build {error : Error} (h : config.build = .error error) :
    ∃ reason, error = .configuration reason := by
  unfold build at h
  rw [map_eq_error_iff] at h
  unfold validate at h
  split_ifs at h
  · exact ⟨_, (Except.error.inj h).symm⟩
  · exact ⟨_, (Except.error.inj h).symm⟩

/-- Whatever text a valid configuration has for a setting, the setting allows it. -/
theorem allows_of_text? (hvalid : config.validate = .ok ()) (h : config.text? setting = some text) :
    setting.Allows text := by
  obtain ⟨hheader, hdir⟩ := validate_eq_ok_iff.1 hvalid
  cases setting with
  | interfaceName =>
    obtain rfl := Option.some.inj h
    exact config.interfaceName.isIdentifier_text
  | headerDescription =>
    obtain rfl := Option.some.inj h
    exact hheader
  | ambientNamespace =>
    obtain ⟨space, -, rfl⟩ := Option.map_eq_some_iff.1 h
    exact space.isDottedPath_text
  | defaultOutputDir =>
    obtain rfl := Option.some.inj h
    exact hdir

end Config

end EndpointTypings
