import EndpointTypings.Json.Record
import EndpointTypings.Name
import EndpointTypings.Text.Blank

/-!
# Configurations

The settings that shape the generated file. Names are of their form by their types; the two settings
that are plain texts are checked by `Config.validate`, since a header description that closes a
comment, or an output directory that is blank, would spoil the file. They are those of section 12 of
the specification, with its standard values.

A configuration is changed field by field with the structure update of the language, and
`Config.build` is the check that ends a series of changes.
-/

namespace EndpointTypings

/-- The settings of a generated file. -/
structure Config where
  /-- The name of the interface. -/
  interfaceName : InterfaceName
  /-- The description in the comment at the head of the file. -/
  headerDescription : String
  /-- The namespace that holds the ambient types, if they are in one. -/
  ambientNamespace : Option AmbientNamespace
  /-- The directory of the file when no other target is given. -/
  defaultOutputDir : String
  deriving DecidableEq

namespace Config

/-- The name of a configuration file. -/
def fileName : String := "apitypes.toml"

/-- The settings that hold where none is made. -/
def standard : Config :=
  ⟨InterfaceName.standard, "主包接口定义声明", none, "mippApiListTypes"⟩

/-- Whether the plain texts of a configuration can stand in a file. -/
def validate (config : Config) : Except Error Unit :=
  if Text.contains config.headerDescription "*/" then
    .error (.configuration "header_description must not contain '*/'")
  else if Text.isBlankText config.defaultOutputDir then
    .error (.configuration "default_output_dir must not be empty")
  else .ok ()

/-- The configuration, if it is valid. -/
def build (config : Config) : Except Error Config :=
  config.validate.map fun _ => config

/-- The names of the settings, in the order of positions. -/
inductive Setting where
  /-- The name of the interface. -/
  | interfaceName
  /-- The description in the head of the file. -/
  | headerDescription
  /-- The namespace of the ambient types. -/
  | ambientNamespace
  /-- The default output directory. -/
  | defaultOutputDir
  deriving DecidableEq, Repr

namespace Setting

/-- Every setting, in the order of positions. -/
def all : List Setting :=
  [interfaceName, headerDescription, ambientNamespace, defaultOutputDir]

/-- The key of a setting in a configuration file. -/
def key : Setting → String
  | interfaceName => "interface_name"
  | headerDescription => "header_description"
  | ambientNamespace => "ambient_namespace"
  | defaultOutputDir => "default_output_dir"

/-- The setting with a key. -/
def ofKey? (key : String) : Option Setting :=
  all.find? (·.key = key)

end Setting

/-- The configuration with a setting made from a text. -/
def set (config : Config) (setting : Setting) (value : String) : Except Error Config :=
  match setting with
  | .interfaceName => do return { config with interfaceName := ← InterfaceName.ofString value }
  | .headerDescription => .ok { config with headerDescription := value }
  | .ambientNamespace => do
    return { config with ambientNamespace := some (← AmbientNamespace.ofString value) }
  | .defaultOutputDir => .ok { config with defaultOutputDir := value }

/-- The configuration with a setting made from a JSON value: a string, or null for no
namespace. -/
def setJson (setting : Setting) (value : Json) (config : Config) : Except Mismatch Config :=
  match setting, value with
  | .ambientNamespace, .null => .ok { config with ambientNamespace := none }
  | _, value => do
    match config.set setting (← value.asString) with
    | .ok config => .ok config
    | .error error => .error (.refused error)

/-- How a configuration is read from JSON. -/
def record : Record Config where
  title := "GeneratorConfig"
  fields := Setting.all.map fun setting => ⟨setting.key, setJson setting⟩
  default := standard
  skipsUnknown := false

/-- A configuration as JSON. -/
def toJson (config : Config) : Json :=
  .obj [("interface_name", .str config.interfaceName.text),
    ("header_description", .str config.headerDescription),
    ("ambient_namespace", .ofString? (config.ambientNamespace.map (·.text))),
    ("default_output_dir", .str config.defaultOutputDir)]

end Config

end EndpointTypings
