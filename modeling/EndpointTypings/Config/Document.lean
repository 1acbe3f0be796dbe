import EndpointTypings.Config
import EndpointTypings.Toml.Excerpt
import EndpointTypings.Toml.Reader

/-!
# Configuration documents

A configuration file is a TOML document with one key, `generator`, whose value is a table of
settings, or an array of them by position. The text is read as TOML first. Then keys are visited in
the order of their names, not of the document, and the first that is unknown or has a value that
does not fit is reported, beside the text it stands in. Only a configuration with all its settings
made is checked as a whole. This is the file of section 12 of the specification.

How a syntax error of TOML is worded is no part of the format: that such a text is refused is, and
with it the kind of the error. So one fixed text stands for the words of all syntax errors
(`DocumentFault.message`), and nothing here reads them. The one exception is a key of too many
parts, which is refused with a text of its own.
-/

namespace EndpointTypings.Config

open Toml

/-- Why a text is no configuration document. -/
inductive DocumentFault where
  /-- It is not TOML, or a number that has no value stands where a setting is read. -/
  | unreadable (fault : Toml.Fault)
  /-- A part of it does not fit. -/
  | mismatch (part : Span) (difference : Mismatch)
  deriving DecidableEq, Repr

/-- The words for a fault in a text; those of a syntax error are a fixed text in their place. -/
def DocumentFault.message (text : String) : DocumentFault → String
  | unreadable .malformed => "<TOML syntax error>"
  | unreadable .keyTooLong => "recursion limit\n"
  | mismatch part difference => excerpt text part difference.message

/-- The layout of numbers in the words for a fault: never with an exponent. -/
def floatLayout : Layout := ⟨.up, none⟩

/-- What stands in the place of a string or a table, as messages name it. Integers beyond 128 bits
and numbers without a value have no name. -/
def found? : Value → Option Found
  | .array _ _ _ => some .sequence
  | .table _ _ _ => some .map
  | .scalar _ (.string text) => some (.string text)
  | .scalar _ (.boolean value) => some (.boolean value)
  | .scalar _ .moment => some .map
  | .scalar _ (.integer value) =>
    if -Int.pow 2 63 ≤ value && value < Int.pow 2 64 then some (.integer value)
    else if -Int.pow 2 127 ≤ value && value < Int.pow 2 127 then some (.wideInteger value "i128")
    else if 0 ≤ value && value < Int.pow 2 128 then some (.wideInteger value "u128")
    else none
  | .scalar _ (.float (.finite value)) => some (.float (value.write floatLayout))
  | .scalar _ (.float (.infinite negative)) => some (.float (if negative then "-inf" else "inf"))
  | .scalar _ (.float .nan) => some (.float "NaN")
  | .scalar _ .unreadable => none

/-- The fault of a value that is not of the expected type. -/
def unexpected (value : Value) (expected : String) : DocumentFault :=
  match found? value with
  | some found => .mismatch value.span (.type found expected)
  | none => .unreadable .malformed

/-- The text of a string. -/
def readText : Value → Except DocumentFault String
  | .scalar _ (.string text) => .ok text
  | value => .error (unexpected value "a string")

/-- The configuration with a setting made from a value; a name that is refused is shown as the
given part of the document. -/
def setValue (config : Config) (setting : Setting) (value : Value) (part : Span) :
    Except DocumentFault Config := do
  match config.set setting (← readText value) with
  | .ok config => return config
  | .error error => .error (.mismatch part (.refused error))

/-- The fault of a key that names nothing, with the keys that do. -/
def unknownKey (part : Span) (key : String) (known : List String) : DocumentFault :=
  .mismatch part (.unknownField key known)

/-- The keys of the settings. -/
def settingKeys : List String :=
  Setting.all.map Setting.key

/-- The configuration after an entry of the table of settings. -/
def readEntry (config : Config) (entry : String × Span × Value) :
    Except DocumentFault Config :=
  match Setting.ofKey? entry.1 with
  | some setting => setValue config setting entry.2.2 entry.2.2.span
  | none => .error (unknownKey entry.2.1 entry.1 settingKeys)

/-- The configuration after the items of an array of settings, by position; items beyond the
settings are not looked at. A refused namespace is shown by itself, a refused name as the whole
array. -/
def readItems (whole : Span) :
    List Setting → List Value → Config → Except DocumentFault Config
  | setting :: settings, item :: items, config => do
    let part := if setting = .ambientNamespace then item.span else whole
    readItems whole settings items (← setValue config setting item part)
  | _, _, config => .ok config

/-- The key of the only entry of a date or time, where it stands in the place of a table. -/
def momentKey : String := "$__toml_private_datetime"

/-- The configuration that a value of the key `generator` describes. -/
def readSettings (value : Value) : Except DocumentFault Config :=
  match value with
  | .scalar span .moment => .error (unknownKey span momentKey settingKeys)
  | .table _ _ entries => (Entries.sortByName entries).foldlM readEntry standard
  | .array span _ items => readItems span Setting.all items standard
  | value => .error (unexpected value "struct GeneratorConfig")

/-- The configuration after an entry of the document. -/
def readTopEntry (_ : Config) (entry : String × Span × Value) :
    Except DocumentFault Config :=
  if entry.1 = "generator" then readSettings entry.2.2
  else .error (unknownKey entry.2.1 entry.1 ["generator"])

/-- The configuration that a document describes. -/
def ofTable (table : Table) : Except DocumentFault Config :=
  (Entries.sortByName table).foldlM readTopEntry standard

/-- The configuration that a text is the document of. -/
def parse (text : String) : Except Error Config :=
  match Toml.parse text with
  | .error fault => .error (invalid text (.unreadable fault))
  | .ok table =>
    match ofTable table with
    | .error fault => .error (invalid text fault)
    | .ok config => config.build
where
  /-- The error that reports a fault in a text. -/
  invalid (text : String) (fault : DocumentFault) : Error :=
    .configuration ("invalid configuration: " ++ fault.message text)

end EndpointTypings.Config
