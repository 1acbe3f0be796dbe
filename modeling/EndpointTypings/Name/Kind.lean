import EndpointTypings.Json.Record
import EndpointTypings.Name

/-!
# The ways of a name

The name of an interface and a namespace are texts of two forms, but they come and go in the same
ways. A name is made from a text, parsed from one, converted from one, or read from JSON; and it is
shown, given up as a text, or written to JSON. `NameKind` is what differs between the two kinds of
name, and the ways are defined once for both.
-/

namespace EndpointTypings

/-- A kind of name: texts of a form, and the check of the form. -/
structure NameKind (α : Type) where
  /-- The name, if the text is of the form. -/
  ofString : String → Except Error α
  /-- The text of a name. -/
  text : α → String

/-- Names of interfaces. -/
def InterfaceName.kind : NameKind InterfaceName := ⟨ofString, text⟩

/-- Namespaces of ambient types. -/
def AmbientNamespace.kind : NameKind AmbientNamespace := ⟨ofString, text⟩

namespace NameKind

variable {α : Type} (kind : NameKind α)

/-- A name parsed from a text. -/
def parse (s : String) : Except Error α :=
  kind.ofString s

/-- A name that a text is converted to. -/
def convert (s : String) : Except Error α :=
  kind.ofString s

/-- A name read from JSON: a string that can be converted. -/
def decode (value : Json) : Except Mismatch α := do
  match kind.convert (← value.asString) with
  | .ok name => .ok name
  | .error error => .error (.refused error)

/-- A name as it is shown. -/
def display (name : α) : String :=
  kind.text name

/-- The text that a name is converted to. -/
def toText (name : α) : String :=
  kind.text name

/-- A name as JSON: the text it is converted to. -/
def encode (name : α) : Json :=
  .str (kind.toText name)

end NameKind

end EndpointTypings
