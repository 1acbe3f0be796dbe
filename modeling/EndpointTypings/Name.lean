import EndpointTypings.Error
import EndpointTypings.Text.Pieces

/-!
# Names in the generated interface

Two kinds of name come from the user and stand in the generated text as they are: the name of the
interface, an identifier, and the namespace of the ambient types, a dotted path of identifiers. Both
are texts that carry the proof that they are of their form, so that no later step has to check
again. `InterfaceName.ofString` and `AmbientNamespace.ofString` are the only ways in. Sections 12
and 4.3 of the specification say what they are for.
-/

namespace EndpointTypings

/-- A character that an identifier may start with: a letter of ASCII, a low line or a dollar
sign. -/
def isIdentifierStart (c : Char) : Bool :=
  c.isAlpha || c = '_' || c = '$'

/-- A character that an identifier may go on with. -/
def isIdentifierPart (c : Char) : Bool :=
  c.isAlphanum || c = '_' || c = '$'

/-- Whether characters make an identifier. -/
def isIdentifier : List Char → Bool
  | [] => false
  | c :: cs => isIdentifierStart c && cs.all isIdentifierPart

/-- Whether characters make identifiers with a dot between each two. -/
def isDottedPath (cs : List Char) : Bool :=
  (Text.split '.' cs).all isIdentifier

/-- The name of the generated interface. -/
structure InterfaceName where
  /-- The name itself. -/
  text : String
  /-- It is an identifier. -/
  isIdentifier_text : isIdentifier text.toList = true
  deriving DecidableEq

/-- A namespace that holds the ambient types. -/
structure AmbientNamespace where
  /-- The namespace itself. -/
  text : String
  /-- It is a dotted path of identifiers. -/
  isDottedPath_text : isDottedPath text.toList = true
  deriving DecidableEq

namespace InterfaceName

/-- The name of an interface, if the text is an identifier. -/
def ofString (s : String) : Except Error InterfaceName :=
  if h : isIdentifier s.toList = true then .ok ⟨s, h⟩
  else if s.isEmpty then .error (.validation "interface_name" "must not be empty")
  else .error (.validation "interface_name" ("'" ++ s ++ "' is not a valid TypeScript identifier"))

/-- The name an interface has unless another is given. -/
def standard : InterfaceName :=
  ⟨"IApis", by decide⟩

end InterfaceName

namespace AmbientNamespace

/-- A namespace, if the text is a dotted path of identifiers. -/
def ofString (s : String) : Except Error AmbientNamespace :=
  if h : isDottedPath s.toList = true then .ok ⟨s, h⟩
  else .error
    (.validation "ambient_namespace" ("'" ++ s ++ "' is not a dotted TypeScript identifier path"))

/-- A type of the namespace. -/
def qualify (space : AmbientNamespace) (type : String) : String :=
  space.text ++ "." ++ type

end AmbientNamespace

end EndpointTypings
