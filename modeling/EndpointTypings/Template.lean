import EndpointTypings.Error
import EndpointTypings.Json.Writer

/-!
# Templates

A template is a sequence of pieces: text that stands for itself, places for the members of a
context, and blocks that are printed only when a member is truthy. Filling in a template is strict:
a place for a member that the context does not have is an error. A block whose condition names such
a member is merely left out. The two that there are, `Template.method` and `Template.interface`, are
the layouts of sections 4.3 and 4.4 of the specification.

What is filled in is never looked at again, so a member whose text reads like a template is
printed as it stands, and nothing is escaped.
-/

namespace EndpointTypings

/-- A piece of a template. -/
inductive Template.Piece where
  /-- Text that stands for itself. -/
  | text (text : String)
  /-- The place of a member of the context. -/
  | place (name : String)
  /-- Pieces that are printed if a member of the context is truthy. -/
  | block (condition : String) (body : List Template.Piece)

/-- A template. -/
abbrev Template := List Template.Piece

namespace Template

/-- Whether a condition holds of a value: true, an integer other than zero, a normal double, and a
string, an array or an object that is not empty. A double too small to be normal counts as zero. -/
def isTruthy : Json → Bool
  | .null => false
  | .bool value => value
  | .int value => value ≠ 0
  | .double value => value.magnitude.isNormal
  | .str value => !value.isEmpty
  | .arr items => !items.isEmpty
  | .obj members => !members.isEmpty

mutual

/-- A value as it is printed in its place: a string without quotes, null as nothing, an array in
brackets, and an object as a word. -/
def print : Json → String
  | .null => ""
  | .bool true => "true"
  | .bool false => "false"
  | .int value => toString value
  | .double value => value.write Json.layout
  | .str value => value
  | .arr items => "[" ++ String.intercalate ", " (printItems items) ++ "]"
  | .obj _ => "[object]"

/-- The items of an array as they are printed. -/
def printItems : List Json → List String
  | [] => []
  | item :: items => print item :: printItems items

end

mutual

/-- A piece filled in from a context. -/
def renderPiece (context : Json) : Piece → Except Error String
  | .text text => .ok text
  | .place name =>
    match context.member? name with
    | some value => .ok (print value)
    | none => .error (.template ("Failed to access variable in strict mode: " ++ name) none)
  | .block condition body =>
    match context.member? condition with
    | some value => if isTruthy value then render context body else .ok ""
    | none => .ok ""

/-- A template filled in from a context. -/
def render (context : Json) : List Piece → Except Error String
  | [] => .ok ""
  | piece :: pieces => do return (← renderPiece context piece) ++ (← render context pieces)

end

/-- The template of a documented method. -/
def method : Template := [
  .text "  /**\n   *",
  .block "description" [.text " ", .place "description"],
  .text "\n   * apiName: ", .place "api_name",
  .text "\n   *",
  .block "has_params" [.text " @param opts"],
  .text "\n   */\n  ", .place "key",
  .text "(\n    opts: ", .place "opts_type",
  .text "<", .place "params_type",
  .text ">,\n  ): Promise<", .place "success_type",
  .text "<", .place "response_type",
  .text ">>;"]

/-- The template of a whole file. Nothing stands between the brace that opens the interface and
its body. -/
def interface : Template := [
  .text "/*\n * @Description ", .place "header_description",
  .text "\n */\n\ninterface ", .place "interface_name",
  .text " \x7b", .place "body",
  .text "\n\x7d"]

/-- The template with a name. -/
def named? (name : String) : Option Template :=
  if name = "typings/method" then some method
  else if name = "typings/interface" then some interface
  else none

/-- The template with a name, filled in from a context. -/
def renderNamed (name : String) (context : Json) : Except Error String :=
  match named? name with
  | some template => render context template
  | none => .error (.template ("Template not found: " ++ name) none)

end Template

end EndpointTypings
