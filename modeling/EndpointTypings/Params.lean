import EndpointTypings.Descriptor
import EndpointTypings.Text.Blank

/-!
# Parameter and response types

The parameters of an endpoint become an object type of TypeScript, one member for each field of both
groups. An endpoint without parameters takes `null`. What counts as no parameters is settled in one
place, `ParamSpec.isEmpty?`: no groups, or a single group without fields. Two groups that are both
present make an object type even if neither has a field. These are the Parameter Renderer and the
Response Type Resolver of the specification, sections 4.1 and 4.2.
-/

namespace EndpointTypings

/-- A parameter as a member of an object type: its name, a question mark unless it has to be
given, and its type, or `any` where the type is absent or blank. -/
def ParamField.render (field : ParamField) : String :=
  let type := match field.type with
    | some type => if Text.isBlankText type then "any" else type
    | none => "any"
  field.param.getD "undefined" ++ (if field.isMandatory then "" else "?") ++ ": " ++ type ++ ";"

namespace ParamSpec

/-- Whether an endpoint with these parameters has none. -/
def isEmpty? : Option ParamSpec → Bool
  | none => true
  | some spec =>
    match spec.post, spec.get with
    | none, none => true
    | some fields, none => fields.isEmpty
    | none, some fields => fields.isEmpty
    | some _, some _ => false

/-- The fields of both groups in order. -/
def fields (spec : ParamSpec) : List ParamField :=
  spec.post.getD [] ++ spec.get.getD []

/-- The type of the parameters of an endpoint. -/
def render? (spec : Option ParamSpec) : String :=
  match spec with
  | none => "null"
  | some groups =>
    if isEmpty? spec then "null"
    else "\x7b " ++ String.intercalate "\n" (groups.fields.map ParamField.render) ++ " \x7d"

end ParamSpec

/-- The type of a response: `any` where none is given. -/
def renderResponse : Option String → String
  | none => "any"
  | some type => if type.isEmpty then "any" else type

end EndpointTypings
