import EndpointTypings.Json.Record

/-!
# Endpoint descriptors

What a registry says about an endpoint: its documentation and the types of its parameters and of its
response, all optional. The parameters come in two groups of fields. A descriptor is read from JSON
by `Descriptor.record` and written back by `Descriptor.toJson`, which writes every field and null
for an absent one; reading what was written gives the descriptor again. The three structures are the
Endpoint Descriptor, Parameter Spec and Parameter Field of section 3 of the specification.
-/

namespace EndpointTypings

/-- A parameter of an endpoint. -/
structure ParamField where
  /-- Its name. -/
  param : Option String
  /-- Its type, a text of TypeScript. -/
  type : Option String
  /-- Whether it has to be given. -/
  required : Option Bool
  /-- Another way to say that it has to be given. -/
  isNeed : Option Bool
  deriving DecidableEq, Repr

/-- The parameters of an endpoint. -/
structure ParamSpec where
  /-- The parameters in the body of a request. -/
  post : Option (List ParamField)
  /-- The parameters in the query of a request. -/
  get : Option (List ParamField)
  deriving DecidableEq, Repr

/-- What a registry says about an endpoint. -/
structure Descriptor where
  /-- The name under which a server knows the endpoint. -/
  apiName : Option String
  /-- What the endpoint is for. -/
  desc : Option String
  /-- Its parameters. -/
  params : Option ParamSpec
  /-- The type of its response, a text of TypeScript. -/
  res : Option String
  deriving DecidableEq, Repr

namespace ParamField

/-- The parameter of which nothing is said. -/
def empty : ParamField := ⟨none, none, none, none⟩

/-- A parameter with a name. -/
def named (param : String) : ParamField := { empty with param := some param }

/-- Whether the parameter has to be given: either of two marks says so. -/
def isMandatory (field : ParamField) : Bool :=
  field.required = some true || field.isNeed = some true

/-- How a parameter is read from JSON. -/
def record : Record ParamField where
  title := "ParamField"
  fields := [
    ⟨"param", fun value field => do
      return { field with param := ← value.optional Json.asString }⟩,
    ⟨"type", fun value field => do
      return { field with type := ← value.optional Json.asString }⟩,
    ⟨"required", fun value field => do
      return { field with required := ← value.optional Json.asBool }⟩,
    ⟨"isNeed", fun value field => do
      return { field with isNeed := ← value.optional Json.asBool }⟩]
  default := empty
  skipsUnknown := true

/-- A parameter as JSON. -/
def toJson (field : ParamField) : Json :=
  .obj [("param", .ofString? field.param), ("type", .ofString? field.type),
    ("required", .ofBool? field.required), ("isNeed", .ofBool? field.isNeed)]

end ParamField

namespace ParamSpec

/-- The parameters of which nothing is said. -/
def empty : ParamSpec := ⟨none, none⟩

/-- How a group of parameters is read from JSON. -/
def readGroup (value : Json) : Except Mismatch (Option (List ParamField)) :=
  value.optional (Json.asList ParamField.record.read)

/-- How parameters are read from JSON. -/
def record : Record ParamSpec where
  title := "ParamSpec"
  fields := [
    ⟨"post", fun value spec => do return { spec with post := ← readGroup value }⟩,
    ⟨"get", fun value spec => do return { spec with get := ← readGroup value }⟩]
  default := empty
  skipsUnknown := true

/-- A group of parameters as JSON. -/
def groupToJson : Option (List ParamField) → Json
  | none => .null
  | some fields => .arr (fields.map ParamField.toJson)

/-- Parameters as JSON. -/
def toJson (spec : ParamSpec) : Json :=
  .obj [("post", groupToJson spec.post), ("get", groupToJson spec.get)]

end ParamSpec

namespace Descriptor

/-- The descriptor that says nothing. -/
def empty : Descriptor := ⟨none, none, none, none⟩

/-- How a descriptor is read from JSON. -/
def record : Record Descriptor where
  title := "EndpointDescriptor"
  fields := [
    ⟨"apiName", fun value descriptor => do
      return { descriptor with apiName := ← value.optional Json.asString }⟩,
    ⟨"desc", fun value descriptor => do
      return { descriptor with desc := ← value.optional Json.asString }⟩,
    ⟨"params", fun value descriptor => do
      return { descriptor with params := ← value.optional ParamSpec.record.read }⟩,
    ⟨"res", fun value descriptor => do
      return { descriptor with res := ← value.optional Json.asString }⟩]
  default := empty
  skipsUnknown := true

/-- A descriptor as JSON. -/
def toJson (descriptor : Descriptor) : Json :=
  .obj [("apiName", .ofString? descriptor.apiName), ("desc", .ofString? descriptor.desc),
    ("params", match descriptor.params with
      | none => .null
      | some spec => spec.toJson),
    ("res", .ofString? descriptor.res)]

end Descriptor

end EndpointTypings
