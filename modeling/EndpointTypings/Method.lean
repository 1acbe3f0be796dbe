import EndpointTypings.Name
import EndpointTypings.Params
import EndpointTypings.Template

/-!
# Methods

Each endpoint becomes a documented method of the generated interface. `Method.ofEndpoint` works out
every text that the method shows, and `Method.render` sets them into the template. This is the
Method Signature Synthesizer, section 4.3 of the specification.
-/

namespace EndpointTypings

/-- The texts of a documented method. -/
structure Method where
  /-- The name of the method. -/
  key : String
  /-- What the endpoint is for; empty if nothing is said. -/
  description : String
  /-- The name under which a server knows the endpoint. -/
  apiName : String
  /-- Whether the endpoint takes parameters. -/
  hasParams : Bool
  /-- The type of the parameters. -/
  paramsType : String
  /-- The type of the response. -/
  responseType : String
  /-- The ambient type of the argument. -/
  optsType : String
  /-- The ambient type of the result. -/
  successType : String
  deriving DecidableEq, Repr

/-- An ambient type, qualified by the namespace if there is one. -/
def ambientType (space : Option AmbientNamespace) (type : String) : String :=
  match space with
  | none => type
  | some space => space.qualify type

namespace Method

/-- The ambient type of the argument of a method. -/
def optsTypeName : String := "IApiOpts"

/-- The ambient type of the result of a method. -/
def successTypeName : String := "IApiSuccess"

/-- The method of an endpoint. -/
def ofEndpoint (space : Option AmbientNamespace) (key : String) (descriptor : Descriptor) :
    Method where
  key := key
  description := descriptor.desc.getD ""
  apiName := descriptor.apiName.getD "undefined"
  hasParams := !ParamSpec.isEmpty? descriptor.params
  paramsType := ParamSpec.render? descriptor.params
  responseType := renderResponse descriptor.res
  optsType := ambientType space optsTypeName
  successType := ambientType space successTypeName

/-- The texts of a method as the context of its template. -/
def toJson (method : Method) : Json :=
  .obj [("key", .str method.key), ("description", .str method.description),
    ("api_name", .str method.apiName), ("has_params", .bool method.hasParams),
    ("params_type", .str method.paramsType), ("response_type", .str method.responseType),
    ("opts_type", .str method.optsType), ("success_type", .str method.successType)]

/-- The text of a method. -/
def render (method : Method) : Except Error String :=
  Template.renderNamed "typings/method" method.toJson

end Method

end EndpointTypings
