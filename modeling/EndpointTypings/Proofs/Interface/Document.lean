import EndpointTypings.Interface
import EndpointTypings.Proofs.Steps
import EndpointTypings.Proofs.Template

/-!
# The generated file

The text that is generated for a registry, said without templates: `Interface.signature` gives the
lines of a documented method and `Interface.document` puts the methods between a header and a
closing brace. `Interface.render_spec` says that generation never fails and gives this text for
every configuration and registry. Whatever the texts in a registry contain, they stand in it as
they are: the document is nothing but their concatenation with fixed texts.

The proof evaluates both templates once, for any texts in their places, and goes by induction over
the endpoints.
-/

namespace EndpointTypings

namespace Interface

/-! ## The reference -/

/-- The line of a comment with a description; a bare star if there is none. -/
def descriptionLine : Option String → String
  | none => "   *"
  | some desc => if desc = "" then "   *" else "   * " ++ desc

/-- The line of a comment with the name on the server. -/
def apiNameLine : Option String → String
  | none => "   * apiName: undefined"
  | some apiName => "   * apiName: " ++ apiName

/-- The line of a comment that mentions the parameters; a bare star if there are none. -/
def paramsLine (params : Option ParamSpec) : String :=
  if ParamSpec.isEmpty? params then "   *" else "   * @param opts"

/-- An ambient name, behind the namespace and a dot if there is one. -/
def qualified (space : Option AmbientNamespace) (name : String) : String :=
  match space with
  | none => name
  | some space => space.text ++ "." ++ name

/-- The type of a response. -/
def responseType : Option String → String
  | none => "any"
  | some res => if res = "" then "any" else res

/-- A documented method, line by line. -/
def signature (space : Option AmbientNamespace) (key : String) (descriptor : Descriptor) :
    String :=
  String.intercalate "\n" [
    "  /**",
    descriptionLine descriptor.desc,
    apiNameLine descriptor.apiName,
    paramsLine descriptor.params,
    "   */",
    "  " ++ key ++ "(",
    "    opts: " ++ qualified space "IApiOpts" ++ "<" ++ ParamSpec.render? descriptor.params ++ ">,",
    "  ): Promise<" ++ qualified space "IApiSuccess" ++ "<" ++ responseType descriptor.res ++ ">>;"]

/-- The file for a registry: a header, and each method between line feeds. -/
def document (config : Config) (registry : Registry) : String :=
  String.intercalate "\n" [
    "/*",
    " * @Description " ++ config.headerDescription,
    " */",
    "",
    "interface " ++ config.interfaceName.text ++ " \x7b"]
  ++ String.join (registry.toList.map fun endpoint =>
    "\n" ++ signature config.ambientNamespace endpoint.1 endpoint.2 ++ "\n")
  ++ "\n\x7d"

end Interface

/-! ## The templates -/

/-- The template of a method is filled in with the texts of the method, line by line. -/
theorem Method.render_eq (method : Method) :
    method.render = .ok (String.intercalate "\n" [
      "  /**",
      "   *" ++ (if method.description = "" then "" else " " ++ method.description),
      "   * apiName: " ++ method.apiName,
      "   *" ++ (if method.hasParams then " @param opts" else ""),
      "   */",
      "  " ++ method.key ++ "(",
      "    opts: " ++ method.optsType ++ "<" ++ method.paramsType ++ ">,",
      "  ): Promise<" ++ method.successType ++ "<" ++ method.responseType ++ ">>;"]) := by
  have hplaces : ∀ name ∈ Template.places Template.method,
      (method.toJson.member? name).isSome := by
    rw [Template.places_method]
    simp only [List.forall_mem_cons]
    exact ⟨rfl, rfl, rfl, rfl, rfl, rfl, rfl, nofun⟩
  have hnamed : method.render = Template.render method.toJson Template.method := rfl
  have hdescription : Template.valueIn method.toJson "description" = .str method.description := rfl
  have hapiName : Template.valueIn method.toJson "api_name" = .str method.apiName := rfl
  have hhasParams : Template.valueIn method.toJson "has_params" = .bool method.hasParams := rfl
  have hkey : Template.valueIn method.toJson "key" = .str method.key := rfl
  have hopts : Template.valueIn method.toJson "opts_type" = .str method.optsType := rfl
  have hparams : Template.valueIn method.toJson "params_type" = .str method.paramsType := rfl
  have hsuccess : Template.valueIn method.toJson "success_type" = .str method.successType := rfl
  have hresponse : Template.valueIn method.toJson "response_type" = .str method.responseType := rfl
  -- the fixed texts of the template, broken where the lines are
  have hline₁ : "  /**\n   *" = "  /**" ++ "\n" ++ "   *" := by decide
  have hline₂ : "\n   * apiName: " = "\n" ++ "   * apiName: " := by decide
  have hline₃ : "\n   *" = "\n" ++ "   *" := by decide
  have hline₄ : "\n   */\n  " = "\n" ++ "   */" ++ "\n" ++ "  " := by decide
  have hline₅ : "(\n    opts: " = "(" ++ "\n" ++ "    opts: " := by decide
  have hline₆ : ">,\n  ): Promise<" = ">," ++ "\n" ++ "  ): Promise<" := by decide
  rw [hnamed, Template.render_eq_fill _ hplaces]
  simp only [Template.method, Template.fill, Template.fillPiece, hdescription, hapiName,
    hhasParams, hkey, hopts, hparams, hsuccess, hresponse, Template.print, Template.isTruthy,
    hline₁, hline₂, hline₃, hline₄, hline₅, hline₆, String.intercalate_cons_cons,
    String.intercalate_singleton, String.append_assoc, String.append_empty, Bool.not_eq_true',
    String.isEmpty_eq_false_iff, ite_not]

/-- The context that the template of a file is filled in from. -/
def Template.interfaceContext (header name body : String) : Json :=
  .obj [("header_description", .str header), ("interface_name", .str name), ("body", .str body)]

/-- The template of a file is filled in with a description, a name and a body. -/
theorem Template.renderNamed_interface (header name body : String) :
    renderNamed "typings/interface" (interfaceContext header name body)
      = .ok (String.intercalate "\n" [
          "/*",
          " * @Description " ++ header,
          " */",
          "",
          "interface " ++ name ++ " \x7b"] ++ body ++ "\n\x7d") := by
  have hplaces : ∀ place ∈ places interface,
      ((interfaceContext header name body).member? place).isSome := by
    rw [places_interface]
    simp only [List.forall_mem_cons]
    exact ⟨rfl, rfl, rfl, nofun⟩
  have hnamed : named? "typings/interface" = some interface := rfl
  have hheader : valueIn (interfaceContext header name body) "header_description"
      = .str header := rfl
  have hname : valueIn (interfaceContext header name body) "interface_name" = .str name := rfl
  have hbody : valueIn (interfaceContext header name body) "body" = .str body := rfl
  -- the fixed texts of the template, broken where the lines are
  have hline₁ : "/*\n * @Description " = "/*" ++ "\n" ++ " * @Description " := by decide
  have hline₂ : "\n */\n\ninterface " = "\n" ++ " */" ++ "\n" ++ "\n" ++ "interface " := by decide
  rw [renderNamed, hnamed]
  show render _ interface = _
  rw [render_eq_fill _ hplaces]
  simp only [interface, fill, fillPiece, hheader, hname, hbody, print, hline₁, hline₂,
    String.intercalate_cons_cons, String.intercalate_singleton, String.append_assoc,
    String.append_empty, String.empty_append]

/-! ## Methods -/

namespace Interface

/-- A star with a description behind it is the line of the description. -/
theorem descriptionLine_eq (desc : Option String) :
    "   *" ++ (if desc.getD "" = "" then "" else " " ++ desc.getD "") = descriptionLine desc := by
  cases desc with
  | none => rfl
  | some desc =>
    by_cases h : desc = ""
    · simp [descriptionLine, h]
    · simp [descriptionLine, h, ← String.append_assoc]

/-- The name on the server is shown in its line. -/
theorem apiNameLine_eq (apiName : Option String) :
    "   * apiName: " ++ apiName.getD "undefined" = apiNameLine apiName := by
  cases apiName with
  | none => rfl
  | some apiName => rfl

/-- A star with the parameters behind it is the line of the parameters. -/
theorem paramsLine_eq (params : Option ParamSpec) :
    "   *" ++ (if !ParamSpec.isEmpty? params then " @param opts" else "") = paramsLine params := by
  unfold paramsLine
  cases ParamSpec.isEmpty? params with
  | false => rfl
  | true => rfl

/-- Ambient types are qualified names. -/
theorem ambientType_eq_qualified (space : Option AmbientNamespace) (name : String) :
    ambientType space name = qualified space name := by
  cases space with
  | none => rfl
  | some space => rfl

/-- The type of a response is the one that is rendered. -/
theorem renderResponse_eq_responseType (res : Option String) :
    renderResponse res = responseType res := by
  cases res with
  | none => rfl
  | some res => simp [renderResponse, responseType]

/-- Every method is rendered, and is the documented one. -/
theorem renderMethod_eq (config : Config) (key : String) (descriptor : Descriptor) :
    renderMethod config key descriptor
      = .ok (signature config.ambientNamespace key descriptor) := by
  rw [renderMethod, Method.render_eq]
  refine congrArg Except.ok ?_
  unfold signature
  rw [← descriptionLine_eq, ← apiNameLine_eq, ← paramsLine_eq, ← ambientType_eq_qualified,
    ← ambientType_eq_qualified, ← renderResponse_eq_responseType]
  rfl

/-- The methods of endpoints are rendered one after the other. -/
theorem renderBody_eq (config : Config) (endpoints : List (String × Descriptor)) :
    renderBody config endpoints = .ok (String.join (endpoints.map fun endpoint =>
      "\n" ++ signature config.ambientNamespace endpoint.1 endpoint.2 ++ "\n")) := by
  have hendpoint : ∀ endpoint, renderEndpoint config endpoint
      = .ok ("\n" ++ signature config.ambientNamespace endpoint.1 endpoint.2 ++ "\n") := by
    intro endpoint
    rw [renderEndpoint, renderMethod_eq]
    rfl
  have hall : endpoints.mapM (renderEndpoint config) = .ok (endpoints.map fun endpoint =>
      "\n" ++ signature config.ambientNamespace endpoint.1 endpoint.2 ++ "\n") := by
    rw [mapM_eq_ok_iff, List.forall₂_map_right_iff, List.forall₂_same]
    exact fun endpoint _ => hendpoint endpoint
  rw [renderBody, hall]
  rfl

/-- Every registry is rendered, and what is rendered is its document. -/
theorem render_spec (config : Config) (registry : Registry) :
    render config registry = .ok (document config registry) := by
  refine bind_eq_ok_iff.2 ⟨_, renderBody_eq config registry.toList, ?_⟩
  exact Template.renderNamed_interface _ _ _

example : document .standard .empty
    = "/*\n * @Description 主包接口定义声明\n */\n\ninterface IApis \x7b\n\x7d" := by
  decide +kernel

end Interface

end EndpointTypings
