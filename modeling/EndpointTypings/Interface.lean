import EndpointTypings.Config
import EndpointTypings.Method
import EndpointTypings.Registry

/-!
# Interfaces

The generated file is one interface with a method for each endpoint of a registry, in registry
order, under a comment with the header description. This is the Interface Assembler, section 4.4 of
the specification.
-/

namespace EndpointTypings.Interface

/-- The text of the method of an endpoint. -/
def renderMethod (config : Config) (key : String) (descriptor : Descriptor) :
    Except Error String :=
  (Method.ofEndpoint config.ambientNamespace key descriptor).render

/-- The text of the method of an endpoint between line feeds. -/
def renderEndpoint (config : Config) (endpoint : String × Descriptor) : Except Error String := do
  return "\n" ++ (← renderMethod config endpoint.1 endpoint.2) ++ "\n"

/-- The methods of endpoints, one after the other. -/
def renderBody (config : Config) (endpoints : List (String × Descriptor)) :
    Except Error String := do
  return String.join (← endpoints.mapM (renderEndpoint config))

/-- The text of the file for a registry. -/
def render (config : Config) (registry : Registry) : Except Error String := do
  let body ← renderBody config registry.toList
  Template.renderNamed "typings/interface" <|
    .obj [("header_description", .str config.headerDescription),
      ("interface_name", .str config.interfaceName.text), ("body", .str body)]

end EndpointTypings.Interface
