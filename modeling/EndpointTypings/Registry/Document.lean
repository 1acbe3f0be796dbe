import EndpointTypings.Json.Reader
import EndpointTypings.Registry

/-!
# Registry documents

A registry document is a JSON object whose member `default` is an object of endpoints. Its members
become the endpoints of a registry in document order; each has to be an object that reads as a
descriptor. Other members of the document are not looked at. This is the document of section 6 of
the specification.
-/

namespace EndpointTypings.Registry

/-- Why a text is no registry document. -/
inductive DocumentFault where
  /-- It is no JSON document; the second part is the message of the fault. -/
  | json (message : String)
  /-- It is no object. -/
  | notObject
  /-- It has no member `default`. -/
  | noEndpoints
  /-- Its member `default` is no object. -/
  | endpointsNotObject
  /-- An endpoint is no object. -/
  | endpointNotObject (key : String)
  /-- An endpoint does not read as a descriptor. -/
  | endpointMismatch (key : String) (mismatch : Mismatch)
  deriving DecidableEq, Repr

namespace DocumentFault

/-- The words for a fault. -/
def message : DocumentFault → String
  | json message => "invalid JSON: " ++ message
  | notObject => "registry document must be a JSON object"
  | noEndpoints => "missing `default` export"
  | endpointsNotObject => "`default` export is not an object"
  | endpointNotObject key => "endpoint '" ++ key ++ "' is not an object"
  | endpointMismatch key mismatch => "endpoint '" ++ key ++ "': " ++ mismatch.message

/-- The fault of the JSON reader or the record reader behind a fault, where there is one. -/
def source? : DocumentFault → Option String
  | json message => some message
  | endpointMismatch _ mismatch => some mismatch.message
  | _ => none

/-- The error that reports a fault. -/
def toError (fault : DocumentFault) : Error :=
  .malformedRegistry fault.message fault.source?

end DocumentFault

/-- The endpoint a member of `default` describes. -/
def readEndpoint (member : String × Json) : Except DocumentFault (String × Descriptor) :=
  match member.2 with
  | .obj _ =>
    match Descriptor.record.read member.2 with
    | .ok descriptor => .ok (member.1, descriptor)
    | .error mismatch => .error (.endpointMismatch member.1 mismatch)
  | _ => .error (.endpointNotObject member.1)

/-- The registry a JSON document holds. -/
def ofJson (document : Json) : Except DocumentFault Registry :=
  match document with
  | .obj members =>
    match Entries.get? "default" members with
    | none => .error .noEndpoints
    | some (.obj endpoints) => do return ofList (← endpoints.mapM readEndpoint)
    | some _ => .error .endpointsNotObject
  | _ => .error .notObject

/-- The registry a text is the document of. -/
def parse (text : String) : Except DocumentFault Registry :=
  match Json.parse text with
  | .ok document => ofJson document
  | .error fault => .error (.json (fault.message text))

end EndpointTypings.Registry
