import EndpointTypings.Proofs.Descriptor.Violation
import EndpointTypings.Proofs.Registry.Document

/-!
# The error of a registry document with a bad endpoint

A document whose `default` has a member that holds no endpoint is refused for the first such member.
`Json.EndpointViolation` says with which error, which takes nothing but the key and the value: the
value is no object, or it is one that violates the shape of a descriptor somewhere first.

`Registry.parse_first_violation` says that this error is reported, whatever the other members of the
document and those after the bad one are, and whatever stands in the bad one after the place of the
violation.
-/

namespace EndpointTypings

namespace Json

/-- What it is for a member to hold no endpoint, with the place of the first violation in its value
and the error that is reported. -/
inductive EndpointViolation : String × Json → List Nat → Error → Prop
  /-- The value is no object. -/
  | notObject {key : String} {value : Json} (h : ∀ members, value ≠ .obj members) :
      EndpointViolation (key, value) []
        (.malformedRegistry ("endpoint '" ++ key ++ "' is not an object") none)
  /-- The value is an object that holds no descriptor. -/
  | mismatch {key : String} {members : List (String × Json)} {place : List Nat}
      {mismatch : Mismatch} (hv : DescriptorViolation (.obj members) place mismatch) :
      EndpointViolation (key, .obj members) place
        (.malformedRegistry ("endpoint '" ++ key ++ "': " ++ mismatch.message)
          (some mismatch.message))

/-- What stands after the first violation in an endpoint does not count. -/
theorem EndpointViolation.of_sameUpTo {key : String} {value value' : Json} {place : List Nat}
    {error : Error} (h : EndpointViolation (key, value) place error)
    (hsame : SameUpTo place value value') : EndpointViolation (key, value') place error := by
  cases h with
  | notObject h =>
    obtain rfl := hsame.eq_of_nil
    exact .notObject h
  | mismatch hv =>
    have hv' := isStable_descriptorViolation.of_sameUpTo hv hsame
    cases hsame with
    | here => exact .mismatch hv
    | member => exact .mismatch hv'

end Json

open Json

namespace Registry

/-- A member is refused with the error of its first violation. -/
theorem readEndpoint_eq_error_iff {member : String × Json} (hd : member.2.Distinct)
    {error : Error} :
    (∃ fault, readEndpoint member = .error fault ∧ fault.toError = error) ↔
      ∃ place, EndpointViolation member place error := by
  obtain ⟨key, value⟩ := member
  cases value with
  | obj members =>
    have hread : ∀ fault, readEndpoint (key, .obj members) = .error fault ↔
        ∃ mismatch, Descriptor.record.read (.obj members) = .error mismatch ∧
          .endpointMismatch key mismatch = fault := by
      intro fault
      simp only [readEndpoint]
      cases Descriptor.record.read (.obj members) <;> simp
    simp only [hread, Descriptor.reports_read.error_iff hd]
    constructor
    · rintro ⟨_, ⟨mismatch, ⟨place, hv⟩, rfl⟩, rfl⟩
      exact ⟨place, .mismatch hv⟩
    · rintro ⟨place, hv⟩
      cases hv with
      | notObject h => exact absurd rfl (h members)
      | mismatch hv => exact ⟨_, ⟨_, ⟨place, hv⟩, rfl⟩, rfl⟩
  | _ =>
    constructor
    · rintro ⟨_, ⟨⟩, rfl⟩
      exact ⟨[], .notObject (by simp)⟩
    · rintro ⟨_, ⟨_⟩⟩
      exact ⟨_, rfl, rfl⟩

/-- A member is refused exactly if it holds no endpoint. -/
theorem exists_readEndpoint_eq_error_iff {member : String × Json} (hd : member.2.Distinct) :
    (∃ fault, readEndpoint member = .error fault) ↔ ∀ endpoint, ¬ IsEndpoint member endpoint := by
  simp only [← readEndpoint_eq_ok_iff hd]
  cases readEndpoint member <;> simp

/-- The members of a `default` have distinct names themselves. -/
theorem distinct_of_default {text : String} {members endpoints : List (String × Json)}
    (hdocument : IsDocument text.toList (.obj members))
    (hdefault : Entries.get? "default" members = some (.obj endpoints)) :
    ∀ member ∈ endpoints, member.2.Distinct := by
  intro member hm
  have hd := hdocument.distinct.get? hdefault
  exact hd.get? (Entries.get?_of_mem hd.names hm)

/-- The first member that holds no endpoint determines the error. -/
theorem parse_eq_error_of_violation {text : String} {members front back : List (String × Json)}
    {member : String × Json} {place : List Nat} {error : Error}
    (hdocument : IsDocument text.toList (.obj members))
    (hdefault : Entries.get? "default" members = some (.obj (front ++ member :: back)))
    (hfront : ∀ other ∈ front, ∃ endpoint, IsEndpoint other endpoint)
    (hv : EndpointViolation member place error) :
    (parse text).mapError DocumentFault.toError = .error error := by
  have hd := distinct_of_default hdocument hdefault
  obtain ⟨fault, hfault, rfl⟩ := (readEndpoint_eq_error_iff (hd member (by simp))).2 ⟨place, hv⟩
  have hread : (front ++ member :: back).mapM readEndpoint = .error fault := by
    refine mapM_eq_error_iff.2 ⟨front, member, back, rfl, fun other ho => ?_, hfault⟩
    obtain ⟨endpoint, he⟩ := hfront other ho
    exact exists_ok_iff.1 ⟨endpoint, (readEndpoint_eq_ok_iff (hd other (by simp [ho]))).2 he⟩
  rw [parse_eq_ofJson hdocument]
  simp only [ofJson, hdefault, hread]
  rfl

/-- Where some member holds no endpoint there is a first one. -/
theorem exists_first_bad {members : List (String × Json)}
    (h : ∃ member ∈ members, ∀ endpoint, ¬ IsEndpoint member endpoint) :
    ∃ front member back, members = front ++ member :: back ∧
      (∀ other ∈ front, ∃ endpoint, IsEndpoint other endpoint) ∧
        ∀ endpoint, ¬ IsEndpoint member endpoint := by
  classical
  obtain ⟨bad, hbad, hnone⟩ := h
  have hsome : ∃ member, members.find? (fun m => ∀ endpoint, ¬ IsEndpoint m endpoint)
      = some member := by
    rw [← Option.isSome_iff_exists, List.find?_isSome]
    exact ⟨bad, hbad, decide_eq_true hnone⟩
  obtain ⟨member, hmember⟩ := hsome
  obtain ⟨hp, front, back, rfl, hfront⟩ := List.find?_eq_some_iff_append.1 hmember
  refine ⟨front, member, back, rfl, fun other ho => ?_, of_decide_eq_true hp⟩
  simpa using hfront other ho

/-- A document in which a member of `default` holds no endpoint is refused with the error of the
first such member. That member alone determines the error, and in it what stands up to the place of
the first violation: any document is refused with the same error if it has, after members of
`default` that hold endpoints, one of the same key that is the same up to that place. -/
theorem parse_first_violation {text : String} {members endpoints : List (String × Json)}
    (hdocument : IsDocument text.toList (.obj members))
    (hdefault : Entries.get? "default" members = some (.obj endpoints))
    (hbad : ∃ member ∈ endpoints, ∀ endpoint, ¬ IsEndpoint member endpoint) :
    ∃ front key value back, endpoints = front ++ (key, value) :: back ∧
      (∀ other ∈ front, ∃ endpoint, IsEndpoint other endpoint) ∧
      (∀ endpoint, ¬ IsEndpoint (key, value) endpoint) ∧
      (∃ place error, EndpointViolation (key, value) place error) ∧
      ∀ place error, EndpointViolation (key, value) place error →
        (parse text).mapError DocumentFault.toError = .error error ∧
        ∀ text' members' front' value' back', IsDocument text'.toList (.obj members') →
          Entries.get? "default" members' = some (.obj (front' ++ (key, value') :: back')) →
          (∀ other ∈ front', ∃ endpoint, IsEndpoint other endpoint) →
          SameUpTo place value value' →
          (parse text').mapError DocumentFault.toError = .error error := by
  obtain ⟨front, ⟨key, value⟩, back, rfl, hfront, hnone⟩ := exists_first_bad hbad
  have hd := distinct_of_default hdocument hdefault (key, value) (by simp)
  obtain ⟨fault, hfault⟩ := (exists_readEndpoint_eq_error_iff hd).2 hnone
  obtain ⟨place, hv⟩ := (readEndpoint_eq_error_iff hd).1 ⟨fault, hfault, rfl⟩
  refine ⟨front, key, value, back, rfl, hfront, hnone, ⟨place, _, hv⟩, fun place error hv => ?_⟩
  refine ⟨parse_eq_error_of_violation hdocument hdefault hfront hv, ?_⟩
  intro text' members' front' value' back' hdocument' hdefault' hfront' hsame
  exact parse_eq_error_of_violation hdocument' hdefault' hfront' (hv.of_sameUpTo hsame)

/-- An endpoint with a number for the name of its second parameter, before what may stand after it
in the parameter, in its group and in the endpoint. -/
def misnamed (members : List (String × Json)) (parameters : List Json)
    (fields : List (String × Json)) : Json :=
  .obj (("url", .int 1) :: ("params", .obj [("get",
    .arr (.arr [.str "id"] :: .obj (("param", .int 5) :: members) :: parameters))]) :: fields)

section Misnamed

variable {members members' fields fields' : List (String × Json)}
  {parameters parameters' : List Json}

/-- Such endpoints are the same up to the number. -/
theorem sameUpTo_misnamed :
    SameUpTo [1, 0, 1, 0] (misnamed members parameters fields)
      (misnamed members' parameters' fields') :=
  @SameUpTo.member [("url", .int 1)] fields fields' "params" _ _ _ <|
    @SameUpTo.member [] [] [] "get" _ _ _ <|
      @SameUpTo.item [.arr [.str "id"]] parameters parameters' _ _ _ <|
        @SameUpTo.member [] members members' "param" _ _ _ (.here (.int 5))

/-- The error of such an endpoint. -/
def misnamedError : Error :=
  .malformedRegistry "endpoint 'b': invalid type: integer `5`, expected a string"
    (some "invalid type: integer `5`, expected a string")

/-- Such an endpoint is violated by the number. -/
theorem endpointViolation_misnamed :
    EndpointViolation ("b", misnamed members parameters fields) [1, 0, 1, 0] misnamedError := by
  have hfield : ParamFieldViolation (.obj (("param", .int 5) :: members)) [0]
      (.type (.integer 5) "a string") :=
    @RecordViolation.member _ _ [] members (.optional "param" IsText TextViolation) _ _ _ nofun
      (by simp) (.mk nofun (.mk nofun))
  have hgroup : GroupViolation
      (.arr (.arr [.str "id"] :: .obj (("param", .int 5) :: members) :: parameters)) [1, 0]
      (.type (.integer 5) "a string") := by
    refine @ListViolation.item _ _ [.arr [.str "id"]] parameters _ _ _ ?_ hfield
    have hid : IsParamField (.arr [.str "id"]) (.named "id") :=
      ⟨.arr (by decide), .present (.str _), .absent, .absent, .absent⟩
    exact List.forall_mem_singleton.2 ⟨_, hid⟩
  have hspec : ParamSpecViolation
      (.obj [("get", .arr (.arr [.str "id"] :: .obj (("param", .int 5) :: members) :: parameters))])
      [0, 1, 0] (.type (.integer 5) "a string") :=
    @RecordViolation.member _ _ [] [] (.optional "get" (IsList IsParamField) GroupViolation) _ _ _
      nofun (by simp) (.mk nofun hgroup)
  have hdescriptor : DescriptorViolation (misnamed members parameters fields) [1, 0, 1, 0]
      (.type (.integer 5) "a string") :=
    @RecordViolation.member _ _ [("url", .int 1)] fields
      (.optional "params" IsParamSpec ParamSpecViolation) _ _ _
      (by simp [FieldShape.optional]) (by simp) (.mk nofun hspec)
  exact .mismatch hdescriptor

end Misnamed

/-- A document with two members that hold no endpoint, one after one that does. -/
def misnamedText : String :=
  "\x7b\"default\": \x7b\"a\": \x7b\x7d,
    \"b\": \x7b\"url\": 1, \"params\": \x7b\"get\": [[\"id\"], \x7b\"param\": 5\x7d]\x7d\x7d,
    \"c\": null\x7d\x7d"

/-- A document with the second of these members, and other values after the violation. -/
def misnamedText' : String :=
  "\x7b\"default\": \x7b\"b\": \x7b\"url\": 1,
    \"params\": \x7b\"get\": [[\"id\"], \x7b\"param\": 5, \"type\": []\x7d, 0]\x7d,
    \"res\": 7\x7d\x7d\x7d"

/-- Both documents are refused with the same error. -/
theorem parse_first_violation_misnamed :
    (parse misnamedText).mapError DocumentFault.toError = .error misnamedError ∧
      (parse misnamedText').mapError DocumentFault.toError = .error misnamedError := by
  have hdocument : IsDocument misnamedText.toList (.obj [("default",
      .obj [("a", .obj []), ("b", misnamed [] [] []), ("c", .null)])]) :=
    Json.parse_eq_ok_iff.1 rfl
  have hdocument' : IsDocument misnamedText'.toList (.obj [("default",
      .obj [("b", misnamed [("type", .arr [])] [.int 0] [("res", .int 7)])])]) :=
    Json.parse_eq_ok_iff.1 rfl
  have hgood : IsEndpoint ("a", .obj []) ("a", .empty) :=
    .mk ⟨.obj _, .absent, .absent, .absent, .absent⟩
  have hd := distinct_of_default hdocument rfl
  have hnone : ∀ endpoint, ¬ IsEndpoint ("b", misnamed [] [] []) endpoint := by
    have hb := hd ("b", misnamed [] [] []) (by simp)
    refine (exists_readEndpoint_eq_error_iff hb).1 ?_
    obtain ⟨fault, hfault, -⟩ := (readEndpoint_eq_error_iff hb).2 ⟨_, endpointViolation_misnamed⟩
    exact ⟨fault, hfault⟩
  obtain ⟨front, key, value, back, hsplit, hfront, hbad, -, herror⟩ :=
    parse_first_violation hdocument rfl ⟨_, by simp, hnone⟩
  -- the first member holds an endpoint and the second does not, so that it is the one in question
  obtain ⟨rfl, h⟩ | ⟨front, rfl, h⟩ := List.cons_eq_append_iff.1 hsplit
  · obtain ⟨rfl, rfl⟩ := Prod.mk.inj (List.cons.inj h).1
    exact absurd hgood (hbad _)
  obtain ⟨rfl, h⟩ | ⟨front, rfl, h⟩ := List.cons_eq_append_iff.1 h
  · obtain ⟨rfl, rfl⟩ := Prod.mk.inj (List.cons.inj h).1
    obtain ⟨hsame, hothers⟩ := herror _ _ endpointViolation_misnamed
    exact ⟨hsame, hothers _ _ [] _ _ hdocument' rfl nofun sameUpTo_misnamed⟩
  · obtain ⟨endpoint, he⟩ := hfront ("b", misnamed [] [] []) (by simp)
    exact absurd he (hnone endpoint)

end Registry

end EndpointTypings
