import EndpointTypings.Descriptor
import EndpointTypings.Proofs.Json.Record

/-!
# The shape of descriptors

Which JSON values hold a parameter, the parameters of an endpoint and a descriptor, said field by
field: each field is optional and stands under its name in an object, or at its position in an
array. The readers of the three records take exactly these values
(`Descriptor.read_eq_ok_iff` and its two like), if names are distinct. That is shown by giving the
slots of each record; the rest is `Record.IsSlotted.read_eq_ok_iff`.
-/

namespace EndpointTypings

namespace Json

/-- A value that holds a parameter. -/
structure IsParamField (value : Json) (field : ParamField) : Prop where
  /-- It is an object, or an array of at most four items. -/
  form : value.IsRecord 4
  /-- The name is a string. -/
  param : IsOptional IsText (value.part? 0 "param") field.param
  /-- The type is a string. -/
  type : IsOptional IsText (value.part? 1 "type") field.type
  /-- The first mark is a truth value. -/
  required : IsOptional IsTruth (value.part? 2 "required") field.required
  /-- The second mark is a truth value. -/
  isNeed : IsOptional IsTruth (value.part? 3 "isNeed") field.isNeed

/-- A value that holds the parameters of an endpoint. -/
structure IsParamSpec (value : Json) (spec : ParamSpec) : Prop where
  /-- It is an object, or an array of at most two items. -/
  form : value.IsRecord 2
  /-- The first group is an array of parameters. -/
  post : IsOptional (IsList IsParamField) (value.part? 0 "post") spec.post
  /-- The second group is an array of parameters. -/
  get : IsOptional (IsList IsParamField) (value.part? 1 "get") spec.get

/-- A value that holds a descriptor. -/
structure IsDescriptor (value : Json) (descriptor : Descriptor) : Prop where
  /-- It is an object, or an array of at most four items. -/
  form : value.IsRecord 4
  /-- The name on the server is a string. -/
  apiName : IsOptional IsText (value.part? 0 "apiName") descriptor.apiName
  /-- The description is a string. -/
  desc : IsOptional IsText (value.part? 1 "desc") descriptor.desc
  /-- The parameters are those of an endpoint. -/
  params : IsOptional IsParamSpec (value.part? 2 "params") descriptor.params
  /-- The type of the response is a string. -/
  res : IsOptional IsText (value.part? 3 "res") descriptor.res

end Json

open Json

variable {value : Json}

/-! ## Parameters -/

namespace ParamField

/-- The slots of a parameter. -/
def slots : List (Slot ParamField) := [
  ⟨"param", (·.optional Json.asString), (·.param), fun a field => { field with param := a }⟩,
  ⟨"type", (·.optional Json.asString), (·.type), fun a field => { field with type := a }⟩,
  ⟨"required", (·.optional Json.asBool), (·.required), fun a field =>
    { field with required := a }⟩,
  ⟨"isNeed", (·.optional Json.asBool), (·.isNeed), fun a field => { field with isNeed := a }⟩]

/-- The slots of a parameter are independent and make it up. -/
theorem isSlotted : record.IsSlotted slots where
  fields_eq := rfl
  nodup := by decide
  get_put := by simp [slots]
  get_put_of_ne := by simp [slots]
  ext r r' h := by
    obtain ⟨param, type, required, isNeed⟩ := r
    simp_all [slots]
  skipsUnknown := rfl

/-- A value is read as a parameter exactly if it holds it. -/
theorem read_eq_ok_iff (hd : value.Distinct) {field : ParamField} :
    record.read value = .ok field ↔ IsParamField value field := by
  rw [isSlotted.read_eq_ok_iff hd]
  constructor
  · rintro ⟨hform, h⟩
    exact ⟨hform, (Slot.holds_text_iff rfl).1 (h 0 _ rfl), (Slot.holds_text_iff rfl).1 (h 1 _ rfl),
      (Slot.holds_truth_iff rfl).1 (h 2 _ rfl), (Slot.holds_truth_iff rfl).1 (h 3 _ rfl)⟩
  · rintro ⟨hform, hparam, htype, hrequired, hneed⟩
    refine ⟨hform, fun i slot hi => ?_⟩
    match i, hi with
    | 0, rfl => exact (Slot.holds_text_iff rfl).2 hparam
    | 1, rfl => exact (Slot.holds_text_iff rfl).2 htype
    | 2, rfl => exact (Slot.holds_truth_iff rfl).2 hrequired
    | 3, rfl => exact (Slot.holds_truth_iff rfl).2 hneed

end ParamField

/-! ## Groups of parameters -/

namespace ParamSpec

/-- The slots of the parameters of an endpoint. -/
def slots : List (Slot ParamSpec) := [
  ⟨"post", readGroup, (·.post), fun a spec => { spec with post := a }⟩,
  ⟨"get", readGroup, (·.get), fun a spec => { spec with get := a }⟩]

/-- The slots of the parameters of an endpoint are independent and make them up. -/
theorem isSlotted : record.IsSlotted slots where
  fields_eq := rfl
  nodup := by decide
  get_put := by simp [slots]
  get_put_of_ne := by simp [slots]
  ext r r' h := by
    obtain ⟨post, get⟩ := r
    simp_all [slots]
  skipsUnknown := rfl

/-- The slot of a group holds exactly what its part does. -/
theorem holds_group_iff {name : String} {get : ParamSpec → Option (List ParamField)}
    {put : Option (List ParamField) → ParamSpec → ParamSpec} {spec : ParamSpec}
    {part : Option Json} (hb : get empty = none) (hd : ∀ v ∈ part, v.Distinct) :
    (⟨name, readGroup, get, put⟩ : Slot ParamSpec).Holds empty part spec ↔
      IsOptional (IsList IsParamField) part (get spec) := by
  refine Slot.holds_optional_iff hb (fun v hv fields => asList_eq_ok_iff ?_) nofun
  -- the parameters of a group are parts of the value as well
  rintro items rfl item hi field
  exact ParamField.read_eq_ok_iff ((hd _ hv).items item hi)

/-- A value is read as the parameters of an endpoint exactly if it holds them. -/
theorem read_eq_ok_iff (hd : value.Distinct) {spec : ParamSpec} :
    record.read value = .ok spec ↔ IsParamSpec value spec := by
  rw [isSlotted.read_eq_ok_iff hd]
  constructor
  · rintro ⟨hform, h⟩
    exact ⟨hform, (holds_group_iff rfl (hd.part? 0 "post")).1 (h 0 _ rfl),
      (holds_group_iff rfl (hd.part? 1 "get")).1 (h 1 _ rfl)⟩
  · rintro ⟨hform, hpost, hget⟩
    refine ⟨hform, fun i slot hi => ?_⟩
    match i, hi with
    | 0, rfl => exact (holds_group_iff rfl (hd.part? 0 "post")).2 hpost
    | 1, rfl => exact (holds_group_iff rfl (hd.part? 1 "get")).2 hget

end ParamSpec

/-! ## Descriptors -/

namespace Descriptor

/-- The slots of a descriptor. -/
def slots : List (Slot Descriptor) := [
  ⟨"apiName", (·.optional Json.asString), (·.apiName), fun a descriptor =>
    { descriptor with apiName := a }⟩,
  ⟨"desc", (·.optional Json.asString), (·.desc), fun a descriptor => { descriptor with desc := a }⟩,
  ⟨"params", (·.optional ParamSpec.record.read), (·.params), fun a descriptor =>
    { descriptor with params := a }⟩,
  ⟨"res", (·.optional Json.asString), (·.res), fun a descriptor => { descriptor with res := a }⟩]

/-- The slots of a descriptor are independent and make it up. -/
theorem isSlotted : record.IsSlotted slots where
  fields_eq := rfl
  nodup := by decide
  get_put := by simp [slots]
  get_put_of_ne := by simp [slots]
  ext r r' h := by
    obtain ⟨apiName, desc, params, res⟩ := r
    simp_all [slots]
  skipsUnknown := rfl

/-- The slot of the parameters holds exactly what its part does. -/
theorem holds_params_iff {put : Option ParamSpec → Descriptor → Descriptor}
    {descriptor : Descriptor} {part : Option Json} (hd : ∀ v ∈ part, v.Distinct) :
    (⟨"params", (·.optional ParamSpec.record.read), (·.params), put⟩ : Slot Descriptor).Holds empty
      part descriptor ↔ IsOptional IsParamSpec part descriptor.params := by
  refine Slot.holds_optional_iff rfl (fun v hv spec => ParamSpec.read_eq_ok_iff (hd v hv)) ?_
  exact fun spec h => nomatch h.form

/-- A value is read as a descriptor exactly if it holds it. -/
theorem read_eq_ok_iff (hd : value.Distinct) {descriptor : Descriptor} :
    record.read value = .ok descriptor ↔ IsDescriptor value descriptor := by
  rw [isSlotted.read_eq_ok_iff hd]
  constructor
  · rintro ⟨hform, h⟩
    exact ⟨hform, (Slot.holds_text_iff rfl).1 (h 0 _ rfl), (Slot.holds_text_iff rfl).1 (h 1 _ rfl),
      (holds_params_iff (hd.part? 2 "params")).1 (h 2 _ rfl),
      (Slot.holds_text_iff rfl).1 (h 3 _ rfl)⟩
  · rintro ⟨hform, hname, hdesc, hparams, hres⟩
    refine ⟨hform, fun i slot hi => ?_⟩
    match i, hi with
    | 0, rfl => exact (Slot.holds_text_iff rfl).2 hname
    | 1, rfl => exact (Slot.holds_text_iff rfl).2 hdesc
    | 2, rfl => exact (holds_params_iff (hd.part? 2 "params")).2 hparams
    | 3, rfl => exact (Slot.holds_text_iff rfl).2 hres

end Descriptor

end EndpointTypings
