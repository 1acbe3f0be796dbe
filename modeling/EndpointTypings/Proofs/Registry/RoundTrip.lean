import EndpointTypings.Proofs.Json.Written
import EndpointTypings.Proofs.Registry.Document

/-!
# Registries survive being written and read

The document of a registry holds that registry (`Registry.isRegistry_toJson`): each field of a
descriptor is written under its name, and null is written for nothing, which reads as nothing. The
document nests six levels and its names are distinct, so that both its texts are documents of it
(`Registry.toJson_tame`), and reading either of them gives the registry back
(`Registry.parse_write`).
-/

namespace EndpointTypings

open Json

/-! ## Parts -/

namespace Json

/-- A text that may be absent is held by what is written for it. -/
theorem isOptional_ofString? (s : Option String) :
    IsOptional IsText (some (ofString? s)) s := by
  cases s with
  | none => exact .null
  | some s => exact .present (.str s)

/-- A truth value that may be absent is held by what is written for it. -/
theorem isOptional_ofBool? (b : Option Bool) : IsOptional IsTruth (some (ofBool? b)) b := by
  cases b with
  | none => exact .null
  | some b => exact .present (.bool b)

/-- What is written for a text that may be absent has no parts. -/
theorem ofString?_tame {depth : Nat} (s : Option String) : Tame depth (ofString? s) := by
  cases s with
  | none => exact .null
  | some s => exact .str s

/-- What is written for a truth value that may be absent has no parts. -/
theorem ofBool?_tame {depth : Nat} (b : Option Bool) : Tame depth (ofBool? b) := by
  cases b with
  | none => exact .null
  | some b => exact .bool b

end Json

/-! ## Descriptors -/

/-- The document of a parameter holds it. -/
theorem ParamField.isParamField_toJson (field : ParamField) : IsParamField field.toJson field where
  form := .obj _
  param := isOptional_ofString? field.param
  type := isOptional_ofString? field.type
  required := isOptional_ofBool? field.required
  isNeed := isOptional_ofBool? field.isNeed

/-- The document of a parameter is an object of values without parts. -/
theorem ParamField.toJson_tame {depth : Nat} (field : ParamField) :
    Tame (depth + 1) field.toJson := by
  refine .obj (by simp [Entries.names]) ?_
  simp only [List.forall_mem_cons]
  exact ⟨ofString?_tame _, ofString?_tame _, ofBool?_tame _, ofBool?_tame _, nofun⟩

/-- The document of a group of parameters holds it. -/
theorem ParamSpec.isList_groupToJson (group : Option (List ParamField)) :
    IsOptional (IsList IsParamField) (some (groupToJson group)) group := by
  cases group with
  | none => exact .null
  | some fields =>
    have hfields : List.Forall₂ IsParamField (fields.map ParamField.toJson) fields := by
      rw [List.forall₂_map_left_iff, List.forall₂_same]
      exact fun field _ => field.isParamField_toJson
    exact .present (.arr hfields)

/-- The document of a group of parameters is null or an array of them. -/
theorem ParamSpec.groupToJson_tame {depth : Nat} (group : Option (List ParamField)) :
    Tame (depth + 2) (groupToJson group) := by
  cases group with
  | none => exact .null
  | some fields =>
    refine .arr fun item hi => ?_
    obtain ⟨field, -, rfl⟩ := List.mem_map.1 hi
    exact field.toJson_tame

/-- The document of the parameters of an endpoint holds them. -/
theorem ParamSpec.isParamSpec_toJson (spec : ParamSpec) : IsParamSpec spec.toJson spec where
  form := .obj _
  post := isList_groupToJson spec.post
  get := isList_groupToJson spec.get

/-- The document of the parameters of an endpoint is an object of groups. -/
theorem ParamSpec.toJson_tame {depth : Nat} (spec : ParamSpec) : Tame (depth + 3) spec.toJson := by
  refine .obj (by simp [Entries.names]) ?_
  simp only [List.forall_mem_cons]
  exact ⟨groupToJson_tame _, groupToJson_tame _, nofun⟩

/-- The document of a descriptor holds it. -/
theorem Descriptor.isDescriptor_toJson (descriptor : Descriptor) :
    IsDescriptor descriptor.toJson descriptor where
  form := .obj _
  apiName := isOptional_ofString? descriptor.apiName
  desc := isOptional_ofString? descriptor.desc
  params := by
    obtain ⟨apiName, desc, params, res⟩ := descriptor
    cases params with
    | none => exact .null
    | some spec => exact .present spec.isParamSpec_toJson
  res := isOptional_ofString? descriptor.res

/-- The document of a descriptor is an object of texts and parameters. -/
theorem Descriptor.toJson_tame {depth : Nat} (descriptor : Descriptor) :
    Tame (depth + 4) descriptor.toJson := by
  obtain ⟨apiName, desc, params, res⟩ := descriptor
  refine .obj (by simp [Entries.names]) ?_
  simp only [List.forall_mem_cons]
  refine ⟨ofString?_tame _, ofString?_tame _, ?_, ofString?_tame _, nofun⟩
  cases params with
  | none => exact .null
  | some spec => exact spec.toJson_tame

/-! ## Registries -/

namespace Registry

/-- The document of a registry holds it. -/
theorem isRegistry_toJson (registry : Registry) : IsRegistry registry.toJson registry := by
  refine .mk rfl ?_
  rw [List.forall₂_map_left_iff]
  exact List.forall₂_same.2 fun endpoint _ => .mk endpoint.2.isDescriptor_toJson

/-- The document of a registry is an object of an object of descriptors. -/
theorem toJson_tame {depth : Nat} (registry : Registry) : Tame (depth + 6) registry.toJson := by
  -- the keys are distinct, because those of the registry are
  have hkeys : Entries.names (registry.endpoints.map fun endpoint =>
      (endpoint.1, endpoint.2.toJson)) = Entries.names registry.endpoints := by
    simp [Entries.names]
  have hendpoints : Tame (depth + 5) (.obj (registry.endpoints.map fun endpoint =>
      (endpoint.1, endpoint.2.toJson))) := by
    refine .obj (hkeys ▸ registry.distinct) fun member hm => ?_
    obtain ⟨endpoint, -, rfl⟩ := List.mem_map.1 hm
    exact endpoint.2.toJson_tame
  refine .obj (by simp [Entries.names]) ?_
  simp only [List.forall_mem_cons]
  exact ⟨hendpoints, nofun⟩

/-- A registry is read back from its document, on one line or over several. -/
theorem parse_write (registry : Registry) :
    parse registry.toJson.compact = .ok registry ∧
      parse registry.toJson.pretty = .ok registry := by
  -- the six levels are far from the deepest that are read
  have htame : Tame maxDepth registry.toJson := registry.toJson_tame
  obtain ⟨hcompact, hpretty⟩ := htame.isDocument
  have hregistry := registry.isRegistry_toJson
  exact ⟨parse_eq_ok_iff.2 ⟨_, hcompact, hregistry⟩, parse_eq_ok_iff.2 ⟨_, hpretty, hregistry⟩⟩

end Registry

end EndpointTypings
