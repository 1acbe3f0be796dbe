import EndpointTypings.Proofs.Descriptor.Shape
import EndpointTypings.Proofs.Json.Values
import EndpointTypings.Registry.Document

/-!
# Registry documents are read as they are written

A text is a registry document if it is a JSON document whose value holds a registry
(`Json.IsRegistry`): an object with a member `default` that is an object, each of whose members is
an object that holds a descriptor. `Registry.parse_spec` says that exactly these texts are read,
each as the registry it holds, and that any other text is reported as malformed.

The names in a document are distinct at every level, so that the endpoints of the registry are the
members of `default`, one for one and in their order.
-/

namespace EndpointTypings

namespace Json

/-- A member that holds an endpoint. -/
inductive IsEndpoint : String × Json → String × Descriptor → Prop
  /-- The name is the key, and the value is an object that holds the descriptor. -/
  | mk {key : String} {members : List (String × Json)} {descriptor : Descriptor}
      (hd : IsDescriptor (.obj members) descriptor) :
      IsEndpoint (key, .obj members) (key, descriptor)

/-- A value that holds a registry. -/
inductive IsRegistry : Json → Registry → Prop
  /-- The members of `default` hold the endpoints in order. -/
  | mk {members endpoints : List (String × Json)} {registry : Registry}
      (hm : Entries.get? "default" members = some (.obj endpoints))
      (he : List.Forall₂ IsEndpoint endpoints registry.toList) : IsRegistry (.obj members) registry

end Json

open Json

namespace Registry

/-- A member is read as an endpoint exactly if it holds it. -/
theorem readEndpoint_eq_ok_iff {member : String × Json} {endpoint : String × Descriptor}
    (hd : member.2.Distinct) : readEndpoint member = .ok endpoint ↔ IsEndpoint member endpoint := by
  obtain ⟨key, value⟩ := member
  constructor
  · intro h
    cases value with
    | obj members =>
      simp only [readEndpoint] at h
      split at h
      · next descriptor hread =>
        obtain rfl : (key, descriptor) = endpoint := Except.ok.inj h
        exact .mk ((Descriptor.read_eq_ok_iff hd).1 hread)
      · cases h
    | _ => cases h
  · rintro ⟨h⟩
    simp only [readEndpoint, (Descriptor.read_eq_ok_iff hd).2 h]

/-- Endpoints have the keys of the members that hold them. -/
theorem names_eq_of_isEndpoint {members : List (String × Json)}
    {endpoints : List (String × Descriptor)} (h : List.Forall₂ IsEndpoint members endpoints) :
    Entries.names endpoints = Entries.names members := by
  induction h with
  | nil => rfl
  | cons he _ ih =>
    obtain ⟨_⟩ := he
    simpa [Entries.names] using ih

/-- A sequence with distinct keys is the registry of its endpoints. -/
theorem ofList_eq_iff {endpoints : List (String × Descriptor)} {registry : Registry}
    (hd : (Entries.names endpoints).Nodup) :
    ofList endpoints = registry ↔ endpoints = registry.toList := by
  have hlist : (ofList endpoints).toList = endpoints := by
    rw [toList_ofList, Entries.merge_eq_self hd]
  constructor
  · rintro rfl
    exact hlist.symm
  · intro h
    exact ext (hlist.trans h)

/-- Members are read as the endpoints of a registry exactly if they hold them, one for one. -/
theorem readEndpoints_eq_ok_iff {members : List (String × Json)} {registry : Registry}
    (hd : (Json.obj members).Distinct) :
    (members.mapM readEndpoint >>= fun endpoints => pure (ofList endpoints)) = .ok registry ↔
      List.Forall₂ IsEndpoint members registry.toList := by
  have hmember : ∀ member ∈ members, ∀ endpoint,
      readEndpoint member = .ok endpoint ↔ IsEndpoint member endpoint := by
    intro member hm endpoint
    have hvalue : Entries.get? member.1 members = some member.2 := Entries.get?_of_mem hd.names hm
    exact readEndpoint_eq_ok_iff (hd.get? hvalue)
  have hread : ∀ endpoints, members.mapM readEndpoint = .ok endpoints ↔
      List.Forall₂ IsEndpoint members endpoints := fun endpoints =>
    mapM_eq_ok_iff_forall₂ hmember
  have hkeys : ∀ endpoints, List.Forall₂ IsEndpoint members endpoints →
      (Entries.names endpoints).Nodup := by
    intro endpoints h
    rw [names_eq_of_isEndpoint h]
    exact hd.names
  -- with distinct keys, no endpoint takes the place of another
  rw [bind_eq_ok_iff]
  constructor
  · rintro ⟨endpoints, hm, hp⟩
    have he := (hread endpoints).1 hm
    obtain rfl := (ofList_eq_iff (hkeys endpoints he)).1 (Except.ok.inj hp)
    exact he
  · intro he
    refine ⟨registry.toList, (hread _).2 he, ?_⟩
    exact congrArg Except.ok ((ofList_eq_iff (hkeys _ he)).2 rfl)

/-- A value with distinct names is read as a registry exactly if it holds it. -/
theorem ofJson_eq_ok_iff {document : Json} {registry : Registry} (hd : document.Distinct) :
    ofJson document = .ok registry ↔ IsRegistry document registry := by
  cases document with
  | obj members =>
    constructor
    · intro h
      simp only [ofJson] at h
      split at h
      · cases h
      · next endpoints hget => exact .mk hget ((readEndpoints_eq_ok_iff (hd.get? hget)).1 h)
      · cases h
    · rintro ⟨hget, he⟩
      simp only [ofJson, hget]
      exact (readEndpoints_eq_ok_iff (hd.get? hget)).2 he
  | _ => exact ⟨nofun, nofun⟩

/-- A document is read as its value is. -/
theorem parse_eq_ofJson {text : String} {document : Json} (h : IsDocument text.toList document) :
    parse text = ofJson document := by
  simp only [parse, Json.parse_eq_ok_iff.2 h]

/-- A text is read as a registry exactly if it is a JSON document whose value holds it. -/
theorem parse_eq_ok_iff {text : String} {registry : Registry} :
    parse text = .ok registry ↔
      ∃ document, IsDocument text.toList document ∧ IsRegistry document registry := by
  constructor
  · intro h
    unfold parse at h
    split at h
    · next document hdocument =>
      have hd := Json.parse_eq_ok_iff.1 hdocument
      exact ⟨document, hd, (ofJson_eq_ok_iff hd.distinct).1 h⟩
    · cases h
  · rintro ⟨document, hd, hr⟩
    rw [parse_eq_ofJson hd]
    exact (ofJson_eq_ok_iff hd.distinct).2 hr

/-- A text is read as a registry exactly if it is a JSON document whose value holds it, and a text
that is no such document of any registry is reported as malformed. -/
theorem parse_spec (text : String) :
    (∀ registry, parse text = .ok registry ↔
        ∃ document, IsDocument text.toList document ∧ IsRegistry document registry) ∧
      ((∃ registry document, IsDocument text.toList document ∧ IsRegistry document registry) ∨
        ∃ reason source, (parse text).mapError DocumentFault.toError
          = .error (.malformedRegistry reason source)) := by
  refine ⟨fun registry => parse_eq_ok_iff, ?_⟩
  cases h : parse text with
  | ok registry =>
    obtain ⟨document, hd, hr⟩ := parse_eq_ok_iff.1 h
    exact .inl ⟨registry, document, hd, hr⟩
  | error fault => exact .inr ⟨fault.message, fault.source?, rfl⟩

-- of a repeated key only the last value counts, at the place of the first
example : (parse "\x7b\"default\": \x7b\"a\": null, \"b\": \x7b\x7d, \"a\": \x7b\x7d\x7d\x7d").map keys
    = .ok ["a", "b"] := by
  decide +kernel

end Registry

end EndpointTypings
