import EndpointTypings.Descriptor
import EndpointTypings.Entries

/-!
# Registries

A registry is a sequence of endpoints, each with a key of its own. Inserting under a key that is
present replaces the descriptor and keeps its place; a new key goes to the end. The order is the
order of the methods in the generated interface. This is the Endpoint Registry of section 3 of the
specification.
-/

namespace EndpointTypings

/-- A sequence of endpoints with distinct keys. -/
structure Registry where
  /-- The endpoints, each a key and a descriptor. -/
  endpoints : List (String × Descriptor)
  /-- No key stands twice. -/
  distinct : (Entries.names endpoints).Nodup

namespace Registry

/-- The registry without endpoints. -/
def empty : Registry := ⟨[], by simp [Entries.names]⟩

/-- The registry after a descriptor is inserted under a key. -/
def insert (registry : Registry) (key : String) (descriptor : Descriptor) : Registry :=
  ⟨Entries.put key descriptor registry.endpoints, Entries.nodup_names_put registry.distinct⟩

/-- The registry of a sequence of endpoints, inserted in turn. -/
def ofList (endpoints : List (String × Descriptor)) : Registry :=
  endpoints.foldl (fun registry endpoint => registry.insert endpoint.1 endpoint.2) empty

/-- The endpoints in order. -/
def toList (registry : Registry) : List (String × Descriptor) := registry.endpoints

/-- The keys in order. -/
def keys (registry : Registry) : List String := Entries.names registry.endpoints

/-- The descriptor under a key. -/
def get? (registry : Registry) (key : String) : Option Descriptor :=
  Entries.get? key registry.endpoints

/-- The number of endpoints. -/
def size (registry : Registry) : Nat := registry.endpoints.length

/-- Whether there are no endpoints. -/
def isEmpty (registry : Registry) : Bool := registry.endpoints.isEmpty

/-- The document of a registry: an object whose member `default` holds the endpoints. -/
def toJson (registry : Registry) : Json :=
  .obj [("default", .obj (registry.endpoints.map fun endpoint =>
    (endpoint.1, endpoint.2.toJson)))]

/-- Registries with the same endpoints are the same. -/
@[ext] theorem ext {r s : Registry} (h : r.toList = s.toList) : r = s := by
  cases r; cases s; simp_all [toList]

/-- A descriptor just inserted is found under its key. -/
@[simp] theorem get?_insert_self (registry : Registry) (key : String) (descriptor : Descriptor) :
    (registry.insert key descriptor).get? key = some descriptor :=
  Entries.get?_put_self key descriptor registry.endpoints

/-- Inserting under a key leaves the other keys alone. -/
theorem get?_insert_of_ne {key other : String} (h : other ≠ key) (registry : Registry)
    (descriptor : Descriptor) : (registry.insert key descriptor).get? other = registry.get? other :=
  Entries.get?_put_of_ne h descriptor registry.endpoints

/-- A key that is present keeps its place, and a new one goes to the end. -/
theorem keys_insert (registry : Registry) (key : String) (descriptor : Descriptor) :
    (registry.insert key descriptor).keys
      = if key ∈ registry.keys then registry.keys else registry.keys ++ [key] :=
  Entries.names_put key descriptor registry.endpoints

/-- Inserting a sequence is putting it into the entries. -/
theorem toList_foldl_insert (registry : Registry) (endpoints : List (String × Descriptor)) :
    (endpoints.foldl (fun registry endpoint => registry.insert endpoint.1 endpoint.2)
        registry).toList
      = Entries.putAll registry.toList endpoints := by
  induction endpoints generalizing registry with
  | nil => rfl
  | cons endpoint endpoints ih =>
    rw [List.foldl_cons, ih]
    rfl

/-- The endpoints of a sequence are its merged pairs. -/
theorem toList_ofList (endpoints : List (String × Descriptor)) :
    (ofList endpoints).toList = Entries.merge endpoints :=
  toList_foldl_insert empty endpoints

end Registry

end EndpointTypings
