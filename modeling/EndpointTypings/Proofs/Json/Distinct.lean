import EndpointTypings.Proofs.Entries

/-!
# Distinct names in documents

A list of members can hold a name twice, but no value that a document spells does: the grammar
merges the members of every object. `Json.Distinct` is that invariant of the values that are read,
at all levels, and `Json.IsDocument.distinct` gives it to everything that is proved about them.
-/

namespace EndpointTypings.Json

/-- Every object in a value has distinct names. -/
inductive Distinct : Json → Prop
  /-- The null value has no objects in it. -/
  | null : Distinct .null
  /-- A truth value has no objects in it. -/
  | bool (value : Bool) : Distinct (.bool value)
  /-- An integer has no objects in it. -/
  | int (value : Int) : Distinct (.int value)
  /-- A double has no objects in it. -/
  | double (value : Double) : Distinct (.double value)
  /-- A string has no objects in it. -/
  | str (value : String) : Distinct (.str value)
  /-- The objects in an array are those in its items. -/
  | arr {items : List Json} (hi : ∀ item ∈ items, Distinct item) : Distinct (.arr items)
  /-- An object is among the objects in it. -/
  | obj {members : List (String × Json)} (hn : (Entries.names members).Nodup)
      (hm : ∀ member ∈ members, Distinct member.2) : Distinct (.obj members)

variable {s : List Char} {v : Json}

/-- The items of an array have distinct names. -/
theorem Distinct.items {items : List Json} (h : Distinct (.arr items)) :
    ∀ item ∈ items, Distinct item := by
  cases h with
  | arr hi => exact hi

/-- The members of an object have distinct names. -/
theorem Distinct.names {members : List (String × Json)} (h : Distinct (.obj members)) :
    (Entries.names members).Nodup := by
  cases h with
  | obj hn _ => exact hn

/-- What is found under a name in an object has distinct names. -/
theorem Distinct.get? {members : List (String × Json)} {name : String}
    (h : Distinct (.obj members)) (hv : Entries.get? name members = some v) : Distinct v := by
  cases h with
  | obj _ hm => exact hm _ (Entries.mem_of_get? hv)

section Parts

variable {α : Type} {item : List Char → α → Prop} {good : α → Prop}

/-- What holds of every item holds of the items of a sequence. -/
theorem IsSequence.forall_mem {as : List α} (h : IsSequence item s as)
    (hi : ∀ t a, item t a → good a) : ∀ a ∈ as, good a := by
  have hpadded : ∀ t a, IsPadded item t a → good a := by
    rintro t a ⟨_, ha, _⟩
    exact hi _ a ha
  induction h with
  | one hp => simpa using hpadded _ _ hp
  | more hp _ ih => exact List.forall_mem_cons.2 ⟨hpadded _ _ hp, ih⟩

/-- What holds of every item holds of the items between brackets. -/
theorem IsContent.forall_mem {as : List α} (h : IsContent item s as)
    (hi : ∀ t a, item t a → good a) : ∀ a ∈ as, good a := by
  cases h with
  | empty _ => exact List.forall_mem_nil _
  | items hs => exact hs.forall_mem hi

end Parts

/-- A value without parts has no objects in it. -/
theorem IsScalar.distinct (h : IsScalar s v) : Distinct v := by
  cases h with
  | null => exact .null
  | true => exact .bool _
  | false => exact .bool _
  | string _ => exact .str _
  | @number s n _ _ hv =>
    unfold Numeral.value at hv
    split at hv
    · rw [← Option.some.inj hv]
      exact .int _
    · obtain ⟨x, -, rfl⟩ := Option.map_eq_some_iff.1 hv
      exact .double x

/-- A value of the grammar has distinct names. -/
theorem IsValue.distinct {depth : Nat} (h : IsValue depth s v) : Distinct v := by
  induction depth generalizing s v with
  | zero => exact IsScalar.distinct h
  | succ depth ih =>
    cases h with
    | scalar hs => exact hs.distinct
    | array hc => exact .arr (hc.forall_mem fun _ _ => ih)
    | @object s members merged hc hm =>
      have hmembers : ∀ member ∈ members, Distinct member.2 := by
        refine hc.forall_mem fun t member h => ?_
        cases h with
        | mk _ _ _ hv => exact ih hv
      refine .obj hm.nodup fun member hmem => ?_
      -- a merged member is one of those that are written
      have hget : Entries.get? member.1 members.reverse = some member.2 := by
        rw [← hm.get?_eq]
        exact Entries.get?_of_mem hm.nodup hmem
      exact hmembers _ (List.mem_reverse.1 (Entries.mem_of_get? hget))

/-- The value of a document has distinct names. -/
theorem IsDocument.distinct (h : IsDocument s v) : Distinct v := by
  cases h with
  | mk _ hv _ => exact IsValue.distinct hv

end EndpointTypings.Json
