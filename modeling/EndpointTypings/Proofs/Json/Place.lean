import EndpointTypings.Proofs.Json.Violation

/-!
# What stands after a violation

Nothing that stands after the first violation of a shape counts, so it can be replaced.
`Json.SameUpTo` relates two values that are the same up to a place: at every level that the way to
the place leads through, what stands before it is the same in both, and what stands after it may be
anything. A violation is stable if the values that are the same up to its place have it too
(`Json.IsStable`), and the violations of lists and records are stable if those of their parts are.
-/

namespace EndpointTypings.Json

/-- Two values that are the same up to a place. -/
inductive SameUpTo : List Nat → Json → Json → Prop
  /-- At the place itself they are the same. -/
  | here (value : Json) : SameUpTo [] value value
  /-- Two arrays have the same items before the one that the way leads to. -/
  | item {front back back' : List Json} {value value' : Json} {place : List Nat}
      (h : SameUpTo place value value') :
      SameUpTo (front.length :: place) (.arr (front ++ value :: back))
        (.arr (front ++ value' :: back'))
  /-- Two objects have the same members before the one that the way leads to, and it has the same
  name in both. -/
  | member {front back back' : List (String × Json)} {name : String} {value value' : Json}
      {place : List Nat} (h : SameUpTo place value value') :
      SameUpTo (front.length :: place) (.obj (front ++ (name, value) :: back))
        (.obj (front ++ (name, value') :: back'))

namespace SameUpTo

variable {place : List Nat} {value value' : Json}

/-- Values are the same if they are so up to the place of the whole. -/
theorem eq_of_nil (h : SameUpTo [] value value') : value = value' := by
  cases h
  rfl

/-- A value that is not null is no different in this up to any place. -/
theorem ne_null (h : SameUpTo place value value') (hn : value ≠ .null) : value' ≠ .null := by
  cases h with
  | here => exact hn
  | item => exact nofun
  | member => exact nofun

/-- What is the same as an array up to a place inside of an item. -/
theorem exists_of_arr {front back : List Json}
    (h : SameUpTo (front.length :: place) (.arr (front ++ value :: back)) value') :
    ∃ item back', value' = .arr (front ++ item :: back') ∧ SameUpTo place value item := by
  generalize hp : front.length :: place = way at h
  generalize hv : Json.arr (front ++ value :: back) = whole at h
  cases h with
  | here => cases hp
  | @item front' _ back' _ item _ h =>
    obtain ⟨hlength, rfl⟩ := List.cons.inj hp
    obtain ⟨rfl, hrest⟩ := List.append_inj (Json.arr.inj hv) hlength
    obtain ⟨rfl, -⟩ := List.cons.inj hrest
    exact ⟨item, back', rfl, h⟩
  | member => cases hv

/-- What is the same as an object up to a place inside of a member. -/
theorem exists_of_obj {front back : List (String × Json)} {name : String}
    (h : SameUpTo (front.length :: place) (.obj (front ++ (name, value) :: back)) value') :
    ∃ item back', value' = .obj (front ++ (name, item) :: back') ∧ SameUpTo place value item := by
  generalize hp : front.length :: place = way at h
  generalize hv : Json.obj (front ++ (name, value) :: back) = whole at h
  cases h with
  | here => cases hp
  | item => cases hv
  | @member front' _ back' _ _ item _ h =>
    obtain ⟨hlength, rfl⟩ := List.cons.inj hp
    obtain ⟨rfl, hrest⟩ := List.append_inj (Json.obj.inj hv) hlength
    obtain ⟨hmember, -⟩ := List.cons.inj hrest
    obtain ⟨rfl, rfl⟩ := Prod.mk.inj hmember
    exact ⟨item, back', rfl, h⟩

end SameUpTo

/-- A violation that does not depend on what stands after its place. -/
structure IsStable (violation : Violation) : Prop where
  /-- A value that is the same up to the place has the violation too. -/
  of_sameUpTo : ∀ {value value' : Json} {place : List Nat} {mismatch : Mismatch},
    violation value place mismatch → SameUpTo place value value' → violation value' place mismatch

variable {violation : Violation}

/-- Where a value is of another kind, nothing stands after the place. -/
theorem isStable_kindViolation {α : Type} (item : Json → α → Prop) (expected : String) :
    IsStable (KindViolation item expected) where
  of_sameUpTo := by
    rintro value value' _ _ ⟨h⟩ hsame
    exact hsame.eq_of_nil ▸ .mk h

/-- Where a value is no text, nothing stands after the place. -/
theorem isStable_textViolation : IsStable TextViolation :=
  isStable_kindViolation IsText "a string"

/-- Where a value is no truth value, nothing stands after the place. -/
theorem isStable_truthViolation : IsStable TruthViolation :=
  isStable_kindViolation IsTruth "a boolean"

/-- A violation is no less stable where null is allowed. -/
theorem IsStable.optional (h : IsStable violation) : IsStable (OptionalViolation violation) where
  of_sameUpTo := by
    rintro value value' place mismatch ⟨hn, hv⟩ hsame
    exact .mk (hsame.ne_null hn) (h.of_sameUpTo hv hsame)

/-- The violation of a list is stable if that of its items is. -/
theorem IsStable.list (h : IsStable violation) {fits : Json → Prop} :
    IsStable (ListViolation fits violation) where
  of_sameUpTo := by
    intro value value' place mismatch hlist hsame
    cases hlist with
    | noArray hn =>
      obtain rfl := hsame.eq_of_nil
      exact .noArray hn
    | item hfront hv =>
      obtain ⟨item, back', rfl, hitem⟩ := hsame.exists_of_arr
      exact .item hfront (h.of_sameUpTo hv hitem)

/-- The violation of a record is stable if those of its fields are. -/
theorem IsStable.record {title : String} {fields : List FieldShape}
    (h : ∀ field ∈ fields, IsStable field.violation) :
    IsStable (RecordViolation title fields) where
  of_sameUpTo := by
    intro value value' place mismatch hrecord hsame
    cases hrecord with
    | noRecord ho ha =>
      obtain rfl := hsame.eq_of_nil
      exact .noRecord ho ha
    | @member front back field _ _ _ hfront hf hv =>
      obtain ⟨item, back', rfl, hitem⟩ := hsame.exists_of_obj
      exact .member hfront hf ((h field hf).of_sameUpTo hv hitem)
    | @item done left front back field _ _ _ hfields hfront hv =>
      have hf : field ∈ fields := hfields ▸ List.mem_append_right done List.mem_cons_self
      obtain ⟨item, back', rfl, hitem⟩ := hsame.exists_of_arr
      exact .item hfields hfront ((h field hf).of_sameUpTo hv hitem)
    | surplus hfront he =>
      obtain rfl := hsame.eq_of_nil
      exact .surplus hfront he

end EndpointTypings.Json
