import EndpointTypings.Proofs.Descriptor.Shape

/-!
# Values that hold the same descriptors

Two values are alike if they say the same about every field of a descriptor, each in a form of its
own: a field that says nothing is missing or null, members stand in any order between any others,
and the parameters of an endpoint, like every single parameter, are objects or arrays. The forms are
chosen anew at every level: the relation of a record is made from those of its fields
(`Json.AlikeRecords`), that of a list from that of its items (`Json.AlikeLists`).

Values that are alike hold the same descriptors (`Json.respects_alikeDescriptors`). Each of the
relations carries over what those of its parts do (`Json.Respects`).
-/

namespace EndpointTypings.Json

/-- A part that says nothing. -/
inductive IsNothing : Option Json → Prop
  /-- It is missing. -/
  | absent : IsNothing none
  /-- It is null. -/
  | null : IsNothing (some .null)

section Forms

variable {α : Type}

/-- Two parts that say the same, if two values that are alike do. -/
inductive AlikeParts (alike : Json → Json → Prop) : Option Json → Option Json → Prop
  /-- Both say nothing, be they missing or null. -/
  | nothing {part part' : Option Json} (h : IsNothing part) (h' : IsNothing part') :
      AlikeParts alike part part'
  /-- Both are values that are alike. -/
  | present {value value' : Json} (h : alike value value') :
      AlikeParts alike (some value) (some value')

/-- Two values that are the same or arrays of items that are alike. -/
inductive AlikeLists (alike : Json → Json → Prop) : Json → Json → Prop
  /-- A value is alike to itself. -/
  | same (value : Json) : AlikeLists alike value value
  /-- Items are alike one by one. -/
  | items {items items' : List Json} (h : List.Forall₂ alike items items') :
      AlikeLists alike (.arr items) (.arr items')

/-- Two values that are the same or records of which each field says the same. The fields are given
in the order of positions, each with what it is for two values of it to be alike. -/
inductive AlikeRecords (fields : List (String × (Json → Json → Prop))) : Json → Json → Prop
  /-- A value is alike to itself. -/
  | same (value : Json) : AlikeRecords fields value value
  /-- Both are objects or arrays that are not too long. A field is found by its name in the one and
  by its position in the other. -/
  | fields {value value' : Json} (hform : value.IsRecord fields.length)
      (hform' : value'.IsRecord fields.length)
      (hparts : ∀ (i : Nat) (name : String) (alike : Json → Json → Prop),
        fields[i]? = some (name, alike) →
          AlikeParts alike (value.part? i name) (value'.part? i name)) :
      AlikeRecords fields value value'

/-- Values that are alike hold the same, and either both are null or none is. -/
structure Respects (alike : Json → Json → Prop) (item : Json → α → Prop) : Prop where
  /-- What the one holds the other holds too. -/
  item_iff : ∀ {value value'}, alike value value' → ∀ a, item value a ↔ item value' a
  /-- Null is alike to nothing else. -/
  null_iff : ∀ {value value'}, alike value value' → (value = .null ↔ value' = .null)

variable {alike : Json → Json → Prop} {item : Json → α → Prop}

/-- Values that are the same hold the same. -/
theorem respects_eq (item : Json → α → Prop) : Respects Eq item where
  item_iff := by
    rintro value _ rfl a
    exact Iff.rfl
  null_iff := by
    rintro value _ rfl
    exact Iff.rfl

/-- A part that says nothing holds nothing. -/
theorem IsNothing.isOptional_iff {part : Option Json} (h : IsNothing part)
    (hnull : ∀ a, ¬ item .null a) {a : Option α} : IsOptional item part a ↔ a = none := by
  constructor
  · intro ha
    cases ha with
    | absent => rfl
    | null => rfl
    | present hv =>
      cases h
      exact absurd hv (hnull _)
  · rintro rfl
    cases h with
    | absent => exact .absent
    | null => exact .null

/-- A value that may be null holds nothing or a thing. -/
theorem isOptional_some_iff {value : Json} {a : Option α} :
    IsOptional item (some value) a ↔
      value = .null ∧ a = none ∨ ∃ b, item value b ∧ a = some b := by
  constructor
  · intro h
    cases h with
    | null => exact .inl ⟨rfl, rfl⟩
    | present hv => exact .inr ⟨_, hv, rfl⟩
  · rintro (⟨rfl, rfl⟩ | ⟨b, hv, rfl⟩)
    · exact .null
    · exact .present hv

/-- Parts that say the same hold the same. -/
theorem AlikeParts.isOptional_iff {part part' : Option Json} (h : AlikeParts alike part part')
    (hr : Respects alike item) (hnull : ∀ a, ¬ item .null a) (a : Option α) :
    IsOptional item part a ↔ IsOptional item part' a := by
  cases h with
  | nothing h h' => rw [h.isOptional_iff hnull, h'.isOptional_iff hnull]
  | present h => simp only [isOptional_some_iff, hr.null_iff h, hr.item_iff h]

/-- Items that are alike one by one hold the same things one by one. -/
theorem Respects.forall₂_iff (hr : Respects alike item) {items items' : List Json}
    (h : List.Forall₂ alike items items') (as : List α) :
    List.Forall₂ item items as ↔ List.Forall₂ item items' as := by
  induction h generalizing as with
  | nil => exact Iff.rfl
  | cons hitem _ ih => simp only [List.forall₂_cons_left_iff, hr.item_iff hitem, ih]

/-- Values that are the same, or arrays of items that are alike, hold the same lists. -/
theorem Respects.alikeLists (hr : Respects alike item) :
    Respects (AlikeLists alike) (IsList item) where
  item_iff := by
    rintro value value' (_ | h) as
    · exact Iff.rfl
    · have hiff := hr.forall₂_iff h as
      exact ⟨fun ⟨hi⟩ => .arr (hiff.1 hi), fun ⟨hi⟩ => .arr (hiff.2 hi)⟩
  null_iff := by
    rintro value value' (_ | h)
    · exact Iff.rfl
    · exact ⟨nofun, nofun⟩

/-- Of two records that are alike either both are null or none is. -/
theorem AlikeRecords.null_iff {fields : List (String × (Json → Json → Prop))} {value value' : Json}
    (h : AlikeRecords fields value value') : value = .null ↔ value' = .null := by
  obtain _ | ⟨hform, hform', -⟩ := h
  · exact Iff.rfl
  · constructor
    · rintro rfl
      cases hform
    · rintro rfl
      cases hform'

end Forms

/-! ## Parameters and descriptors -/

/-- Two values that say the same about a parameter. -/
def AlikeParamFields : Json → Json → Prop :=
  AlikeRecords [("param", Eq), ("type", Eq), ("required", Eq), ("isNeed", Eq)]

/-- Two values that say the same about the parameters of an endpoint. -/
def AlikeParamSpecs : Json → Json → Prop :=
  AlikeRecords [("post", AlikeLists AlikeParamFields), ("get", AlikeLists AlikeParamFields)]

/-- Two values that say the same about an endpoint. -/
def AlikeDescriptors : Json → Json → Prop :=
  AlikeRecords [("apiName", Eq), ("desc", Eq), ("params", AlikeParamSpecs), ("res", Eq)]

/-- Parts that are the same, or both say nothing, hold the same text. -/
theorem AlikeParts.isText_iff {part part' : Option Json} (h : AlikeParts Eq part part')
    (a : Option String) : IsOptional IsText part a ↔ IsOptional IsText part' a :=
  h.isOptional_iff (respects_eq _) nofun a

/-- Parts that are the same, or both say nothing, hold the same truth value. -/
theorem AlikeParts.isTruth_iff {part part' : Option Json} (h : AlikeParts Eq part part')
    (a : Option Bool) : IsOptional IsTruth part a ↔ IsOptional IsTruth part' a :=
  h.isOptional_iff (respects_eq _) nofun a

/-- Values that say the same about a parameter hold the same one. -/
theorem respects_alikeParamFields : Respects AlikeParamFields IsParamField where
  item_iff := by
    rintro value value' (_ | ⟨hform, hform', hparts⟩) field
    · exact Iff.rfl
    · have hparam := (hparts 0 "param" Eq rfl).isText_iff field.param
      have htype := (hparts 1 "type" Eq rfl).isText_iff field.type
      have hrequired := (hparts 2 "required" Eq rfl).isTruth_iff field.required
      have hneed := (hparts 3 "isNeed" Eq rfl).isTruth_iff field.isNeed
      exact ⟨fun h => ⟨hform', hparam.1 h.param, htype.1 h.type, hrequired.1 h.required,
          hneed.1 h.isNeed⟩,
        fun h => ⟨hform, hparam.2 h.param, htype.2 h.type, hrequired.2 h.required,
          hneed.2 h.isNeed⟩⟩
  null_iff := AlikeRecords.null_iff

/-- Values that say the same about the parameters of an endpoint hold the same ones. -/
theorem respects_alikeParamSpecs : Respects AlikeParamSpecs IsParamSpec where
  item_iff := by
    rintro value value' (_ | ⟨hform, hform', hparts⟩) spec
    · exact Iff.rfl
    · have hlists := respects_alikeParamFields.alikeLists
      have hpost := (hparts 0 "post" _ rfl).isOptional_iff hlists nofun spec.post
      have hget := (hparts 1 "get" _ rfl).isOptional_iff hlists nofun spec.get
      exact ⟨fun h => ⟨hform', hpost.1 h.post, hget.1 h.get⟩,
        fun h => ⟨hform, hpost.2 h.post, hget.2 h.get⟩⟩
  null_iff := AlikeRecords.null_iff

/-- Values that say the same about an endpoint hold the same descriptor. -/
theorem respects_alikeDescriptors : Respects AlikeDescriptors IsDescriptor where
  item_iff := by
    rintro value value' (_ | ⟨hform, hform', hparts⟩) descriptor
    · exact Iff.rfl
    · have hname := (hparts 0 "apiName" Eq rfl).isText_iff descriptor.apiName
      have hdesc := (hparts 1 "desc" Eq rfl).isText_iff descriptor.desc
      have hspec := (hparts 2 "params" _ rfl).isOptional_iff respects_alikeParamSpecs
        (fun spec h => nomatch h.form) descriptor.params
      have hres := (hparts 3 "res" Eq rfl).isText_iff descriptor.res
      exact ⟨fun h => ⟨hform', hname.1 h.apiName, hdesc.1 h.desc, hspec.1 h.params, hres.1 h.res⟩,
        fun h => ⟨hform, hname.2 h.apiName, hdesc.2 h.desc, hspec.2 h.params, hres.2 h.res⟩⟩
  null_iff := AlikeRecords.null_iff

end EndpointTypings.Json
