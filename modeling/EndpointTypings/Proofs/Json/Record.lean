import EndpointTypings.Json.Record
import EndpointTypings.Proofs.Json.Distinct
import EndpointTypings.Proofs.Json.Shape
import EndpointTypings.Proofs.Steps
import Mathlib.Data.List.Nodup

/-!
# Records are read field by field

A `Record` is read member by member, or item by item, each setting a field of the record that was
there before. If the fields are independent of each other (`Record.IsSlotted`), the order does not
matter, and what is read is settled for each field alone: `Record.IsSlotted.read_eq_ok_iff` says
that a value is read as a record exactly if it can hold one and every slot of it holds what the
part of the value spells, or what it has by default where there is no such part.
-/

namespace EndpointTypings

/-- A place in a record, and how what stands there is read. -/
structure Slot (ρ : Type) where
  /-- What stands in the place. -/
  {α : Type}
  /-- The name of the field. -/
  name : String
  /-- How a value of the field is read. -/
  read : Json → Except Mismatch α
  /-- What stands there in a record. -/
  get : ρ → α
  /-- The record with something else there. -/
  put : α → ρ → ρ

namespace Slot

variable {ρ : Type}

/-- The field that fills a slot. -/
def field (slot : Slot ρ) : Field ρ :=
  ⟨slot.name, fun value r => do return slot.put (← slot.read value) r⟩

/-- Setting the field puts what is read into the slot. -/
theorem field_set (slot : Slot ρ) (value : Json) (r : ρ) :
    slot.field.set value r = (slot.read value).map (slot.put · r) := by
  show (slot.read value >>= fun a => pure (slot.put a r)) = _
  cases slot.read value with
  | error e => rfl
  | ok a => rfl

/-- A slot of a record holds what a part spells, or without a part what it held before. -/
def Holds (slot : Slot ρ) (before : ρ) (part : Option Json) (r : ρ) : Prop :=
  match part with
  | none => slot.get r = slot.get before
  | some value => slot.read value = .ok (slot.get r)

/-- What a slot has to hold depends on the record before only by what it held there. -/
theorem holds_congr {slot : Slot ρ} {before before' r : ρ} (h : slot.get before = slot.get before')
    (part : Option Json) : slot.Holds before part r ↔ slot.Holds before' part r := by
  cases part with
  | none => simp only [Holds, h]
  | some value => exact Iff.rfl

end Slot

/-- A record whose fields fill independent slots, which make up the record, and which skips other
members. -/
structure Record.IsSlotted {ρ : Type} (record : Record ρ) (slots : List (Slot ρ)) : Prop where
  /-- The fields fill the slots. -/
  fields_eq : record.fields = slots.map Slot.field
  /-- The slots have distinct names. -/
  nodup : (slots.map Slot.name).Nodup
  /-- What is put into a slot stands there. -/
  get_put : ∀ slot ∈ slots, ∀ a r, slot.get (slot.put a r) = a
  /-- What is put into a slot leaves the others alone. -/
  get_put_of_ne : ∀ slot ∈ slots, ∀ other ∈ slots, slot.name ≠ other.name →
    ∀ a r, other.get (slot.put a r) = other.get r
  /-- Records that agree in every slot are the same. -/
  ext : ∀ r r', (∀ slot ∈ slots, slot.get r = slot.get r') → r = r'
  /-- Members that are no fields are skipped. -/
  skipsUnknown : record.skipsUnknown = true

namespace Record.IsSlotted

variable {ρ : Type} {record : Record ρ} {slots : List (Slot ρ)} {r before : ρ}

/-! ## Members -/

/-- A member of another name is skipped. -/
theorem readMember_of_not_mem (h : record.IsSlotted slots) {member : String × Json}
    (hm : member.1 ∉ slots.map Slot.name) : record.readMember before member = .ok before := by
  have hnone : record.fields.find? (·.name = member.1) = none := by
    rw [h.fields_eq, List.find?_eq_none]
    rintro field hf hname
    obtain ⟨slot, hs, rfl⟩ := List.mem_map.1 hf
    exact hm (List.mem_map.2 ⟨slot, hs, of_decide_eq_true hname⟩)
  simp only [readMember, hnone, h.skipsUnknown, if_true]

/-- A slot is found by its name. -/
theorem find?_slot (h : record.IsSlotted slots) {slot : Slot ρ} (hs : slot ∈ slots) :
    slots.find? (·.name = slot.name) = some slot := by
  obtain ⟨front, back, hsplit⟩ := List.append_of_mem hs
  refine List.find?_eq_some_iff_append.2 ⟨by simp, front, back, hsplit, fun other ho => ?_⟩
  have hnodup := h.nodup
  rw [hsplit, List.map_append, List.nodup_append] at hnodup
  have hne := hnodup.2.2 other.name (List.mem_map_of_mem ho) slot.name (by simp)
  simp [hne]

/-- A member of the name of a slot is put there. -/
theorem readMember_of_mem (h : record.IsSlotted slots) {slot : Slot ρ} (hs : slot ∈ slots)
    (value : Json) : record.readMember before (slot.name, value)
      = (slot.read value).map (slot.put · before) := by
  have hfind : record.fields.find? (·.name = slot.name) = some slot.field := by
    rw [h.fields_eq, List.find?_map]
    exact congrArg (Option.map Slot.field) (h.find?_slot hs)
  simp only [readMember, hfind, Slot.field_set]

/-- After a slot is filled, members without its name leave there what was put, and the other slots
as they would have. -/
theorem forall_holds_put (h : record.IsSlotted slots) {slot : Slot ρ} (hs : slot ∈ slots)
    {members : List (String × Json)} (hfresh : slot.name ∉ Entries.names members) {a : slot.α} :
    (∀ other ∈ slots, other.Holds (slot.put a before) (Entries.get? other.name members) r) ↔
      slot.get r = a ∧ ∀ other ∈ slots, other.name ≠ slot.name →
        other.Holds before (Entries.get? other.name members) r := by
  have hnone : Entries.get? slot.name members = none := Entries.get?_eq_none_iff.2 hfresh
  have hother : ∀ other ∈ slots, other.name ≠ slot.name →
      (other.Holds (slot.put a before) (Entries.get? other.name members) r ↔
        other.Holds before (Entries.get? other.name members) r) := fun other ho hne =>
    Slot.holds_congr (h.get_put_of_ne slot hs other ho (Ne.symm hne) a before) _
  constructor
  · intro hall
    refine ⟨?_, fun other ho hne => (hother other ho hne).1 (hall other ho)⟩
    have hheld := hall slot hs
    rw [hnone] at hheld
    exact hheld.trans (h.get_put slot hs a before)
  · rintro ⟨ha, hall⟩ other ho
    by_cases hne : other.name = slot.name
    · obtain rfl : other = slot := List.inj_on_of_nodup_map h.nodup ho hs hne
      rw [hnone]
      exact ha.trans (h.get_put other ho a before).symm
    · exact (hother other ho hne).2 (hall other ho hne)

/-- With a member of its name at the front, a slot holds what that spells, and the other slots what
they would without it. -/
theorem forall_holds_cons (h : record.IsSlotted slots) {slot : Slot ρ} (hs : slot ∈ slots)
    {members : List (String × Json)} {value : Json} :
    (∀ other ∈ slots,
        other.Holds before (Entries.get? other.name ((slot.name, value) :: members)) r) ↔
      slot.read value = .ok (slot.get r) ∧ ∀ other ∈ slots, other.name ≠ slot.name →
        other.Holds before (Entries.get? other.name members) r := by
  have hself : Entries.get? slot.name ((slot.name, value) :: members) = some value := by
    simp [Entries.get?]
  have hother : ∀ other : Slot ρ, other.name ≠ slot.name →
      Entries.get? other.name ((slot.name, value) :: members)
        = Entries.get? other.name members := fun other hne => by
    simp [Entries.get?, Ne.symm hne]
  constructor
  · intro hall
    have hheld := hall slot hs
    rw [hself] at hheld
    refine ⟨hheld, fun other ho hne => ?_⟩
    rw [← hother other hne]
    exact hall other ho
  · rintro ⟨hread, hall⟩ other ho
    by_cases hne : other.name = slot.name
    · obtain rfl : other = slot := List.inj_on_of_nodup_map h.nodup ho hs hne
      rw [hself]
      exact hread
    · rw [hother other hne]
      exact hall other ho hne

/-- Members with distinct names are read as a record exactly if every slot of it holds what its
member spells, or what it held before. -/
theorem foldlM_eq_ok_iff (h : record.IsSlotted slots) {members : List (String × Json)}
    (hd : (Entries.names members).Nodup) :
    members.foldlM record.readMember before = .ok r ↔
      ∀ slot ∈ slots, slot.Holds before (Entries.get? slot.name members) r := by
  induction members generalizing before with
  | nil =>
    constructor
    · rintro hr slot -
      obtain rfl : before = r := Except.ok.inj hr
      rfl
    · intro hs
      rw [h.ext before r fun slot hslot => (hs slot hslot).symm]
      rfl
  | cons member members ih =>
    obtain ⟨name, value⟩ := member
    obtain ⟨hfresh, hd'⟩ : name ∉ Entries.names members ∧ (Entries.names members).Nodup :=
      List.nodup_cons.1 hd
    rw [List.foldlM_cons, bind_eq_ok_iff]
    -- the first member fills a slot that no other member fills, or none
    by_cases hname : name ∈ slots.map Slot.name
    · obtain ⟨slot, hs, rfl⟩ := List.mem_map.1 hname
      rw [h.readMember_of_mem hs, h.forall_holds_cons hs]
      constructor
      · rintro ⟨r₁, hr₁, hr⟩
        obtain ⟨a, ha, rfl⟩ := map_eq_ok_iff.1 hr₁
        obtain ⟨rfl, hall⟩ := (h.forall_holds_put hs hfresh).1 ((ih hd').1 hr)
        exact ⟨ha, hall⟩
      · rintro ⟨hread, hall⟩
        refine ⟨slot.put (slot.get r) before, by rw [hread]; rfl, (ih hd').2 ?_⟩
        exact (h.forall_holds_put hs hfresh).2 ⟨rfl, hall⟩
    · have hget : ∀ slot ∈ slots, Entries.get? slot.name ((name, value) :: members)
          = Entries.get? slot.name members := by
        intro slot hs
        have hne : name ≠ slot.name := fun he => hname (he ▸ List.mem_map_of_mem hs)
        simp [Entries.get?, hne]
      have hskip : record.readMember before (name, value) = .ok before :=
        h.readMember_of_not_mem hname
      rw [hskip]
      constructor
      · rintro ⟨r₁, hr₁, hr⟩ slot hs
        obtain rfl : before = r₁ := Except.ok.inj hr₁
        rw [hget slot hs]
        exact (ih hd').1 hr slot hs
      · intro hall
        refine ⟨before, rfl, (ih hd').2 fun slot hs => ?_⟩
        rw [← hget slot hs]
        exact hall slot hs

/-! ## Items -/

/-- Items are read like members with the names of the fields, if they are not too many. -/
theorem readItems_eq_foldlM (h : record.IsSlotted slots) {length : Nat} (done : List (Slot ρ))
    {left : List (Slot ρ)} (hsplit : slots = done ++ left) {items : List Json}
    (hl : items.length ≤ left.length) :
    readItems length (left.map Slot.field) items before
      = ((left.map Slot.name).zip items).foldlM record.readMember before := by
  induction items generalizing done left before with
  | nil => cases left <;> rfl
  | cons item items ih =>
    cases left with
    | nil => simp at hl
    | cons slot left =>
      have hs : slot ∈ slots := by simp [hsplit]
      have hread : record.readMember before (slot.name, item) = slot.field.set item before := by
        rw [h.readMember_of_mem hs, Slot.field_set]
      have hl' : items.length ≤ left.length := by simpa using hl
      simp only [List.map_cons, readItems, List.zip_cons_cons, List.foldlM_cons, hread]
      cases hset : slot.field.set item before with
      | error e => rfl
      -- the slot that was filled is one of those that are done
      | ok r₁ => exact ih (done ++ [slot]) (by simp [hsplit]) hl'

/-- Items that are too many are not read. -/
theorem readItems_ne_ok {length : Nat} {fields : List (Field ρ)} {items : List Json}
    (hl : fields.length < items.length) : readItems length fields items before ≠ .ok r := by
  induction items generalizing fields before with
  | nil => simp at hl
  | cons item items ih =>
    cases fields with
    | nil => simp [readItems]
    | cons field fields =>
      intro hr
      obtain ⟨r₁, -, hr₁⟩ := bind_eq_ok_iff.1 hr
      exact ih (by simpa using hl) hr₁

/-! ## Values -/

/-- What holds of every slot holds of the slot at each position. -/
theorem forall_mem_iff_getElem? {holds : Slot ρ → Prop} :
    (∀ slot ∈ slots, holds slot) ↔
      ∀ (i : Nat) (slot : Slot ρ), slots[i]? = some slot → holds slot := by
  constructor
  · exact fun hall i slot hi => hall slot (List.mem_of_getElem? hi)
  · intro hall slot hs
    obtain ⟨i, hi⟩ := List.getElem?_of_mem hs
    exact hall i slot hi

/-- An array is read as a record exactly if it is not too long and every slot holds what the item
at its position spells, or what it has by default. -/
theorem read_arr_eq_ok_iff (h : record.IsSlotted slots) {items : List Json} :
    record.read (.arr items) = .ok r ↔ items.length ≤ slots.length ∧
      ∀ (i : Nat) (slot : Slot ρ), slots[i]? = some slot →
        slot.Holds record.default items[i]? r := by
  rw [read, h.fields_eq]
  by_cases hl : items.length ≤ slots.length
  -- items that have positions are members with the names of these positions
  · have hnames : (Entries.names ((slots.map Slot.name).zip items)).Nodup := by
      rw [Entries.names_zip]
      exact h.nodup.sublist (List.take_sublist _ _)
    have hpart : ∀ (i : Nat) (slot : Slot ρ), slots[i]? = some slot →
        Entries.get? slot.name ((slots.map Slot.name).zip items) = items[i]? :=
      fun i slot hi => Entries.get?_zip h.nodup (by simp [hi]) items
    rw [h.readItems_eq_foldlM [] rfl hl, h.foldlM_eq_ok_iff hnames, forall_mem_iff_getElem?]
    constructor
    · refine fun hall => ⟨hl, fun i slot hi => ?_⟩
      rw [← hpart i slot hi]
      exact hall i slot hi
    · rintro ⟨-, hall⟩ i slot hi
      rw [hpart i slot hi]
      exact hall i slot hi
  · have hlong : (slots.map Slot.field).length < items.length := by
      rw [List.length_map]
      omega
    exact ⟨fun hr => absurd hr (readItems_ne_ok hlong), fun hr => absurd hr.1 hl⟩

/-- A value with distinct names is read as a record exactly if it can hold one and every slot holds
what the part of the value spells, or what it has by default. -/
theorem read_eq_ok_iff (h : record.IsSlotted slots) {value : Json} (hd : value.Distinct) :
    record.read value = .ok r ↔ value.IsRecord slots.length ∧
      ∀ (i : Nat) (slot : Slot ρ), slots[i]? = some slot →
        slot.Holds record.default (value.part? i slot.name) r := by
  cases value with
  | obj members =>
    rw [read, h.foldlM_eq_ok_iff hd.names, forall_mem_iff_getElem?]
    exact ⟨fun hall => ⟨.obj members, hall⟩, fun hall => hall.2⟩
  | arr items =>
    rw [h.read_arr_eq_ok_iff]
    constructor
    · exact fun ⟨hl, hall⟩ => ⟨.arr hl, hall⟩
    · rintro ⟨⟨hl⟩, hall⟩
      exact ⟨hl, hall⟩
  | null => exact ⟨nofun, fun hr => nomatch hr.1⟩
  | bool b => exact ⟨nofun, fun hr => nomatch hr.1⟩
  | int n => exact ⟨nofun, fun hr => nomatch hr.1⟩
  | double x => exact ⟨nofun, fun hr => nomatch hr.1⟩
  | str s => exact ⟨nofun, fun hr => nomatch hr.1⟩

end Record.IsSlotted

/-! ## Parts -/

namespace Json

/-- The parts of a value with distinct names have distinct names. -/
theorem Distinct.part? {value : Json} (h : value.Distinct) (position : Nat) (name : String) :
    ∀ v ∈ value.part? position name, v.Distinct := by
  intro v hv
  cases value with
  | arr items => exact h.items v (List.mem_of_getElem? hv)
  | obj members => exact h.get? hv
  | _ => cases hv

variable {α : Type} {read : Json → Except Mismatch α} {item : Json → α → Prop}

/-- A value is read as a text exactly if it holds it. -/
theorem asString_eq_ok_iff {value : Json} {s : String} :
    value.asString = .ok s ↔ IsText value s := by
  constructor
  · intro h
    cases value with
    | str s' =>
      obtain rfl : s' = s := Except.ok.inj h
      exact .str s'
    | _ => cases h
  · rintro ⟨⟩
    rfl

/-- A value is read as a truth value exactly if it holds it. -/
theorem asBool_eq_ok_iff {value : Json} {b : Bool} : value.asBool = .ok b ↔ IsTruth value b := by
  constructor
  · intro h
    cases value with
    | bool b' =>
      obtain rfl : b' = b := Except.ok.inj h
      exact .bool b'
    | _ => cases h
  · rintro ⟨⟩
    rfl

/-- A value is read as a list exactly if it holds it, if that is so for its items. -/
theorem asList_eq_ok_iff {value : Json} {as : List α}
    (hi : ∀ items, value = .arr items → ∀ v ∈ items, ∀ a, read v = .ok a ↔ item v a) :
    value.asList read = .ok as ↔ IsList item value as := by
  cases value with
  | arr items =>
    rw [asList, mapM_eq_ok_iff_forall₂ (hi items rfl)]
    constructor
    · exact .arr
    · rintro ⟨h⟩
      exact h
  | _ => exact ⟨nofun, nofun⟩

/-- A value that may be null is read exactly if it holds what is read or nothing. -/
theorem optional_eq_ok_iff {value : Json} {a : Option α}
    (hi : ∀ b, read value = .ok b ↔ item value b) (hnull : ∀ b, ¬ item .null b) :
    value.optional read = .ok a ↔ IsOptional item (some value) a := by
  by_cases hv : value = .null
  · subst hv
    constructor
    · intro h
      obtain rfl : none = a := Except.ok.inj h
      exact .null
    · intro h
      cases h with
      | null => rfl
      | present hv => exact absurd hv (hnull _)
  · have hmap : value.optional read = (read value).map some := by
      cases value with
      | null => exact absurd rfl hv
      | _ => rfl
    rw [hmap, map_eq_ok_iff]
    constructor
    · rintro ⟨b, hb, rfl⟩
      exact .present ((hi b).1 hb)
    · intro h
      cases h with
      | null => exact absurd rfl hv
      | present hb => exact ⟨_, (hi _).2 hb, rfl⟩

end Json

/-- A slot with an optional part holds exactly what the part does. -/
theorem Slot.holds_optional_iff {ρ α : Type} {read : Json → Except Mismatch α}
    {item : Json → α → Prop} {name : String} {get : ρ → Option α} {put : Option α → ρ → ρ}
    {before r : ρ} {part : Option Json} (hb : get before = none)
    (hi : ∀ value ∈ part, ∀ b, read value = .ok b ↔ item value b) (hnull : ∀ b, ¬ item .null b) :
    (⟨name, (·.optional read), get, put⟩ : Slot ρ).Holds before part r ↔
      Json.IsOptional item part (get r) := by
  cases part with
  | none =>
    show get r = get before ↔ _
    rw [hb]
    generalize get r = a
    constructor
    · rintro rfl
      exact .absent
    · rintro ⟨⟩
      rfl
  | some value => exact Json.optional_eq_ok_iff (hi value rfl) hnull

/-- A slot with an optional text holds exactly what the part does. -/
theorem Slot.holds_text_iff {ρ : Type} {name : String} {get : ρ → Option String}
    {put : Option String → ρ → ρ} {before r : ρ} {part : Option Json} (hb : get before = none) :
    (⟨name, (·.optional Json.asString), get, put⟩ : Slot ρ).Holds before part r ↔
      Json.IsOptional Json.IsText part (get r) :=
  Slot.holds_optional_iff hb (fun _ _ _ => Json.asString_eq_ok_iff) nofun

/-- A slot with an optional truth value holds exactly what the part does. -/
theorem Slot.holds_truth_iff {ρ : Type} {name : String} {get : ρ → Option Bool}
    {put : Option Bool → ρ → ρ} {before r : ρ} {part : Option Json} (hb : get before = none) :
    (⟨name, (·.optional Json.asBool), get, put⟩ : Slot ρ).Holds before part r ↔
      Json.IsOptional Json.IsTruth part (get r) :=
  Slot.holds_optional_iff hb (fun _ _ _ => Json.asBool_eq_ok_iff) nofun

end EndpointTypings
