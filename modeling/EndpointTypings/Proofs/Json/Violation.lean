import EndpointTypings.Proofs.Json.Record

/-!
# The first violation in a value

A value that does not hold what it should is gone through in document order until something is met
that is not right. `Json.Violation` is the form of the relations that say where this is and what is
met there: a place is the way down to it, by positions among items and members. There is one
relation for each form of shape, and that of a list or a record is made from those of its parts. All
that stands before the place fits; nothing is said of what stands after it.

`Json.Reports` ties a reader to such a relation: it reads what a value holds, and otherwise reports
the mismatch of the first violation. Readers of lists and records report what those of their parts
do (`Json.Reports.list`, `Record.IsSlotted.reports`).
-/

namespace EndpointTypings

namespace Json

/-- What it is to violate a shape first at a place, with a mismatch. -/
abbrev Violation := Json → List Nat → Mismatch → Prop

/-- A value that does not hold a thing of the kind that is expected. -/
inductive KindViolation {α : Type} (item : Json → α → Prop) (expected : String) : Violation
  /-- It holds no such thing. -/
  | mk {value : Json} (h : ∀ a, ¬ item value a) :
      KindViolation item expected value [] (.type value.found expected)

/-- A value that is no text. -/
def TextViolation : Violation := KindViolation IsText "a string"

/-- A value that is no truth value. -/
def TruthViolation : Violation := KindViolation IsTruth "a boolean"

/-- A violation of a part that may also be null. -/
inductive OptionalViolation (violation : Violation) : Violation
  /-- It is not null. -/
  | mk {value : Json} {place : List Nat} {mismatch : Mismatch} (hn : value ≠ .null)
      (hv : violation value place mismatch) : OptionalViolation violation value place mismatch

/-- A value that is no list of items that fit. -/
inductive ListViolation (fits : Json → Prop) (violation : Violation) : Violation
  /-- It is no array. -/
  | noArray {value : Json} (h : ∀ items, value ≠ .arr items) :
      ListViolation fits violation value [] (.type value.found "a sequence")
  /-- The items before the first that does not fit do. -/
  | item {front back : List Json} {value : Json} {place : List Nat} {mismatch : Mismatch}
      (hfront : ∀ other ∈ front, fits other) (hv : violation value place mismatch) :
      ListViolation fits violation (.arr (front ++ value :: back)) (front.length :: place) mismatch

/-- What a field of a record has to hold. -/
structure FieldShape where
  /-- The name of the field. -/
  name : String
  /-- What it is for a value to fit. -/
  fits : Json → Prop
  /-- What it is for a value not to fit. -/
  violation : Violation

/-- The shape of a field that may be null. -/
def FieldShape.optional {α : Type} (name : String) (item : Json → α → Prop)
    (violation : Violation) : FieldShape :=
  ⟨name, fun value => ∃ a, IsOptional item (some value) a, OptionalViolation violation⟩

/-- A value that is no record of fields that fit. -/
inductive RecordViolation (title : String) (fields : List FieldShape) : Violation
  /-- It is neither an object nor an array. -/
  | noRecord {value : Json} (ho : ∀ members, value ≠ .obj members)
      (ha : ∀ items, value ≠ .arr items) :
      RecordViolation title fields value [] (.type value.found ("struct " ++ title))
  /-- A member of an object is of a field and does not fit. Those before it fit if they are of
  fields. -/
  | member {front back : List (String × Json)} {field : FieldShape} {value : Json}
      {place : List Nat} {mismatch : Mismatch}
      (hfront : ∀ member ∈ front, ∀ other ∈ fields, other.name = member.1 → other.fits member.2)
      (hf : field ∈ fields) (hv : field.violation value place mismatch) :
      RecordViolation title fields (.obj (front ++ (field.name, value) :: back))
        (front.length :: place) mismatch
  /-- An item of an array does not fit the field at its position. Those before it fit theirs. -/
  | item {done left : List FieldShape} {front back : List Json} {field : FieldShape} {value : Json}
      {place : List Nat} {mismatch : Mismatch} (hfields : fields = done ++ field :: left)
      (hfront : List.Forall₂ (fun other item => other.fits item) done front)
      (hv : field.violation value place mismatch) :
      RecordViolation title fields (.arr (front ++ value :: back)) (front.length :: place) mismatch
  /-- An array has more items than there are fields. As many as there are fields fit them. -/
  | surplus {front extra : List Json}
      (hfront : List.Forall₂ (fun other item => other.fits item) fields front)
      (he : extra ≠ []) :
      RecordViolation title fields (.arr (front ++ extra)) [] (.surplus (front ++ extra).length)

/-! ## Readers -/

section Readers

variable {α : Type} {read : Json → Except Mismatch α} {item : Json → α → Prop}
  {violation : Violation}

/-- A reader of what values hold that otherwise reports the first violation. -/
structure Reports (read : Json → Except Mismatch α) (item : Json → α → Prop)
    (violation : Violation) : Prop where
  /-- What is read is what the value holds. -/
  ok_iff : ∀ {value : Json}, value.Distinct → ∀ a, read value = .ok a ↔ item value a
  /-- What is reported is the first violation. -/
  error_iff : ∀ {value : Json}, value.Distinct → ∀ mismatch,
    read value = .error mismatch ↔ ∃ place, violation value place mismatch

/-- A kind of value is reported if its reader names it. -/
theorem reports_kind {expected : String} (hok : ∀ value a, read value = .ok a ↔ item value a)
    (herror : ∀ value, (∀ a, ¬ item value a) → read value = .error (.type value.found expected)) :
    Reports read item (KindViolation item expected) where
  ok_iff _ := hok _
  error_iff {value} _ mismatch := by
    constructor
    · intro h
      have hnone : ∀ a, ¬ item value a := by
        intro a ha
        rw [(hok value a).2 ha] at h
        cases h
      obtain rfl := Except.error.inj (h.symm.trans (herror value hnone))
      exact ⟨[], .mk hnone⟩
    · rintro ⟨_, ⟨hnone⟩⟩
      exact herror value hnone

/-- Texts are reported. -/
theorem reports_asString : Reports asString IsText TextViolation := by
  refine reports_kind (fun _ _ => asString_eq_ok_iff) fun value h => ?_
  cases value with
  | str s => exact absurd (.str s) (h s)
  | _ => rfl

/-- Truth values are reported. -/
theorem reports_asBool : Reports asBool IsTruth TruthViolation := by
  refine reports_kind (fun _ _ => asBool_eq_ok_iff) fun value h => ?_
  cases value with
  | bool b => exact absurd (.bool b) (h b)
  | _ => rfl

/-- A part that may be null is reported if it is not null. -/
theorem Reports.optional (h : Reports read item violation) (hnull : ∀ a, ¬ item .null a) :
    Reports (·.optional read) (fun value => IsOptional item (some value))
      (OptionalViolation violation) where
  ok_iff hd _ := optional_eq_ok_iff (h.ok_iff hd) hnull
  error_iff {value} hd mismatch := by
    by_cases hv : value = .null
    · subst hv
      exact ⟨nofun, fun ⟨_, ⟨hn, _⟩⟩ => absurd rfl hn⟩
    · have hmap : value.optional read = (read value).map some := by
        cases value with
        | null => exact absurd rfl hv
        | _ => rfl
      rw [hmap, map_eq_error_iff, h.error_iff hd]
      exact ⟨fun ⟨place, h⟩ => ⟨place, .mk hv h⟩, fun ⟨place, ⟨_, h⟩⟩ => ⟨place, h⟩⟩

/-- A list is reported as its items are. -/
theorem Reports.list (h : Reports read item violation) :
    Reports (·.asList read) (IsList item)
      (ListViolation (fun value => ∃ a, item value a) violation) where
  ok_iff hd _ := asList_eq_ok_iff fun _ hitems v hv => by
    subst hitems
    exact h.ok_iff (hd.items v hv)
  error_iff {value} hd mismatch := by
    cases value with
    | arr items =>
      rw [asList, mapM_eq_error_iff]
      constructor
      · rintro ⟨front, bad, back, rfl, hfront, hbad⟩
        have hd' := hd.items
        obtain ⟨place, hv⟩ := (h.error_iff (hd' bad (by simp)) _).1 hbad
        refine ⟨_, .item (fun other ho => ?_) hv⟩
        obtain ⟨a, ha⟩ := exists_ok_iff.2 (hfront other ho)
        exact ⟨a, (h.ok_iff (hd' other (by simp [ho])) a).1 ha⟩
      · rintro ⟨_, h'⟩
        generalize hvalue : Json.arr items = value at h'
        cases h' with
        | noArray hn => exact absurd hvalue.symm (hn items)
        | @item front back bad place _ hfront hv =>
          obtain rfl := Json.arr.inj hvalue
          have hd' := hd.items
          refine ⟨front, bad, back, rfl, fun other ho => ?_,
            (h.error_iff (hd' bad (by simp)) _).2 ⟨place, hv⟩⟩
          obtain ⟨a, ha⟩ := hfront other ho
          exact exists_ok_iff.1 ⟨a, (h.ok_iff (hd' other (by simp [ho])) a).2 ha⟩
    | _ =>
      constructor
      · rintro ⟨⟩
        exact ⟨[], .noArray (by simp)⟩
      · rintro ⟨_, ⟨_⟩⟩
        rfl

end Readers

end Json

open Json

/-! ## Records -/

section Records

variable {ρ : Type} {record : Record ρ} {parts : List (Slot ρ × FieldShape)}

/-- A slot whose reader tells what fits the shape of a field and reports what does not. -/
structure Slot.Fills (slot : Slot ρ) (field : FieldShape) : Prop where
  /-- Both have the same name. -/
  name_eq : slot.name = field.name
  /-- A value that fits is read. -/
  fits_iff : ∀ {value : Json}, value.Distinct →
    ((∃ a, slot.read value = .ok a) ↔ field.fits value)
  /-- What is reported is the first violation. -/
  error_iff : ∀ {value : Json}, value.Distinct → ∀ mismatch,
    slot.read value = .error mismatch ↔ ∃ place, field.violation value place mismatch

/-- The slot of a part that may be null fills the field of such a part. -/
theorem Json.Reports.fills {α : Type} {read : Json → Except Mismatch α} {item : Json → α → Prop}
    {violation : Violation} (h : Reports read item violation) (hnull : ∀ a, ¬ item .null a)
    {name : String} {get : ρ → Option α} {put : Option α → ρ → ρ} :
    Slot.Fills ⟨name, (·.optional read), get, put⟩ (.optional name item violation) where
  name_eq := rfl
  fits_iff hd := exists_congr ((h.optional hnull).ok_iff hd)
  error_iff hd := (h.optional hnull).error_iff hd

/-- A value that fits a field violates nothing. -/
theorem Slot.Fills.fits_iff_forall {slot : Slot ρ} {field : FieldShape} (h : slot.Fills field)
    {value : Json} (hd : value.Distinct) :
    field.fits value ↔ ∀ mismatch, ¬ ∃ place, field.violation value place mismatch := by
  rw [← h.fits_iff hd, exists_ok_iff]
  simp only [ne_eq, h.error_iff hd]

namespace Record.IsSlotted

/-- A member of an object fails if it is of a field and does not fit, whatever was read before. -/
theorem readMember_eq_error_iff (h : record.IsSlotted (parts.map Prod.fst))
    (hf : ∀ part ∈ parts, part.1.Fills part.2) {member : String × Json} (hd : member.2.Distinct)
    (before : ρ) (mismatch : Mismatch) :
    record.readMember before member = .error mismatch ↔
      ∃ field ∈ parts.map Prod.snd, field.name = member.1 ∧
        ∃ place, field.violation member.2 place mismatch := by
  obtain ⟨name, value⟩ := member
  -- what is read at the name is what the slot of that name reads
  have hread : ∀ part ∈ parts, part.2.name = name →
      (record.readMember before (name, value) = .error mismatch ↔
        ∃ place, part.2.violation value place mismatch) := by
    rintro part hp rfl
    rw [← (hf part hp).name_eq, h.readMember_of_mem (List.mem_map_of_mem hp), map_eq_error_iff,
      (hf part hp).error_iff hd]
  constructor
  · intro he
    by_cases hname : name ∈ (parts.map Prod.fst).map Slot.name
    · obtain ⟨slot, hs, rfl⟩ := List.mem_map.1 hname
      obtain ⟨part, hp, rfl⟩ := List.mem_map.1 hs
      have hsame := (hf part hp).name_eq.symm
      exact ⟨part.2, List.mem_map_of_mem hp, hsame, (hread part hp hsame).1 he⟩
    · rw [h.readMember_of_not_mem hname] at he
      cases he
  · rintro ⟨field, hfield, hname, hv⟩
    obtain ⟨part, hp, rfl⟩ := List.mem_map.1 hfield
    exact (hread part hp hname).2 hv

/-- An object is refused for the first of its members that is of a field and does not fit. -/
theorem read_obj_eq_error_iff (h : record.IsSlotted (parts.map Prod.fst))
    (hf : ∀ part ∈ parts, part.1.Fills part.2) {members : List (String × Json)}
    (hd : ∀ member ∈ members, member.2.Distinct) {mismatch : Mismatch} :
    record.read (.obj members) = .error mismatch ↔
      ∃ place, RecordViolation record.title (parts.map Prod.snd) (.obj members) place mismatch := by
  rw [Record.read, foldlM_eq_error_iff fun member hm before e =>
    h.readMember_eq_error_iff hf (hd member hm) before e]
  -- a member that does not fail fits every field of its name
  have hfits : ∀ member ∈ members,
      (∀ e, ¬ ∃ field ∈ parts.map Prod.snd, field.name = member.1 ∧
        ∃ place, field.violation member.2 place e) ↔
      ∀ field ∈ parts.map Prod.snd, field.name = member.1 → field.fits member.2 := by
    intro member hm
    have hfield : ∀ field ∈ parts.map Prod.snd, (field.fits member.2 ↔
        ∀ e, ¬ ∃ place, field.violation member.2 place e) := by
      intro field hfield
      obtain ⟨part, hp, rfl⟩ := List.mem_map.1 hfield
      exact (hf part hp).fits_iff_forall (hd member hm)
    constructor
    · intro hnone field hmem hname
      exact (hfield field hmem).2 fun e hv => hnone e ⟨field, hmem, hname, hv⟩
    · rintro hall e ⟨field, hmem, hname, hv⟩
      exact (hfield field hmem).1 (hall field hmem hname) e hv
  constructor
  · rintro ⟨front, ⟨name, value⟩, back, rfl, hfront, field, hfield, rfl, place, hv⟩
    exact ⟨_, .member (fun member hm => (hfits member (by simp [hm])).1 (hfront member hm))
      hfield hv⟩
  · rintro ⟨_, hv⟩
    generalize hvalue : Json.obj members = value at hv
    cases hv with
    | noRecord ho _ => exact absurd hvalue.symm (ho members)
    | @member front back field value place _ hfront hfield hv =>
      obtain rfl := Json.obj.inj hvalue
      exact ⟨front, _, back, rfl,
        fun member hm => (hfits member (by simp [hm])).2 (hfront member hm),
        field, hfield, rfl, place, hv⟩
    | item => cases hvalue
    | surplus => cases hvalue

/-- The items of an array, which are `length` in all, are refused for the first that does not fit
the field at its position, or because some are left over. -/
def ItemsRefused (length : Nat) (fields : List FieldShape) (items : List Json)
    (mismatch : Mismatch) : Prop :=
  (∃ done field left front item back place, fields = done ++ field :: left ∧
    items = front ++ item :: back ∧
    List.Forall₂ (fun (other : FieldShape) item => other.fits item) done front ∧
    field.violation item place mismatch) ∨
  ∃ front extra, items = front ++ extra ∧ extra ≠ [] ∧
    List.Forall₂ (fun (other : FieldShape) item => other.fits item) fields front ∧
    mismatch = .surplus length

section Items

variable {length : Nat} {field : FieldShape} {fields : List FieldShape} {item : Json}
  {items : List Json} {mismatch : Mismatch}

/-- No items are not refused. -/
theorem not_itemsRefused_nil : ¬ ItemsRefused length fields [] mismatch := by
  rintro (⟨_, _, _, front, _, _, _, _, h, -⟩ | ⟨front, extra, h, he, -⟩)
  · simp at h
  · exact he (List.append_eq_nil_iff.1 h.symm).2

/-- Without fields all items are left over. -/
theorem itemsRefused_no_fields_iff :
    ItemsRefused length [] (item :: items) mismatch ↔ mismatch = .surplus length := by
  constructor
  · rintro (⟨_, _, _, _, _, _, _, h, -⟩ | ⟨_, _, -, -, -, h⟩)
    · simp at h
    · exact h
  · intro h
    exact .inr ⟨[], item :: items, rfl, by simp, .nil, h⟩

/-- Items are refused for the first item, or it fits and the others are refused. -/
theorem itemsRefused_cons_iff :
    ItemsRefused length (field :: fields) (item :: items) mismatch ↔
      (∃ place, field.violation item place mismatch) ∨
        field.fits item ∧ ItemsRefused length fields items mismatch := by
  constructor
  · rintro (⟨done, bad, left, front, value, back, place, hfields, hitems, hfront, hv⟩ |
      ⟨front, extra, hitems, he, hfront, hm⟩)
    · cases hfront with
      | nil =>
        obtain ⟨rfl, -⟩ := List.cons.inj hfields
        obtain ⟨rfl, -⟩ := List.cons.inj hitems
        exact .inl ⟨place, hv⟩
      | @cons first w done front hfits hfront =>
        obtain ⟨rfl, hfields'⟩ := List.cons.inj hfields
        obtain ⟨rfl, hitems'⟩ := List.cons.inj hitems
        exact .inr ⟨hfits, .inl ⟨done, bad, left, front, value, back, place, hfields', hitems',
          hfront, hv⟩⟩
    · cases hfront with
      | @cons _ w _ front hfits hfront =>
        obtain ⟨rfl, hitems'⟩ := List.cons.inj hitems
        exact .inr ⟨hfits, .inr ⟨front, extra, hitems', he, hfront, hm⟩⟩
  · rintro (⟨place, hv⟩ | ⟨hfits, ⟨done, bad, left, front, value, back, place, rfl, rfl, hfront,
      hv⟩ | ⟨front, extra, rfl, he, hfront, hm⟩⟩)
    · exact .inl ⟨[], field, fields, [], item, items, place, rfl, rfl, .nil, hv⟩
    · exact .inl ⟨field :: done, bad, left, item :: front, value, back, place, rfl, rfl,
        .cons hfits hfront, hv⟩
    · exact .inr ⟨item :: front, extra, rfl, he, .cons hfits hfront, hm⟩

/-- An array is no record exactly if its items are refused. -/
theorem exists_recordViolation_arr_iff {title : String} :
    (∃ place, RecordViolation title fields (.arr items) place mismatch) ↔
      ItemsRefused items.length fields items mismatch := by
  constructor
  · rintro ⟨_, hv⟩
    generalize hvalue : Json.arr items = value at hv
    cases hv with
    | noRecord _ ha => exact absurd hvalue.symm (ha items)
    | member => cases hvalue
    | @item done left front back field value place _ hsplit hfront hv =>
      exact .inl ⟨done, field, left, front, value, back, place, hsplit, Json.arr.inj hvalue,
        hfront, hv⟩
    | @surplus front extra hfront he =>
      obtain rfl := Json.arr.inj hvalue
      exact .inr ⟨front, extra, rfl, he, hfront, rfl⟩
  · rintro (⟨done, field, left, front, bad, back, place, hsplit, rfl, hfront, hv⟩ |
      ⟨front, extra, rfl, he, hfront, rfl⟩)
    · exact ⟨_, .item hsplit hfront hv⟩
    · exact ⟨_, .surplus hfront he⟩

end Items

/-- Reading items gives an error exactly if they are refused. -/
theorem readItems_eq_error_iff (hf : ∀ part ∈ parts, part.1.Fills part.2) {items : List Json}
    (hd : ∀ item ∈ items, item.Distinct) {length : Nat} {before : ρ} {mismatch : Mismatch} :
    readItems length (parts.map fun part => part.1.field) items before = .error mismatch ↔
      ItemsRefused length (parts.map Prod.snd) items mismatch := by
  induction items generalizing parts before with
  | nil =>
    have hread : readItems length (parts.map fun part => part.1.field) [] before = .ok before := by
      cases parts <;> rfl
    rw [hread]
    exact ⟨nofun, fun h => absurd h not_itemsRefused_nil⟩
  | cons item items ih =>
    obtain ⟨hditem, hditems⟩ := List.forall_mem_cons.1 hd
    cases parts with
    | nil =>
      rw [List.map_nil, List.map_nil, itemsRefused_no_fields_iff]
      exact ⟨fun h => (Except.error.inj h).symm, fun h => congrArg Except.error h.symm⟩
    | cons part parts =>
      obtain ⟨hpart, hparts⟩ := List.forall_mem_cons.1 hf
      have hstep : readItems length ((part :: parts).map fun part => part.1.field) (item :: items)
          before = ((part.1.read item).map (part.1.put · before) >>= fun r =>
            readItems length (parts.map fun part => part.1.field) items r) := by
        rw [← Slot.field_set]
        rfl
      rw [hstep, bind_eq_error_iff, map_eq_error_iff, hpart.error_iff hditem, List.map_cons,
        itemsRefused_cons_iff, ← hpart.fits_iff hditem]
      simp only [ih hparts hditems, map_eq_ok_iff]
      -- whether the first item is read does not depend on what was read before it
      refine or_congr_right ⟨?_, ?_⟩
      · rintro ⟨_, ⟨a, ha, -⟩, h⟩
        exact ⟨⟨a, ha⟩, h⟩
      · rintro ⟨⟨a, ha⟩, h⟩
        exact ⟨_, ⟨a, ha, rfl⟩, h⟩

/-- An array is refused for the first of its items that does not fit, or for those left over. -/
theorem read_arr_eq_error_iff (h : record.IsSlotted (parts.map Prod.fst))
    (hf : ∀ part ∈ parts, part.1.Fills part.2) {items : List Json}
    (hd : ∀ item ∈ items, item.Distinct) {mismatch : Mismatch} :
    record.read (.arr items) = .error mismatch ↔
      ∃ place, RecordViolation record.title (parts.map Prod.snd) (.arr items) place mismatch := by
  have hfields : record.fields = parts.map fun part => part.1.field := by
    rw [h.fields_eq, List.map_map]
    rfl
  rw [Record.read, hfields, readItems_eq_error_iff hf hd, exists_recordViolation_arr_iff]

/-- A record is reported as its fields are. -/
theorem reports {slots : List (Slot ρ)} {fields : List FieldShape} (h : record.IsSlotted slots)
    (hf : List.Forall₂ Slot.Fills slots fields) {item : Json → ρ → Prop}
    (hok : ∀ {value : Json}, value.Distinct → ∀ r, record.read value = .ok r ↔ item value r) :
    Reports record.read item (RecordViolation record.title fields) where
  ok_iff hd r := hok hd r
  error_iff {value} hd mismatch := by
    obtain ⟨hlength, hzip⟩ := List.forall₂_iff_zip.1 hf
    obtain ⟨parts, rfl, rfl, hparts⟩ : ∃ parts : List (Slot ρ × FieldShape),
        parts.map Prod.fst = slots ∧ parts.map Prod.snd = fields ∧
          ∀ part ∈ parts, part.1.Fills part.2 :=
      ⟨slots.zip fields, List.map_fst_zip (Nat.le_of_eq hlength),
        List.map_snd_zip (Nat.le_of_eq hlength.symm), fun _ hp => hzip hp⟩
    cases value with
    | obj members =>
      cases hd with
      | obj _ hm => exact h.read_obj_eq_error_iff hparts hm
    | arr items => exact h.read_arr_eq_error_iff hparts hd.items
    | _ =>
      constructor
      · rintro ⟨⟩
        exact ⟨[], .noRecord nofun nofun⟩
      · rintro ⟨_, ⟨_⟩⟩
        rfl

end Record.IsSlotted

end Records

end EndpointTypings
