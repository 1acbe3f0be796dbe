import EndpointTypings.Proofs.Json.Distinct

/-!
# Documents as they are written

The value that a text spells has the members of its objects merged. `Json.IsVerbatim` is the same
grammar without merging: the value that it gives a text has every member in its place, repeated
names and all. `Json.merged` merges the members at all levels, and `Json.isDocument_iff_verbatim`
says that a text spells a value exactly if it spells, as it is written, one that is merged to it.

What is said of documents with repeated names is said about the value as it is written.
-/

namespace EndpointTypings.Json

mutual

/-- A value with the repeated names of every object in it merged. -/
def merged : Json → Json
  | arr items => arr (mergedItems items)
  | obj members => obj (Entries.merge (mergedMembers members))
  | null => null
  | bool b => bool b
  | int n => int n
  | double x => double x
  | str s => str s

/-- The items of an array, each with repeated names merged. -/
def mergedItems : List Json → List Json
  | [] => []
  | item :: items => item.merged :: mergedItems items

/-- The members of an object, each value with repeated names merged, and the members as they are. -/
def mergedMembers : List (String × Json) → List (String × Json)
  | [] => []
  | (name, value) :: members => (name, value.merged) :: mergedMembers members

end

/-- Items are merged one by one. -/
theorem mergedItems_eq_map (items : List Json) : mergedItems items = items.map merged := by
  induction items with
  | nil => rfl
  | cons item items ih => rw [mergedItems, ih, List.map_cons]

/-- The values of members are merged one by one. -/
theorem mergedMembers_eq_mapValues (members : List (String × Json)) :
    mergedMembers members = Entries.mapValues merged members := by
  induction members with
  | nil => rfl
  | cons member members ih =>
    rw [mergedMembers, ih]
    rfl

/-- Only an object is merged to an object. -/
theorem merged_eq_obj_iff {v : Json} {members : List (String × Json)} :
    v.merged = .obj members ↔
      ∃ written, v = .obj written ∧ Entries.merge (mergedMembers written) = members := by
  cases v <;> simp [merged]

/-- A value as it is written, whose parts are values of an inner level. -/
inductive IsVerbatimLayer (inner : List Char → Json → Prop) : List Char → Json → Prop
  /-- A value without parts. -/
  | scalar {s : List Char} {v : Json} (hs : IsScalar s v) : IsVerbatimLayer inner s v
  /-- An array. -/
  | array {s : List Char} {items : List Json} (hc : IsContent inner s items) :
      IsVerbatimLayer inner ('[' :: (s ++ [']'])) (.arr items)
  /-- An object, its members in the order in which they are written. -/
  | object {s : List Char} {members : List (String × Json)}
      (hc : IsContent (IsMember inner) s members) :
      IsVerbatimLayer inner ('\x7b' :: (s ++ ['\x7d'])) (.obj members)

/-- A value as it is written, whose arrays and objects nest at most the given number of levels. -/
def IsVerbatim : Nat → List Char → Json → Prop
  | 0 => IsScalar
  | depth + 1 => IsVerbatimLayer (IsVerbatim depth)

/-- A document as it is written: a value with white space around it. -/
def IsVerbatimDocument (s : List Char) (value : Json) : Prop :=
  IsPadded (IsVerbatim maxDepth) s value

variable {s : List Char} {v : Json}

/-! ## The parts of two grammars -/

section Parts

variable {α β : Type} {item : List Char → α → Prop} {item' : List Char → β → Prop} {f : β → α}

/-- If an item is spelled exactly if something is that stands for it, so is a padded item. -/
theorem isPadded_iff_of_item (h : ∀ t a, item t a ↔ ∃ b, item' t b ∧ f b = a) {a : α} :
    IsPadded item s a ↔ ∃ b, IsPadded item' s b ∧ f b = a := by
  constructor
  · rintro ⟨hb, hi, ha⟩
    obtain ⟨b, hi', rfl⟩ := (h _ _).1 hi
    exact ⟨b, .mk hb hi' ha, rfl⟩
  · rintro ⟨b, ⟨hb, hi, ha⟩, rfl⟩
    exact .mk hb ((h _ _).2 ⟨b, hi, rfl⟩) ha

/-- If an item is spelled exactly if something is that stands for it, so is a sequence of items. -/
theorem isSequence_iff_of_item (h : ∀ t a, item t a ↔ ∃ b, item' t b ∧ f b = a) {as : List α} :
    IsSequence item s as ↔ ∃ bs, IsSequence item' s bs ∧ bs.map f = as := by
  constructor
  · intro hs
    induction hs with
    | one hp =>
      obtain ⟨b, hp', rfl⟩ := (isPadded_iff_of_item h).1 hp
      exact ⟨[b], .one hp', rfl⟩
    | more hp _ ih =>
      obtain ⟨b, hp', rfl⟩ := (isPadded_iff_of_item h).1 hp
      obtain ⟨bs, hs', rfl⟩ := ih
      exact ⟨b :: bs, .more hp' hs', rfl⟩
  · rintro ⟨bs, hs, rfl⟩
    induction hs with
    | one hp => exact .one ((isPadded_iff_of_item h).2 ⟨_, hp, rfl⟩)
    | more hp _ ih => exact .more ((isPadded_iff_of_item h).2 ⟨_, hp, rfl⟩) ih

/-- If an item is spelled exactly if something is that stands for it, so are the items between
brackets. -/
theorem isContent_iff_of_item (h : ∀ t a, item t a ↔ ∃ b, item' t b ∧ f b = a) {as : List α} :
    IsContent item s as ↔ ∃ bs, IsContent item' s bs ∧ bs.map f = as := by
  constructor
  · rintro (hb | hs)
    · exact ⟨[], .empty hb, rfl⟩
    · obtain ⟨bs, hs', rfl⟩ := (isSequence_iff_of_item h).1 hs
      exact ⟨bs, .items hs', rfl⟩
  · rintro ⟨bs, hb | hs, rfl⟩
    · exact .empty hb
    · exact .items ((isSequence_iff_of_item h).2 ⟨bs, hs, rfl⟩)

end Parts

/-! ## Values and documents -/

/-- A value without parts has nothing to merge. -/
theorem IsScalar.merged_eq (h : IsScalar s v) : v.merged = v := by
  cases h with
  | null => rfl
  | true => rfl
  | false => rfl
  | string _ => rfl
  | @number s n _ _ hv =>
    unfold Numeral.value at hv
    split at hv
    · obtain rfl := Option.some.inj hv
      rfl
    · obtain ⟨x, -, rfl⟩ := Option.map_eq_some_iff.1 hv
      rfl

/-- A value without parts is written as it is. -/
theorem isScalar_iff_verbatim : IsScalar s v ↔ ∃ w, IsScalar s w ∧ w.merged = v := by
  constructor
  · exact fun h => ⟨v, h, h.merged_eq⟩
  · rintro ⟨w, h, rfl⟩
    rwa [h.merged_eq]

/-- A member is spelled exactly if one is, as it is written, whose value is merged to its value. -/
theorem isMember_iff_verbatim {inner verbatim : List Char → Json → Prop}
    (h : ∀ t v, inner t v ↔ ∃ w, verbatim t w ∧ w.merged = v) (t : List Char)
    (member : String × Json) :
    IsMember inner t member ↔
      ∃ member', IsMember verbatim t member' ∧ (member'.1, member'.2.merged) = member := by
  constructor
  · rintro ⟨hn, hb, ha, hv⟩
    obtain ⟨w, hw, rfl⟩ := (h _ _).1 hv
    exact ⟨(_, w), .mk hn hb ha hw, rfl⟩
  · rintro ⟨member', ⟨hn, hb, ha, hv⟩, rfl⟩
    exact .mk hn hb ha ((h _ _).2 ⟨_, hv, rfl⟩)

/-- A text spells a value exactly if it spells one, as it is written, that is merged to it. -/
theorem isValue_iff_verbatim {depth : Nat} :
    IsValue depth s v ↔ ∃ w, IsVerbatim depth s w ∧ w.merged = v := by
  induction depth generalizing s v with
  | zero => exact isScalar_iff_verbatim
  | succ depth ih =>
    have hinner : ∀ t v, IsValue depth t v ↔ ∃ w, IsVerbatim depth t w ∧ w.merged = v :=
      fun t v => ih
    constructor
    · rintro (hs | hc | ⟨hc, hm⟩)
      · exact ⟨v, .scalar hs, hs.merged_eq⟩
      · obtain ⟨items, hc', rfl⟩ := (isContent_iff_of_item hinner).1 hc
        exact ⟨.arr items, .array hc', by rw [merged, mergedItems_eq_map]⟩
      · obtain ⟨members, hc', rfl⟩ :=
          (isContent_iff_of_item (isMember_iff_verbatim hinner)).1 hc
        obtain rfl := Entries.merges_iff.1 hm
        exact ⟨.obj members, .object hc', by rw [merged, mergedMembers_eq_mapValues]; rfl⟩
    · rintro ⟨w, hs | hc | hc, rfl⟩
      · rw [hs.merged_eq]
        exact .scalar hs
      · rw [merged, mergedItems_eq_map]
        exact .array ((isContent_iff_of_item hinner).2 ⟨_, hc, rfl⟩)
      · rw [merged, mergedMembers_eq_mapValues]
        exact .object
          ((isContent_iff_of_item (isMember_iff_verbatim hinner)).2 ⟨_, hc, rfl⟩)
          (Entries.merges_iff.2 rfl)

/-- A value in which names are distinct has nothing to merge. -/
theorem Distinct.merged_eq (h : Distinct v) : v.merged = v := by
  induction h with
  | null => rfl
  | bool _ => rfl
  | int _ => rfl
  | double _ => rfl
  | str _ => rfl
  | arr _ ih => rw [merged, mergedItems_eq_map, List.map_congr_left ih, List.map_id']
  | @obj members hn _ ih =>
    have hvalues : Entries.mapValues merged members = members := by
      rw [Entries.mapValues]
      refine (List.map_congr_left fun member hm => ?_).trans (List.map_id' members)
      rw [ih member hm]
    rw [merged, mergedMembers_eq_mapValues, hvalues, Entries.merge_eq_self hn]

/-- A text is the document of a value exactly if it is the document, as it is written, of one that
is merged to it. -/
theorem isDocument_iff_verbatim : IsDocument s v ↔ ∃ w, IsVerbatimDocument s w ∧ w.merged = v := by
  have hvalue : ∀ t v, IsValue maxDepth t v ↔ ∃ w, IsVerbatim maxDepth t w ∧ w.merged = v :=
    fun t v => isValue_iff_verbatim
  exact isPadded_iff_of_item hvalue

end EndpointTypings.Json
