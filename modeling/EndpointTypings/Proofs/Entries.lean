import EndpointTypings.Proofs.Json.Grammar
import Mathlib.Data.List.Forall2
import Mathlib.Data.List.Induction

/-!
# Merged entries

`Entries.merge` puts a sequence of pairs one after the other. `Entries.merges_iff` says that the
result is the only one that `Entries.Merges` allows: the names in order of their first occurrence,
each with the value of its last. Both directions rest on two facts: entries are determined by their
names and the values found under them (`Entries.ext_get?`), and one more put acts on names and
values as one more pair at the end does.

Merging does not look at the values: pairs that stand one for one for others are merged to entries
that do (`Entries.forall₂_merge`).
-/

namespace EndpointTypings.Entries

variable {α : Type}

/-- A name is found exactly if it is there. -/
theorem get?_eq_none_iff {name : String} {entries : List (String × α)} :
    get? name entries = none ↔ name ∉ names entries := by
  induction entries with
  | nil => simp [get?, names]
  | cons entry rest ih =>
    by_cases h : entry.1 = name
    · simp [get?, names, h]
    · simp only [get?, h, if_false, ih, names, List.map_cons, List.mem_cons, not_or]
      exact ⟨fun hn => ⟨Ne.symm h, hn⟩, And.right⟩

/-- What is found under a name is one of the entries. -/
theorem mem_of_get? {name : String} {value : α} {entries : List (String × α)}
    (h : get? name entries = some value) : (name, value) ∈ entries := by
  induction entries with
  | nil => cases h
  | cons entry rest ih =>
    simp only [get?] at h
    split at h
    · next he =>
      obtain rfl : entry.2 = value := by simpa using h
      subst he
      exact List.mem_cons_self
    · exact List.mem_cons_of_mem _ (ih h)

/-- With distinct names, each entry is what is found under its name. -/
theorem get?_of_mem {name : String} {value : α} {entries : List (String × α)}
    (hd : (names entries).Nodup) (h : (name, value) ∈ entries) :
    get? name entries = some value := by
  induction entries with
  | nil => cases h
  | cons entry rest ih =>
    obtain ⟨hfresh, hd⟩ := List.nodup_cons.1 hd
    rcases List.mem_cons.1 h with rfl | h
    · simp [get?]
    · have hne : entry.1 ≠ name := by
        rintro rfl
        exact hfresh (List.mem_map.2 ⟨_, h, rfl⟩)
      simp [get?, hne, ih hd h]

/-- After a put each entry is the one that was put or one that was there. -/
theorem mem_put {name : String} {value : α} {entry : String × α} {entries : List (String × α)}
    (h : entry ∈ put name value entries) : entry = (name, value) ∨ entry ∈ entries := by
  induction entries with
  | nil => exact .inl (List.mem_singleton.1 h)
  | cons other rest ih =>
    rw [put] at h
    split_ifs at h with hname
    · exact (List.mem_cons.1 h).imp_right (List.mem_cons_of_mem _)
    · rcases List.mem_cons.1 h with rfl | hrest
      · exact .inr List.mem_cons_self
      · exact (ih hrest).imp_right (List.mem_cons_of_mem _)

/-- The names after a put are the old ones and the name that was put. -/
theorem mem_names_put {name other : String} {value : α} {entries : List (String × α)} :
    other ∈ names (put name value entries) ↔ other ∈ names entries ∨ other = name := by
  rw [names_put]
  split_ifs with hname
  · exact ⟨.inl, fun h => h.elim id fun heq => heq ▸ hname⟩
  · rw [List.mem_append, List.mem_singleton]

/-- Entries are determined by their names, if these are distinct, and the values under them. -/
theorem ext_get? {entries others : List (String × α)} (hd : (names entries).Nodup)
    (hn : names entries = names others) (hg : ∀ name, get? name entries = get? name others) :
    entries = others := by
  induction entries generalizing others with
  | nil =>
    cases others with
    | nil => rfl
    | cons other others => simp [names] at hn
  | cons entry entries ih =>
    cases others with
    | nil => simp [names] at hn
    | cons other others =>
      obtain ⟨name, value⟩ := entry
      obtain ⟨name', value'⟩ := other
      obtain ⟨hfresh, hd'⟩ : name ∉ names entries ∧ (names entries).Nodup := List.nodup_cons.1 hd
      obtain ⟨rfl, hn'⟩ : name = name' ∧ names entries = names others := by simpa [names] using hn
      have hv : value = value' := by simpa [get?] using hg name
      have hrest : ∀ other, get? other entries = get? other others := by
        intro other
        by_cases ho : name = other
        · subst ho
          have hfresh' : name ∉ names others := by rwa [← hn']
          rw [get?_eq_none_iff.2 hfresh, get?_eq_none_iff.2 hfresh']
        · simpa [get?, ho] using hg other
      rw [hv, ih hd' hn' hrest]

/-- Merging one more pair is putting it into the merged ones. -/
theorem merge_concat (pairs : List (String × α)) (pair : String × α) :
    merge (pairs ++ [pair]) = put pair.1 pair.2 (merge pairs) := by
  simp [merge, putAll]

/-- Names that are merged stand in order of their first occurrence. -/
theorem names_merge (pairs : List (String × α)) :
    names (merge pairs) = (names pairs).eraseDups := by
  induction pairs using List.reverseRecOn with
  | nil => rfl
  | append_singleton pairs pair ih =>
    have hsplit : names (pairs ++ [pair]) = names pairs ++ [pair.1] := by simp [names]
    rw [merge_concat, names_put, ih, hsplit, List.eraseDups_append]
    by_cases hm : pair.1 ∈ names pairs
    · simp [hm, List.removeAll]
    · simp [hm, List.removeAll, List.eraseDups_cons]

/-- There are as many merged entries as there are different names. -/
theorem length_merge (pairs : List (String × α)) :
    (merge pairs).length = (names pairs).eraseDups.length := by
  rw [← names_merge, names, List.length_map]

/-- A name that is merged has the value of its last occurrence. -/
theorem get?_merge (name : String) (pairs : List (String × α)) :
    get? name (merge pairs) = get? name pairs.reverse := by
  induction pairs using List.reverseRecOn with
  | nil => rfl
  | append_singleton pairs pair ih =>
    rw [merge_concat, List.reverse_concat]
    by_cases h : pair.1 = name
    · subst h
      simp [get?]
    · rw [get?_put_of_ne (Ne.symm h), ih]
      simp [get?, h]

/-- Merging is the only way to merge. -/
theorem merges_iff {pairs merged : List (String × α)} :
    Merges pairs merged ↔ merged = merge pairs := by
  constructor
  · intro h
    -- names and values are the same, and the names are distinct
    refine (ext_get? (nodup_names_merge pairs) ?_ ?_).symm
    · rw [names_merge, h.names_eq]
    · intro name
      rw [get?_merge, h.get?_eq]
  · rintro rfl
    exact ⟨names_merge pairs, fun name => get?_merge name pairs⟩

/-- Merged entries have distinct names. -/
theorem Merges.nodup {pairs merged : List (String × α)} (h : Merges pairs merged) :
    (names merged).Nodup := by
  rw [merges_iff.1 h]
  exact nodup_names_merge pairs

/-- Names that stand before do not matter to a put. -/
theorem put_append {name : String} {front : List (String × α)} (h : name ∉ names front) (value : α)
    (back : List (String × α)) :
    put name value (front ++ back) = front ++ put name value back := by
  induction front with
  | nil => rfl
  | cons entry front ih =>
    obtain ⟨hne, hfront⟩ : name ≠ entry.1 ∧ name ∉ names front := by simpa [names] using h
    simp [put, Ne.symm hne, ih hfront]

/-- A new name is put at the end. -/
theorem put_of_not_mem {name : String} {value : α} {entries : List (String × α)}
    (h : name ∉ names entries) : put name value entries = entries ++ [(name, value)] := by
  simpa [put] using put_append h value []

/-- Pairs with distinct names are merged already. -/
theorem merge_eq_self {pairs : List (String × α)} (h : (names pairs).Nodup) :
    merge pairs = pairs := by
  induction pairs using List.reverseRecOn with
  | nil => rfl
  | append_singleton pairs pair ih =>
    have hsplit : names (pairs ++ [pair]) = names pairs ++ [pair.1] := by simp [names]
    rw [hsplit, List.nodup_append] at h
    obtain ⟨hd, -, hfresh⟩ := h
    have hnew : pair.1 ∉ names pairs := fun hm => hfresh _ hm _ List.mem_cons_self rfl
    rw [merge_concat, ih hd, put_of_not_mem hnew]

/-- Names paired with values are as many as the values, if there are enough. -/
theorem names_zip (keys : List String) (values : List α) :
    names (keys.zip values) = keys.take values.length := by
  induction keys generalizing values with
  | nil => simp [names]
  | cons key keys ih =>
    cases values with
    | nil => rfl
    | cons value values => simp [names, ← ih values]

/-- Under a name that is paired with a value that value is found. -/
theorem get?_zip {keys : List String} (hd : keys.Nodup) {i : Nat} {key : String}
    (hi : keys[i]? = some key) (values : List α) : get? key (keys.zip values) = values[i]? := by
  induction keys generalizing i values with
  | nil => simp at hi
  | cons first keys ih =>
    obtain ⟨hfresh, hd'⟩ := List.nodup_cons.1 hd
    cases values with
    | nil => rfl
    | cons value values =>
      cases i with
      | zero =>
        obtain rfl : first = key := by simpa using hi
        simp [get?]
      | succ i =>
        have hi' : keys[i]? = some key := by simpa using hi
        have hne : first ≠ key := fun he => hfresh (he ▸ List.mem_of_getElem? hi')
        simp [get?, hne, ih hd' hi']

/-! ## Places of entries -/

section Places

variable {name : String} {value : α} {front back : List (String × α)}

/-- A put replaces the first entry of its name. -/
theorem put_append_cons (h : name ∉ names front) (value old : α) (back : List (String × α)) :
    put name value (front ++ (name, old) :: back) = front ++ (name, value) :: back := by
  rw [put_append h]
  simp [put]

/-- With distinct names, the name of an entry stands neither before nor behind it. -/
theorem not_mem_names_of_nodup (h : (names (front ++ (name, value) :: back)).Nodup) :
    name ∉ names front ∧ name ∉ names back := by
  rw [names, List.map_append, List.nodup_append] at h
  obtain ⟨-, hcons, hapart⟩ := h
  exact ⟨fun hmem => hapart name hmem name List.mem_cons_self rfl, (List.nodup_cons.1 hcons).1⟩

/-- Of a choice of entries by name, a put changes the entry of a name that is chosen. -/
theorem filter_put (chosen : String → Bool) (name : String) (value : α)
    (entries : List (String × α)) :
    (put name value entries).filter (fun entry => chosen entry.1)
      = if chosen name then put name value (entries.filter fun entry => chosen entry.1)
        else entries.filter fun entry => chosen entry.1 := by
  induction entries with
  | nil => by_cases h : chosen name <;> simp [put, h]
  | cons entry rest ih =>
    by_cases hname : entry.1 = name
    · subst hname
      by_cases h : chosen entry.1 <;> simp [put, h]
    · by_cases h : chosen entry.1
      · by_cases hchosen : chosen name <;> simp_all [put]
      · simp [put, hname, h, ih]

end Places

/-! ## Entries in the order of their names -/

section Sorted

/-- An entry is put in order behind earlier names only, so lookups find it as if it stood first. -/
theorem get?_insertByName (name : String) (entry : String × α) (entries : List (String × α)) :
    get? name (insertByName entry entries) = get? name (entry :: entries) := by
  induction entries with
  | nil => rfl
  | cons other rest ih =>
    rw [insertByName]
    split_ifs with hlt
    · have hne : other.1 ≠ entry.1 := fun heq => String.lt_irrefl _ (heq ▸ hlt)
      by_cases hname : other.1 = name
      · have hentry : entry.1 ≠ name := hname ▸ hne.symm
        simp [get?, hname, hentry]
      · rw [get?, if_neg hname, ih]
        simp [get?, hname]
    · rfl

/-- Lookups find in the sorted entries what they find in the entries. -/
theorem get?_sortByName (name : String) (entries : List (String × α)) :
    get? name (sortByName entries) = get? name entries := by
  induction entries with
  | nil => rfl
  | cons entry rest ih =>
    have hsort : sortByName (entry :: rest) = insertByName entry (sortByName rest) := rfl
    rw [hsort, get?_insertByName, get?, get?, ih]

/-- An entry in order is one more entry. -/
theorem perm_insertByName (entry : String × α) (entries : List (String × α)) :
    (insertByName entry entries).Perm (entry :: entries) := by
  induction entries with
  | nil => rfl
  | cons other rest ih =>
    rw [insertByName]
    split_ifs
    · exact (ih.cons other).trans (.swap entry other rest)
    · rfl

/-- The sorted entries are the entries in another order. -/
theorem perm_sortByName (entries : List (String × α)) : (sortByName entries).Perm entries := by
  induction entries with
  | nil => rfl
  | cons entry rest ih => exact (perm_insertByName entry _).trans (ih.cons entry)

/-- Sorting keeps names distinct. -/
theorem nodup_names_sortByName {entries : List (String × α)} (h : (names entries).Nodup) :
    (names (sortByName entries)).Nodup :=
  ((perm_sortByName entries).map _).nodup_iff.2 h

/-- An entry is put in order among entries that stand in order. -/
theorem pairwise_insertByName (entry : String × α) {entries : List (String × α)}
    (h : entries.Pairwise fun first next => first.1 ≤ next.1) :
    (insertByName entry entries).Pairwise fun first next => first.1 ≤ next.1 := by
  induction entries with
  | nil => exact List.pairwise_singleton _ _
  | cons other rest ih =>
    obtain ⟨hother, hrest⟩ := List.pairwise_cons.1 h
    rw [insertByName]
    split_ifs with hlt
    · refine List.pairwise_cons.2 ⟨fun next hnext => ?_, ih hrest⟩
      rcases List.mem_cons.1 ((perm_insertByName entry rest).mem_iff.1 hnext) with rfl | hnext
      · exact String.not_lt.1 fun hgt => String.lt_asymm hlt hgt
      · exact hother next hnext
    · have hle : entry.1 ≤ other.1 := String.not_lt.1 hlt
      refine List.pairwise_cons.2 ⟨fun next hnext => ?_, h⟩
      rcases List.mem_cons.1 hnext with rfl | hnext
      · exact hle
      · exact String.le_trans hle (hother next hnext)

/-- Sorted entries stand in order. -/
theorem pairwise_sortByName (entries : List (String × α)) :
    (sortByName entries).Pairwise fun first next => first.1 ≤ next.1 := by
  induction entries with
  | nil => exact .nil
  | cons entry rest ih => exact pairwise_insertByName entry ih

/-- The first of sorted entries in which something is found, once there is one more entry: the new
one, unless nothing is found in it or there is one with a lesser name. -/
theorem findSome?_insertByName {find : String × α → Option (List String)} {entry : String × α}
    {entries : List (String × α)} (hs : entries.Pairwise fun first next => first.1 ≤ next.1)
    (hhead : ∀ other ∈ entries, ∀ names, find other = some names → names.headD "" = other.1) :
    (insertByName entry entries).findSome? find =
      match find entry, entries.findSome? find with
      | none, there => there
      | some here, none => some here
      | some here, some there => if there.headD "" < entry.1 then some there else some here := by
  induction entries with
  | nil => cases hfind : find entry <;> simp [insertByName, hfind]
  | cons other rest ih =>
    obtain ⟨hother, hrest⟩ := List.pairwise_cons.1 hs
    obtain ⟨hhead', hhead''⟩ := List.forall_mem_cons.1 hhead
    rw [insertByName]
    split_ifs with hlt
    · rw [List.findSome?_cons, List.findSome?_cons]
      cases hfind : find other with
      | none => exact ih hrest hhead''
      | some names =>
        -- the name of the other entry is the lesser one
        have hlt' : names.headD "" < entry.1 := hhead' names hfind ▸ hlt
        cases find entry with
        | none => rfl
        | some here => exact (if_pos hlt').symm
    · rw [List.findSome?_cons]
      cases find entry with
      | none => rfl
      | some here =>
        cases hthere : (other :: rest).findSome? find with
        | none => rfl
        | some there =>
          -- whatever is found stands in an entry with no lesser name
          obtain ⟨found, hfound, hnames⟩ := List.exists_of_findSome?_eq_some hthere
          have hle : entry.1 ≤ found.1 := by
            rcases List.mem_cons.1 hfound with rfl | hfound
            · exact String.not_lt.1 hlt
            · exact String.le_trans (String.not_lt.1 hlt) (hother found hfound)
          have hnot : ¬ there.headD "" < entry.1 := by
            rw [hhead found hfound there hnames]
            exact String.not_lt.2 hle
          exact (if_neg hnot).symm

end Sorted

/-! ## Related entries -/

section Related

variable {β : Type}

/-- Entries that stand one for one for others still do when a pair is put that stands for the pair
put on the other side. -/
theorem forall₂_put {related : String × α → String × β → Prop}
    (hname : ∀ pair other, related pair other → pair.1 = other.1) {pair : String × α}
    {other : String × β} (hp : related pair other) {entries : List (String × α)}
    {others : List (String × β)} (h : List.Forall₂ related entries others) :
    List.Forall₂ related (put pair.1 pair.2 entries) (put other.1 other.2 others) := by
  induction h with
  | nil => exact .cons hp .nil
  | @cons entry entry' rest rest' he hrest ih =>
    -- related entries have one name, so that both sides are put at the same place
    have hiff : entry.1 = pair.1 ↔ entry'.1 = other.1 := by
      rw [hname _ _ he, hname _ _ hp]
    simp only [put, hiff]
    split
    · exact .cons hp hrest
    · exact .cons he ih

/-- Pairs that stand one for one for others still do when both are merged. -/
theorem forall₂_merge {related : String × α → String × β → Prop}
    (hname : ∀ pair other, related pair other → pair.1 = other.1) {pairs : List (String × α)}
    {others : List (String × β)} (h : List.Forall₂ related pairs others) :
    List.Forall₂ related (merge pairs) (merge others) := by
  have hall : ∀ merged merged', List.Forall₂ related merged merged' →
      List.Forall₂ related (putAll merged pairs) (putAll merged' others) := by
    induction h with
    | nil => exact fun merged merged' hm => hm
    | cons hp _ ih => exact fun merged merged' hm => ih _ _ (forall₂_put hname hp hm)
  exact hall [] [] .nil

/-- A change of the values of entries. -/
def mapValues (f : α → β) (entries : List (String × α)) : List (String × β) :=
  entries.map fun entry => (entry.1, f entry.2)

/-- A change of values leaves the names alone. -/
@[simp] theorem names_mapValues (f : α → β) (entries : List (String × α)) :
    names (mapValues f entries) = names entries := by
  simp [names, mapValues]

/-- What is found after a change of values is what was found before, changed. -/
theorem get?_mapValues (f : α → β) (name : String) (entries : List (String × α)) :
    get? name (mapValues f entries) = (get? name entries).map f := by
  induction entries with
  | nil => rfl
  | cons entry rest ih =>
    by_cases h : entry.1 = name
    · simp [mapValues, get?, h]
    · simpa [mapValues, get?, h] using ih

end Related

end EndpointTypings.Entries
