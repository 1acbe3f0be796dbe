import EndpointTypings.Proofs.Entries
import EndpointTypings.Proofs.Steps
import EndpointTypings.Toml.Reader

/-!
# Distinct keys in TOML documents

TOML defines every key once. A table is grown by dotted keys, by headers and by arrays of tables,
each time through `Entries.put`, and `Table.Distinct` is what all of them keep: the names of a table
are distinct, at all levels. `Toml.distinct_of_parse` gives it to the table of every document, so
that what a document says of a key is said by one entry.

A dotted key and a header take the same way: each part of them but the last enters an inner table,
which is changed and put back (`Table.Enters`). What that way keeps, both keep.
-/

namespace EndpointTypings.Toml

/-- The names in every table of a value are distinct. -/
inductive Value.Distinct : Value → Prop
  /-- A value without parts has no tables in it. -/
  | scalar (span : Span) (value : Scalar) : Distinct (.scalar span value)
  /-- The tables in an array are those in its items. -/
  | array {span : Span} {ofTables : Bool} {items : List Value}
      (hi : ∀ item ∈ items, Distinct item) : Distinct (.array span ofTables items)
  /-- A table is among the tables in it. -/
  | table {span : Span} {kind : TableKind} {entries : List (String × Span × Value)}
      (hn : (Entries.names entries).Nodup) (he : ∀ entry ∈ entries, Distinct entry.2.2) :
      Distinct (.table span kind entries)

/-- The names in a table are distinct, and so are those in every table below it. -/
structure Table.Distinct (table : Table) : Prop where
  /-- The names of the table itself. -/
  names : (Entries.names table).Nodup
  /-- The tables in its values. -/
  values : ∀ entry ∈ table, entry.2.2.Distinct

variable {value : Value} {table inner changed : Table} {span place : Span} {kind : TableKind}
  {name : String} {key : Key} {keys : List Key}

/-! ## Values and tables -/

/-- A table as a value is as distinct as the table. -/
theorem Value.distinct_table_iff : (Value.table span kind table).Distinct ↔ table.Distinct := by
  constructor
  · intro h
    cases h with
    | table hn he => exact ⟨hn, he⟩
  · exact fun h => .table h.names h.values

/-- The items of an array. -/
theorem Value.Distinct.items {ofTables : Bool} {items : List Value}
    (h : (Value.array span ofTables items).Distinct) : ∀ item ∈ items, item.Distinct := by
  cases h with
  | array hi => exact hi

namespace Table

/-- No names are distinct. -/
theorem distinct_nil : Table.Distinct [] :=
  ⟨List.nodup_nil, nofun⟩

/-- What is found in a table. -/
theorem Distinct.get? (h : table.Distinct)
    (hget : Entries.get? name table = some (place, value)) : value.Distinct :=
  h.values _ (Entries.mem_of_get? hget)

/-- A table with a value put. -/
theorem Distinct.put {found : Span × Value} (h : table.Distinct) (hv : found.2.Distinct) :
    Table.Distinct (Entries.put name found table) := by
  refine ⟨Entries.nodup_names_put h.names, fun entry hentry => ?_⟩
  rcases Entries.mem_put hentry with rfl | hold
  · exact hv
  · exact h.values entry hold

/-! ## The way into a table -/

/-- A table that is entered from another one by a key, and what stands under the key once it is
changed: a new table, the one that is there, or the last one of an array. -/
inductive Enters (key : Key) (table : Table) : Table → (Table → Span × Value) → Prop
  /-- Nothing stands there yet. -/
  | new (kind : TableKind) (hget : Entries.get? key.name table = none) :
      Enters key table [] fun changed => (key.span, .table key.span kind changed)
  /-- A table stands there. -/
  | table {place span : Span} {kind : TableKind} {inner : Table}
      (hget : Entries.get? key.name table = some (place, .table span kind inner)) :
      Enters key table inner fun changed => (place, .table span kind changed)
  /-- An array of tables stands there. -/
  | last {place span inside : Span} {kind : TableKind} {items : List Value} {inner : Table}
      (hget : Entries.get? key.name table = some (place, .array span true items))
      (hlast : items.getLast? = some (.table inside kind inner)) :
      Enters key table inner fun changed =>
        (place, .array span true (items.dropLast ++ [.table inside kind changed]))

variable {back : Table → Span × Value}

/-- The table that is entered. -/
theorem Enters.distinct (h : Enters key table inner back) (ht : table.Distinct) :
    inner.Distinct := by
  cases h with
  | new kind hget => exact distinct_nil
  | table hget => exact Value.distinct_table_iff.1 (ht.get? hget)
  | last hget hlast =>
    have hitem := (ht.get? hget).items _ (List.mem_of_getLast? hlast)
    exact Value.distinct_table_iff.1 hitem

/-- The table that was entered, changed and put back. -/
theorem Enters.distinct_put (h : Enters key table inner back) (ht : table.Distinct)
    (hc : changed.Distinct) : Table.Distinct (Entries.put key.name (back changed) table) := by
  refine ht.put ?_
  cases h with
  | new kind hget => exact Value.distinct_table_iff.2 hc
  | table hget => exact Value.distinct_table_iff.2 hc
  | last hget hlast =>
    refine .array (List.forall_mem_append.2 ⟨fun item hitem => ?_, ?_⟩)
    · exact (ht.get? hget).items item (List.dropLast_subset _ hitem)
    · exact List.forall_mem_singleton.2 (Value.distinct_table_iff.2 hc)

/-- A dotted key of several parts sets the value in the table that its first part enters. -/
theorem insert_cons {next : Key} (h : insert value (key :: next :: keys) table = .ok changed) :
    ∃ inner back after, Enters key table inner back ∧
      insert value (next :: keys) inner = .ok after ∧
      changed = Entries.put key.name (back after) table := by
  rw [insert] at h
  split at h
  case h_1 hget =>
    obtain ⟨after, hafter, hput⟩ := bind_eq_ok_iff.1 h
    exact ⟨_, _, after, .new _ hget, hafter, (Except.ok.inj hput).symm⟩
  case h_2 hget =>
    split_ifs at h
    · obtain ⟨after, hafter, hput⟩ := bind_eq_ok_iff.1 h
      exact ⟨_, _, after, .table hget, hafter, (Except.ok.inj hput).symm⟩
    · cases h
  case h_3 hget =>
    split at h
    case h_1 hlast =>
      split_ifs at h
      · cases h
      · obtain ⟨after, hafter, hput⟩ := bind_eq_ok_iff.1 h
        exact ⟨_, _, after, .last hget hlast, hafter, (Except.ok.inj hput).symm⟩
    case h_2 => cases h
  case h_4 => cases h

/-- A header of several parts changes the table that its first part enters. -/
theorem alter_cons {change : Key → Option (Span × Value) → Except Fault (Span × Value)} {next : Key}
    (h : alter change (key :: next :: keys) table = .ok changed) :
    ∃ inner back after, Enters key table inner back ∧
      alter change (next :: keys) inner = .ok after ∧
      changed = Entries.put key.name (back after) table := by
  rw [alter] at h
  split at h
  case h_1 hget =>
    obtain ⟨after, hafter, hput⟩ := bind_eq_ok_iff.1 h
    exact ⟨_, _, after, .new _ hget, hafter, (Except.ok.inj hput).symm⟩
  case h_2 hget =>
    split_ifs at h
    · cases h
    · obtain ⟨after, hafter, hput⟩ := bind_eq_ok_iff.1 h
      exact ⟨_, _, after, .table hget, hafter, (Except.ok.inj hput).symm⟩
  case h_3 hget =>
    split at h
    case h_1 hlast =>
      obtain ⟨after, hafter, hput⟩ := bind_eq_ok_iff.1 h
      exact ⟨_, _, after, .last hget hlast, hafter, (Except.ok.inj hput).symm⟩
    case h_2 => cases h
  case h_4 => cases h

/-- A dotted key with a value. -/
theorem Distinct.insert (ht : table.Distinct) (hv : value.Distinct)
    (h : insert value keys table = .ok changed) : changed.Distinct := by
  induction keys generalizing table changed with
  | nil => cases h
  | cons key keys ih =>
    cases keys with
    | nil =>
      rw [Table.insert] at h
      split at h
      · obtain rfl := Except.ok.inj h
        exact ht.put hv
      · cases h
    | cons next keys =>
      obtain ⟨inner, back, after, henters, hafter, rfl⟩ := insert_cons h
      exact henters.distinct_put ht (ih (henters.distinct ht) hafter)

/-- A header, if what stands at its end is changed to something distinct. -/
theorem Distinct.alter {change : Key → Option (Span × Value) → Except Fault (Span × Value)}
    (hchange : ∀ key old new, (∀ found ∈ old, found.2.Distinct) → change key old = .ok new →
      new.2.Distinct)
    (ht : table.Distinct) (h : alter change keys table = .ok changed) : changed.Distinct := by
  induction keys generalizing table changed with
  | nil => cases h
  | cons key keys ih =>
    cases keys with
    | nil =>
      obtain ⟨new, hnew, hput⟩ := bind_eq_ok_iff.1 h
      obtain rfl := Except.ok.inj hput
      exact ht.put (hchange key _ new (fun found hget => ht.get? hget) hnew)
    | cons next keys =>
      obtain ⟨inner, back, after, henters, hafter, rfl⟩ := alter_cons h
      exact henters.distinct_put ht (ih (henters.distinct ht) hafter)

/-- One more table in an array of tables. -/
theorem Distinct.grow {old : Option (Span × Value)} {new : Span × Value} (ht : table.Distinct)
    (hold : ∀ found ∈ old, found.2.Distinct) (h : grow span table key old = .ok new) :
    new.2.Distinct := by
  have hlast : (Value.table span .header table).Distinct := Value.distinct_table_iff.2 ht
  unfold Table.grow at h
  split at h
  · obtain rfl := Except.ok.inj h
    exact .array (List.forall_mem_singleton.2 hlast)
  · obtain rfl := Except.ok.inj h
    have hitems := (hold _ rfl).items
    exact .array (List.forall_mem_append.2 ⟨hitems, List.forall_mem_singleton.2 hlast⟩)
  · cases h

/-- The entries that the table under a header starts with. -/
theorem distinct_inherited {old : Option (Span × Value)} (hold : ∀ found ∈ old, found.2.Distinct)
    (h : inherited old = .ok table) : table.Distinct := by
  unfold inherited at h
  split at h
  · obtain rfl := Except.ok.inj h
    exact distinct_nil
  · obtain rfl := Except.ok.inj h
    exact Value.distinct_table_iff.1 (hold _ rfl)
  · cases h

end Table

/-! ## Documents -/

mutual

/-- The value of a tree has distinct names. -/
theorem distinct_readTree : ∀ (tree : Tree) {value : Value},
    readTree tree = .ok value → value.Distinct
  | .leaf token, value, h => by
    rw [readTree] at h
    obtain ⟨scalar, -, hvalue⟩ := bind_eq_ok_iff.1 h
    obtain rfl := Except.ok.inj hvalue
    exact .scalar _ _
  | .array span items, value, h => by
    rw [readTree] at h
    obtain ⟨values, hvalues, hvalue⟩ := bind_eq_ok_iff.1 h
    obtain rfl := Except.ok.inj hvalue
    exact .array (distinct_readItems items hvalues)
  | .table span assignments, value, h => by
    rw [readTree] at h
    obtain ⟨table, htable, hvalue⟩ := bind_eq_ok_iff.1 h
    obtain rfl := Except.ok.inj hvalue
    exact Value.distinct_table_iff.2
      (distinct_readAssignments assignments Table.distinct_nil htable)

/-- The values of the items of an array have distinct names. -/
theorem distinct_readItems : ∀ (items : List Tree) {values : List Value},
    readItems items = .ok values → ∀ value ∈ values, value.Distinct
  | [], values, h => by
    obtain rfl := Except.ok.inj h
    exact List.forall_mem_nil _
  | item :: items, values, h => by
    rw [readItems] at h
    obtain ⟨value, hvalue, h⟩ := bind_eq_ok_iff.1 h
    obtain ⟨rest, hrest, h⟩ := bind_eq_ok_iff.1 h
    obtain rfl := Except.ok.inj h
    exact List.forall_mem_cons.2 ⟨distinct_readTree item hvalue, distinct_readItems items hrest⟩

/-- Dotted keys with their values keep the names of a table distinct. -/
theorem distinct_readAssignments : ∀ (assignments : List (List Token × Tree))
    {table changed : Table}, table.Distinct → readAssignments assignments table = .ok changed →
    changed.Distinct
  | [], table, changed, ht, h => by
    obtain rfl := Except.ok.inj h
    exact ht
  | (path, item) :: assignments, table, changed, ht, h => by
    rw [readAssignments] at h
    obtain ⟨keys, -, h⟩ := bind_eq_ok_iff.1 h
    obtain ⟨value, hvalue, h⟩ := bind_eq_ok_iff.1 h
    obtain ⟨next, hnext, h⟩ := bind_eq_ok_iff.1 h
    exact distinct_readAssignments assignments
      (ht.insert (distinct_readTree item hvalue) hnext) h

end

/-- A section keeps the names of a document distinct. -/
theorem distinct_readSection {part : Section} (ht : table.Distinct)
    (h : readSection table part = .ok changed) : changed.Distinct := by
  unfold readSection at h
  obtain ⟨path, -, h⟩ := bind_eq_ok_iff.1 h
  split_ifs at h
  · obtain ⟨under, hunder, h⟩ := bind_eq_ok_iff.1 h
    have hlines := distinct_readAssignments part.assignments Table.distinct_nil hunder
    exact ht.alter (fun _ _ _ hold => hlines.grow hold) h
  · refine ht.alter (fun key old new hold hnew => ?_) h
    obtain ⟨start, hstart, hnew⟩ := bind_eq_ok_iff.1 hnew
    obtain ⟨under, hunder, hnew⟩ := bind_eq_ok_iff.1 hnew
    obtain rfl := Except.ok.inj hnew
    have hlines := distinct_readAssignments part.assignments
      (Table.distinct_inherited hold hstart) hunder
    exact Value.distinct_table_iff.2 hlines

/-- The names in the table of a document are distinct, and so are those in every table below it. -/
theorem distinct_of_parse {text : String} (h : parse text = .ok table) : table.Distinct := by
  obtain ⟨outline, -, h⟩ := bind_eq_ok_iff.1 h
  obtain ⟨start, hstart, h⟩ := bind_eq_ok_iff.1 h
  refine foldlM_keeps (fun _ _ _ ht => distinct_readSection ht) ?_ h
  exact distinct_readAssignments outline.assignments Table.distinct_nil hstart

end EndpointTypings.Toml
