import EndpointTypings.Proofs.Toml.Distinct
import EndpointTypings.Proofs.Toml.Outlines

/-!
# Names that a document defines

A name that a document defines stays defined: both ways into a table end with a put
(`Table.insert_eq_put`, `Table.alter_eq_put`), and a put takes no name away. So the first part of
every dotted key before the first header, and of every header, is a name in the table of the
document (`mem_names_of_readOutline`).

Under a header of its own a table is defined once, and later headers only reach into it. What is
defined in it stays there, too (`HasField.readSection`).
-/

namespace EndpointTypings.Toml

variable {value : Value} {table changed root fields : Table} {key : Key} {keys : List Key}
  {name header : String} {token : Token} {more : List Token} {part : Section}
  {change : Key → Option (Span × Value) → Except Fault (Span × Value)}

/-! ## Paths -/

/-- A key is read as its name. -/
theorem readKey_of_keyName? (hk : keyName? token = some name) :
    readKey token = .ok ⟨name, token.span⟩ := by
  rw [readKey, hk]
  rfl

/-- A path that starts with a key is read as one that starts with its name. -/
theorem readPath_cons (hk : keyName? token = some name) (h : readPath (token :: more) = .ok keys) :
    ∃ others, keys = ⟨name, token.span⟩ :: others := by
  obtain ⟨read, hread, h⟩ := bind_eq_ok_iff.1 h
  split_ifs at h
  obtain rfl := Except.ok.inj h
  obtain ⟨first, others, hfirst, -, rfl⟩ := List.forall₂_cons_left_iff.1 (mapM_eq_ok_iff.1 hread)
  exact ⟨others, by rw [Except.ok.inj ((readKey_of_keyName? hk).symm.trans hfirst)]⟩

/-- A key by itself is read as its name. -/
theorem readPath_singleton (hk : keyName? token = some name) :
    readPath [token] = .ok [⟨name, token.span⟩] := by
  have hkeys : [token].mapM readKey = .ok [⟨name, token.span⟩] :=
    mapM_eq_ok_iff.2 (.cons (readKey_of_keyName? hk) .nil)
  rw [readPath, hkeys]
  rfl

namespace Table

/-- A dotted key puts something under its first part. -/
theorem insert_eq_put (h : insert value (key :: keys) table = .ok changed) :
    ∃ new, changed = Entries.put key.name new table := by
  cases keys with
  | nil =>
    rw [insert] at h
    split at h
    · exact ⟨_, (Except.ok.inj h).symm⟩
    · cases h
  | cons next keys =>
    obtain ⟨_, back, after, -, -, heq⟩ := insert_cons h
    exact ⟨back after, heq⟩

/-- A header puts something under its first part. -/
theorem alter_eq_put (h : alter change (key :: keys) table = .ok changed) :
    ∃ new, changed = Entries.put key.name new table := by
  cases keys with
  | nil =>
    obtain ⟨new, -, hput⟩ := bind_eq_ok_iff.1 h
    exact ⟨new, (Except.ok.inj hput).symm⟩
  | cons next keys =>
    obtain ⟨_, back, after, -, -, heq⟩ := alter_cons h
    exact ⟨back after, heq⟩

/-- No header takes a name away. -/
theorem mem_names_of_alter (h : alter change keys table = .ok changed)
    (hname : name ∈ Entries.names table) : name ∈ Entries.names changed := by
  cases keys with
  | nil => cases h
  | cons key keys =>
    obtain ⟨new, rfl⟩ := alter_eq_put h
    exact Entries.mem_names_put.2 (.inl hname)

end Table

/-! ## Documents -/

/-- Assignments take no name away, and define the first part of each key. -/
theorem mem_names_of_readAssignments {assignments : List Assignment}
    (h : readAssignments assignments table = .ok changed) :
    (∀ name ∈ Entries.names table, name ∈ Entries.names changed) ∧
      ∀ token more item, (token :: more, item) ∈ assignments → ∀ name,
        keyName? token = some name → name ∈ Entries.names changed := by
  induction assignments generalizing table with
  | nil =>
    obtain rfl := Except.ok.inj h
    exact ⟨fun _ hname => hname, nofun⟩
  | cons assignment assignments ih =>
    obtain ⟨path, item⟩ := assignment
    rw [readAssignments] at h
    obtain ⟨keys, hkeys, h⟩ := bind_eq_ok_iff.1 h
    obtain ⟨value, -, h⟩ := bind_eq_ok_iff.1 h
    obtain ⟨next, hnext, h⟩ := bind_eq_ok_iff.1 h
    obtain ⟨hkept, hdefined⟩ := ih h
    constructor
    · intro name hname
      cases keys with
      | nil => cases hnext
      | cons key keys =>
        obtain ⟨new, rfl⟩ := Table.insert_eq_put hnext
        exact hkept name (Entries.mem_names_put.2 (.inl hname))
    · intro token more item' hmem name hk
      rcases List.mem_cons.1 hmem with heq | hmem
      · obtain ⟨rfl, -⟩ := Prod.mk.inj heq
        obtain ⟨others, rfl⟩ := readPath_cons hk hkeys
        obtain ⟨new, rfl⟩ := Table.insert_eq_put hnext
        exact hkept name (Entries.mem_names_put.2 (.inr rfl))
      · exact hdefined token more item' hmem name hk

/-- A section changes the table at the path of its header. -/
theorem alter_of_readSection (h : readSection root part = .ok changed) :
    ∃ keys change, readPath part.path = .ok keys ∧ Table.alter change keys root = .ok changed ∧
      ∀ key place span fields new,
        change key (some (place, .table span .header fields)) ≠ .ok new := by
  obtain ⟨keys, hkeys, h⟩ := bind_eq_ok_iff.1 h
  split_ifs at h
  · obtain ⟨under, -, h⟩ := bind_eq_ok_iff.1 h
    exact ⟨keys, _, hkeys, h, fun _ _ _ _ _ => nofun⟩
  · exact ⟨keys, _, hkeys, h, fun _ _ _ _ _ => nofun⟩

/-- A section takes no name away, and defines the first part of its header. -/
theorem mem_names_of_readSection (h : readSection root part = .ok changed) :
    (∀ name ∈ Entries.names root, name ∈ Entries.names changed) ∧
      ∀ token more name, part.path = token :: more → keyName? token = some name →
        name ∈ Entries.names changed := by
  obtain ⟨keys, change, hkeys, halter, -⟩ := alter_of_readSection h
  refine ⟨fun name hname => Table.mem_names_of_alter halter hname, ?_⟩
  intro token more name hpath hk
  rw [hpath] at hkeys
  obtain ⟨others, rfl⟩ := readPath_cons hk hkeys
  obtain ⟨new, rfl⟩ := Table.alter_eq_put halter
  exact Entries.mem_names_put.2 (.inr rfl)

/-- Sections take no name away, and define the first part of each header. -/
theorem mem_names_of_readSections {sections : List Section}
    (h : sections.foldlM readSection root = .ok changed) :
    (∀ name ∈ Entries.names root, name ∈ Entries.names changed) ∧
      ∀ part ∈ sections, ∀ token more name, part.path = token :: more →
        keyName? token = some name → name ∈ Entries.names changed := by
  induction sections generalizing root with
  | nil =>
    obtain rfl := Except.ok.inj h
    exact ⟨fun _ hname => hname, nofun⟩
  | cons part sections ih =>
    rw [List.foldlM_cons, bind_eq_ok_iff] at h
    obtain ⟨next, hnext, h⟩ := h
    obtain ⟨hkept, hdefined⟩ := ih h
    obtain ⟨hkept', hdefined'⟩ := mem_names_of_readSection hnext
    refine ⟨fun name hname => hkept name (hkept' name hname), List.forall_mem_cons.2 ⟨?_, hdefined⟩⟩
    exact fun token more name hpath hk => hkept name (hdefined' token more name hpath hk)

/-- The first part of each key before the first header, and of each header, is a name in the table
of the document. -/
theorem mem_names_of_readOutline {outline : Outline} (h : readOutline outline = .ok table) :
    (∀ token more item, (token :: more, item) ∈ outline.assignments → ∀ name,
        keyName? token = some name → name ∈ Entries.names table) ∧
      ∀ part ∈ outline.sections, ∀ token more name, part.path = token :: more →
        keyName? token = some name → name ∈ Entries.names table := by
  obtain ⟨start, hstart, h⟩ := bind_eq_ok_iff.1 h
  obtain ⟨hkept, hsections⟩ := mem_names_of_readSections h
  refine ⟨fun token more item hmem name hk => hkept name ?_, hsections⟩
  exact (mem_names_of_readAssignments hstart).2 token more item hmem name hk

/-! ## Tables under a header -/

/-- A table under a header of its own has a name in it. -/
def HasField (root : Table) (header name : String) : Prop :=
  ∃ place span fields, Entries.get? header root = some (place, .table span .header fields) ∧
    name ∈ Entries.names fields

/-- A later section leaves in a table under a header what is defined there. -/
theorem HasField.readSection (hfield : HasField root header name)
    (h : readSection root part = .ok changed) : HasField changed header name := by
  obtain ⟨keys, change, -, halter, hchange⟩ := alter_of_readSection h
  obtain ⟨place, span, fields, hget, hname⟩ := hfield
  cases keys with
  | nil => cases halter
  | cons key keys =>
    by_cases hkey : header = key.name
    · subst hkey
      cases keys with
      | nil =>
        -- a table under a header is not defined again
        obtain ⟨new, hnew, -⟩ := bind_eq_ok_iff.1 halter
        rw [hget] at hnew
        exact absurd hnew (hchange _ _ _ _ _)
      | cons next keys =>
        obtain ⟨inner, back, after, henters, hafter, rfl⟩ := Table.alter_cons halter
        cases henters with
        | new _ hnone =>
          rw [hget] at hnone
          cases hnone
        | last harray =>
          rw [hget] at harray
          cases harray
        | table htable =>
          obtain ⟨rfl, rfl, rfl, rfl⟩ :
              place = _ ∧ span = _ ∧ TableKind.header = _ ∧ fields = _ := by
            simpa using hget.symm.trans htable
          exact ⟨place, span, after, Entries.get?_put_self _ _ _,
            Table.mem_names_of_alter hafter hname⟩
    · obtain ⟨new, rfl⟩ := Table.alter_eq_put halter
      exact ⟨place, span, fields, (Entries.get?_put_of_ne hkey _ _).trans hget, hname⟩

/-- A first section makes a table of its lines. -/
theorem readSection_nil_eq_ok_iff (hk : keyName? token = some name) (hpath : part.path = [token])
    (harray : part.ofArray = false) : readSection [] part = .ok root ↔
      ∃ fields, readAssignments part.assignments [] = .ok fields ∧
        root = [(name, token.span, .table part.span .header fields)] := by
  rw [Toml.readSection, hpath, readPath_singleton hk, bind_eq_ok_iff]
  constructor
  · rintro ⟨keys, hkeys, h⟩
    obtain rfl := Except.ok.inj hkeys
    rw [harray, if_neg Bool.false_ne_true] at h
    obtain ⟨new, hnew, hput⟩ := bind_eq_ok_iff.1 h
    obtain ⟨start, hstart, hnew⟩ := bind_eq_ok_iff.1 hnew
    obtain rfl : [] = start := Except.ok.inj hstart
    obtain ⟨fields, hfields, hnew⟩ := bind_eq_ok_iff.1 hnew
    obtain rfl := Except.ok.inj hnew
    exact ⟨fields, hfields, (Except.ok.inj hput).symm⟩
  · rintro ⟨fields, hfields, rfl⟩
    refine ⟨_, rfl, ?_⟩
    rw [harray, if_neg Bool.false_ne_true]
    refine bind_eq_ok_iff.2 ⟨_, bind_eq_ok_iff.2 ⟨[], rfl, ?_⟩, rfl⟩
    exact bind_eq_ok_iff.2 ⟨fields, hfields, rfl⟩

end EndpointTypings.Toml
