import EndpointTypings.Double.Shortest
import EndpointTypings.Entries
import EndpointTypings.Toml.Token

/-!
# TOML values

A TOML document is a table whose entries remember where they stand in the text, because faults in
a configuration are shown beside the text they lie in. A part of the text is told by a `Span`. A
table also remembers how it came to be, because that decides whether it may still be extended:
`Table.insert` follows a dotted key and `Table.alter` a header, and both refuse what TOML forbids.
-/

namespace EndpointTypings.Toml

/-- Why a text is no TOML document. -/
inductive Fault where
  /-- It is not of the form of one, or defines something twice. -/
  | malformed
  /-- A dotted key in it has too many parts. -/
  | keyTooLong
  deriving DecidableEq, Repr

/-- The value of a floating point number. -/
inductive FloatValue where
  /-- A finite number. -/
  | finite (value : Double)
  /-- An infinity. -/
  | infinite (negative : Bool)
  /-- Not a number. -/
  | nan
  deriving DecidableEq, Repr

/-- A value that has no parts. -/
inductive Scalar where
  /-- A string. -/
  | string (text : String)
  /-- An integer of any size. -/
  | integer (value : Int)
  /-- A floating point number. -/
  | float (value : FloatValue)
  /-- A truth value. -/
  | boolean (value : Bool)
  /-- A date, a time, or both. -/
  | moment
  /-- A number that has no value: one too large for a double, or one with characters that are no
  digits. -/
  | unreadable
  deriving DecidableEq, Repr

/-- How a table came to be. -/
inductive TableKind where
  /-- Written between braces. -/
  | inline
  /-- On the way of a dotted key. -/
  | dotted
  /-- On the way of a header. -/
  | implied
  /-- Under a header of its own. -/
  | header
  deriving DecidableEq, Repr

/-- A value of a document. -/
inductive Value where
  /-- A value without parts. -/
  | scalar (span : Span) (value : Scalar)
  /-- An array; one of tables grows with each header of it. -/
  | array (span : Span) (ofTables : Bool) (items : List Value)
  /-- A table. Each entry has the place of its key and its value. -/
  | table (span : Span) (kind : TableKind) (entries : List (String × Span × Value))

/-- A key as it is written. -/
structure Key where
  /-- The key itself. -/
  name : String
  /-- Where it stands. -/
  span : Span
  deriving DecidableEq, Repr

/-- The entries of a table. -/
abbrev Table := List (String × Span × Value)

namespace Value

/-- Where a value stands. A table that is only on the way of a key or header stands where its key
does. -/
def span : Value → Span
  | scalar span _ => span
  | array span _ _ => span
  | table span _ _ => span

end Value

/-- Refuses a text. -/
def malformed {α : Type} : Except Fault α :=
  .error .malformed

namespace Table

/-- The table with a value at the end of a dotted key. A key is set only once. A table on the way
has to come from a dotted key itself, or be on the way of a header if it is not the last one; of
an array of tables the last one is passed. -/
def insert (value : Value) : List Key → Table → Except Fault Table
  | [], _ => malformed
  | [key], entries =>
    match Entries.get? key.name entries with
    | none => .ok (Entries.put key.name (key.span, value) entries)
    | some _ => malformed
  | key :: next :: path, entries =>
    match Entries.get? key.name entries with
    | none => do
      let inner ← insert value (next :: path) []
      return Entries.put key.name (key.span, .table key.span .dotted inner) entries
    | some (place, .table span kind inner) =>
      if kind = .dotted || (kind = .implied && !path.isEmpty) then do
        let inner ← insert value (next :: path) inner
        return Entries.put key.name (place, .table span kind inner) entries
      else malformed
    | some (place, .array span true items) =>
      match items.getLast? with
      | some (.table inside kind inner) =>
        if path.isEmpty then malformed
        else do
          let inner ← insert value (next :: path) inner
          let items := items.dropLast ++ [.table inside kind inner]
          return Entries.put key.name (place, .array span true items) entries
      | _ => malformed
    | some _ => malformed

/-- The table with the entry at the path of a header changed, given its key and what stood there
before. Tables on the way are made where they are missing; of an array of tables it is the last
one that is entered; a table between braces, and a value that is no table, is never entered. -/
def alter (change : Key → Option (Span × Value) → Except Fault (Span × Value)) :
    List Key → Table → Except Fault Table
  | [], _ => malformed
  | [key], entries => do
    return Entries.put key.name (← change key (Entries.get? key.name entries)) entries
  | key :: next :: path, entries =>
    match Entries.get? key.name entries with
    | none => do
      let inner ← alter change (next :: path) []
      return Entries.put key.name (key.span, .table key.span .implied inner) entries
    | some (place, .table span kind inner) =>
      if kind = .inline then malformed
      else do
        let inner ← alter change (next :: path) inner
        return Entries.put key.name (place, .table span kind inner) entries
    | some (place, .array span true items) =>
      match items.getLast? with
      | some (.table inside kind inner) => do
        let inner ← alter change (next :: path) inner
        let items := items.dropLast ++ [.table inside kind inner]
        return Entries.put key.name (place, .array span true items) entries
      | _ => malformed
    | some _ => malformed

/-- The array of tables at an entry with one more table; a new one if nothing stood there. -/
def grow (span : Span) (table : Table) (key : Key) :
    Option (Span × Value) → Except Fault (Span × Value)
  | none => .ok (key.span, .array span true [.table span .header table])
  | some (place, .array whole true items) =>
    .ok (place, .array whole true (items ++ [.table span .header table]))
  | some _ => malformed

/-- The entries that the table under a header starts with: none, or those of a table that was only
on the way of another header until now. -/
def inherited : Option (Span × Value) → Except Fault Table
  | none => .ok []
  | some (_, .table _ .implied entries) => .ok entries
  | some _ => malformed

end Table

end EndpointTypings.Toml
