import EndpointTypings.Json
import Mathlib.Data.List.Forall2

/-!
# Shapes of values

What it is for a JSON value to hold a text, a truth value, a list or the fields of a record, said
without a reader. A record is an object or an array: the parts of an object are found by name, the
parts of an array by position (`Json.part?`), and an array may end early but not run over
(`Json.IsRecord`). A part that may be missing may also be null (`Json.IsOptional`).
-/

namespace EndpointTypings.Json

/-- A value that holds a text. -/
inductive IsText : Json → String → Prop
  /-- A string holds itself. -/
  | str (s : String) : IsText (.str s) s

/-- A value that holds a truth value. -/
inductive IsTruth : Json → Bool → Prop
  /-- True and false hold themselves. -/
  | bool (b : Bool) : IsTruth (.bool b) b

section Parts

variable {α : Type}

/-- A value that holds a list of things. -/
inductive IsList (item : Json → α → Prop) : Json → List α → Prop
  /-- Each item of an array holds a thing. -/
  | arr {items : List Json} {as : List α} (hi : List.Forall₂ item items as) :
      IsList item (.arr items) as

/-- A part that holds a thing or nothing. -/
inductive IsOptional (item : Json → α → Prop) : Option Json → Option α → Prop
  /-- A part that is missing holds nothing. -/
  | absent : IsOptional item none none
  /-- Null holds nothing. -/
  | null : IsOptional item (some .null) none
  /-- Any other value has to hold a thing. -/
  | present {value : Json} {a : α} (hv : item value a) : IsOptional item (some value) (some a)

end Parts

/-- The part of a value that stands at a position, in an array, or under a name, in an object. -/
def part? (position : Nat) (name : String) : Json → Option Json
  | arr items => items[position]?
  | obj members => Entries.get? name members
  | _ => none

/-- A value that can hold a record of a number of fields. -/
inductive IsRecord (width : Nat) : Json → Prop
  /-- An array holds the fields in order and may leave out the last ones. -/
  | arr {items : List Json} (hi : items.length ≤ width) : IsRecord width (.arr items)
  /-- An object holds the fields by their names, besides any other members. -/
  | obj (members : List (String × Json)) : IsRecord width (.obj members)

end EndpointTypings.Json
