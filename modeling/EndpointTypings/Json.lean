import EndpointTypings.Double.Shortest
import EndpointTypings.Entries

/-!
# JSON values

A JSON value keeps the members of its objects in document order, because the order of endpoints
in a registry is the order of methods in the generated interface. Numbers are integers where the
document wrote an integer that fits 64 bits, with or without a sign, and doubles everywhere else.
-/

namespace EndpointTypings

/-- A JSON value. -/
inductive Json where
  /-- The null value. -/
  | null
  /-- A truth value. -/
  | bool (value : Bool)
  /-- A number written as an integer of at most 64 bits. -/
  | int (value : Int)
  /-- Any other number. -/
  | double (value : Double)
  /-- A string. -/
  | str (value : String)
  /-- An array. -/
  | arr (items : List Json)
  /-- An object, its members in document order. -/
  | obj (members : List (String × Json))
  deriving Inhabited, Repr

namespace Json

/-- The layout of doubles in JSON text: positional from `0.00001` up to below `10 ^ 16`. -/
def layout : Layout := ⟨.toEven, some (-5, 16)⟩

/-- The value of a member of an object; none where the value is no object. -/
def member? (name : String) : Json → Option Json
  | obj members => Entries.get? name members
  | _ => none

/-- A string, or null for none. -/
def ofString? : Option String → Json
  | none => null
  | some s => str s

/-- A truth value, or null for none. -/
def ofBool? : Option Bool → Json
  | none => null
  | some b => bool b

end Json

end EndpointTypings
