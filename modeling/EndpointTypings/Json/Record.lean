import EndpointTypings.Error
import EndpointTypings.Json.Writer
import EndpointTypings.Text.Printed

/-!
# Reading records from JSON

A record is a JSON object whose known members set the fields, in document order, or a JSON array
whose items set them by position, in the order in which the fields are declared. A missing field
keeps its default; a known member that is not of the field's type, an array with more items than
fields, and an unknown member where none is allowed are mismatches. The first one met is
reported.

`Record` is the description of such a record, and `Record.read` reads any of them.
-/

namespace EndpointTypings

/-- The kind of value a reader of records found where it wanted another. -/
inductive Found where
  /-- Null. -/
  | null
  /-- A truth value. -/
  | boolean (value : Bool)
  /-- An integer. -/
  | integer (value : Int)
  /-- An integer of more than 64 bits; the text names its width. -/
  | wideInteger (value : Int) (width : String)
  /-- A number with a fraction or an exponent, as it is shown. -/
  | float (text : String)
  /-- A string. -/
  | string (value : String)
  /-- An array. -/
  | sequence
  /-- An object, a table or a date. -/
  | map
  deriving DecidableEq, Repr

/-- A difference between a value and the record it was to be. -/
inductive Mismatch where
  /-- A value of another type. -/
  | type (found : Found) (expected : String)
  /-- An array of more items than the record has fields. -/
  | surplus (length : Nat)
  /-- A member that the record does not have, with those it has. -/
  | unknownField (name : String) (known : List String)
  /-- A string that is refused as a name. -/
  | refused (error : Error)
  deriving DecidableEq, Repr

namespace Found

/-- A character as it stands in a quoted string of a message: quotes and backslashes are escaped,
and what shows no mark of its own is given by its number. -/
def escape (c : Char) : List Char :=
  if c = '"' then ['\\', '"']
  else if c = '\\' then ['\\', '\\']
  else if c = '\n' then ['\\', 'n']
  else if c = '\r' then ['\\', 'r']
  else if c = '\t' then ['\\', 't']
  else if c.toNat = 0 then ['\\', '0']
  else if Text.isPrinted c then [c]
  else ['\\', 'u', '\x7b'] ++ Nat.toDigits 16 c.toNat ++ ['\x7d']

/-- The characters that escapes are written with, beside the digits of numbers. -/
def escapeMarks : List Char := ['"', '\\', 'n', 'r', 't', '0', 'u', '\x7b', '\x7d']

/-- A character is escaped by a mark or by its number, or it stands for itself and is printed. -/
theorem escape_cases (c : Char) :
    (∃ mark ∈ escapeMarks, escape c = ['\\', mark]) ∨
      Text.isPrinted c = true ∧ escape c = [c] ∨
      escape c = ['\\', 'u', '\x7b'] ++ Nat.toDigits 16 c.toNat ++ ['\x7d'] := by
  unfold escape
  repeat' split
  all_goals simp_all [escapeMarks]

/-- What a quoted text is made of is printed, so it can be read off as it stands. -/
theorem isPrinted_of_mem_escape {c d : Char} (h : d ∈ escape c) : Text.isPrinted d = true := by
  have hascii : ∀ mark ∈ escapeMarks, 0x20 ≤ mark.toNat ∧ mark.toNat ≤ 0x7E := by
    simp [escapeMarks]
  have hmarks : ∀ mark ∈ escapeMarks, Text.isPrinted mark = true := fun mark hmark =>
    Text.isPrinted_of_ascii (hascii mark hmark).1 (hascii mark hmark).2
  have hframe : ['\\', 'u', '\x7b', '\x7d'] ⊆ escapeMarks := by simp [escapeMarks]
  rcases escape_cases c with ⟨mark, hmark, heq⟩ | ⟨hprinted, heq⟩ | heq
  · rw [heq] at h
    rcases List.mem_cons.1 h with rfl | hlast
    · exact hmarks '\\' (by decide)
    · obtain rfl : d = mark := List.mem_singleton.1 hlast
      exact hmarks d hmark
  · obtain rfl : d = c := List.mem_singleton.1 (heq ▸ h)
    exact hprinted
  · rw [heq, List.mem_append, List.mem_append] at h
    rcases h with (hopen | hnumber) | hclose
    · exact hmarks d (hframe (List.mem_append_left ['\x7d'] hopen))
    · exact Text.isPrinted_of_mem_toDigits hnumber
    · exact hmarks d (hframe (List.mem_append_right ['\\', 'u', '\x7b'] hclose))

/-- A no-break space, a zero-width space and an accent on the letter before it are given by their
numbers, letters of any script are not. -/
example : "é\u00A0\u200B主e\u0301".toList.flatMap escape
    = "é\\u\x7ba0\x7d\\u\x7b200b\x7d主e\\u\x7b301\x7d".toList := by decide +kernel

/-- The words for what was found. -/
def describe : Found → String
  | null => "null"
  | boolean value => "boolean `" ++ (if value then "true" else "false") ++ "`"
  | integer value => "integer `" ++ toString value ++ "`"
  | wideInteger value width => "integer `" ++ toString value ++ "` as " ++ width
  | float text => "floating point `" ++ text ++ "`"
  | string value => "string \"" ++ String.ofList (value.toList.flatMap escape) ++ "\""
  | sequence => "sequence"
  | map => "map"

end Found

namespace Mismatch

/-- The words for a mismatch. -/
def message : Mismatch → String
  | type found expected => "invalid type: " ++ found.describe ++ ", expected " ++ expected
  | surplus length => "invalid length " ++ toString length ++ ", expected fewer elements in array"
  | unknownField name known =>
    "unknown field `" ++ name ++ "`, expected "
      ++ (if known.length = 1 then "" else "one of ")
      ++ String.intercalate ", " (known.map fun field => "`" ++ field ++ "`")
  | refused error => error.message

end Mismatch

namespace Json

/-- What a reader of records finds in a value. -/
def found : Json → Found
  | null => .null
  | bool b => .boolean b
  | int n => .integer n
  | double x => .float (x.write layout)
  | str s => .string s
  | arr _ => .sequence
  | obj _ => .map

/-- A string. -/
def asString : Json → Except Mismatch String
  | str s => .ok s
  | value => .error (.type value.found "a string")

/-- A truth value. -/
def asBool : Json → Except Mismatch Bool
  | bool b => .ok b
  | value => .error (.type value.found "a boolean")

/-- A list, each item read by the same reader. -/
def asList {α : Type} (item : Json → Except Mismatch α) : Json → Except Mismatch (List α)
  | arr items => items.mapM item
  | value => .error (.type value.found "a sequence")

/-- A value that may also be absent, which null says too. -/
def optional {α : Type} (read : Json → Except Mismatch α) : Json → Except Mismatch (Option α)
  | null => .ok none
  | value => (read value).map some

end Json

/-- A field of a record: its name and how a value sets it. -/
structure Field (ρ : Type) where
  /-- The name of the field. -/
  name : String
  /-- The record with the field set to a value. -/
  set : Json → ρ → Except Mismatch ρ

/-- The description of a record. -/
structure Record (ρ : Type) where
  /-- What the record is called in messages. -/
  title : String
  /-- Its fields, in the order of positions. -/
  fields : List (Field ρ)
  /-- The record with no field set. -/
  default : ρ
  /-- Whether a member that is no field is skipped; otherwise it is a mismatch. -/
  skipsUnknown : Bool

namespace Record

variable {ρ : Type}

/-- The record after one member of an object. -/
def readMember (record : Record ρ) (value : ρ) (member : String × Json) : Except Mismatch ρ :=
  match record.fields.find? (·.name = member.1) with
  | some field => field.set member.2 value
  | none =>
    if record.skipsUnknown then .ok value
    else .error (.unknownField member.1 (record.fields.map (·.name)))

/-- The record after the items of an array, which are `length` in all, by position. -/
def readItems (length : Nat) : List (Field ρ) → List Json → ρ → Except Mismatch ρ
  | _, [], value => .ok value
  | [], _ :: _, _ => .error (.surplus length)
  | field :: fields, item :: items, value => do
    readItems length fields items (← field.set item value)

/-- The record a JSON value holds. -/
def read (record : Record ρ) : Json → Except Mismatch ρ
  | .obj members => members.foldlM record.readMember record.default
  | .arr items => readItems items.length record.fields items record.default
  | value => .error (.type value.found ("struct " ++ record.title))

end Record

end EndpointTypings
