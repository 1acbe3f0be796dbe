import EndpointTypings.Json.Number

/-!
# Reading JSON

A reader takes the rest of the text and gives a value with what follows it, or the first fault
met from left to right. Arrays and objects nest at most `maxDepth` deep, and `readValue` is a
recursion on the levels that are left. Inside one level the loops over characters, items and
members are bounded by a number of steps that is never reached when it is at least the length of
the text, because every step passes a character; `parse` starts them with that length.

A member name that occurs again keeps the place of its first occurrence and takes the value of
its last.
-/

namespace EndpointTypings.Json

/-- The levels of arrays and objects a document may have. -/
def maxDepth : Nat := 127

/-- White space between the parts of a document. -/
def isSpace (c : Char) : Bool :=
  c = ' ' || c = '\n' || c = '\t' || c = '\r'

/-- What follows white space. -/
def skipSpace (s : List Char) : List Char :=
  s.dropWhile isSpace

/-- The value of a hexadecimal digit. -/
def hexValue? (c : Char) : Option Nat :=
  if '0' ≤ c && c ≤ '9' then some (c.toNat - '0'.toNat)
  else if 'a' ≤ c && c ≤ 'f' then some (c.toNat - 'a'.toNat + 10)
  else if 'A' ≤ c && c ≤ 'F' then some (c.toNat - 'A'.toNat + 10)
  else none

/-- The code unit of four hexadecimal digits. A text of fewer than four more bytes ends inside the
escape; anything else that is no digit is met once all four bytes are passed. -/
def readHex (s : List Char) : Except Fault (Nat × List Char) :=
  match s with
  | a :: b :: c :: d :: rest =>
    match hexValue? a, hexValue? b, hexValue? c, hexValue? d with
    | some a, some b, some c, some d => .ok (((a * 16 + b) * 16 + c) * 16 + d, rest)
    | _, _, _, _ => .error ⟨.badEscape, Text.byteLength s - 4⟩
  | _ =>
    if Text.byteLength s < 4 then .error ⟨.endInString, 0⟩
    else .error ⟨.badEscape, Text.byteLength s - 4⟩

/-- A character that has to come next inside an escape. -/
def expectEscape (c : Char) : List Char → Except Fault (List Char)
  | [] => .error ⟨.endInString, 0⟩
  | d :: rest => if d = c then .ok rest else .error (.at .noSecondSurrogate (d :: rest))

/-- The character of a `\u` escape, behind the `u`. The first surrogate of a pair has to be
followed by the escape of a second one. -/
def readUnicode (s : List Char) : Except Fault (Char × List Char) := do
  let (unit, rest) ← readHex s
  if 0xDC00 ≤ unit && unit ≤ 0xDFFF then
    .error (.before .loneSurrogate rest)
  else if 0xD800 ≤ unit && unit ≤ 0xDBFF then
    let rest ← expectEscape '\\' rest
    let rest ← expectEscape 'u' rest
    let (second, rest) ← readHex rest
    if 0xDC00 ≤ second && second ≤ 0xDFFF then
      return (Char.ofNat (0x10000 + (unit - 0xD800) * 0x400 + (second - 0xDC00)), rest)
    else .error (.before .loneSurrogate rest)
  else
    return (Char.ofNat unit, rest)

/-- The character a one-letter escape stands for. -/
def simpleEscape? (c : Char) : Option Char :=
  if c = '"' then some '"'
  else if c = '\\' then some '\\'
  else if c = '/' then some '/'
  else if c = 'b' then some (Char.ofNat 0x08)
  else if c = 'f' then some (Char.ofNat 0x0C)
  else if c = 'n' then some '\n'
  else if c = 'r' then some '\r'
  else if c = 't' then some '\t'
  else none

/-- The character of an escape, behind the backslash. -/
def readEscape : List Char → Except Fault (Char × List Char)
  | [] => .error ⟨.endInString, 0⟩
  | c :: rest =>
    if c = 'u' then readUnicode rest
    else
      match simpleEscape? c with
      | some e => .ok (e, rest)
      | none => .error (.at .badEscape (c :: rest))

/-- The characters of a string up to its closing quote; `read` holds those already read, last
first. -/
def readChars : Nat → List Char → List Char → Except Fault (List Char × List Char)
  | 0, _, s => .error (.before .endInString s)
  | _ + 1, _, [] => .error ⟨.endInString, 0⟩
  | steps + 1, read, c :: rest =>
    if c = '"' then .ok (read.reverse, rest)
    else if c = '\\' then do
      let (e, rest) ← readEscape rest
      readChars steps (e :: read) rest
    else if c.toNat < 0x20 then .error (.at .controlCharacter (c :: rest))
    else readChars steps (c :: read) rest

/-- A string behind its opening quote. -/
def readString (steps : Nat) (s : List Char) : Except Fault (String × List Char) :=
  (readChars steps [] s).map fun (chars, rest) => (String.ofList chars, rest)

/-- The letters of a word that is already told by its first letter. -/
def readWord (value : Json) : List Char → List Char → Except Fault (Json × List Char)
  | [], s => .ok (value, s)
  | _ :: _, [] => .error ⟨.endInValue, 0⟩
  | letter :: letters, c :: rest =>
    if c = letter then readWord value letters rest else .error (.at .noLiteral (c :: rest))

/-- A reader of the values inside an array or object. -/
abbrev ValueReader := List Char → Except Fault (Json × List Char)

/-- The items of an array after the first, with their commas, up to the bracket. -/
def readMoreItems (item : ValueReader) :
    Nat → List Json → List Char → Except Fault (List Json × List Char)
  | 0, _, s => .error (.before .endInList s)
  | steps + 1, items, s =>
    match skipSpace s with
    | [] => .error ⟨.endInList, 0⟩
    | c :: rest =>
      if c = ']' then .ok (items.reverse, rest)
      else if c = ',' then
        match skipSpace rest with
        | [] => .error ⟨.endInValue, 0⟩
        | d :: rest =>
          if d = ']' then .error (.at .trailingComma (d :: rest))
          else do
            let (value, rest) ← item (d :: rest)
            readMoreItems item steps (value :: items) rest
      else .error (.at .noListSeparator (c :: rest))

/-- An array behind its opening bracket. -/
def readItems (item : ValueReader) (steps : Nat) (s : List Char) :
    Except Fault (List Json × List Char) :=
  match skipSpace s with
  | [] => .error ⟨.endInList, 0⟩
  | c :: rest =>
    -- an array may be empty, but a bracket may not follow a comma
    if c = ']' then .ok ([], rest)
    else do
      let (value, rest) ← item (c :: rest)
      readMoreItems item steps [value] rest

/-- A member of an object: a string, a colon and a value. -/
def readMember (item : ValueReader) (steps : Nat) (s : List Char) :
    Except Fault ((String × Json) × List Char) :=
  match s with
  | '"' :: rest => do
    let (name, rest) ← readString steps rest
    match skipSpace rest with
    | [] => .error ⟨.endInObject, 0⟩
    | c :: rest =>
      if c = ':' then do
        let (value, rest) ← item rest
        return ((name, value), rest)
      else .error (.at .noColon (c :: rest))
  | _ => .error (.at .keyNotString s)

/-- The members of an object after the first, with their commas, up to the brace. -/
def readMoreMembers (item : ValueReader) (steps : Nat) :
    Nat → List (String × Json) → List Char →
      Except Fault (List (String × Json) × List Char)
  | 0, _, s => .error (.before .endInObject s)
  | left + 1, members, s =>
    match skipSpace s with
    | [] => .error ⟨.endInObject, 0⟩
    | c :: rest =>
      if c = '\x7d' then .ok (members.reverse, rest)
      else if c = ',' then
        match skipSpace rest with
        | [] => .error ⟨.endInValue, 0⟩
        | d :: rest =>
          if d = '\x7d' then .error (.at .trailingComma (d :: rest))
          else do
            let (member, rest) ← readMember item steps (d :: rest)
            readMoreMembers item steps left (member :: members) rest
      else .error (.at .noObjectSeparator (c :: rest))

/-- An object behind its opening brace, its members as they are written. -/
def readMembers (item : ValueReader) (steps : Nat) (s : List Char) :
    Except Fault (List (String × Json) × List Char) :=
  match skipSpace s with
  | [] => .error ⟨.endInObject, 0⟩
  | c :: rest =>
    if c = '\x7d' then .ok ([], rest)
    else do
      let (member, rest) ← readMember item steps (c :: rest)
      readMoreMembers item steps steps [member] rest

/-- A value that is no array and no object, behind white space. -/
def readSimple (steps : Nat) (s : List Char) : Except Fault (Json × List Char) :=
  match s with
  | [] => .error ⟨.endInValue, 0⟩
  | c :: rest =>
    if c = 'n' then readWord .null ['u', 'l', 'l'] rest
    else if c = 't' then readWord (.bool true) ['r', 'u', 'e'] rest
    else if c = 'f' then readWord (.bool false) ['a', 'l', 's', 'e'] rest
    else if c = '"' then (readString steps rest).map fun (value, rest) => (.str value, rest)
    else if c = '-' then readNumber true rest
    else if c.isDigit then readNumber false (c :: rest)
    else .error (.at .noValue (c :: rest))

/-- A value with the white space before it, nested at most the given number of levels. -/
def readValue (steps : Nat) : Nat → List Char → Except Fault (Json × List Char)
  | 0, s =>
    match skipSpace s with
    | [] => .error ⟨.endInValue, 0⟩
    | c :: rest =>
      if c = '[' || c = '\x7b' then .error (.at .tooDeep (c :: rest))
      else readSimple steps (c :: rest)
  | depth + 1, s =>
    match skipSpace s with
    | [] => .error ⟨.endInValue, 0⟩
    | c :: rest =>
      if c = '[' then
        (readItems (readValue steps depth) steps rest).map fun (items, rest) => (.arr items, rest)
      else if c = '\x7b' then
        (readMembers (readValue steps depth) steps rest).map fun (members, rest) =>
          (.obj (Entries.merge members), rest)
      else readSimple steps (c :: rest)

/-- A document: one value with white space around it. -/
def parseChars (s : List Char) : Except Fault Json := do
  let (value, rest) ← readValue (s.length + 1) maxDepth s
  match skipSpace rest with
  | [] => return value
  | c :: rest => .error (.at .trailingText (c :: rest))

/-- The value a text is the document of. -/
def parse (text : String) : Except Fault Json :=
  parseChars text.toList

end EndpointTypings.Json
