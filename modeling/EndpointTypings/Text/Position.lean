/-!
# Places in a text

A place in a text is told by how many bytes of its UTF-8 form lie before it. Readers know how
much of the text is left, so they note a place by the number of bytes from there to the end, and
only whoever shows the place to a person turns it into a line and a column.

A reader that refuses a byte may stop inside a character, so `position` counts columns in bytes;
`characterColumn` counts characters instead, for places between characters.
-/

namespace EndpointTypings.Text

/-- The number of bytes of the UTF-8 form of a text. -/
def byteLength : List Char → Nat
  | [] => 0
  | c :: cs => c.utf8Size + byteLength cs

/-- A place in a text as people count it. -/
structure Position where
  /-- The line, counted from 1. -/
  line : Nat
  /-- The number of bytes between the last line feed before the place and the place. -/
  column : Nat
  deriving DecidableEq, Repr

/-- The place a number of bytes after a given one: a line feed starts a line, and any other byte
is a column. -/
def Position.advance : Position → List Char → Nat → Position
  | place, [], _ => place
  | place, c :: cs, bytes =>
    if bytes = 0 then place
    else if c = '\n' then advance ⟨place.line + 1, 0⟩ cs (bytes - 1)
    else if bytes < c.utf8Size then ⟨place.line, place.column + bytes⟩
    else advance ⟨place.line, place.column + c.utf8Size⟩ cs (bytes - c.utf8Size)

/-- The line and column of the place `bytes` bytes into a text. -/
def position (text : List Char) (bytes : Nat) : Position :=
  Position.advance ⟨1, 0⟩ text bytes

/-- The characters that fit into the first `bytes` bytes of a text. -/
def takeBytes : Nat → List Char → List Char
  | _, [] => []
  | bytes, c :: cs => if bytes < c.utf8Size then [] else c :: takeBytes (bytes - c.utf8Size) cs

/-- The number of characters between the last line feed before a place and the place. -/
def characterColumn (text : List Char) (bytes : Nat) : Nat :=
  ((takeBytes bytes text).reverse.takeWhile (· != '\n')).length

end EndpointTypings.Text
