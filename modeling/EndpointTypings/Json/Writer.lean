import EndpointTypings.Json

/-!
# Writing JSON

Two forms of the same text: `compact` puts no space anywhere, `pretty` starts each item and
member on a line of its own, indented by two spaces for each level. In both an empty array or
object is a pair of brackets, and strings are written by `quoted`, which escapes the quote, the
backslash and the control characters below `U+0020`, and nothing else.
-/

namespace EndpointTypings.Json

/-- A hexadecimal digit, in lower case. -/
def hexDigit (n : Nat) : Char :=
  Nat.digitChar n

/-- A character as it stands inside a JSON string. -/
def escape (c : Char) : List Char :=
  if c = '"' then ['\\', '"']
  else if c = '\\' then ['\\', '\\']
  else if c = '\n' then ['\\', 'n']
  else if c = '\t' then ['\\', 't']
  else if c = '\r' then ['\\', 'r']
  else if c.toNat = 0x08 then ['\\', 'b']
  else if c.toNat = 0x0C then ['\\', 'f']
  else if c.toNat < 0x20 then
    ['\\', 'u', '0', '0', hexDigit (c.toNat / 16), hexDigit (c.toNat % 16)]
  else [c]

/-- A string with its quotes. -/
def quoted (s : String) : List Char :=
  '"' :: (s.toList.flatMap escape ++ ['"'])

/-- The text of a value that has no parts; arrays and objects are written by their writers. -/
def scalar : Json → List Char
  | null => ['n', 'u', 'l', 'l']
  | bool true => ['t', 'r', 'u', 'e']
  | bool false => ['f', 'a', 'l', 's', 'e']
  | int n => (toString n).toList
  | double x => (x.write layout).toList
  | str s => quoted s
  | arr _ => []
  | obj _ => []

mutual

/-- A value on one line, without spaces. -/
def compactChars : Json → List Char
  | arr items => '[' :: (compactItems items ++ [']'])
  | obj members => '\x7b' :: (compactMembers members ++ ['\x7d'])
  | null => scalar null
  | bool b => scalar (bool b)
  | int n => scalar (int n)
  | double x => scalar (double x)
  | str s => scalar (str s)

/-- The items of an array with commas between them. -/
def compactItems : List Json → List Char
  | [] => []
  | [item] => compactChars item
  | item :: next :: rest => compactChars item ++ ',' :: compactItems (next :: rest)

/-- The members of an object with commas between them. -/
def compactMembers : List (String × Json) → List Char
  | [] => []
  | [(name, value)] => quoted name ++ ':' :: compactChars value
  | (name, value) :: next :: rest =>
    quoted name ++ ':' :: (compactChars value ++ ',' :: compactMembers (next :: rest))

end

/-- A line feed and the indentation of a level. -/
def newline (level : Nat) : List Char :=
  '\n' :: List.replicate (2 * level) ' '

mutual

/-- A value over several lines; `level` is the level of the line it starts on. -/
def prettyChars (level : Nat) : Json → List Char
  | arr [] => ['[', ']']
  | arr (item :: items) =>
    '[' :: (prettyItems (level + 1) (item :: items) ++ newline level ++ [']'])
  | obj [] => ['\x7b', '\x7d']
  | obj (entry :: members) =>
    '\x7b' :: (prettyMembers (level + 1) (entry :: members) ++ newline level ++ ['\x7d'])
  | null => scalar null
  | bool b => scalar (bool b)
  | int n => scalar (int n)
  | double x => scalar (double x)
  | str s => scalar (str s)

/-- The items of an array, each on its own line, with commas between them. -/
def prettyItems (level : Nat) : List Json → List Char
  | [] => []
  | [item] => newline level ++ prettyChars level item
  | item :: next :: rest =>
    newline level ++ (prettyChars level item ++ ',' :: prettyItems level (next :: rest))

/-- The members of an object, each on its own line, with commas between them. -/
def prettyMembers (level : Nat) : List (String × Json) → List Char
  | [] => []
  | [(name, value)] => newline level ++ quoted name ++ ':' :: ' ' :: prettyChars level value
  | (name, value) :: next :: rest =>
    newline level ++ quoted name
      ++ ':' :: ' ' :: (prettyChars level value ++ ',' :: prettyMembers level (next :: rest))

end

/-- The text of a value on one line, without spaces. -/
def compact (value : Json) : String :=
  String.ofList (compactChars value)

/-- The text of a value over several lines. -/
def pretty (value : Json) : String :=
  String.ofList (prettyChars 0 value)

end EndpointTypings.Json
