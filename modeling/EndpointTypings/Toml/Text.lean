import EndpointTypings.Toml.Token

/-!
# TOML strings and keys

What a string token or a part of a key says. The quotes around a string are taken off first, so
that `unescape?`, and `isPlain` for a literal string, see the whole of what stands between them.
-/

namespace EndpointTypings.Toml

/-- The value of a hexadecimal digit. -/
def hexDigit? (c : Char) : Option Nat :=
  if c.isDigit then some (c.toNat - '0'.toNat)
  else if 'a' ≤ c && c ≤ 'f' then some (c.toNat - 'a'.toNat + 10)
  else if 'A' ≤ c && c ≤ 'F' then some (c.toNat - 'A'.toNat + 10)
  else none

/-- The number that hexadecimal digits write. -/
def hexValue? (digits : List Char) : Option Nat := do
  return (← digits.mapM hexDigit?).foldl (fun n value => 16 * n + value) 0

/-- The character whose code is so many hexadecimal digits long; none for a surrogate and for a
number beyond the last character. -/
def unicodeEscape? (count : Nat) (s : List Char) : Option Char := do
  let digits := s.take count
  let code ← hexValue? digits
  if digits.length = count && code.isValidChar then some (Char.ofNat code) else none

/-- The character of an escape behind the backslash, and the length of the escape. -/
def escape? : List Char → Option (Char × Nat)
  | [] => none
  | c :: rest =>
    if c = 'b' then some (Char.ofNat 0x08, 1)
    else if c = 't' then some ('\t', 1)
    else if c = 'n' then some ('\n', 1)
    else if c = 'f' then some (Char.ofNat 0x0C, 1)
    else if c = 'r' then some ('\r', 1)
    else if c = 'e' then some (Char.ofNat 0x1B, 1)
    else if c = '"' then some ('"', 1)
    else if c = '\\' then some ('\\', 1)
    else if c = 'x' then (unicodeEscape? 2 rest).map (·, 3)
    else if c = 'u' then (unicodeEscape? 4 rest).map (·, 5)
    else if c = 'U' then (unicodeEscape? 8 rest).map (·, 9)
    else none

/-- Whether a text starts with a line end. -/
def startsWithNewline (s : List Char) : Bool :=
  s.head? = some '\n' || s.take 2 = ['\r', '\n']

/-- What follows a line end at the start of a text, if there is one. -/
def dropNewline : List Char → List Char
  | '\n' :: rest => rest
  | '\r' :: '\n' :: rest => rest
  | s => s

/-- What follows white space and line ends. -/
def dropBlanks : List Char → List Char
  | [] => []
  | c :: rest =>
    if isSpace c || startsWithNewline (c :: rest) then dropBlanks rest else c :: rest

/-- Dropping white space makes no text longer. -/
theorem length_dropBlanks_le (s : List Char) : (dropBlanks s).length ≤ s.length := by
  induction s with
  | nil => simp [dropBlanks]
  | cons c rest ih =>
    simp only [dropBlanks]
    split
    · exact Nat.le_succ_of_le ih
    · exact Nat.le_refl _

/-- What the inside of a basic string says. Over several lines, line ends stay as they are written,
and a backslash at the end of a line takes all white space behind it away. -/
def unescape? (lines : Bool) : List Char → Option (List Char)
  | [] => some []
  | c :: rest =>
    if c = '\\' then
      if lines && startsWithNewline (rest.dropWhile isSpace) then
        unescape? lines (dropBlanks rest)
      else
        match escape? rest with
        | some (e, length) => (unescape? lines (rest.drop length)).map (e :: ·)
        | none => none
    else if isTextChar c || (lines && startsWithNewline (c :: rest)) then
      (unescape? lines rest).map (c :: ·)
    else none
termination_by s => s.length
decreasing_by
  · have := length_dropBlanks_le rest
    simp only [List.length_cons]
    omega
  · simp only [List.length_cons, List.length_drop]
    omega
  · simp

/-- Whether a text may stand inside a string as it is. -/
def isPlain (lines : Bool) : List Char → Bool
  | [] => true
  | c :: rest =>
    (isTextChar c || (lines && startsWithNewline (c :: rest))) && isPlain lines rest

/-- What stands between the quotes of a string; none if it is not closed. -/
def unquote? (quotes : List Char) (s : List Char) : Option (List Char) :=
  let inside := s.drop quotes.length
  if quotes.isSuffixOf inside then some (inside.take (inside.length - quotes.length)) else none

/-- What a string says. A line end right behind three quotes is not part of it. -/
def stringText? (basic lines : Bool) (s : List Char) : Option String := do
  let mark := if basic then '"' else quote
  let inside ← unquote? (if lines then [mark, mark, mark] else [mark]) s
  let inside := if lines then dropNewline inside else inside
  if basic then
    (unescape? lines inside).map String.ofList
  else if isPlain lines inside then
    some (String.ofList inside)
  else none

/-- A character of a bare key. -/
def isBareKeyChar (c : Char) : Bool :=
  c.isAlphanum || c = '_' || c = '-'

/-- The name that a part of a dotted key says: a bare key, or a string on one line. -/
def keyName? (token : Token) : Option String :=
  match token.kind with
  | .string basic false => stringText? basic false token.text
  | .bare =>
    if !token.text.isEmpty && token.text.all isBareKeyChar then some (String.ofList token.text)
    else none
  | _ => none

end EndpointTypings.Toml
