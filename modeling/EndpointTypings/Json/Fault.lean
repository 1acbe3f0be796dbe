import EndpointTypings.Text.Position

/-!
# Faults of JSON texts

What is wrong with a text that is no JSON document, and where. A fault is noted by the number of
bytes of the text that were not passed when it was met; `Fault.message` turns that into a line
and a column of the text.
-/

namespace EndpointTypings.Json

/-- What a reader of JSON can object to. -/
inductive FaultKind where
  /-- The text ends where a value has to be, or inside one. -/
  | endInValue
  /-- The text ends inside a string. -/
  | endInString
  /-- The text ends inside an array. -/
  | endInList
  /-- The text ends inside an object. -/
  | endInObject
  /-- No value starts with this character. -/
  | noValue
  /-- A word that starts like null, true or false goes on otherwise. -/
  | noLiteral
  /-- A number lacks a digit, or has one after a leading zero. -/
  | badNumber
  /-- A number is too large for a double. -/
  | numberTooLarge
  /-- A control character stands inside a string. -/
  | controlCharacter
  /-- A backslash is followed by something that is no escape. -/
  | badEscape
  /-- An escape names a surrogate that has no partner. -/
  | loneSurrogate
  /-- The escape of a first surrogate is not followed by another escape. -/
  | noSecondSurrogate
  /-- No colon follows the name of a member. -/
  | noColon
  /-- Neither a comma nor a bracket follows an item of an array. -/
  | noListSeparator
  /-- Neither a comma nor a brace follows a member of an object. -/
  | noObjectSeparator
  /-- The name of a member is no string. -/
  | keyNotString
  /-- A bracket or brace follows a comma. -/
  | trailingComma
  /-- Something follows the document. -/
  | trailingText
  /-- Arrays and objects are nested too deeply. -/
  | tooDeep
  deriving DecidableEq, Repr

/-- The words for a fault. -/
def FaultKind.text : FaultKind → String
  | endInValue => "EOF while parsing a value"
  | endInString => "EOF while parsing a string"
  | endInList => "EOF while parsing a list"
  | endInObject => "EOF while parsing an object"
  | noValue => "expected value"
  | noLiteral => "expected ident"
  | badNumber => "invalid number"
  | numberTooLarge => "number out of range"
  | controlCharacter => "control character (\\u0000-\\u001F) found while parsing a string"
  | badEscape => "invalid escape"
  | loneSurrogate => "lone leading surrogate in hex escape"
  | noSecondSurrogate => "unexpected end of hex escape"
  | noColon => "expected `:`"
  | noListSeparator => "expected `,` or `]`"
  | noObjectSeparator => "expected `,` or `\x7d`"
  | keyNotString => "key must be a string"
  | trailingComma => "trailing comma"
  | trailingText => "trailing characters"
  | tooDeep => "recursion limit exceeded"

/-- A fault and its place. -/
structure Fault where
  /-- What is wrong. -/
  kind : FaultKind
  /-- How many bytes of the text lie behind the place of the fault. -/
  left : Nat
  deriving DecidableEq, Repr

/-- A fault in front of a rest of the text. -/
def Fault.before (kind : FaultKind) (rest : List Char) : Fault :=
  ⟨kind, Text.byteLength rest⟩

/-- A fault whose place is the first byte of a rest of the text; at the end of the text there is
none, and the place is the end. -/
def Fault.at (kind : FaultKind) (rest : List Char) : Fault :=
  ⟨kind, Text.byteLength rest - 1⟩

/-- The fault with its line and column in the text. -/
def Fault.message (text : String) (fault : Fault) : String :=
  let chars := text.toList
  let place := Text.position chars (Text.byteLength chars - fault.left)
  fault.kind.text ++ " at line " ++ toString place.line ++ " column " ++ toString place.column

end EndpointTypings.Json
