import EndpointTypings.Text.Position

/-!
# TOML tokens

A document is cut into tokens before anything in it is understood: marks, white space, line ends,
comments, the four kinds of string, and bare words, which are everything else. How far a token
reaches depends on nothing but its own characters, so that a mark inside a string or a comment is
none. A token keeps its characters as they are written: the tokens of a text put together are the
text (`flatMap_text_tokensFrom`).
-/

namespace EndpointTypings.Toml

/-- A part of a text. -/
structure Span where
  /-- The number of bytes from the start of the part to the end of the text. -/
  before : Nat
  /-- The number of bytes from the end of the part to the end of the text. -/
  after : Nat
  deriving DecidableEq, Repr

/-- What a token is. -/
inductive TokenKind where
  /-- A dot. -/
  | dot
  /-- An equals sign. -/
  | equals
  /-- A comma. -/
  | comma
  /-- An opening bracket. -/
  | openBracket
  /-- A closing bracket. -/
  | closeBracket
  /-- An opening brace. -/
  | openBrace
  /-- A closing brace. -/
  | closeBrace
  /-- White space inside a line. -/
  | space
  /-- A line end. -/
  | newline
  /-- A comment, up to the end of its line. -/
  | comment
  /-- A string, basic or literal, over several lines or on one, perhaps without its end. -/
  | string (basic lines : Bool)
  /-- A word without quotes. -/
  | bare
  deriving DecidableEq, Repr

/-- A token of a text. -/
structure Token where
  /-- What it is. -/
  kind : TokenKind
  /-- Its characters as they are written, with its quotes. -/
  text : List Char
  /-- Where it stands. -/
  span : Span
  deriving DecidableEq, Repr

/-- The single quote. -/
def quote : Char := '\x27'

/-- White space inside a line. -/
def isSpace (c : Char) : Bool :=
  c = ' ' || c = '\t'

/-- A character that may stand in strings and comments: a tab, or anything that is no control
character. -/
def isTextChar (c : Char) : Bool :=
  c = '\t' || (0x20 ≤ c.toNat && c.toNat ≠ 0x7F)

/-- The token that a character is by itself. -/
def markKind? (c : Char) : Option TokenKind :=
  if c = '.' then some .dot
  else if c = '=' then some .equals
  else if c = ',' then some .comma
  else if c = '[' then some .openBracket
  else if c = ']' then some .closeBracket
  else if c = '\x7b' then some .openBrace
  else if c = '\x7d' then some .closeBrace
  else none

/-- A character that goes on with a bare word: no mark, no white space, no line end and no start
of a comment. Quotes are no exception. -/
def isBareChar (c : Char) : Bool :=
  (markKind? c).isNone && !isSpace c && c ≠ '#' && c ≠ '\r' && c ≠ '\n'

/-- The length of a basic string on one line behind its opening quote. The closing quote belongs
to it, a line end does not. -/
def basicLength : List Char → Nat
  | [] => 0
  | [c] => if c = '\n' then 0 else 1
  | c :: d :: rest =>
    if c = '\n' then 0
    else if c = '"' then 1
    else if c = '\\' && (d = '\\' || d = '"') then 2 + basicLength rest
    else 1 + basicLength (d :: rest)

/-- The length of a literal string on one line behind its opening quote. -/
def literalLength : List Char → Nat
  | [] => 0
  | c :: rest =>
    if c = '\n' then 0
    else if c = quote then 1
    else 1 + literalLength rest

/-- Whether a text starts with three quotes of one kind. -/
def startsWithThree (mark : Char) (s : List Char) : Bool :=
  s.take 3 == [mark, mark, mark]

/-- The length of a string over several lines behind its opening quotes. Up to two more quotes may
stand before the three that close it. -/
def linesLength (mark : Char) : List Char → Nat
  | [] => 0
  | [_] => 1
  | c :: d :: rest =>
    if startsWithThree mark (c :: d :: rest) then
      3 + (((rest.drop 1).take 2).takeWhile (· = mark)).length
    else if c = '\\' && mark = '"' && (d = '\\' || d = '"') then 2 + linesLength mark rest
    else 1 + linesLength mark (d :: rest)

/-- The kind of the token that starts with a character, and the number of characters behind that
one that belong to it. -/
def lexeme (c : Char) (rest : List Char) : TokenKind × Nat :=
  match markKind? c with
  | some kind => (kind, 0)
  | none =>
    if isSpace c then (.space, (rest.takeWhile isSpace).length)
    else if c = '#' then
      (.comment, (rest.takeWhile fun d => d ≠ '\r' && d ≠ '\n').length)
    else if c = '\n' then (.newline, 0)
    else if c = '\r' then (.newline, if rest.head? = some '\n' then 1 else 0)
    else if c = '"' || c = quote then
      if startsWithThree c (c :: rest) then
        (.string (c = '"') true, 2 + linesLength c (rest.drop 2))
      else (.string (c = '"') false, if c = '"' then basicLength rest else literalLength rest)
    else (.bare, (rest.takeWhile isBareChar).length)

/-- The tokens of a text that is so many bytes long. -/
def tokensFrom (bytes : Nat) : List Char → List Token
  | [] => []
  | c :: rest =>
    let (kind, more) := lexeme c rest
    let text := c :: rest.take more
    let left := bytes - Text.byteLength text
    ⟨kind, text, ⟨bytes, left⟩⟩ :: tokensFrom left (rest.drop more)
termination_by s => s.length

/-- Nothing of a text is lost when it is cut into tokens. -/
theorem flatMap_text_tokensFrom (bytes : Nat) (s : List Char) :
    (tokensFrom bytes s).flatMap Token.text = s := by
  fun_induction tokensFrom bytes s with
  | case1 => rfl
  | case2 bytes c rest kind more _ text left ih => simp [ih, text]

/-- What follows a byte order mark, which may stand at the start of a text. -/
def skipMark : List Char → List Char
  | [] => []
  | c :: rest => if c.toNat = 0xFEFF then rest else c :: rest

/-- The tokens of a document. -/
def tokens (text : String) : List Token :=
  let s := skipMark text.toList
  tokensFrom (Text.byteLength s) s

namespace Token

/-- What stands where a token is missing. It is neither a key nor a value. -/
def missing : Token := ⟨.bare, [], ⟨0, 0⟩⟩

/-- Whether a token may stand in a document at all: a comment holds no control characters, and a
carriage return stands before a line feed. -/
def isSound (token : Token) : Bool :=
  match token.kind with
  | .comment => token.text.all isTextChar
  | .newline => token.text ≠ ['\r']
  | _ => true

/-- Whether a token says nothing between the parts of a value. -/
def isTrivia (token : Token) : Bool :=
  token.kind = .space || token.kind = .newline || token.kind = .comment

/-- Whether a token is a part of a value without quotes. -/
def isRunPart (token : Token) : Bool :=
  token.kind = .bare || token.kind = .dot

/-- Whether a token may stand in a path of keys. -/
def isPathPart (token : Token) : Bool :=
  match token.kind with
  | .dot => true
  | .space => true
  | .string _ _ => true
  | .bare => true
  | _ => false

end Token

/-- The number of bytes of tokens at the end of a text. -/
def bytesLeft : List Token → Nat
  | [] => 0
  | token :: _ => token.span.before

end EndpointTypings.Toml
