import EndpointTypings.Toml.Token

/-!
# TOML documents as they are written

The tokens of a document make up its outline: the lines before the first header, and the sections,
each a header with the lines under it. A value in it is a `Tree` whose leaves are tokens. Nothing
is decoded here, so an outline says what stands where, but not yet what it means; text that has no
outline is no TOML, wherever the fault lies.

A key or value that is left out does not spoil the outline. `Token.missing` stands for it, and it
is refused when it is decoded.
-/

namespace EndpointTypings.Toml

/-- A value as it is written. -/
inductive Tree where
  /-- A string, or a value without quotes. -/
  | leaf (token : Token)
  /-- An array between brackets. -/
  | array (span : Span) (items : List Tree)
  /-- A table between braces: the parts of each dotted key, with its value. -/
  | table (span : Span) (assignments : List (List Token × Tree))

/-- The parts of a dotted key, with its value. -/
abbrev Assignment := List Token × Tree

/-- A header with the lines under it. -/
structure Section where
  /-- Where the header stands, with its brackets. -/
  span : Span
  /-- Whether it adds a table to an array of tables. -/
  ofArray : Bool
  /-- The parts of the dotted key in the header. -/
  path : List Token
  /-- The lines under it. -/
  assignments : List Assignment

/-- The outline of a document. -/
structure Outline where
  /-- The lines before the first header. -/
  assignments : List Assignment
  /-- The sections. -/
  sections : List Section

/-- What follows white space inside a line. -/
def skipSpace (tokens : List Token) : List Token :=
  tokens.dropWhile (·.kind = .space)

/-- What follows white space, line ends and comments. -/
def skipTrivia (tokens : List Token) : List Token :=
  tokens.dropWhile Token.isTrivia

/-- What follows a token that has to come next. -/
def expect? (kind : TokenKind) : List Token → Option (List Token)
  | [] => none
  | token :: rest => if token.kind = kind then some rest else none

/-- The parts of a dotted key, given the tokens of it that are no white space. Between two dots,
and at both ends, there is room for one part. -/
def parts? : List Token → Option (List Token)
  | [] => some [.missing]
  | [token] => if token.kind = .dot then some [.missing, .missing] else some [token]
  | token :: next :: rest =>
    if token.kind = .dot then (parts? (next :: rest)).map (.missing :: ·)
    else if next.kind = .dot then (parts? rest).map (token :: ·)
    else none

/-- A dotted key: its parts, of which there is at least one. -/
def path? (tokens : List Token) : Option (List Token × List Token) := do
  let run := tokens.takeWhile Token.isPathPart
  return (← parts? (run.filter (·.kind ≠ .space)), tokens.dropWhile Token.isPathPart)

/-- The tokens that go on with a value without quotes, and what follows it. White space belongs to
such a value when more of it follows. -/
def run : List Token → List Token × List Token
  | [] => ([], [])
  | [token] => if token.isRunPart then ([token], []) else ([], [token])
  | token :: next :: rest =>
    if token.isRunPart then
      let (more, rest) := run (next :: rest)
      (token :: more, rest)
    else if token.kind = .space && next.isRunPart then
      let (more, rest) := run rest
      (token :: next :: more, rest)
    else ([], token :: next :: rest)

/-- A value that has no parts. It may be left out at the end of a line. -/
def leaf? : List Token → Option (Tree × List Token)
  | [] => some (.leaf .missing, [])
  | token :: rest =>
    match token.kind with
    | .string _ _ => some (.leaf token, rest)
    | .newline => some (.leaf .missing, token :: rest)
    | .comment => some (.leaf .missing, token :: rest)
    | _ =>
      if token.isRunPart then
        let (more, rest) := run rest
        let text := (token :: more).flatMap Token.text
        some (.leaf ⟨.bare, text, ⟨token.span.before, bytesLeft rest⟩⟩, rest)
      else none

/-- The items of a container behind its opening mark or a comma, up to its closing mark, in at most
so many steps. A comma may follow the last item. -/
def items? {α : Type} (close : TokenKind) (item : List Token → Option (α × List Token)) :
    Nat → List Token → Option (List α × List Token)
  | 0, _ => none
  | steps + 1, tokens =>
    match expect? close tokens with
    | some rest => some ([], rest)
    | none => do
      let (first, rest) ← item tokens
      let rest := skipTrivia rest
      match expect? close rest with
      | some rest => return ([first], rest)
      | none =>
        let (items, rest) ← items? close item steps (skipTrivia (← expect? .comma rest))
        return (first :: items, rest)

/-- A dotted key with its value, given what may be skipped on both sides of the equals sign. -/
def assignment? (skip : List Token → List Token)
    (value : List Token → Option (Tree × List Token)) (tokens : List Token) :
    Option (Assignment × List Token) := do
  let (path, rest) ← path? tokens
  let (item, rest) ← value (skip (← expect? .equals (skip rest)))
  return ((path, item), rest)

/-- The levels of arrays and inline tables that a value may have. -/
def maxDepth : Nat := 80

/-- A value at its first token, nested at most so many levels; no container in it takes more than
`bound` steps to read. -/
def tree? (bound : Nat) : Nat → List Token → Option (Tree × List Token)
  | _, [] => leaf? []
  | 0, tokens => leaf? tokens
  | depth + 1, token :: rest =>
    match token.kind with
    | .openBracket => do
      let (items, rest) ← items? .closeBracket (tree? bound depth) bound (skipTrivia rest)
      return (.array ⟨token.span.before, bytesLeft rest⟩ items, rest)
    | .openBrace => do
      let item := assignment? skipTrivia (tree? bound depth)
      let (items, rest) ← items? .closeBrace item bound (skipTrivia rest)
      return (.table ⟨token.span.before, bytesLeft rest⟩ items, rest)
    | _ => leaf? (token :: rest)

/-- What follows the end of a line, or the comment in front of it. -/
def endOfLine? (tokens : List Token) : Option (List Token) :=
  match skipSpace tokens with
  | [] => some []
  | token :: rest =>
    if token.kind = .newline || token.kind = .comment then some rest else none

/-- A header behind its first bracket, without the lines under it. -/
def header? (start : Token) (tokens : List Token) : Option (Section × List Token) :=
  match expect? .openBracket tokens with
  | some inside => do
    let (path, rest) ← path? inside
    let rest ← expect? .closeBracket (← expect? .closeBracket rest)
    return (⟨⟨start.span.before, bytesLeft rest⟩, true, path, []⟩, rest)
  | none => do
    let (path, rest) ← path? tokens
    let rest ← expect? .closeBracket rest
    return (⟨⟨start.span.before, bytesLeft rest⟩, false, path, []⟩, rest)

/-- The outline of tokens that are read in at most so many lines. -/
def lines? (bound : Nat) : Nat → List Token → Option Outline
  | 0, _ => none
  | steps + 1, tokens =>
    match skipTrivia tokens with
    | [] => some ⟨[], []⟩
    | token :: rest =>
      if token.kind = .openBracket then do
        let (part, rest) ← header? token rest
        let outline ← lines? bound steps (← endOfLine? rest)
        return ⟨[], { part with assignments := outline.assignments } :: outline.sections⟩
      else do
        let (item, rest) ← assignment? skipSpace (tree? bound maxDepth) (token :: rest)
        let outline ← lines? bound steps (← endOfLine? rest)
        return ⟨item :: outline.assignments, outline.sections⟩

/-- The outline of a document. -/
def outline? (tokens : List Token) : Option Outline :=
  let bound := tokens.length + 1
  if tokens.all Token.isSound then lines? bound bound tokens else none

end EndpointTypings.Toml
