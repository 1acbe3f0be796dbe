import EndpointTypings.Toml.Scalar
import EndpointTypings.Toml.Tree

/-!
# Reading TOML

A document is read in two passes. The first gives its outline, or refuses the text as a whole. The
second decodes the outline in the order of the text, and puts every value where it belongs as soon
as it is decoded, so that of several faults the first one counts. `parse` is both passes.
-/

namespace EndpointTypings.Toml

/-- A result that has to be there. -/
def required {α : Type} : Option α → Except Fault α
  | some value => .ok value
  | none => malformed

/-- The number of parts that a dotted key may have. -/
def maxParts : Nat := 80

/-- A part of a dotted key. -/
def readKey (token : Token) : Except Fault Key := do
  return ⟨← required (keyName? token), token.span⟩

/-- A dotted key. It is too long only if all its parts are keys. -/
def readPath (path : List Token) : Except Fault (List Key) := do
  let keys ← path.mapM readKey
  if maxParts < keys.length then .error .keyTooLong else return keys

/-- A value that has no parts. -/
def readScalar (token : Token) : Except Fault Scalar :=
  match token.kind with
  | .string basic lines => do
    return .string (← required (stringText? basic lines token.text))
  | _ => required (scalar? token.text)

mutual

/-- The value of a tree. -/
def readTree : Tree → Except Fault Value
  | .leaf token => do return .scalar token.span (← readScalar token)
  | .array span items => do return .array span false (← readItems items)
  | .table span assignments => do return .table span .inline (← readAssignments assignments [])

/-- The values of the items of an array. -/
def readItems : List Tree → Except Fault (List Value)
  | [] => .ok []
  | item :: items => do
    let value ← readTree item
    return value :: (← readItems items)

/-- The table after a series of dotted keys with their values. -/
def readAssignments : List (List Token × Tree) → Table → Except Fault Table
  | [], table => .ok table
  | (path, item) :: assignments, table => do
    let keys ← readPath path
    let value ← readTree item
    readAssignments assignments (← Table.insert value keys table)

end

/-- The table of a document after a section. The table under a header is sought out before its
lines are decoded; an array of tables grows only afterwards. -/
def readSection (root : Table) (part : Section) : Except Fault Table := do
  let path ← readPath part.path
  if part.ofArray then
    let table ← readAssignments part.assignments []
    Table.alter (Table.grow part.span table) path root
  else
    let define (key : Key) (old : Option (Span × Value)) : Except Fault (Span × Value) := do
      let table ← readAssignments part.assignments (← Table.inherited old)
      return (key.span, .table part.span .header table)
    Table.alter define path root

/-- The table of a document: the lines before the first header, then the sections. -/
def readOutline (outline : Outline) : Except Fault Table := do
  outline.sections.foldlM readSection (← readAssignments outline.assignments [])

/-- The table that a text is the document of. -/
def parse (text : String) : Except Fault Table := do
  readOutline (← required (outline? (tokens text)))

end EndpointTypings.Toml
