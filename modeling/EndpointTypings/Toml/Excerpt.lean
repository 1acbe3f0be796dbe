import EndpointTypings.Text.Pieces
import EndpointTypings.Text.Position
import EndpointTypings.Toml.Token

/-!
# Excerpts

A fault in a document is shown with the line it lies in, and carets under the part it is about.
The column of the heading and the indentation of the carets count characters; the carets count
bytes, and stop at the end of the line.
-/

namespace EndpointTypings.Toml

/-- A fault in a part of a text, as it is shown. -/
def excerpt (text : String) (part : Span) (what : String) : String :=
  let chars := text.toList
  let start := Text.byteLength chars - part.before
  let line := (Text.position chars start).line
  let column := Text.characterColumn chars start
  let number := toString line
  let content := (Text.split '\n' chars).getD (line - 1) []
  let carets := max 1 (min (part.before - part.after) (Text.byteLength content - column))
  let gutter := String.ofList (List.replicate (number.length + 1) ' ')
  "TOML parse error at line " ++ number ++ ", column " ++ toString (column + 1) ++ "\n"
    ++ gutter ++ "|\n"
    ++ number ++ " | " ++ String.ofList content ++ "\n"
    ++ gutter ++ "| " ++ String.ofList (List.replicate column ' ' ++ List.replicate carets '^')
    ++ "\n" ++ what ++ "\n"

end EndpointTypings.Toml
