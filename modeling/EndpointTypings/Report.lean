import EndpointTypings.Error
import EndpointTypings.Json.Writer

/-!
# Reports

What a run has to say is JSON data, shown in one of three formats. The format `json` is the data
itself. In the other two an object is a line for each member and anything else a single text: `text`
has lines that scripts can take apart, `pretty` has the values in one column and colors on a
terminal. Section 13 of the specification names the formats and what a summary holds.

The column of values is found from the longest name in bytes, and names are padded to that many
characters, so that the values line up and no name reaches them. A width is a number of 16 bits.
Nothing looks after names that are longer than that: a program that has to pad to their width stops
without a report (`Report.render?`).
-/

namespace EndpointTypings

/-- A format of reports. -/
inductive OutputFormat where
  /-- The data as JSON. -/
  | json
  /-- A line with a name, an equals sign and a value for each member. -/
  | text
  /-- A line with an aligned value for each member. -/
  | pretty
  deriving DecidableEq, Repr

namespace OutputFormat

/-- The format of reports unless another is asked for. -/
def standard : OutputFormat := pretty

/-- The name of a format. -/
def name : OutputFormat → String
  | json => "json"
  | text => "text"
  | pretty => "pretty"

/-- Every format. -/
def all : List OutputFormat := [json, text, pretty]

/-- The format with a name, in any case. The names are of ASCII letters none of which is the
lower case of a letter beyond ASCII, so ASCII case mapping decides the same as Unicode's. -/
def ofString (s : String) : Except Error OutputFormat :=
  match all.find? fun format => format.name.toList = s.toList.map Char.toLower with
  | some format => .ok format
  | none => .error (.invalidArgument
      ("invalid output format: '" ++ s ++ "' (expected: json, text, or pretty)"))

end OutputFormat

namespace Report

/-- A color or weight of a terminal. -/
inductive Style where
  /-- As the terminal has it. -/
  | plain
  /-- Bold. -/
  | bold
  /-- Green. -/
  | green
  /-- Yellow. -/
  | yellow
  /-- Cyan. -/
  | cyan
  deriving DecidableEq, Repr

/-- The end of all styles. -/
def resetMark : List Char := ['\x1b', '[', '0', 'm']

/-- The start of a style. -/
def Style.mark : Style → List Char
  | plain => []
  | bold => ['\x1b', '[', '1', 'm']
  | green => ['\x1b', '[', '3', '2', 'm']
  | yellow => ['\x1b', '[', '3', '3', 'm']
  | cyan => ['\x1b', '[', '3', '6', 'm']

/-- A text in which a style starts again after each mark that ends all styles; at most the given
number of marks. -/
def resume (mark : List Char) : Nat → List Char → List Char
  | _, [] => []
  | 0, cs => cs
  | steps + 1, c :: cs =>
    if resetMark.isPrefixOf (c :: cs) then
      resetMark ++ mark ++ resume mark steps ((c :: cs).drop resetMark.length)
    else c :: resume mark steps cs

/-- Characters padded with spaces at the end to a width. -/
def pad (width : Nat) (cs : List Char) : List Char :=
  cs ++ List.replicate (width - cs.length) ' '

/-- A text in a style, padded to a width. With colors the marks stand around the padding and do
not count; marks inside the text do. -/
def paint (colored : Bool) (style : Style) (width : Nat) (text : String) : List Char :=
  let cs := text.toList
  if colored && style ≠ .plain then
    style.mark ++ pad width (resume style.mark cs.length cs) ++ resetMark
  else pad width cs

/-- A value as a single text: a string without quotes, a dash for null, and JSON for the rest. -/
def scalar : Json → String
  | .str s => s
  | .null => "-"
  | value => value.compact

/-- A value in the column of values. -/
def prettyValue (colored : Bool) : Json → List Char
  | .bool true => paint colored .green 0 "yes"
  | .bool false => paint colored .yellow 0 "no"
  | .int n => paint colored .cyan 0 (Json.int n).compact
  | .double x => paint colored .cyan 0 (Json.double x).compact
  | value => (scalar value).toList

/-- The width of the column of names: the longest name in bytes. -/
def nameWidth (members : List (String × Json)) : Nat :=
  members.foldl (fun width member => max width member.1.utf8ByteSize) 0

/-- A member in the format `pretty`. -/
def prettyLine (colored : Bool) (width : Nat) (member : String × Json) : String :=
  String.ofList
    (paint colored .bold width member.1 ++ ' ' :: ' ' :: prettyValue colored member.2)

/-- A member in the format `text`. -/
def textLine (member : String × Json) : String :=
  member.1 ++ "=" ++ scalar member.2

/-- Data in a format. -/
def render (format : OutputFormat) (colored : Bool) (data : Json) : String :=
  match format, data with
  | .json, data => data.pretty
  | .text, .obj members => String.intercalate "\n" (members.map textLine)
  | .pretty, .obj members =>
    String.intercalate "\n" (members.map (prettyLine colored (nameWidth members)))
  | _, data => scalar data

/-- The widest that a column of names can be. -/
def widest : Nat := 65535

/-- Whether data can be shown in a format. Only `pretty` has a column of names. -/
def fits : OutputFormat → Json → Bool
  | .pretty, .obj members => nameWidth members ≤ widest
  | _, _ => true

/-- Data in a format, or nothing if its column of names would be too wide. A run does not ask, as
the names in its summary are short. -/
def render? (format : OutputFormat) (colored : Bool) (data : Json) : Option String :=
  if fits format data then some (render format colored data) else none

end Report

end EndpointTypings
