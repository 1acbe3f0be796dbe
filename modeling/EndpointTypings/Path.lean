import EndpointTypings.Text.Pieces

/-!
# Paths

A path is a text with slashes between its segments. Nothing is looked up and nothing is
normalized: joining, the file name and the parent are all read off the text. Empty segments and
single dots are idle: they name no component, except for a dot at the very start of a relative
path.
-/

namespace EndpointTypings

/-- A path of files. -/
structure Path where
  /-- The text of the path. -/
  text : String
  deriving DecidableEq, Repr

namespace Path

/-- A component of a path. -/
inductive Component where
  /-- The slash that an absolute path starts with. -/
  | root
  /-- The dot that a relative path may start with. -/
  | current
  /-- Two dots. -/
  | parent
  /-- A name. -/
  | normal (name : List Char)
  deriving DecidableEq, Repr

/-- The segments between the slashes of a path. -/
def segments (path : Path) : List (List Char) :=
  Text.split '/' path.text.toList

/-- Whether a path starts with a slash. -/
def isAbsolute (path : Path) : Bool :=
  path.text.toList.head? = some '/'

/-- Whether a segment names nothing. -/
def isIdle (segment : List Char) : Bool :=
  segment = [] || segment = ['.']

/-- The component a segment names, unless it is idle. -/
def component? (segment : List Char) : Option Component :=
  if isIdle segment then none
  else if segment = ['.', '.'] then some .parent
  else some (.normal segment)

/-- The components of a path. -/
def components (path : Path) : List Component :=
  if path.isAbsolute then .root :: path.segments.filterMap component?
  else
    match path.segments with
    -- a dot counts only where a relative path starts with it
    | ['.'] :: rest => .current :: rest.filterMap component?
    | segments => segments.filterMap component?

/-- A path seen from another: an absolute one stands alone, a relative one follows the other
behind a slash. -/
def join (base path : Path) : Path :=
  if path.isAbsolute then path
  else
    match base.text.toList.getLast? with
    | none => path
    | some '/' => ⟨base.text ++ path.text⟩
    | some _ => ⟨base.text ++ "/" ++ path.text⟩

/-- The name at the end of a path, if it ends with one. -/
def fileName? (path : Path) : Option (List Char) :=
  match path.components.getLast? with
  | some (.normal name) => some name
  | _ => none

/-- A file name cut at its last dot. Without a dot, and if the only dot is at the start, there is
no extension. -/
def cutExtension (name : List Char) : List Char × Option (List Char) :=
  match (Text.split '.' name).reverse with
  | last :: first :: rest =>
    let stem := Text.unsplit '.' (first :: rest).reverse
    if stem.isEmpty then (name, none) else (stem, some last)
  | _ => (name, none)

/-- The extension of the file name of a path. -/
def extension? (path : Path) : Option (List Char) :=
  path.fileName?.bind fun name => (cutExtension name).2

/-- The file name of a path without its extension. -/
def stem? (path : Path) : Option (List Char) :=
  path.fileName?.map fun name => (cutExtension name).1

/-- Segments without the idle ones at the end. -/
def dropIdle (segments : List (List Char)) : List (List Char) :=
  (segments.reverse.dropWhile isIdle).reverse

/-- The segments of a path with its last component taken off, and what is idle before it. -/
def dropComponent? (segments : List (List Char)) : Option (List (List Char)) :=
  match (dropIdle segments).reverse with
  | [] => none
  | _ :: rest => some (dropIdle rest.reverse)

/-- A path without its last component. The root and the empty path have no parent. -/
def parent? (path : Path) : Option Path :=
  let ofSegments (segments : List (List Char)) : Path :=
    ⟨String.ofList (Text.unsplit '/' segments)⟩
  if path.isAbsolute then
    (dropComponent? path.segments.tail).map fun segments =>
      ⟨String.ofList ('/' :: Text.unsplit '/' segments)⟩
  else
    match path.segments with
    | ['.'] :: rest =>
      match dropComponent? rest with
      | none => some ⟨""⟩
      | some segments => some (ofSegments (['.'] :: segments))
    | segments => (dropComponent? segments).map ofSegments

/-- A path and the paths above it that are not empty, the path itself first; at most the given
number of them. -/
def ancestorsFrom : Nat → Path → List Path
  | 0, _ => []
  | steps + 1, path =>
    if path.text.isEmpty then []
    else
      match path.parent? with
      | none => [path]
      | some parent => path :: ancestorsFrom steps parent

/-- A path and the paths above it that are not empty, the path itself first. -/
def ancestors (path : Path) : List Path :=
  ancestorsFrom (path.segments.length + 1) path

/-- A path without the slashes at its end. -/
def dropSlashes (path : Path) : Path :=
  ⟨String.ofList (path.text.toList.reverse.dropWhile (· = '/')).reverse⟩

/-- Whether a path ends with a slash. -/
def endsWithSlash (path : Path) : Bool :=
  path.text.toList.getLast? = some '/'

end Path

end EndpointTypings
