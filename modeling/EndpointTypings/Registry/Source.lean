import EndpointTypings.Files
import EndpointTypings.Registry.Document

/-!
# Registry sources

A registry document is a file that is named, or else the first file called `apiList.json` below the
directory `src`. First is the one whose names on the way, compared one after the other, are least,
so the choice does not depend on the order in which files were made. Section 11 of the specification
asks for this order.
-/

namespace EndpointTypings.Registry

variable {m : Type → Type} [Monad m] [Files m]

/-- The directory in which documents are looked for. -/
def sourceRoot : Path := ⟨"src"⟩

/-- The name of the documents that are looked for. -/
def sourceName : String := "apiList.json"

/-- The registry in a file. -/
def load (path : Path) : m (Except Error Registry) := do
  if ← Files.isFile path then
    match ← Files.readText path with
    | .ok text => return (parse text).mapError DocumentFault.toError
    | .error fault =>
      return .error
        (.malformedRegistry ("failed to read " ++ path.text ++ ": " ++ fault.message) none)
  else return .error (.sourceNotFound path.text)

/-- The path of the first document below the sources of a directory. -/
def discover (base : Path) : m (Except Error Path) := do
  let root := base.join sourceRoot
  match (← Files.folder? root).bind (Node.firstFile? sourceName) with
  | some names => return .ok (names.foldl (fun path name => path.join ⟨name⟩) root)
  | none => return .error (.sourceNotFound ((root.join ⟨"**"⟩).join ⟨sourceName⟩).text)

end EndpointTypings.Registry
