import EndpointTypings.Config.Document
import EndpointTypings.Files

/-!
# Configuration files

A configuration comes from a file that is named, or from the file `apitypes.toml` of a directory if
there is one. Section 12 of the specification has both.
-/

namespace EndpointTypings.Config

variable {m : Type → Type} [Monad m] [Files m]

/-- The configuration in a file. -/
def load (path : Path) : m (Except Error Config) := do
  match ← Files.readText path with
  | .ok text => return parse text
  | .error fault =>
    return .error (.configuration ("failed to read " ++ path.text ++ ": " ++ fault.message))

/-- The configuration in the file of a directory, or the standard one if there is no such file. -/
def discover (base : Path) : m (Except Error Config) := do
  let candidate := base.join ⟨fileName⟩
  if ← Files.isFile candidate then load candidate else return .ok standard

end EndpointTypings.Config
