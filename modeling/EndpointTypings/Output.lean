import EndpointTypings.Error
import EndpointTypings.Files

/-!
# Output files

Where the generated file goes (`Output.resolve`), writing it (`Output.write`), and comparing it with
the file that is there (`Output.isUpToDate`). The first is section 10 of the specification, the
second is its Output Sink, section 4.5, and the third is what the option `--check` of section 13
asks for.
-/

namespace EndpointTypings.Output

/-- The name of the file in a target that is a directory. -/
def indexName : Path := ⟨"index.d.ts"⟩

/-- The path of the output. A target with the extension `ts` is the file, any other target is a
directory; without a target the file is named after the source and lies in the default
directory. -/
def resolve (base : Path) (target : Option Path) (source : Path) (defaultDir : String) : Path :=
  match target with
  | some target =>
    if target.extension? = some ['t', 's'] then base.join target
    else (base.join target).join indexName
  | none =>
    let stem := source.stem?.getD ['i', 'n', 'd', 'e', 'x']
    (base.join ⟨defaultDir⟩).join ⟨String.ofList (stem ++ ['.', 'd', '.', 't', 's'])⟩

variable {m : Type → Type} [Monad m] [Files m]

/-- Makes the directories above a path that are missing. -/
def makeParent (path : Path) : m (Except Error Unit) := do
  match path.parent?.filter (!·.text.isEmpty) with
  | some parent =>
    return (← Files.makeDirs parent).mapError fun error =>
      .writeFailed parent.text error.message
  | none => return .ok ()

/-- Writes a text to a file, after making the directories above it that are missing. -/
def write (path : Path) (text : String) : m (Except Error Unit) := do
  match ← makeParent path with
  | .error error => return .error error
  | .ok () =>
    return (← Files.write path text.toUTF8).mapError fun error =>
      .writeFailed path.text error.message

/-- Whether a file holds a text. A missing file does not. -/
def isUpToDate (path : Path) (text : String) : m (Except Error Bool) := do
  match ← Files.readText path with
  | .ok existing => return .ok (existing = text)
  | .error (.os .notFound) => return .ok false
  | .error fault => return .error (.writeFailed path.text fault.message)

end EndpointTypings.Output
