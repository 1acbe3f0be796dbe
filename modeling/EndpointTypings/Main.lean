import EndpointTypings.Program

/-!
# The command line program

The operations on files, done by the machine, and the entry point: it reads the environment and
the words of the command line, runs the program and prints what it leaves behind.
-/

namespace EndpointTypings

namespace Machine

/-- The number of an error of the operating system, and its words. -/
def describe : IO.Error → UInt32 × String
  | .alreadyExists _ code words => (code, words)
  | .inappropriateType _ code words => (code, words)
  | .invalidArgument _ code words => (code, words)
  | .noFileOrDirectory _ code words => (code, words)
  | .permissionDenied _ code words => (code, words)
  | .noSuchThing _ code words => (code, words)
  | .resourceExhausted _ code words => (code, words)
  | .otherError code words => (code, words)
  | error => (0, toString error)

/-- An error of the operating system. -/
def osError (error : IO.Error) : OsError :=
  let (code, words) := describe error
  match code with
  | 2 => .notFound
  | 16 => .busy
  | 17 => .alreadyExists
  | 20 => .notADirectory
  | 21 => .isADirectory
  | 36 => .nameTooLong
  | 40 => .tooManyLinks
  | 0 => .other words
  | code => .other (words ++ " (os error " ++ toString code.toNat ++ ")")

/-- An operation of the machine with its error. -/
def attempt {α : Type} (action : IO α) : IO (Except OsError α) := do
  match ← action.toBaseIO with
  | .ok value => return .ok value
  | .error error => return .error (osError error)

/-- The kind of thing that a path leads to. -/
def kindOf? (path : Path) : IO (Option IO.FS.FileType) := do
  match ← (System.mkFilePath [path.text]).metadata.toBaseIO with
  | .ok metadata => return some metadata.type
  | .error _ => return none

/-- The tree below a folder. What is no folder has no bytes here, and links are not followed. -/
partial def tree (folder : Path) : IO Node := do
  let entries ← (System.mkFilePath [folder.text]).readDir
  let children ← entries.toList.mapM fun entry => do
    let inside := folder.join ⟨entry.fileName⟩
    match (← entry.path.symlinkMetadata).type with
    | .dir => return (entry.fileName, ← tree inside)
    | .symlink => return (entry.fileName, Node.link ⟨""⟩)
    | _ => return (entry.fileName, Node.file ByteArray.empty)
  return .folder children

end Machine

/-- The files of the machine. -/
instance : Files IO where
  workingDir := do
    match ← IO.currentDir.toBaseIO with
    | .ok path => return .ok ⟨toString path⟩
    -- the number of this error is not told; a directory that is gone is what it stands for
    | .error _ => return .error .notFound
  isFile path := return (← Machine.kindOf? path) == some .file
  isDir path := return (← Machine.kindOf? path) == some .dir
  read path := Machine.attempt (IO.FS.readBinFile path.text)
  folder? path := do
    match ← (Machine.tree path).toBaseIO with
    | .ok node => return some node
    | .error _ => return none
  makeDir path := Machine.attempt (IO.FS.createDir path.text)
  write path content := Machine.attempt (IO.FS.writeBinFile path.text content)

/-- The surroundings of the running program. -/
def Environment.current : IO Environment := do
  let settings ← Environment.variableNames.filterMapM fun name => do
    return (← IO.getEnv name).map fun value => (name, value)
  return ⟨settings, ← (← IO.getStdout).isTty⟩

end EndpointTypings

/-- The program. -/
def main (words : List String) : IO UInt32 := do
  let environment ← EndpointTypings.Environment.current
  let answer : EndpointTypings.Answer ← EndpointTypings.Program.run environment words
  let printed ← EndpointTypings.Machine.attempt do
    IO.print answer.stdout
    (← IO.getStdout).flush
  let answer := match printed with
    | .ok () => answer
    | .error error => EndpointTypings.Program.unprinted environment words answer error
  IO.eprint answer.stderr
  return answer.exitCode.value.toNat.toUInt32
