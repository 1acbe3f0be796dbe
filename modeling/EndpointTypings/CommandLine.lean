import EndpointTypings.Generate

/-!
# The command line

The words after the program's name are options, one of the commands `generate` and `completions`,
and what the command takes. They are read from left to right at one of three levels: before the
command, or inside one of the two. An option takes its value from the same word or from the next
one; a value that has been seen is only checked and recorded (`Scan.settle`) when the next option or
argument arrives or the level ends, so a word that is wrong at sight wins over a value that is.
Options may stand once at a level. Two of them, `--verbose` and `--format`, may stand before or
after the command; the inner one wins. The commands and their options are those of section 13 of the
specification.
-/

namespace EndpointTypings.CommandLine

/-- The shells for which there are completions. -/
inductive Shell where
  /-- bash -/
  | bash
  /-- elvish -/
  | elvish
  /-- fish -/
  | fish
  /-- powershell -/
  | powershell
  /-- zsh -/
  | zsh
  deriving DecidableEq, Repr

namespace Shell

/-- Every shell. -/
def all : List Shell := [bash, elvish, fish, powershell, zsh]

/-- The name of a shell. -/
def name : Shell → String
  | bash => "bash"
  | elvish => "elvish"
  | fish => "fish"
  | powershell => "powershell"
  | zsh => "zsh"

/-- The shell with a name. -/
def ofName? (name : String) : Option Shell :=
  all.find? (·.name = name)

end Shell

/-- What the program is asked to do. -/
inductive Command where
  /-- To generate an interface. -/
  | generate (request : GenerateRequest)
  /-- To print the completions for a shell. -/
  | completions (shell : Shell)
  deriving DecidableEq, Repr

/-- A command line that was understood. -/
structure Arguments where
  /-- Whether the log tells more. -/
  verbose : Bool
  /-- The format of the summary, as it was written. -/
  format : String
  /-- The command. -/
  command : Command
  deriving DecidableEq, Repr

/-- Why a command line gives no command to run. -/
inductive UsageFault where
  /-- Help was asked for. -/
  | help
  /-- The version was asked for. -/
  | version
  /-- There is nothing on the command line. -/
  | nothingGiven
  /-- There are options but no command. -/
  | noCommand
  /-- There is no such command. -/
  | unknownCommand
  /-- There is no such option, or an argument too many. -/
  | unknownArgument
  /-- A value is missing or not acceptable. -/
  | invalidValue
  /-- An option stands twice, or two options exclude each other. -/
  | conflict
  /-- A value was given to an option that takes none. -/
  | surplusValue
  /-- An argument that is needed is missing. -/
  | missingArgument
  deriving DecidableEq, Repr

/-- The exit code of a command line that is not run: help and version were asked for, the rest is
the user's mistake. -/
def UsageFault.exitCode : UsageFault → ExitCode
  | help => .success
  | version => .success
  | _ => .invalidInput

/-- A thing that can be set on the command line. -/
inductive Slot where
  /-- The option for help. -/
  | help
  /-- The option for the version. -/
  | version
  /-- Whether the log tells more. -/
  | verbose
  /-- The format of the summary. -/
  | format
  /-- The output. -/
  | outdir
  /-- The name of the interface. -/
  | interface
  /-- The namespace of the ambient types. -/
  | ambientNamespace
  /-- The header description. -/
  | header
  /-- The configuration file. -/
  | config
  /-- The base directory. -/
  | baseDir
  /-- Whether the text is printed. -/
  | stdout
  /-- Whether the text is compared. -/
  | check
  /-- The registry document, an argument without a name. -/
  | source
  /-- The shell, an argument without a name. -/
  | shell
  deriving DecidableEq, Repr

namespace Slot

/-- The word of an option behind its two dashes. -/
def long? : Slot → Option String
  | help => some "help"
  | version => some "version"
  | verbose => some "verbose"
  | format => some "format"
  | outdir => some "outdir"
  | interface => some "interface"
  | ambientNamespace => some "namespace"
  | header => some "header"
  | config => some "config"
  | baseDir => some "base-dir"
  | stdout => some "stdout"
  | check => some "check"
  | source => none
  | shell => none

/-- The letter of an option behind its dash. -/
def short? : Slot → Option Char
  | help => some 'h'
  | version => some 'V'
  | verbose => some 'v'
  | outdir => some 'o'
  | _ => none

/-- Whether an option takes a value. -/
def takesValue : Slot → Bool
  | help => false
  | version => false
  | verbose => false
  | stdout => false
  | check => false
  | _ => true

/-- Whether a value is acceptable: a path is not empty, and a shell is one of those that are
known. -/
def accepts (slot : Slot) (value : String) : Bool :=
  match slot with
  | outdir => !value.isEmpty
  | config => !value.isEmpty
  | baseDir => !value.isEmpty
  | source => !value.isEmpty
  | shell => (Shell.ofName? value).isSome
  | _ => true

end Slot

/-- Where on the command line a word stands. -/
inductive Level where
  /-- Before the command. -/
  | top
  /-- Behind the command `generate`. -/
  | generate
  /-- Behind the command `completions`. -/
  | completions
  deriving DecidableEq, Repr

namespace Level

/-- The options of a level. -/
def options : Level → List Slot
  | top => [.verbose, .format, .help, .version]
  | generate => [.outdir, .interface, .ambientNamespace, .header, .config, .baseDir, .stdout,
      .check, .verbose, .format, .help]
  | completions => [.verbose, .format, .help]

/-- The argument without a name that a level takes. -/
def argument? : Level → Option Slot
  | top => none
  | generate => some .source
  | completions => some .shell

end Level

/-- The names of the commands, with the one that shows help. -/
def commandNames : List String := ["generate", "completions", "help"]

/-- What has been read at a level. -/
structure Scan where
  /-- What is set, with the values. -/
  values : List (Slot × String)
  /-- What was seen last and is not recorded yet; an option may still wait for its value. -/
  pending : Option (Slot × Option String)
  /-- Whether the argument without a name has been seen. -/
  filled : Bool
  deriving DecidableEq, Repr

namespace Scan

/-- A level at its start. -/
def start : Scan := ⟨[], none, false⟩

/-- The value of a slot. -/
def get? (scan : Scan) (slot : Slot) : Option String :=
  (scan.values.find? (·.1 = slot)).map (·.2)

/-- Whether a slot is set. -/
def has (scan : Scan) (slot : Slot) : Bool :=
  (scan.get? slot).isSome

/-- The slot that waits for its value. -/
def waiting? (scan : Scan) : Option Slot :=
  match scan.pending with
  | some (slot, none) => some slot
  | _ => none

/-- The level with a slot set. -/
def record (scan : Scan) (slot : Slot) (value : String) : Except UsageFault Scan :=
  if scan.has slot then .error .conflict
  else if !slot.accepts value then .error .invalidValue
  else .ok { scan with values := scan.values ++ [(slot, value)] }

/-- The level with what was seen last recorded. -/
def settle (scan : Scan) : Except UsageFault Scan :=
  match scan.pending with
  | none => .ok scan
  | some (_, none) => .error .invalidValue
  | some (slot, some value) => { scan with pending := none }.record slot value

/-- The level after an option that takes no value. -/
def flag (scan : Scan) (slot : Slot) : Except UsageFault Scan := do
  let scan ← scan.settle
  match slot with
  | .help => .error .help
  | .version => .error .version
  | slot => scan.record slot "true"

/-- The level after an option that takes a value, which may stand in the same word. -/
def option (scan : Scan) (slot : Slot) (value : Option String) : Except UsageFault Scan := do
  let scan ← scan.settle
  match value with
  | some value => scan.record slot value
  | none => return { scan with pending := some (slot, none) }

/-- The level after a word with two dashes, cut at its first equals sign. -/
def long (scan : Scan) (level : Level) (name : String) (value : Option String) :
    Except UsageFault Scan :=
  match level.options.find? (·.long? = some name) with
  | none => .error .unknownArgument
  | some slot =>
    if slot.takesValue then scan.option slot value
    else if value.isSome then .error .surplusValue
    else scan.flag slot

/-- The level after the letters of a word with one dash. The letters behind an option that takes
a value are its value, with or without an equals sign. -/
def shorts (level : Level) : Scan → List Char → Except UsageFault Scan
  | scan, [] => .ok scan
  | scan, c :: rest =>
    match level.options.find? (·.short? = some c) with
    | none => .error .unknownArgument
    | some slot =>
      if slot.takesValue then
        scan.option slot <|
          match rest with
          | [] => none
          | '=' :: rest => some (String.ofList rest)
          | rest => some (String.ofList rest)
      else do shorts level (← scan.flag slot) rest

/-- The level after a word that is no option and no value of one. -/
def argument (scan : Scan) (level : Level) (trailing : Bool) (word : String) :
    Except UsageFault Scan :=
  match level.argument? with
  | some slot =>
    if scan.filled then .error .unknownArgument
    else do
      let scan ← scan.settle
      return { scan with pending := some (slot, some word), filled := true }
  | none =>
    .error (if trailing && commandNames.contains word then .unknownArgument else .unknownCommand)

/-- The level after a word that starts with a dash and is not one of a value. -/
def dashed (scan : Scan) (level : Level) (word : List Char) : Except UsageFault Scan :=
  match word with
  | '-' :: '-' :: rest =>
    let name := String.ofList (rest.takeWhile (· ≠ '='))
    match rest.dropWhile (· ≠ '=') with
    | [] => scan.long level name none
    | _ :: value => scan.long level name (some (String.ofList value))
  | word => shorts level scan (word.drop 1)

end Scan

/-- Whether a word is an option or options: it starts with a dash and is not just one. -/
def isDashed (word : List Char) : Bool :=
  word.head? = some '-' && word ≠ ['-']

/-- The words of a level, up to its end or to the name of a command, which is given with the words
behind it. Behind two dashes no word is an option or a command. -/
def scanWords (level : Level) :
    Bool → Scan → List String → Except UsageFault (Scan × Option (String × List String))
  | _, scan, [] => .ok (scan, none)
  | true, scan, word :: words => do
    scanWords level true (← scan.argument level true word) words
  | false, scan, word :: words =>
    match scan.waiting? with
    -- no option waits for a value, so the word may be anything
    | none =>
      if level = .top && commandNames.contains word then .ok (scan, some (word, words))
      else if word = "--" then scanWords level true scan words
      else if isDashed word.toList then do
        scanWords level false (← scan.dashed level word.toList) words
      else do scanWords level false (← scan.argument level false word) words
    -- the word is the value, unless it is an option itself or ends the options
    | some slot =>
      if word = "--" then scanWords level true scan words
      else if isDashed word.toList then do
        scanWords level false (← scan.dashed level word.toList) words
      else scanWords level false { scan with pending := some (slot, some word) } words

/-- What the words behind a command set. The configuration file may also be set outside the
command line. -/
def readCommand (level : Level) (configFile : Option String) (words : List String) :
    Except UsageFault Scan := do
  let (scan, _) ← scanWords level false .start words
  let scan ← scan.settle
  match level, configFile with
  | .generate, some path => if scan.has .config then return scan else scan.record .config path
  | _, _ => return scan

/-- The request that the words behind `generate` make. -/
def readRequest (scan : Scan) : Except UsageFault GenerateRequest :=
  let path (slot : Slot) : Option Path := (scan.get? slot).map Path.mk
  if scan.has .stdout && scan.has .check then .error .conflict
  else .ok {
    source := path .source
    outdir := path .outdir
    interfaceName := scan.get? .interface
    ambientNamespace := scan.get? .ambientNamespace
    headerDescription := scan.get? .header
    config := path .config
    baseDir := path .baseDir
    stdout := scan.has .stdout
    check := scan.has .check }

/-- The shell that the words behind `completions` name. -/
def readShell (scan : Scan) : Except UsageFault Shell :=
  match (scan.get? .shell).bind Shell.ofName? with
  | some shell => .ok shell
  | none => .error .missingArgument

/-- What the words behind `help` come to: help, if they name at most one command. -/
def helpFault : List String → UsageFault
  | [] => .help
  | [name] => if commandNames.contains name then .help else .unknownCommand
  | _ => .unknownCommand

/-- The format of the summary unless another is given. -/
def standardFormat : String := OutputFormat.standard.name

/-- A command with what the two levels set together. -/
def Arguments.ofScans (outer inner : Scan) (command : Command) : Arguments where
  verbose := outer.has .verbose || inner.has .verbose
  format := (inner.get? .format).getD ((outer.get? .format).getD standardFormat)
  command := command

/-- The command that a command line gives. `configFile` is the configuration file that is set
outside the command line, if one is. -/
def parse (configFile : Option String) (words : List String) : Except UsageFault Arguments := do
  let (outer, command) ← scanWords .top false .start words
  match command with
  | none =>
    let outer ← outer.settle
    .error (if outer.values.isEmpty then .nothingGiven else .noCommand)
  | some (name, words) =>
    if name = "generate" then
      let inner ← readCommand .generate configFile words
      let request ← readRequest inner
      let outer ← outer.settle
      return .ofScans outer inner (.generate request)
    else if name = "completions" then
      let inner ← readCommand .completions configFile words
      let shell ← readShell inner
      let outer ← outer.settle
      return .ofScans outer inner (.completions shell)
    else
      .error (helpFault words)

end EndpointTypings.CommandLine
