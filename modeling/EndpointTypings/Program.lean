import EndpointTypings.CommandLine.Completion

/-!
# The program

The words of a command line become an output and an exit code. `Program.start` reads the words,
`Program.execute` runs the command they give, and `Program.run` does both and puts a command line
that gives no command into words. All of it works in any monad with the operations on files, and
what the program has to know of its surroundings is an `Environment`. What it leaves behind is
printed only in the end; `Program.unprinted` says what becomes of it if that cannot be done. This is
the command line program of section 13 of the specification of `apitypes`; other modules cite its
sections by their numbers alone.
-/

namespace EndpointTypings

/-- What the surroundings of the program say. -/
structure Environment where
  /-- The variables that are set, with their values. -/
  settings : List (String × String)
  /-- Whether the output is shown on a terminal. -/
  onTerminal : Bool

namespace Environment

/-- The variables that the program looks at. -/
def variableNames : List String :=
  ["APITYPES_CONFIG", "CLICOLOR_FORCE", "NO_COLOR", "CLICOLOR"]

/-- The value of a variable. -/
def get? (environment : Environment) (name : String) : Option String :=
  Entries.get? name environment.settings

/-- The configuration file that is set for every run. -/
def configFile (environment : Environment) : Option String :=
  environment.get? "APITYPES_CONFIG"

/-- Whether a variable asks for what it names: it is set, and not to zero. -/
def asks (environment : Environment) (name : String) : Option Bool :=
  (environment.get? name).map (· ≠ "0")

/-- Whether the output has colors. Forcing them wins over forbidding them; otherwise a terminal
has them unless they are turned off. -/
def isColored (environment : Environment) : Bool :=
  if environment.asks "CLICOLOR_FORCE" = some true then true
  else if (environment.get? "NO_COLOR").isSome then false
  else (environment.asks "CLICOLOR").getD true && environment.onTerminal

end Environment

/-- What the program leaves behind. -/
structure Answer where
  /-- What it printed. -/
  stdout : String
  /-- What it printed about a failure. -/
  stderr : String
  /-- Its exit code. -/
  exitCode : ExitCode
  deriving DecidableEq, Repr

namespace Answer

/-- The answer of a command that did not fail. -/
def ofOutcome (outcome : Generate.Outcome) : Answer :=
  ⟨outcome.stdout, "", outcome.exitCode⟩

/-- The answer of a command that failed. -/
def ofFailure (failure : Failure) : Answer :=
  ⟨"", "Error: " ++ failure.message ++ "\n", failure.exitCode⟩

/-- The answer of a program that stops at once. -/
def stopped : Answer := ⟨"", "", .stopped⟩

/-- The answer to a command line that gives no command: what was asked for is printed, and a
mistake is reported. -/
def ofUsage (fault : CommandLine.UsageFault) : Answer :=
  if fault.exitCode.isSuccess then ⟨fault.message, "", fault.exitCode⟩
  else ⟨"", fault.message, fault.exitCode⟩

end Answer

namespace Program

open CommandLine

/-- The command that a command line gives. -/
def start (environment : Environment) (words : List String) : Except UsageFault Arguments :=
  CommandLine.parse environment.configFile words

/-- The format of the summary. Its name is looked at only here, when the whole command line has
been understood, so one that is not known is a failure of the run and not of the command line. -/
def summaryFormat (name : String) : Except Failure OutputFormat :=
  (OutputFormat.ofString name).mapError fun error => ⟨[], .message error.message⟩

variable {m : Type → Type} [Monad m] [Files m]

/-- A command, run. -/
def perform (environment : Environment) (format : OutputFormat) :
    Command → ExceptT Failure m Generate.Outcome
  | .generate request => Generate.run request format environment.isColored
  | .completions shell => pure ⟨Completion.script shell, .success⟩

/-- What the program leaves behind for a command line that was understood. -/
def execute (environment : Environment) (arguments : Arguments) : m Answer := do
  match summaryFormat arguments.format with
  | .error failure => return .ofFailure failure
  | .ok format =>
    match ← (perform environment format arguments.command).run with
    | .ok outcome => return .ofOutcome outcome
    | .error failure => return .ofFailure failure

/-- What the program leaves behind for the words of a command line. -/
def run (environment : Environment) (words : List String) : m Answer :=
  match start environment words with
  | .ok arguments => execute environment arguments
  | .error fault => return .ofUsage fault

/-- What the program leaves behind where its output cannot be printed. A text that was to be printed
is the output of the run, which then failed. A summary or a script that cannot be printed stops the
program, and help that cannot be printed is left out. -/
def unprinted (environment : Environment) (words : List String) (answer : Answer)
    (error : OsError) : Answer :=
  if answer.stdout.isEmpty then answer
  else
    match start environment words with
    | .error _ => { answer with stdout := "" }
    | .ok arguments =>
      match arguments.command with
      | .generate request =>
        if request.stdout then .ofFailure ⟨[], .message error.message⟩ else .stopped
      | .completions _ => .stopped

end Program

end EndpointTypings
