import EndpointTypings.CommandLine

/-!
# Help

What the program says about its own command line: its version, a line about each option and
command, and the page that shows them all. The page is put together from the options of each
level, so an option cannot be missing from it.
-/

namespace EndpointTypings.CommandLine

/-- The name of the program. -/
def programName : String := "apitypes"

/-- The version of the program on a line. -/
def versionText : String := programName ++ " 0.1.0\n"

/-- What a setting is for. -/
def Slot.about : Slot → String
  | help => "Print help"
  | version => "Print version"
  | verbose => "Enable verbose logging (debug level)"
  | format => "Output format for the run summary (json, text, pretty)"
  | outdir => "Output file (`*.ts`) or directory (receives `index.d.ts`)"
  | interface => "Name of the generated interface"
  | ambientNamespace => "Namespace qualifying `IApiOpts` and `IApiSuccess`"
  | header => "Text after `@Description` in the file header"
  | config => "Configuration file (default: `apitypes.toml` in the base directory)"
  | baseDir => "Directory relative paths are resolved against"
  | stdout => "Print the declaration to stdout instead of writing it"
  | check => "Compare with the existing output file and fail if it differs"
  | source => "Registry document (default: first `src/**/apiList.json`)"
  | shell => "Target shell for completion generation"

/-- What a command is for, with its name. -/
def aboutCommands : List (String × String) := [
  ("generate", "Generate the interface declaration file"),
  ("completions", "Generate shell completions"),
  ("help", "Print this message")]

/-- The words of an option: the letter, if it has one, and then the long word. -/
def Slot.words (slot : Slot) : List String :=
  (slot.short?.map fun letter => "-" ++ letter.toString).toList
    ++ (slot.long?.map fun name => "--" ++ name).toList

/-- Lines of a page, each with a line feed. -/
def page (lines : List String) : String :=
  String.join (lines.map (· ++ "\n"))

/-- The lines about a command or an option. -/
def aboutLines (words : String) (about : String) : List String :=
  ["  " ++ words, "          " ++ about]

/-- The lines about the options of a level. -/
def aboutOptions (level : Level) : List String :=
  level.options.flatMap fun slot =>
    aboutLines (String.intercalate ", " slot.words) slot.about

/-- The page about the command line. -/
def helpPage : String :=
  page <|
    ["TypeScript interface declarations for HTTP API registries", "",
      "Usage: " ++ programName ++ " [OPTIONS] <COMMAND>", "", "Commands:"]
    ++ aboutCommands.flatMap (fun command => aboutLines command.1 command.2)
    ++ ["", "Options:"] ++ aboutOptions .top
    ++ ["", "Usage: " ++ programName ++ " generate [OPTIONS] [SOURCE]", "", "Arguments:"]
    ++ aboutLines "[SOURCE]" Slot.source.about
    ++ ["", "Options:"] ++ aboutOptions .generate
    ++ ["", "Usage: " ++ programName ++ " completions [OPTIONS] <SHELL>", "", "Arguments:"]
    ++ aboutLines "<SHELL>" Slot.shell.about
    ++ ["", "Options:"] ++ aboutOptions .completions

/-- The words for a command line that gives no command to run. -/
def UsageFault.message : UsageFault → String
  | help => helpPage
  | version => versionText
  | nothingGiven => helpPage
  | noCommand => "error: a command is required\n"
  | unknownCommand => "error: there is no such command\n"
  | unknownArgument => "error: there is no such option or argument\n"
  | invalidValue => "error: a value is missing or not acceptable\n"
  | conflict => "error: options exclude each other or stand twice\n"
  | surplusValue => "error: an option takes no value\n"
  | missingArgument => "error: an argument is missing\n"

end EndpointTypings.CommandLine
