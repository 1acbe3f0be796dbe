import EndpointTypings.CommandLine.Help

/-!
# Shell completions

A script that makes a shell complete the command line of the program. Every script does the same
in the words of its shell: it looks for the last command among the words before the cursor and
offers what may follow, which is worked out once, in `Branch.all`.
-/

namespace EndpointTypings.CommandLine

namespace Completion

/-- What may stand behind a command. -/
structure Branch where
  /-- The name of the command; empty before any command. -/
  command : String
  /-- The words that may follow. -/
  words : List String
  /-- The options of those words. -/
  options : List Slot
  /-- Whether names of files may follow too. -/
  files : Bool

namespace Branch

/-- What may stand at a level, with words that are no options. -/
def ofLevel (level : Level) (command : String) (words : List String) (files : Bool) : Branch :=
  ⟨command, words ++ level.options.flatMap Slot.words, level.options, files⟩

/-- What may stand before any command. -/
def top : Branch := ofLevel .top "" commandNames false

/-- What may stand behind each command. -/
def behind : List Branch := [
  ofLevel .generate "generate" [] true,
  ofLevel .completions "completions" (Shell.all.map Shell.name) false,
  ⟨"help", commandNames, [], false⟩]

end Branch

/-- Words in single quotes with a text between them. -/
def quotedWords (separator : String) (words : List String) : String :=
  String.intercalate separator (words.map fun word => "'" ++ word ++ "'")

/-- Words with spaces between them. -/
def plainWords (words : List String) : String :=
  String.intercalate " " words

/-- The script for bash. -/
def bash : List String :=
  let branch (pattern : String) (branch : Branch) : String :=
    "        " ++ pattern ++ ") COMPREPLY=($(compgen " ++ (if branch.files then "-f " else "")
      ++ "-W '" ++ plainWords branch.words ++ "' -- \"$current\")) ;;"
  ["_" ++ programName ++ "() \x7b",
    "    local current=\"$\x7bCOMP_WORDS[COMP_CWORD]\x7d\" command='' word",
    "    for word in \"$\x7bCOMP_WORDS[@]:1:COMP_CWORD-1\x7d\"; do",
    "        case \"$word\" in",
    "            " ++ String.intercalate "|" commandNames ++ ") command=\"$word\" ;;",
    "        esac",
    "    done",
    "    case \"$command\" in"]
  ++ Branch.behind.map (fun behind => branch behind.command behind)
  ++ [branch "*" Branch.top,
    "    esac",
    "\x7d",
    "complete -F _" ++ programName ++ " " ++ programName]

/-- The script for zsh. -/
def zsh : List String :=
  let branch (pattern : String) (branch : Branch) : String :=
    "        " ++ pattern ++ ") compadd -- " ++ plainWords branch.words
      ++ (if branch.files then "; _files" else "") ++ " ;;"
  ["#compdef " ++ programName,
    "_" ++ programName ++ "() \x7b",
    "    local command='' word",
    "    for word in $\x7bwords[2,CURRENT-1]\x7d; do",
    "        case $word in",
    "            " ++ String.intercalate "|" commandNames ++ ") command=$word ;;",
    "        esac",
    "    done",
    "    case $command in"]
  ++ Branch.behind.map (fun behind => branch behind.command behind)
  ++ [branch "*" Branch.top,
    "    esac",
    "\x7d",
    "compdef _" ++ programName ++ " " ++ programName]

/-- The line by which fish offers an option under a condition. -/
def fishOption (condition : String) (slot : Slot) : String :=
  "complete -c " ++ programName ++ " -n \"" ++ condition ++ "\""
    ++ (match slot.short? with
      | some letter => " -s " ++ letter.toString
      | none => "")
    ++ (match slot.long? with
      | some name => " -l " ++ name
      | none => "")
    ++ (if slot.takesValue then " -r" else "") ++ " -d '" ++ slot.about ++ "'"

/-- The line by which fish offers words under a condition. -/
def fishWords (condition : String) (words : String) : String :=
  "complete -c " ++ programName ++ " -n \"" ++ condition ++ "\" -f -a '" ++ words ++ "'"

/-- The script for fish. -/
def fish : List String :=
  let before := "__fish_use_subcommand"
  let after (command : String) : String := "__fish_seen_subcommand_from " ++ command
  aboutCommands.map (fun command =>
    fishWords before command.1 ++ " -d '" ++ command.2 ++ "'")
  ++ Branch.top.options.map (fishOption before)
  ++ Branch.behind.flatMap (fun behind =>
    behind.options.map (fishOption (after behind.command)))
  ++ [fishWords (after "completions") (plainWords (Shell.all.map Shell.name)),
    fishWords (after "help") (plainWords commandNames)]

/-- The script for powershell. -/
def powershell : List String :=
  let branch (pattern : String) (words : List String) : String :=
    "        " ++ pattern ++ " \x7b " ++ quotedWords ", " words ++ " \x7d"
  ["Register-ArgumentCompleter -Native -CommandName '" ++ programName ++ "' -ScriptBlock \x7b",
    "    param($wordToComplete, $commandAst, $cursorPosition)",
    "    $command = ''",
    "    foreach ($element in $commandAst.CommandElements) \x7b",
    "        $word = $element.Extent.Text",
    "        if ($word -in @(" ++ quotedWords ", " commandNames ++ ")) \x7b $command = $word \x7d",
    "    \x7d",
    "    $words = switch ($command) \x7b"]
  ++ Branch.behind.map (fun behind => branch ("'" ++ behind.command ++ "'") behind.words)
  ++ [branch "default" Branch.top.words,
    "    \x7d",
    "    $words | Where-Object \x7b $_ -like \"$wordToComplete*\" \x7d",
    "\x7d"]

/-- The script for elvish. -/
def elvish : List String :=
  let offer (words : List String) : String := "        put " ++ quotedWords " " words
  ["set edit:completion:arg-completer[" ++ programName ++ "] = \x7b|@words|",
    "    var command = ''",
    "    for word $words[1..-1] \x7b",
    "        if (has-value [" ++ plainWords commandNames
      ++ "] $word) \x7b set command = $word \x7d",
    "    \x7d",
    "    if (eq $command '') \x7b",
    offer Branch.top.words]
  ++ Branch.behind.flatMap (fun behind =>
    ["    \x7d elif (eq $command '" ++ behind.command ++ "') \x7b", offer behind.words])
  ++ ["    \x7d",
    "\x7d"]

/-- The script for a shell. -/
def script : Shell → String
  | .bash => page bash
  | .elvish => page elvish
  | .fish => page fish
  | .powershell => page powershell
  | .zsh => page zsh

end Completion

end EndpointTypings.CommandLine
