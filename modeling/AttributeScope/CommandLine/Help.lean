import AttributeScope.CommandLine.Session

/-!
# Help

What the program tells about its own use: a help text, what is wrong with a command line, and
completion scripts for shells, which offer the commands.
-/

namespace AttributeScope
namespace CommandLine

/-- How the program is called. -/
def usageText : String := s!"Usage: {programName} [OPTIONS] [COMMAND]\n"

/-- What a command does. -/
def Subcommand.purpose : Subcommand → String
  | scan => "Compute scopes from every .gitattributes file in a project"
  | translate => "Translate gitignore-style patterns into scope patterns"
  | completions => "Print a shell completion script"

/-- A line with two columns, the second at a given place. -/
def columns (width : Nat) (left right : String) : String :=
  "  " ++ left.pushn ' ' (width - left.length) ++ right ++ "\n"

/-- The line of the help text that tells of a command. -/
def Subcommand.helpLine (command : Subcommand) : String :=
  columns 13 command.name command.purpose

/-- An option as the help text shows it, and what it is for. -/
def optionLines : List (String × String) :=
  [("-C, --config <CONFIG>", "Use specific config file"),
    ("-o, --output <OUTPUT>", "Output format: text or json (scan, translate)"),
    ("    --color", "Force color output (scan)"),
    ("    --no-color", "Disable color output (scan)"),
    ("    --dir <DIR>", "Directory the patterns are declared in (translate)"),
    ("    --max-recursive-segments <N>",
      "Maximum '**/' segments expanded per pattern (scan, translate)"),
    ("-h, --help", "Print help"),
    ("-V, --version", "Print version")]

/-- The line of the help text that tells of an option. -/
def optionLine (option : String × String) : String := columns 34 option.1 option.2

/-- The help text. -/
def helpText : String :=
  "Builds generated / non-generated file scopes from linguist-generated attributes\n\n" ++
    usageText ++ "\nCommands:\n" ++ String.join (Subcommand.all.map Subcommand.helpLine) ++
    "\nOptions:\n" ++ String.join (optionLines.map optionLine)

/-- What is wrong with a command line, in words. -/
def UsageFault.message : UsageFault → String
  | invalidValue => "a value is missing, empty or not one of the possible ones"
  | unknownArgument => "there is no such argument"
  | invalidSubcommand => "there is no such command"
  | tooManyValues => "a flag takes no value"
  | argumentConflict => "an option can be given only once"
  | valueValidation => "a value is no number, or too large a number"
  | missingRequiredArgument => "an argument is missing"

/-- What is told about a wrong command line. -/
def UsageFault.report (fault : UsageFault) : String :=
  s!"error: {fault.message}\n\n{usageText}"

/-- The script that makes a shell complete the commands. -/
def Shell.completionScript (shell : Shell) : String :=
  let commands := " ".intercalate (Subcommand.all.map Subcommand.name)
  match shell with
  | bash => s!"complete -W \"{commands}\" {programName}\n"
  | elvish =>
    s!"set edit:completion:arg-completer[{programName}] = \x7b|@words| put {commands} \x7d\n"
  | fish => s!"complete -c {programName} -f -n __fish_use_subcommand -a \"{commands}\"\n"
  | powershell =>
    s!"Register-ArgumentCompleter -Native -CommandName {programName} -ScriptBlock " ++
      s!"\x7b -split \"{commands}\" \x7d\n"
  | zsh => s!"#compdef {programName}\n_arguments \"1:command:({commands})\"\n"

end CommandLine
end AttributeScope
