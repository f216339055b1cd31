import AttributeScope.Pattern.Expansion

/-!
# Invocations

What the arguments of a command line ask for, and why they may ask for nothing.
-/

namespace AttributeScope
namespace CommandLine

/-- How answers are written. -/
inductive OutputFormat where
  | text
  | json
deriving DecidableEq, Repr

/-- The shells that a completion script can be asked for. -/
inductive Shell where
  | bash
  | elvish
  | fish
  | powershell
  | zsh
deriving DecidableEq, Repr

/-- The commands by name. -/
inductive Subcommand where
  | scan
  | translate
  | completions
deriving DecidableEq, Repr

/-- What a scan is asked for. -/
structure ScanRequest where
  /-- The root of the project, if it is not the current directory. -/
  path : Option String
  output : OutputFormat
  color : Bool
  noColor : Bool
  /-- How many recursive segments are expanded, if not as many as the settings say. -/
  maxRecursiveSegments : Option Nat
deriving DecidableEq, Repr

/-- What a translation is asked for. -/
structure TranslateRequest where
  patterns : List String
  /-- The directory that the patterns are meant below, if they are anchored at one. -/
  dir : Option String
  output : OutputFormat
  maxRecursiveSegments : Nat
deriving DecidableEq, Repr

/-- A command with its arguments. -/
inductive Command where
  | scan (request : ScanRequest)
  | translate (request : TranslateRequest)
  | completions (shell : Shell)
deriving DecidableEq, Repr

/-- What a command line asks for. -/
structure Invocation where
  config : Option String
  command : Option Command
deriving DecidableEq, Repr

/-- What is wrong with a command line. -/
inductive UsageFault where
  /-- A value is missing, empty or none of those that are possible. -/
  | invalidValue
  | unknownArgument
  | invalidSubcommand
  | tooManyValues
  /-- What can be given once was given twice. -/
  | argumentConflict
  /-- A value is no number, or too large a number. -/
  | valueValidation
  | missingRequiredArgument
deriving DecidableEq, Repr

/-- Why a command line leads to no command. -/
inductive Stop where
  | fault (fault : UsageFault)
  | help
  /-- It asks for the version of the program or of one command. -/
  | version (subcommand : Option Subcommand)
deriving DecidableEq, Repr

namespace OutputFormat

/-- The format with a name. -/
def ofName? : String → Option OutputFormat
  | "text" => some text
  | "json" => some json
  | _ => none

end OutputFormat

namespace Shell

/-- The name of a shell. -/
def name : Shell → String
  | bash => "bash"
  | elvish => "elvish"
  | fish => "fish"
  | powershell => "powershell"
  | zsh => "zsh"

/-- All shells. -/
def all : List Shell := [bash, elvish, fish, powershell, zsh]

/-- The shell with a name. -/
def ofName? (name : String) : Option Shell := all.find? fun shell => shell.name == name

/-- A shell has its name. -/
@[simp] theorem ofName?_name (shell : Shell) : ofName? shell.name = some shell := by
  cases shell <;> decide

end Shell

namespace Subcommand

/-- The name of a command. -/
def name : Subcommand → String
  | scan => "scan"
  | translate => "translate"
  | completions => "completions"

/-- All commands. -/
def all : List Subcommand := [scan, translate, completions]

/-- The command with a name. -/
def ofName? (name : String) : Option Subcommand := all.find? fun command => command.name == name

/-- A command has its name. -/
@[simp] theorem ofName?_name (command : Subcommand) : ofName? command.name = some command := by
  cases command <;> decide

end Subcommand
end CommandLine
end AttributeScope
