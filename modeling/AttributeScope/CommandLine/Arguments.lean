import AttributeScope.CommandLine.Invocation

/-!
# Reading arguments

Arguments are read from left to right.  Options may be written out (`--output json`,
`--output=json`) or as one letter (`-o json`, `-ojson`, `-o=json`), and everything behind `--` is
positional.  A fault in a value is told only when the next argument turns out to be a known one,
or when there is none.

Main results:

- `readAll_append`: reading goes on where it stopped.
- `step_trailing`: behind `--` every argument is positional.
-/

namespace AttributeScope
namespace CommandLine

/-- The options. -/
inductive OptionName where
  | config
  | output
  | color
  | noColor
  | limit
  | dir
  | help
  | version
deriving DecidableEq, Repr

/-- What has been given so far. -/
structure Given where
  config : Option String := none
  output : Option OutputFormat := none
  color : Bool := false
  noColor : Bool := false
  limit : Option Nat := none
  dir : Option String := none
  positionals : List String := []
deriving DecidableEq, Repr

/-- The state between two arguments. -/
structure State where
  given : Given := {}
  /-- The option whose value comes next. -/
  awaiting : Option OptionName := none
  /-- What is wrong with the last value. -/
  deferred : Option UsageFault := none
  /-- Whether only positional arguments follow. -/
  trailing : Bool := false
deriving DecidableEq, Repr

/-- What belongs to a command line before its command, or to one command. -/
abbrev Context := Option Subcommand

/-! ## Which options there are -/

/-- The option with a long name. -/
def longOption? (context : Context) (name : String) : Option OptionName :=
  match name with
  | "config" => some .config
  | "help" => some .help
  | "version" => some .version
  | "output" => if context = some .scan ∨ context = some .translate then some .output else none
  | "max-recursive-segments" =>
    if context = some .scan ∨ context = some .translate then some .limit else none
  | "color" => if context = some .scan then some .color else none
  | "no-color" => if context = some .scan then some .noColor else none
  | "dir" => if context = some .translate then some .dir else none
  | _ => none

/-- The option with a letter. -/
def shortOption? (context : Context) (letter : Char) : Option OptionName :=
  match letter with
  | 'C' => some .config
  | 'h' => some .help
  | 'V' => some .version
  | 'o' => if context = some .scan ∨ context = some .translate then some .output else none
  | _ => none

/-! ## Values -/

/-- The greatest number that can be given. -/
def maxNumber : Nat := UInt64.size - 1

/-- A text without a plus in front. -/
def withoutPlus : List Char → List Char
  | '+' :: digits => digits
  | digits => digits

/-- The number that a text stands for. -/
def number? (text : String) : Option Nat :=
  let digits := withoutPlus text.toList
  if digits.isEmpty || !digits.all Char.isDigit then none
  else
    let n := digits.foldl (fun n c => n * 10 + (c.toNat - '0'.toNat)) 0
    if n ≤ maxNumber then some n else none

/-- Give an option its value.  What was given before cannot be given again. -/
def Given.setValue (g : Given) (name : OptionName) (value : String) : Except UsageFault Given :=
  match name with
  | .config =>
    if g.config.isSome then .error .argumentConflict
    else if value.isEmpty then .error .invalidValue
    else .ok { g with config := some value }
  | .output =>
    if g.output.isSome then .error .argumentConflict
    else
      match OutputFormat.ofName? value with
      | some format => .ok { g with output := some format }
      | none => .error .invalidValue
  | .limit =>
    if g.limit.isSome then .error .argumentConflict
    else
      match number? value with
      | some n => .ok { g with limit := some n }
      | none => .error .valueValidation
  | .dir =>
    if g.dir.isSome then .error .argumentConflict else .ok { g with dir := some value }
  | _ => .error .tooManyValues

/-- What is wrong with a positional argument of a command. -/
def positionalFault? (command : Subcommand) (value : String) : Option UsageFault :=
  match command with
  | .scan => if value.isEmpty then some .invalidValue else none
  | .translate => none
  | .completions => if (Shell.ofName? value).isNone then some .invalidValue else none

/-- Whether a command takes one more positional argument. -/
def takesPositional (command : Subcommand) (g : Given) : Bool :=
  command = .translate || g.positionals.isEmpty

/-! ## One argument -/

namespace State

/-- Bring up what is wrong with the last value, or that it is missing. -/
def settle (s : State) : Except Stop State :=
  if s.awaiting.isSome then .error (.fault .invalidValue)
  else
    match s.deferred with
    | some fault => .error (.fault fault)
    | none => .ok s

/-- Take the value of the option that awaits one. -/
def takeValue (s : State) (name : OptionName) (value : String) : State :=
  match s.given.setValue name value with
  | .ok given => { s with given, awaiting := none }
  | .error fault => { s with awaiting := none, deferred := some fault }

/-- Take an option with a value that is attached to it. -/
def takeAttached (s : State) (name : OptionName) (value : String) : Except Stop State := do
  let s ← s.settle
  match s.given.setValue name value with
  | .ok given => .ok { s with given }
  | .error fault => .error (.fault fault)

/-- Take an option without an attached value. -/
def takeOption (context : Context) (s : State) (name : OptionName) : Except Stop State := do
  let s ← s.settle
  match name with
  | .help => .error .help
  | .version => .error (.version context)
  | .color =>
    if s.given.color then .error (.fault .argumentConflict)
    else .ok { s with given := { s.given with color := true } }
  | .noColor =>
    if s.given.noColor then .error (.fault .argumentConflict)
    else .ok { s with given := { s.given with noColor := true } }
  | name => .ok { s with awaiting := some name }

/-- Whether an option has a value. -/
def hasValue : OptionName → Bool
  | .config => true
  | .output => true
  | .limit => true
  | .dir => true
  | _ => false

/-- Take an argument that begins with two dashes, without them. -/
def takeLong (context : Context) (s : State) (text : List Char) : Except Stop State :=
  let name := text.takeWhile (· != '=')
  match longOption? context (String.ofList name), text.dropWhile (· != '=') with
  | none, _ => .error (.fault .unknownArgument)
  | some option, [] => s.takeOption context option
  | some option, _ :: value =>
    if hasValue option then s.takeAttached option (String.ofList value)
    else .error (.fault .tooManyValues)

/-- Take an argument that begins with one dash and a letter. -/
def takeShort (context : Context) (s : State) (letter : Char) (rest : List Char) :
    Except Stop State :=
  match shortOption? context letter with
  | none => .error (.fault .unknownArgument)
  | some option =>
    if hasValue option then
      match rest with
      | [] => s.takeOption context option
      | '=' :: value => s.takeAttached option (String.ofList value)
      | value => s.takeAttached option (String.ofList value)
    else s.takeOption context option

/-- Take a positional argument.  Before the command there is none. -/
def takePositional (context : Context) (s : State) (value : String) : Except Stop State :=
  match context with
  | none =>
    if s.trailing && ((Subcommand.ofName? value).isSome || value = "help") then
      .error (.fault .unknownArgument)
    else .error (.fault .invalidSubcommand)
  | some command =>
    if takesPositional command s.given then do
      let s ← s.settle
      .ok { s with
        given := { s.given with positionals := s.given.positionals ++ [value] }
        deferred := positionalFault? command value }
    else .error (.fault .unknownArgument)

/-- Take one argument. -/
def step (context : Context) (s : State) (argument : String) : Except Stop State :=
  if s.trailing then s.takePositional context argument
  else
    match argument.toList with
    | ['-', '-'] => .ok { s with trailing := true }
    | '-' :: '-' :: text => s.takeLong context text
    | '-' :: letter :: rest => s.takeShort context letter rest
    | _ =>
      match s.awaiting with
      | some name => .ok (s.takeValue name argument)
      | none => s.takePositional context argument

/-- Take arguments, one after the other. -/
def readAll (context : Context) (s : State) : List String → Except Stop State
  | [] => .ok s
  | argument :: rest =>
    match s.step context argument with
    | .ok s => s.readAll context rest
    | .error stop => .error stop

/-- Reading goes on where it stopped. -/
theorem readAll_append {context : Context} {s : State} {first rest : List String} :
    s.readAll context (first ++ rest) =
      match s.readAll context first with
      | .ok s => s.readAll context rest
      | .error stop => .error stop := by
  induction first generalizing s with
  | nil => rfl
  | cons argument others ih =>
    simp only [List.cons_append, readAll]
    cases s.step context argument with
    | error stop => rfl
    | ok next => simp [ih]

/-- Behind `--` every argument is positional. -/
theorem step_trailing {context : Context} {s : State} (h : s.trailing = true)
    (argument : String) : s.step context argument = s.takePositional context argument := by
  simp [step, h]

end State

/-! ## Whole command lines -/

/-- The settings file that the surroundings name counts if none is given, and must have a name. -/
def environmentFault? (environment : Option String) (g : Given) : Option UsageFault :=
  if g.config.isNone && environment = some "" then some .invalidValue else none

/-- The command that is asked for. -/
def commandOf (command : Subcommand) (g : Given) : Except UsageFault Command :=
  match command with
  | .scan =>
    .ok (.scan
      { path := g.positionals.head?
        output := g.output.getD .text
        color := g.color
        noColor := g.noColor
        maxRecursiveSegments := g.limit })
  | .translate =>
    if g.positionals.isEmpty then .error .missingRequiredArgument
    else
      .ok (.translate
        { patterns := g.positionals
          dir := g.dir
          output := g.output.getD .text
          maxRecursiveSegments := g.limit.getD Pattern.ExpansionLimit.defaultCount })
  | .completions =>
    match g.positionals.head?.bind Shell.ofName? with
    | some shell => .ok (.completions shell)
    | none => .error .missingRequiredArgument

/-- What arguments give in the end. -/
def finish (environment : Option String) (s : State) : Except Stop Given := do
  let s ← s.settle
  match environmentFault? environment s.given with
  | some fault => .error (.fault fault)
  | none => .ok s.given

/-- Read the arguments of a command. -/
def readCommand (environment : Option String) (command : Subcommand) (arguments : List String) :
    Except Stop (Given × Command) := do
  let s ← ({} : State).readAll (some command) arguments
  let given ← finish environment s
  match commandOf command given with
  | .ok command => .ok (given, command)
  | .error fault => .error (.fault fault)

/-- What asking for help with topics leads to: there is help with one command at a time. -/
def helpWith : List String → Stop
  | [] => .help
  | [topic] =>
    if (Subcommand.ofName? topic).isSome || topic = "help" then .help
    else .fault .invalidSubcommand
  | _ => .fault .invalidSubcommand

/-- Read arguments up to the command, and those of the command. -/
def readFrom (environment : Option String) (s : State) :
    List String → Except Stop (State × Option (Given × Command))
  | [] => .ok (s, none)
  | argument :: rest =>
    if !s.trailing && s.awaiting.isNone && argument = "help" then .error (helpWith rest)
    else
      match if s.trailing || s.awaiting.isSome then none else Subcommand.ofName? argument with
      | some command => (readCommand environment command rest).map fun found => (s, some found)
      | none =>
        match s.step none argument with
        | .ok s => readFrom environment s rest
        | .error stop => .error stop

/-- What a command line asks for.  The file with the settings is the one given to the command, or
before it, or in the surroundings. -/
def parse (environment : Option String) (arguments : List String) : Except Stop Invocation := do
  let (s, found) ← readFrom environment {} arguments
  let given ← finish environment s
  match found with
  | none => .ok { config := given.config.or environment, command := none }
  | some (inner, command) =>
    .ok { config := (inner.config.or given.config).or environment, command := some command }

example : (parse none ["-C", "a", "scan", "-ojson", "--", "-x"]).toOption =
    some ⟨some "a", some (.scan ⟨some "-x", .json, false, false, none⟩)⟩ := by decide +kernel

example : parse none ["scan", "-o", "--bogus"] = .error (.fault .unknownArgument) := by rfl

example : parse none ["scan", "-o", "--help"] = .error (.fault .invalidValue) := by rfl

end CommandLine
end AttributeScope
