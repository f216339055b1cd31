import AttributeScope.Toml.Assembly
import AttributeScope.Toml.DateTime
import AttributeScope.Toml.StringLiteral

/-!
# The syntax of TOML documents

A document is read line by line: headers in brackets and assignments of values to keys, between
blank lines and comments.  Arrays and inline tables are nested less than eighty levels deep, and
keys have less than eighty parts.
-/

namespace AttributeScope
namespace Toml

/-- A function that reads something at the beginning of a text and gives what follows. -/
abbrev Reader (α : Type) := List Char → Option (α × List Char)

/-- How deep arrays and inline tables may be nested. -/
def maxDepth : Nat := 79

/-- How many parts a key may have. -/
def maxKeyParts : Nat := 79

/-! ## Keys -/

/-- A character of a key without quotes. -/
def isBareKeyChar (c : Char) : Bool := c.isAlphanum || c == '_' || c == '-'

/-- Read one part of a key. -/
def readKeyPart : Reader String
  | '"' :: rest => StringLiteral.readLine '"' rest
  | '\'' :: rest => StringLiteral.readLine '\'' rest
  | input =>
    let part := input.takeWhile isBareKeyChar
    if part.isEmpty then none else some (String.ofList part, input.dropWhile isBareKeyChar)

/-- Read up to `count` parts of a key, with dots between them and blanks around them. -/
def readKeyParts : Nat → Reader (List String)
  | 0, _ => none
  | count + 1, input => do
    let (part, rest) ← readKeyPart (skipBlanks input)
    match skipBlanks rest with
    | '.' :: rest => do
      let (parts, rest) ← readKeyParts count rest
      some (part :: parts, rest)
    | rest => some ([part], rest)

/-- Read a key. -/
def readKey (input : List Char) : Option (KeyPath × List Char) := do
  let (parts, rest) ← readKeyParts maxKeyParts input
  let key ← parts.getLast?
  some (⟨parts.dropLast, key⟩, rest)

/-! ## Values -/

/-- A character of a value that is no string, array or table. -/
def isWordChar (c : Char) : Bool :=
  c.isAlphanum || c == '_' || c == '-' || c == '+' || c == '.' || c == ':'

/-- The value that a word stands for. -/
def wordValue? (word : List Char) : Option Value :=
  if word = "true".toList then some (.boolean true)
  else if word = "false".toList then some (.boolean false)
  else
    match integer? word with
    | some n => some (.integer n)
    | none =>
      if isFloat word then some .float
      else if DateTime.isDateTime word then some .dateTime
      else none

/-- Read a value that is a word.  A date may be followed by a blank and a time. -/
def readScalar (input : List Char) : Option (Value × List Char) :=
  let word := input.takeWhile isWordChar
  let rest := input.dropWhile isWordChar
  match rest with
  | ' ' :: c :: others =>
    if DateTime.isDate word && c.isDigit then
      if DateTime.isZonedTime ((c :: others).takeWhile isWordChar) then
        some (.dateTime, (c :: others).dropWhile isWordChar)
      else none
    else (wordValue? word).map fun value => (value, rest)
  | _ => (wordValue? word).map fun value => (value, rest)

/-- Read the items of an array after its bracket, at most `count` of them.  A comma may stand
behind the last one. -/
def readItems (readItem : Reader Value) : Nat → Reader (List Value)
  | 0, _ => none
  | count + 1, input =>
    match skipFiller false input with
    | ']' :: rest => some ([], rest)
    | input => do
      let (item, rest) ← readItem input
      match skipFiller false rest with
      | ']' :: rest => some ([item], rest)
      | ',' :: rest => do
        let (items, rest) ← readItems readItem count rest
        some (item :: items, rest)
      | _ => none

/-- Read an assignment, but not what follows it. -/
def readAssignment (readItem : Reader Value) (input : List Char) :
    Option (Assignment × List Char) := do
  let (path, rest) ← readKey input
  match rest with
  | '=' :: rest => do
    let (value, rest) ← readItem (skipBlanks rest)
    some (⟨path, value⟩, skipBlanks rest)
  | _ => none

/-- Read the assignments of an inline table, at most `count` of them.  They stand on one line, and
no comma may stand behind the last one. -/
def readInlineAssignments (readItem : Reader Value) : Nat → Reader (List Assignment)
  | 0, _ => none
  | count + 1, input => do
    let (assignment, rest) ← readAssignment readItem input
    match rest with
    | '\x7d' :: rest => some ([assignment], rest)
    | ',' :: rest => do
      let (assignments, rest) ← readInlineAssignments readItem count rest
      some (assignment :: assignments, rest)
    | _ => none

/-- Read an inline table after its brace. -/
def readInlineTable (readItem : Reader Value) (input : List Char) :
    Option (Value × List Char) :=
  match skipBlanks input with
  | '\x7d' :: rest => some (.table [], rest)
  | input => do
    let (assignments, rest) ← readInlineAssignments readItem input.length input
    let entries ← assignAll assignments []
    some (.table (entriesToValues entries), rest)

/-- Read a value in which arrays and inline tables are nested up to `depth` levels deep. -/
def readValue : Nat → Reader Value
  | _, '"' :: rest => (StringLiteral.read '"' rest).map fun (text, rest) => (.string text, rest)
  | _, '\'' :: rest => (StringLiteral.read '\'' rest).map fun (text, rest) => (.string text, rest)
  | 0, '[' :: _ => none
  | 0, '\x7b' :: _ => none
  | depth + 1, '[' :: rest =>
    (readItems (readValue depth) (rest.length + 1) rest).map fun (items, rest) =>
      (.array items, rest)
  | depth + 1, '\x7b' :: rest => readInlineTable (readValue depth) rest
  | _, input => readScalar input

/-! ## Lines -/

/-- What a line says. -/
inductive Line where
  | assignment (assignment : Assignment)
  /-- A table or an element of an array of tables begins. -/
  | header (isElement : Bool) (path : KeyPath)

/-- Read a header. -/
def readHeader (input : List Char) : Option (Line × List Char) :=
  match input with
  | '[' :: '[' :: rest => do
    let (path, rest) ← readKey rest
    match rest with
    | ']' :: ']' :: rest => some (.header true path, rest)
    | _ => none
  | '[' :: rest => do
    let (path, rest) ← readKey rest
    match rest with
    | ']' :: rest => some (.header false path, rest)
    | _ => none
  | _ => none

/-- Read a line that says something, with its end. -/
def readLine (input : List Char) : Option (Line × List Char) := do
  let (line, rest) ←
    if input.head? = some '[' then readHeader input
    else
      (readAssignment (readValue maxDepth) input).map fun (assignment, rest) =>
        (.assignment assignment, rest)
  let rest ← finishLine? rest
  some (line, rest)

/-- Read lines to the end of the text, at most `count` of them. -/
def readLines : Nat → List Char → Option (List Line)
  | 0, _ => none
  | count + 1, input =>
    match skipFiller false input with
    | [] => some []
    | input => do
      let (line, rest) ← readLine input
      let lines ← readLines count rest
      some (line :: lines)

end Toml
end AttributeScope
