import AttributeScope.Toml.Layout

/-!
# Strings of TOML documents

A string stands between quotes, on one line between single ones, and over several lines between
three of them.  Between `"` a backslash begins an escape; between `'` every character is meant as
itself.  A string is read in two steps: first its body is found, then its escapes are resolved.
-/

namespace AttributeScope
namespace Toml
namespace StringLiteral

/-- A character that may stand between quotes, apart from the quote and the backslash. -/
def isBodyChar (c : Char) : Bool := isCommentChar c

/-- The value of a hexadecimal digit. -/
def hexValue? (c : Char) : Option Nat :=
  if '0' ≤ c ∧ c ≤ '9' then some (c.toNat - '0'.toNat)
  else if 'a' ≤ c ∧ c ≤ 'f' then some (c.toNat - 'a'.toNat + 10)
  else if 'A' ≤ c ∧ c ≤ 'F' then some (c.toNat - 'A'.toNat + 10)
  else none

/-- The number that hexadecimal digits stand for. -/
def hexNumber? (digits : List Char) : Option Nat :=
  digits.foldlM (fun n c => (hexValue? c).map fun d => n * 16 + d) 0

/-- The character with a code point, which must not be a surrogate. -/
def charOfNat? (n : Nat) : Option Char :=
  if h : n.isValidChar then some (Char.ofNatAux n h) else none

/-- The character that hexadecimal digits stand for. -/
def hexChar? (digits : List Char) : Option Char :=
  (hexNumber? digits).bind charOfNat?

/-- The character that a letter after a backslash stands for. -/
def shortEscape? : Char → Option Char
  | 'b' => some '\x08'
  | 't' => some '\t'
  | 'n' => some '\n'
  | 'f' => some '\x0c'
  | 'r' => some '\r'
  | '"' => some '"'
  | '\\' => some '\\'
  | _ => none

/-- The text of a body with escapes.  A backslash at the end of a line continues it: the blanks and
line ends that follow, dropped while `trimming`, are not meant. -/
def resolve (trimming : Bool) : List Char → Option (List Char)
  | [] => some []
  | '\\' :: 'u' :: a :: b :: c :: d :: rest =>
    match hexChar? [a, b, c, d] with
    | some e => (resolve false rest).map (e :: ·)
    | none => none
  | '\\' :: 'U' :: a :: b :: c :: d :: e :: f :: g :: h :: rest =>
    match hexChar? [a, b, c, d, e, f, g, h] with
    | some e => (resolve false rest).map (e :: ·)
    | none => none
  | '\\' :: c :: rest =>
    match shortEscape? c with
    | some e => (resolve false rest).map (e :: ·)
    | none => if (newline? (skipBlanks (c :: rest))).isSome then resolve true (c :: rest) else none
  | ['\\'] => none
  | '\n' :: rest =>
    if trimming then resolve true rest else (resolve false rest).map ('\n' :: ·)
  | '\r' :: '\n' :: rest =>
    if trimming then resolve true rest else (resolve false rest).map ('\n' :: ·)
  | c :: rest =>
    if trimming && isBlank c then resolve true rest else (resolve false rest).map (c :: ·)

/-- The text of a body without escapes: only the ends of lines are unified. -/
def unifyLines : List Char → List Char
  | '\r' :: '\n' :: rest => '\n' :: unifyLines rest
  | c :: rest => c :: unifyLines rest
  | [] => []

/-- The body of a string on one line, and what follows its closing quote.  If escapes are known,
the character after a backslash does not end the string. -/
def lineBody (quote : Char) (escapes : Bool) : List Char → Option (List Char × List Char)
  | [] => none
  | [c] => if c = quote then some ([], []) else none
  | c :: d :: rest =>
    if c = quote then some ([], d :: rest)
    else if escapes && c == '\\' then
      if isBodyChar d then
        (lineBody quote escapes rest).map fun (body, rest) => (c :: d :: body, rest)
      else none
    else if isBodyChar c then
      (lineBody quote escapes (d :: rest)).map fun (body, rest) => (c :: body, rest)
    else none

/-- What closes a string over several lines at the beginning of a text, and what follows it: up to
two quotes in front of the closing ones belong to the string. -/
def closing? (quote : Char) : List Char → Option (List Char × List Char)
  | a :: b :: c :: rest =>
    if a = quote ∧ b = quote ∧ c = quote then
      match rest with
      | d :: e :: rest =>
        if d = quote ∧ e = quote then some ([quote, quote], rest)
        else if d = quote then some ([quote], e :: rest)
        else some ([], d :: e :: rest)
      | [d] => if d = quote then some ([quote], []) else some ([], [d])
      | [] => some ([], [])
    else none
  | _ => none

/-- The body of a string over several lines, and what follows its closing quotes. -/
def blockBody (quote : Char) (escapes : Bool) : List Char → Option (List Char × List Char)
  | [] => none
  | c :: rest =>
    match closing? quote (c :: rest) with
    | some found => some found
    | none =>
      if escapes && c == '\\' then
        match rest with
        | [] => none
        | d :: rest =>
          (blockBody quote escapes rest).map fun (body, rest) => (c :: d :: body, rest)
      else
        if isBodyChar c || (newline? (c :: rest)).isSome then
          (blockBody quote escapes rest).map fun (body, rest) => (c :: body, rest)
        else none

/-- The text of a body. -/
def meaning (escapes : Bool) (body : List Char) : Option String :=
  (if escapes then resolve false body else some (unifyLines body)).map String.ofList

/-- A line end right behind the opening quotes does not belong to a string. -/
def skipFirstNewline (input : List Char) : List Char := (newline? input).getD input

/-- Read a string on one line, after its opening quote. -/
def readLine (quote : Char) (input : List Char) : Option (String × List Char) := do
  let escapes := quote == '"'
  let (body, rest) ← lineBody quote escapes input
  let text ← meaning escapes body
  some (text, rest)

/-- Read a string over several lines, after its opening quotes. -/
def readBlock (quote : Char) (input : List Char) : Option (String × List Char) := do
  let escapes := quote == '"'
  let (body, rest) ← blockBody quote escapes (skipFirstNewline input)
  let text ← meaning escapes body
  some (text, rest)

/-- Read a string of either kind, after its first quote. -/
def read (quote : Char) : List Char → Option (String × List Char)
  | a :: b :: rest =>
    if a = quote ∧ b = quote then readBlock quote rest else readLine quote (a :: b :: rest)
  | input => readLine quote input

example : read '"' "a\\u00e9\\n\"x".toList = some ("aé\n", ['x']) := by decide +kernel

example : read '"' "\"\"\na\\\n  b\"\"\"\"".toList = some ("ab\"", []) := by decide +kernel

example : read '\'' "a\\'".toList = some ("a\\", []) := by decide +kernel

end StringLiteral
end Toml
end AttributeScope
