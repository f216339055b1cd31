import AttributeScope.Json.Value

/-!
# JSON text

Two forms of a value's text: a compact one without blanks, and an indented one with two spaces for
each level and every item and member on a line of its own.  Strings escape quotes, backslashes and
control characters, and nothing else.
-/

namespace AttributeScope
namespace Json

/-- How one character is written in a string. -/
def escapedChar (c : Char) : List Char :=
  if c = '"' then ['\\', '"']
  else if c = '\\' then ['\\', '\\']
  else if c = '\x08' then ['\\', 'b']
  else if c = '\t' then ['\\', 't']
  else if c = '\n' then ['\\', 'n']
  else if c = '\x0c' then ['\\', 'f']
  else if c = '\r' then ['\\', 'r']
  else if c.toNat < 0x20 then
    ['\\', 'u', '0', '0', Nat.digitChar (c.toNat / 16), Nat.digitChar (c.toNat % 16)]
  else [c]

/-- A string. -/
def stringChars (text : String) : List Char :=
  '"' :: text.toList.flatMap escapedChar ++ ['"']

/-- A truth value. -/
def boolChars (value : Bool) : List Char :=
  if value then "true".toList else "false".toList

mutual
/-- The characters of a value's compact form. -/
def compactChars : Json → List Char
  | bool value => boolChars value
  | number value => Nat.toDigits 10 value
  | string value => stringChars value
  | array items => '[' :: compactItems items ++ [']']
  | object members => '\x7b' :: compactMembers members ++ ['\x7d']

/-- Items with commas between them. -/
def compactItems : List Json → List Char
  | [] => []
  | [item] => compactChars item
  | item :: rest => compactChars item ++ ',' :: compactItems rest

/-- Members with commas between them. -/
def compactMembers : List (String × Json) → List Char
  | [] => []
  | [(key, value)] => stringChars key ++ ':' :: compactChars value
  | (key, value) :: rest =>
    stringChars key ++ ':' :: compactChars value ++ ',' :: compactMembers rest
end

/-- A line break, and the indentation of a line. -/
def newline (depth : Nat) : List Char :=
  '\n' :: List.replicate (2 * depth) ' '

mutual
/-- The characters of a value's indented form, on a line of the given depth. -/
def indentedChars (depth : Nat) : Json → List Char
  | bool value => boolChars value
  | number value => Nat.toDigits 10 value
  | string value => stringChars value
  | array [] => ['[', ']']
  | array (item :: rest) =>
    '[' :: indentedItems (depth + 1) (item :: rest) ++ newline depth ++ [']']
  | object [] => ['\x7b', '\x7d']
  | object (member :: rest) =>
    '\x7b' :: indentedMembers (depth + 1) (member :: rest) ++ newline depth ++ ['\x7d']

/-- Items on lines of the given depth. -/
def indentedItems (depth : Nat) : List Json → List Char
  | [] => []
  | [item] => newline depth ++ indentedChars depth item
  | item :: rest => newline depth ++ indentedChars depth item ++ ',' :: indentedItems depth rest

/-- Members on lines of the given depth. -/
def indentedMembers (depth : Nat) : List (String × Json) → List Char
  | [] => []
  | [(key, value)] =>
    newline depth ++ stringChars key ++ ':' :: ' ' :: indentedChars depth value
  | (key, value) :: rest =>
    newline depth ++ stringChars key ++ ':' :: ' ' :: indentedChars depth value ++
      ',' :: indentedMembers depth rest
end

/-- The compact text of a value. -/
def compact (value : Json) : String := String.ofList (compactChars value)

/-- The indented text of a value. -/
def indented (value : Json) : String := String.ofList (indentedChars 0 value)

end Json
end AttributeScope
