/-!
# Layout of TOML documents

Blanks, comments and the ends of lines.  A line ends with a line feed, and a carriage return
counts only in front of one.
-/

namespace AttributeScope
namespace Toml

/-- A character that separates what stands on one line. -/
def isBlank (c : Char) : Bool := c == ' ' || c == '\t'

/-- A character that may stand in a comment: no control character but the tab. -/
def isCommentChar (c : Char) : Bool := c == '\t' || (' ' ≤ c && c != '\x7f')

/-- Drop blanks. -/
def skipBlanks (input : List Char) : List Char := input.dropWhile isBlank

/-- What follows the end of a line, if a line ends here. -/
def newline? : List Char → Option (List Char)
  | '\n' :: rest => some rest
  | '\r' :: '\n' :: rest => some rest
  | _ => none

/-- Drop a comment. -/
def skipComment : List Char → List Char
  | '#' :: rest => rest.dropWhile isCommentChar
  | input => input

/-- What follows a line on which only blanks and a comment may be left. -/
def finishLine? (input : List Char) : Option (List Char) :=
  match skipComment (skipBlanks input) with
  | [] => some []
  | rest => newline? rest

/-- Drop blanks, comments and ends of lines; a comment may have begun already. -/
def skipFiller (inComment : Bool) : List Char → List Char
  | '\n' :: rest => skipFiller false rest
  | '\r' :: '\n' :: rest => skipFiller false rest
  | c :: rest =>
    if inComment && isCommentChar c then skipFiller true rest
    else if c = '#' then skipFiller true rest
    else if isBlank c then skipFiller false rest
    else c :: rest
  | [] => []

example : finishLine? " # c\r\na".toList = some ['a'] := by decide +kernel

end Toml
end AttributeScope
