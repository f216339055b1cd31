import AttributeScope.Text.Blank

/-!
# Directives

Lines of an attribute file that say whether the files a pattern matches are generated.  Every
other line, malformed ones included, says nothing.
-/

namespace AttributeScope

/-- What one line says about the files that a pattern matches. -/
structure Directive where
  /-- The pattern, without a leading `!`. -/
  path : String
  /-- Whether the attribute's value marks the files as generated. -/
  generated : Bool
  /-- Whether the pattern was written with a leading `!`. -/
  negated : Bool
deriving DecidableEq, Repr

namespace Directive

open Text

/-- The attribute that a directive sets. -/
def attributeName : List Char := "linguist-generated".toList

/-- The value that sets the attribute. -/
def setSuffix : List Char := "=true".toList

/-- The value that clears the attribute. -/
def clearedSuffix : List Char := "=false".toList

/-- The classification that a directive gives: a leading `!` turns the attribute around. -/
def isGenerated (d : Directive) : Bool :=
  d.generated != d.negated

/-- Whether a line ends with the attribute, or with the attribute and one of its values. -/
def endsWithAttribute (line : List Char) : Bool :=
  attributeName.isSuffixOf (withoutSuffix clearedSuffix (withoutSuffix setSuffix line))

/-- The pattern in a path token, and whether a leading `!` stood before it. -/
def splitNegation : List Char → List Char × Bool
  | '!' :: path => (path, true)
  | path => (path, false)

/-- The directive in the words of a line that ends with the attribute.  The first word is the
pattern; the last one is the attribute, and an initial `-` there clears it as `=false` does. -/
def ofWords? (line : List Char) : List (List Char) → Option Directive
  | [] => none
  | pathToken :: rest => do
    let keyToken ← rest.getLast?
    let (path, negated) := splitNegation pathToken
    if path.isEmpty then none
    else
      some
        { path := String.ofList path
          generated := !clearedSuffix.isSuffixOf line && keyToken.head? != some '-'
          negated }

/-- The directive in a line, whose end may carry one carriage return.  A line that begins with
`#` is a comment. -/
def ofChars? (text : List Char) : Option Directive :=
  let line := withoutSuffix ['\r'] text
  if line.head? = some '#' then none
  else if endsWithAttribute line then ofWords? line (words line)
  else none

/-- The directive in a line. -/
def ofLine? (line : String) : Option Directive :=
  ofChars? line.toList

/-- The directives of an attribute file with their line numbers, which count from one. -/
def ofText (text : String) : List (Nat × Directive) :=
  ((text.toList.splitOn '\n').zipIdx 1).filterMap fun (line, number) =>
    (ofChars? line).map fun d => (number, d)

end Directive
end AttributeScope
