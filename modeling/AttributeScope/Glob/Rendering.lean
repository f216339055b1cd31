import AttributeScope.Glob.Syntax
import AttributeScope.Text.Utf8

/-!
# Expressions of globs as texts

The regular expression that a glob stands for, as it is shown when the expression cannot be used.

Main results:

- `render_append`: the texts of globs one after the other are written one after the other.
-/

namespace AttributeScope
namespace Glob

/-- The characters with a meaning in an expression. -/
def specialCharacters : List Char := "\\.+*?()|[]\x7b\x7d^$#&-~".toList

/-- Two hexadecimal digits. -/
def hexDigits (b : UInt8) : List Char :=
  [Nat.digitChar (b.toNat / 16), Nat.digitChar (b.toNat % 16)]

/-- A byte as it is written in an expression. -/
def renderByte (b : UInt8) : List Char :=
  if 0x80 ≤ b then '\\' :: 'x' :: hexDigits b
  else
    let c := Char.ofNat b.toNat
    if c ∈ specialCharacters then ['\\', c] else [c]

/-- A character as it is written in an expression. -/
def renderChar (c : Char) : List Char := (String.utf8EncodeChar c).flatMap renderByte

/-- A range of a class as it is written in an expression. -/
def renderRange (range : Char × Char) : List Char :=
  if range.1 = range.2 then renderChar range.1
  else renderChar range.1 ++ '-' :: renderChar range.2

/-- A class as it is written in an expression. -/
def renderClass (negated : Bool) (ranges : List (Char × Char)) : List Char :=
  '[' :: (if negated then ['^'] else []) ++ ranges.flatMap renderRange ++ [']']

/-- A group of alternatives as it is written in an expression; nothing without any. -/
def renderGroup : List (List Char) → List Char
  | [] => []
  | branches => "(?:".toList ++ List.intercalate ['|'] branches ++ [')']

mutual

/-- A token as it is written in an expression. -/
def Token.render : Token → List Char
  | .literal c => renderChar c
  | .anyOne => "[^/]".toList
  | .anyRun => "[^/]*".toList
  | .descend => "(?:/?|.*/)".toList
  | .contents => "/.*".toList
  | .between => "(?:/|/.*/)".toList
  | .oneOf negated ranges => renderClass negated ranges
  | .alternatives branches => renderGroup (renderBranches branches)

/-- Tokens as they are written in an expression. -/
def render : List Token → List Char
  | [] => []
  | token :: rest => token.render ++ render rest

/-- The branches of a group that are not nothing, as they are written in an expression. -/
def renderBranches : List (List Token) → List (List Char)
  | [] => []
  | tokens :: rest =>
    (if (render tokens).isEmpty then [] else [render tokens]) ++ renderBranches rest

end

/-- The expression of a glob: it is about bytes, and bound to both ends of a path. -/
def expressionText (tokens : List Token) : String :=
  "(?-u)^" ++ String.ofList (if let [.descend] := tokens then ".*".toList else render tokens) ++ "$"

/-- The texts of globs one after the other are written one after the other. -/
theorem render_append (first rest : List Token) :
    render (first ++ rest) = render first ++ render rest := by
  induction first with
  | nil => simp [render]
  | cons token others ih => simp [render, ih]

example : expressionText
    [.descend, .alternatives [[.literal 'a'], [], [.oneOf true [('a', 'é')], .literal '.']]] =
    "(?-u)^(?:/?|.*/)(?:a|[^a-\\xc3\\xa9]\\.)$" := by decide +kernel

end Glob
end AttributeScope
