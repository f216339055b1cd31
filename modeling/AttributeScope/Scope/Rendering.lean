import AttributeScope.Scope.Expr

/-!
# Scope strings

The text of a scope expression: a pattern is written after `file:`, a union with `||`, an
intersection with `&&` and a complement with `!`.  Operands of several parts stand in
parentheses.
-/

namespace AttributeScope
namespace ScopeExpr

/-- The scope pattern that matches every file. -/
def allFiles : String := "*//*"

/-- A pattern in a scope string. -/
def renderPattern (pattern : String) : List Char :=
  "file:".toList ++ pattern.toList

/-- A text between parentheses. -/
def parenthesize (inner : List Char) : List Char :=
  '(' :: inner ++ [')']

/-- Whether an operand has several parts, so that it needs parentheses. -/
def isCompound : ScopeExpr → Bool
  | union operands => 1 < operands.length
  | intersection operands => 1 < operands.length
  | _ => false

/-- The text of an operand. -/
def asOperand (operand : ScopeExpr) (text : List Char) : List Char :=
  if isCompound operand then parenthesize text else text

mutual
/-- The characters of an expression's scope string. -/
def renderChars : ScopeExpr → List Char
  | empty => []
  | literal pattern => renderPattern pattern
  | union operands => renderJoined ['|', '|'] operands
  | intersection operands => renderJoined ['&', '&'] operands
  | complement empty => renderPattern allFiles
  | complement (literal pattern) => '!' :: renderPattern pattern
  | complement operand => '!' :: parenthesize (renderChars operand)

/-- Operands with an operator between them. -/
def renderJoined (operator : List Char) : List ScopeExpr → List Char
  | [] => []
  | [operand] => asOperand operand (renderChars operand)
  | operand :: rest =>
    asOperand operand (renderChars operand) ++ operator ++ renderJoined operator rest
end

/-- The scope string of an expression. -/
def render (e : ScopeExpr) : String := String.ofList (renderChars e)

example : render (intersection [union [literal "a", literal "b"], complement (literal "c")]) =
    "(file:a||file:b)&&!file:c" := by decide +kernel

end ScopeExpr
end AttributeScope
