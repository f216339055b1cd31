import AttributeScope.Json.Printer
import AttributeScope.Scope.Scopes

/-!
# Reported values as JSON

How scope expressions and classifications are written as JSON values.
-/

namespace AttributeScope

mutual
/-- An expression: an object with its kind and, but for the empty one, what it is made of. -/
def ScopeExpr.toJson : ScopeExpr → Json
  | .empty => .object [("kind", .string "empty")]
  | .literal pattern => .object [("kind", .string "literal"), ("value", .string pattern)]
  | .union operands => .object [("kind", .string "union"), ("value", .array (toJsonList operands))]
  | .complement operand => .object [("kind", .string "complement"), ("value", operand.toJson)]
  | .intersection operands =>
    .object [("kind", .string "intersection"), ("value", .array (toJsonList operands))]

/-- Operands in order. -/
def ScopeExpr.toJsonList : List ScopeExpr → List Json
  | [] => []
  | operand :: rest => operand.toJson :: ScopeExpr.toJsonList rest
end

/-- A classification: an object with a truth value for each pattern. -/
def Classification.toJson (m : Classification) : Json :=
  .object (m.toList.map fun (pattern, generated) => (pattern, .bool generated))

end AttributeScope
