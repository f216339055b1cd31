import AttributeScope.Outcome

/-!
# Reports

What a scan found, ready to be written.
-/

namespace AttributeScope

/-- A scope with the name and color it is shown under. -/
structure NamedScope where
  name : String
  /-- The color of its files, as hexadecimal digits. -/
  color : Option String
  pattern : String
  expression : ScopeExpr
deriving Repr

namespace NamedScope

/-- A scope with its own scope string.  An empty color is none. -/
def ofExpr (name : String) (color : Option String) (expression : ScopeExpr) : NamedScope :=
  { name
    color := color.filter fun c => !c.isEmpty
    pattern := expression.render
    expression }

end NamedScope

/-- What a scan found. -/
structure Report where
  timestamp : String
  /-- The directive files that were read, in the order they were found. -/
  files : List String
  /-- The directive files that could not be read. -/
  unreadable : List String
  stats : Stats
  classification : Classification
  generated : NamedScope
  nonGenerated : NamedScope
deriving Repr

/-- A pattern with its translations. -/
structure Translation where
  pattern : String
  /-- The scope patterns it stands for. -/
  variants : List String
deriving DecidableEq, Repr

end AttributeScope
