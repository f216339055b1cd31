/-!
# JSON values

The values of JSON that reports are made of.  Numbers are natural numbers, and the members of an
object keep their order.
-/

namespace AttributeScope

/-- A JSON value. -/
inductive Json where
  | bool (value : Bool)
  | number (value : Nat)
  | string (value : String)
  | array (items : List Json)
  | object (members : List (String × Json))
deriving Repr

end AttributeScope
