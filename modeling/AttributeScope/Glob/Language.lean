import AttributeScope.Glob.Expr
import AttributeScope.Glob.Syntax
import AttributeScope.Text.Utf8

/-!
# What globs match

The expression of a glob: a glob matches a path if the bytes of the path are in the language of the
expression.
-/

namespace AttributeScope
namespace Glob

/-! ## Sets and expressions -/

/-- The byte that separates names in a path. -/
def slashByte : UInt8 := 0x2F

/-- The set of one byte. -/
def ByteSet.single (b : UInt8) : ByteSet := ⟨false, [(b, b)]⟩

/-- One given byte. -/
def Expr.exactly (b : UInt8) : Expr := .byte (.single b)

/-- A slash. -/
def Expr.slash : Expr := .exactly slashByte

/-- One byte of a name. -/
def Expr.nameByte : Expr := .byte ⟨true, [(slashByte, slashByte)]⟩

/-- Any part of a name. -/
def Expr.nameRun : Expr := .run ⟨true, [(slashByte, slashByte)]⟩

/-- Any bytes. -/
def Expr.anything : Expr := .run ⟨true, []⟩

/-- The bytes of a range in a class.  Of characters of several bytes, only the last byte of the
lower bound and the first byte of the upper one bound a range. -/
def byteRanges (first last : Char) : List (UInt8 × UInt8) :=
  let single := fun b : UInt8 => (b, b)
  let low := String.utf8EncodeChar first
  let high := String.utf8EncodeChar last
  if first = last then low.map single
  else
    low.dropLast.map single ++ [(low.getLastD 0, high.headD 0)] ++ high.tail.map single

/-- The bytes that a class stands for. -/
def classSet (negated : Bool) (ranges : List (Char × Char)) : ByteSet :=
  ⟨negated, ranges.flatMap fun (first, last) => byteRanges first last⟩

/-! ## The language of a glob -/

mutual

/-- The expression of a token; none for a group of nothing. -/
def Token.expr? : Token → Option Expr
  | .literal c => some (.sequence ((String.utf8EncodeChar c).map .exactly))
  | .anyOne => some .nameByte
  | .anyRun => some .nameRun
  | .descend => some (.either (.either .done .slash) (.seq .anything .slash))
  | .contents => some (.seq .slash .anything)
  | .between => some (.either .slash (.seq .slash (.seq .anything .slash)))
  | .oneOf negated ranges => some (.byte (classSet negated ranges))
  | .alternatives branches =>
    match branchExprs branches with
    | [] => none
    | exprs => some (.choice exprs)

/-- The expressions of tokens, without groups of nothing. -/
def tokenExprs : List Token → List Expr
  | [] => []
  | token :: rest => token.expr?.toList ++ tokenExprs rest

/-- The expressions of branches that are not nothing. -/
def branchExprs : List (List Token) → List Expr
  | [] => []
  | tokens :: rest =>
    (match tokenExprs tokens with
    | [] => []
    | exprs => [.sequence exprs]) ++ branchExprs rest

end

/-- The expression of a glob's tokens.  The glob `**` alone matches everything. -/
def exprOf : List Token → Expr
  | [.descend] => .anything
  | tokens => .sequence (tokenExprs tokens)

end Glob
end AttributeScope
