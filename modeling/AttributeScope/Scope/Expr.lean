/-!
# Scope expressions

Boolean combinations of scope patterns, and the files that they accept.

Main results:

- `accepts_unionOf`: a union of patterns accepts what one of them matches.
- `accepts_complement`: a complement accepts what its operand does not.
-/

namespace AttributeScope

/-- A Boolean combination of scope patterns. -/
inductive ScopeExpr where
  | empty
  | literal (pattern : String)
  | union (operands : List ScopeExpr)
  | complement (operand : ScopeExpr)
  | intersection (operands : List ScopeExpr)
deriving Repr

namespace ScopeExpr

/-- Whether an expression is the node for no file. -/
def isEmpty : ScopeExpr → Bool
  | empty => true
  | _ => false

/-- The union of patterns. -/
def unionOf (patterns : List String) : ScopeExpr :=
  if patterns.isEmpty then empty else union (patterns.map literal)

mutual
/-- Whether an expression accepts a file, given which patterns match the file. -/
def Accepts (matched : String → Prop) : ScopeExpr → Prop
  | empty => False
  | literal pattern => matched pattern
  | union operands => SomeAccepts matched operands
  | complement operand => ¬ Accepts matched operand
  | intersection operands => AllAccept matched operands

/-- Whether some operand accepts a file. -/
def SomeAccepts (matched : String → Prop) : List ScopeExpr → Prop
  | [] => False
  | operand :: rest => Accepts matched operand ∨ SomeAccepts matched rest

/-- Whether every operand accepts a file. -/
def AllAccept (matched : String → Prop) : List ScopeExpr → Prop
  | [] => True
  | operand :: rest => Accepts matched operand ∧ AllAccept matched rest
end

theorem someAccepts_iff {matched : String → Prop} {operands : List ScopeExpr} :
    SomeAccepts matched operands ↔ ∃ operand ∈ operands, Accepts matched operand := by
  induction operands with
  | nil => simp [SomeAccepts]
  | cons operand rest ih => simp [SomeAccepts, ih]

theorem allAccept_iff {matched : String → Prop} {operands : List ScopeExpr} :
    AllAccept matched operands ↔ ∀ operand ∈ operands, Accepts matched operand := by
  induction operands with
  | nil => simp [AllAccept]
  | cons operand rest ih => simp [AllAccept, ih]

/-- A union of patterns accepts what one of them matches. -/
theorem accepts_unionOf {matched : String → Prop} {patterns : List String} :
    Accepts matched (unionOf patterns) ↔ ∃ pattern ∈ patterns, matched pattern := by
  unfold unionOf
  split
  · rename_i h
    simp [List.isEmpty_iff.mp h, Accepts]
  · rw [Accepts, someAccepts_iff]
    constructor
    · rintro ⟨operand, ho, h⟩
      obtain ⟨pattern, hp, rfl⟩ := List.mem_map.mp ho
      exact ⟨pattern, hp, h⟩
    · rintro ⟨pattern, hp, h⟩
      exact ⟨literal pattern, List.mem_map_of_mem hp, h⟩

/-- A complement accepts what its operand does not. -/
@[simp] theorem accepts_complement {matched : String → Prop} {operand : ScopeExpr} :
    Accepts matched (complement operand) ↔ ¬ Accepts matched operand := by
  simp [Accepts]

end ScopeExpr
end AttributeScope
