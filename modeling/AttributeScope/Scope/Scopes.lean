import AttributeScope.Classification
import AttributeScope.Scope.Rendering

/-!
# The two scopes of a classification

A file is generated when some generated pattern matches it and no non-generated pattern does.
Every other file is non-generated; without a generated pattern that is every file.

Main results:

- `accepts_generatedScope`: what the scope of generated files accepts.
- `accepts_nonGenerated`: the other scope accepts all other files.
-/

namespace AttributeScope

/-- The scope of the generated files and the scope of all other files. -/
structure Scopes where
  /-- The generated files. -/
  generated : ScopeExpr
  /-- All other files. -/
  nonGenerated : ScopeExpr
deriving Repr

namespace Scopes

open ScopeExpr

/-- The scope of the generated files of a classification. -/
def generatedScope (m : Classification) : ScopeExpr :=
  match m.patterns true, m.patterns false with
  | [], _ => .empty
  | generated, [] => unionOf generated
  | generated, nonGenerated => .intersection [unionOf generated, .complement (unionOf nonGenerated)]

/-- Both scopes of a classification. -/
def ofClassification (m : Classification) : Scopes :=
  ⟨generatedScope m, .complement (generatedScope m)⟩

/-- The scope of generated files accepts what a generated pattern matches and no non-generated
one. -/
theorem accepts_generatedScope {matched : String → Prop} {m : Classification} :
    Accepts matched (generatedScope m) ↔
      (∃ pattern ∈ m.patterns true, matched pattern) ∧
        ¬ ∃ pattern ∈ m.patterns false, matched pattern := by
  unfold generatedScope
  generalize m.patterns true = generated
  generalize m.patterns false = nonGenerated
  cases generated with
  | nil => simp [Accepts]
  | cons pattern rest =>
    cases nonGenerated with
    | nil => simp [accepts_unionOf]
    | cons other others => simp only [Accepts, AllAccept, accepts_unionOf, and_true]

/-- The scope of the other files accepts what the scope of generated files does not. -/
theorem accepts_nonGenerated {matched : String → Prop} {m : Classification} :
    Accepts matched (ofClassification m).nonGenerated ↔
      ¬ Accepts matched (ofClassification m).generated :=
  accepts_complement

end Scopes
end AttributeScope
