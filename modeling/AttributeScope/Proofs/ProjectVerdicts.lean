import AttributeScope.Outcome
import AttributeScope.Proofs.MergedVerdicts

/-!
# Verdicts of a project

The directives of a project give verdicts about scope patterns.  The outcome of a run merges them
in the order of files and lines; this module says which files its two scopes accept without
mentioning that order.

Main results:

- Theorem `classification_ofSources`: a run merges the verdicts of its directives.
- Theorem `mem_verdicts_iff`: these are the verdicts that some line of some file gives.
- Theorem `accepts_scopes_iff`: a file is generated exactly if some pattern that matches it is
  only called generated and no pattern that matches it is called non-generated.
-/

namespace AttributeScope

open Pattern (ExpansionLimit)

/-- Some directive in the files gives a verdict: the pattern is among those that the directive
amounts to below the directory of its file. -/
def Source.Says (limit : ExpansionLimit) (sources : List Source) (pattern : String)
    (generated : Bool) : Prop :=
  ∃ source ∈ sources, ∃ line ∈ Directive.ofText source.text,
    pattern ∈ (Resolution.ofDirective limit (.containing source.path) line.2).patterns ∧
      line.2.isGenerated = generated

/-- A directive with the directory of its file, but without its place in the file. -/
def PlacedDirective.anchored (placed : PlacedDirective) : SourceDir × Directive :=
  (.containing placed.path, placed.directive)

/-- The verdicts that a directive gives below a directory. -/
def Directive.verdictsBelow (limit : ExpansionLimit) (anchored : SourceDir × Directive) :
    List (String × Bool) :=
  (Resolution.ofDirective limit anchored.1 anchored.2).patterns.map fun pattern =>
    (pattern, anchored.2.isGenerated)

/-- The verdicts that a directive gives where it stands. -/
def PlacedDirective.verdicts (limit : ExpansionLimit) (placed : PlacedDirective) :
    List (String × Bool) :=
  Directive.verdictsBelow limit placed.anchored

theorem PlacedDirective.classify_eq_mergeEach (limit : ExpansionLimit) (m : Classification)
    (placed : PlacedDirective) : placed.classify limit m = m.mergeEach (placed.verdicts limit) :=
  m.mergeAll_eq_mergeEach _ _

namespace Outcome

/-- Classifying directives merges their verdicts one after the other. -/
theorem classify_eq_mergeEach (limit : ExpansionLimit) (m : Classification)
    (placed : List PlacedDirective) :
    classify limit m placed = m.mergeEach (placed.flatMap (PlacedDirective.verdicts limit)) := by
  induction placed generalizing m with
  | nil => rfl
  | cons first rest ih =>
    calc
      classify limit m (first :: rest) = classify limit (first.classify limit m) rest := by
        unfold classify
        rw [List.foldl_cons]
      _ = (m.mergeEach (first.verdicts limit)).mergeEach
            (rest.flatMap (PlacedDirective.verdicts limit)) := by
        rw [ih, first.classify_eq_mergeEach]
      _ = m.mergeEach ((first :: rest).flatMap (PlacedDirective.verdicts limit)) := by
        rw [List.flatMap_cons, m.mergeEach_append]

/-- The verdicts of all directives, file after file in the order of paths. -/
def verdicts (limit : ExpansionLimit) (sources : List Source) : List (String × Bool) :=
  (directives sources).flatMap (PlacedDirective.verdicts limit)

/-- The classification of a project merges its verdicts. -/
theorem classification_ofSources (limit : ExpansionLimit) (sources : List Source) :
    (ofSources limit sources).classification =
      Classification.empty.mergeEach (verdicts limit sources) :=
  classify_eq_mergeEach limit .empty (directives sources)

/-- A run with more verdicts says at least as much. -/
theorem extends_of_verdicts_subset {limit limit' : ExpansionLimit} {sources sources' : List Source}
    (h : verdicts limit sources ⊆ verdicts limit' sources') :
    (ofSources limit' sources').classification.Extends
      (ofSources limit sources).classification := by
  rw [classification_ofSources, classification_ofSources]
  exact Classification.extends_mergeEach_of_subset h

/-- Sorting the files does not change which directives there are. -/
theorem mem_directives_iff (sources : List Source) (placed : PlacedDirective) :
    placed ∈ directives sources ↔ ∃ source ∈ sources, placed ∈ source.directives := by
  unfold directives Source.sort
  rw [List.mem_flatMap]
  simp only [(Order.sortBy_perm _ sources).mem_iff]

/-- The verdicts of all directives are those that some line of some file gives. -/
theorem mem_verdicts_iff (limit : ExpansionLimit) (sources : List Source)
    (pattern : String) (generated : Bool) :
    (pattern, generated) ∈ verdicts limit sources ↔
      Source.Says limit sources pattern generated := by
  unfold verdicts
  rw [List.mem_flatMap]
  constructor
  · intro h
    rcases h with ⟨placed, hplaced, hverdict⟩
    rcases (mem_directives_iff sources placed).mp hplaced with ⟨source, hsource, hstands⟩
    rcases List.mem_map.mp hstands with ⟨line, hline, rfl⟩
    rcases List.mem_map.mp hverdict with ⟨resolved, hresolved, heq⟩
    rcases Prod.mk.inj heq with ⟨rfl, rfl⟩
    exact ⟨source, hsource, line, hline, hresolved, rfl⟩
  · intro h
    rcases h with ⟨source, hsource, line, hline, hresolved, rfl⟩
    refine ⟨⟨source.path, line.1, line.2⟩, ?_, List.mem_map.mpr ⟨pattern, hresolved, rfl⟩⟩
    exact (mem_directives_iff sources _).mpr
      ⟨source, hsource, List.mem_map.mpr ⟨line, hline, rfl⟩⟩

/-- The patterns of a project's classification, generated or not. -/
theorem mem_patterns_ofSources (limit : ExpansionLimit) (sources : List Source)
    (pattern : String) :
    (pattern ∈ (ofSources limit sources).classification.patterns true ↔
      Source.Says limit sources pattern true ∧ ¬ Source.Says limit sources pattern false) ∧
    (pattern ∈ (ofSources limit sources).classification.patterns false ↔
      Source.Says limit sources pattern false) := by
  rw [classification_ofSources, Classification.mem_patterns_true_iff,
    Classification.mem_patterns_false_iff, mem_verdicts_iff, mem_verdicts_iff]
  exact ⟨Iff.rfl, Iff.rfl⟩

/-- The scope of generated files accepts a file if some pattern that matches it is called
generated and never non-generated, and no pattern that matches it is called non-generated.  The
other scope accepts all other files. -/
theorem accepts_scopes_iff (cap : Nat) (sources : List Source) {File : Type}
    (matched : String → File → Prop) (file : File) :
    let scopes := (ofSources (.clamp cap) sources).scopes
    let called := Source.Says (.clamp cap) sources
    (ScopeExpr.Accepts (matched · file) scopes.generated ↔
      (∃ pattern, matched pattern file ∧ called pattern true ∧ ¬ called pattern false) ∧
        ¬ ∃ pattern, matched pattern file ∧ called pattern false) ∧
    (ScopeExpr.Accepts (matched · file) scopes.nonGenerated ↔
      ¬ ScopeExpr.Accepts (matched · file) scopes.generated) := by
  intro scopes called
  have hpatterns := mem_patterns_ofSources (.clamp cap) sources
  have hgenerated : ScopeExpr.Accepts (matched · file) scopes.generated ↔ _ :=
    Scopes.accepts_generatedScope (m := (ofSources (.clamp cap) sources).classification)
  refine ⟨?_, Scopes.accepts_nonGenerated⟩
  rw [hgenerated]
  simp only [(hpatterns _).1, (hpatterns _).2, and_comm (b := matched _ file)]
  rfl

end Outcome
end AttributeScope
