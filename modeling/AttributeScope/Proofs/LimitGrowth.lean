import Mathlib.Algebra.Order.BigOperators.Group.List
import Mathlib.Algebra.Order.Group.Nat
import AttributeScope.Proofs.ProjectVerdicts

/-!
# Larger limits of expansion

Two runs over the same attribute files are compared, one of which expands more recursive segments.
The limit decides only whether a directive is skipped: a directive that is not skipped resolves to
the same under every larger limit.  So a larger limit brings in whole directives and changes no
other.

Main results:

- Theorem `ofDirective_eq_skipped_or_eq`: under a smaller limit a directive is skipped or resolves
  to the same.
- Theorem `count_mono`: with a larger limit less is skipped and no less is impossible to write.
- Theorem `ofSources_mono`: what a larger limit does to an outcome.
-/

namespace AttributeScope

open Pattern (ExpansionLimit)

/-! ## Limits -/

namespace Pattern

theorem ExpansionLimit.count_clamp_mono {small large : Nat} (h : small ≤ large) :
    (ExpansionLimit.clamp small).count ≤ (ExpansionLimit.clamp large).count :=
  min_le_min_right 20 h

/-- All limits above the largest possible one are this one. -/
theorem ExpansionLimit.clamp_of_le {requested : Nat} (h : 20 ≤ requested) :
    ExpansionLimit.clamp requested = ExpansionLimit.clamp 20 := by
  unfold ExpansionLimit.clamp
  congr 1
  omega

/-- What is translated at all is translated alike under every larger limit. -/
theorem translate_eq_nil_or_eq {limit larger : ExpansionLimit} (h : limit.count ≤ larger.count)
    (pattern : String) :
    translate limit pattern = [] ∨ translate limit pattern = translate larger pattern := by
  by_cases hover : limit.count < recursiveCount (canonicalize pattern.toList)
  · exact Or.inl ((translate_eq_nil_iff limit pattern).mpr hover)
  · right
    have hover' : ¬ larger.count < recursiveCount (canonicalize pattern.toList) := by omega
    unfold translate
    dsimp only
    rw [if_neg hover, if_neg hover']

end Pattern

/-! ## Single directives -/

namespace Resolution

/-- What becomes of a directive with too many recursive segments. -/
def skipped : Resolution := ⟨[], 0, true⟩

variable {limit larger : ExpansionLimit}

/-- A directive is skipped, or resolves to the same under every larger limit. -/
theorem ofDirective_eq_skipped_or_eq (h : limit.count ≤ larger.count) (dir : SourceDir)
    (directive : Directive) :
    ofDirective limit dir directive = skipped ∨
      ofDirective limit dir directive = ofDirective larger dir directive := by
  unfold ofDirective
  dsimp only
  rcases Pattern.translate_eq_nil_or_eq h directive.path with hnil | heq
  · left
    rw [hnil]
    rfl
  · right
    rw [heq]

/-- All that a larger limit can do to a directive: bring in its patterns and its translations that
cannot be written, if it was skipped. -/
structure Widens (wide tight : Resolution) : Prop where
  patterns : tight.patterns ⊆ wide.patterns
  unencodable : tight.unencodable ≤ wide.unencodable
  overLimit : wide.overLimit = true → tight.overLimit = true

theorem widens_ofDirective (h : limit.count ≤ larger.count) (dir : SourceDir)
    (directive : Directive) :
    (ofDirective larger dir directive).Widens (ofDirective limit dir directive) := by
  rcases ofDirective_eq_skipped_or_eq h dir directive with hskipped | heq
  · rw [hskipped]
    exact ⟨List.nil_subset _, Nat.zero_le _, fun _ => rfl⟩
  · rw [heq]
    exact ⟨List.Subset.refl _, le_refl _, id⟩

end Resolution

/-! ## Whole runs -/

namespace Outcome

variable {limit larger : ExpansionLimit}

/-- With a larger limit fewer directives are skipped, and what cannot be written cannot be written
under the larger limit either. -/
theorem count_mono (h : limit.count ≤ larger.count) (files : Nat) (placed : List PlacedDirective) :
    (count larger files placed).overLimit ≤ (count limit files placed).overLimit ∧
      (count limit files placed).unencodable ≤ (count larger files placed).unencodable := by
  unfold count
  dsimp only
  constructor
  · rw [← List.countP_eq_length_filter, ← List.countP_eq_length_filter, List.countP_map,
      List.countP_map]
    apply List.countP_mono_left
    intro directive _ hover
    exact (Resolution.widens_ofDirective h _ _).overLimit hover
  · rw [← List.sum_eq_foldr, ← List.sum_eq_foldr, List.map_map, List.map_map]
    apply List.sum_le_sum
    intro directive _
    exact (Resolution.widens_ofDirective h _ _).unencodable

/-- With a larger limit no verdict is lost. -/
theorem verdicts_subset (h : limit.count ≤ larger.count) (sources : List Source) :
    verdicts limit sources ⊆ verdicts larger sources := by
  unfold verdicts
  intro verdict hverdict
  rcases List.mem_flatMap.mp hverdict with ⟨placed, hplaced, hverdict⟩
  refine List.mem_flatMap.mpr ⟨placed, hplaced, ?_⟩
  rcases List.mem_map.mp hverdict with ⟨pattern, hpattern, rfl⟩
  exact List.mem_map_of_mem ((Resolution.widens_ofDirective h _ _).patterns hpattern)

/-- A larger limit keeps every pattern and every verdict that a pattern is non-generated; generated
patterns may become non-generated.  Fewer directives are skipped, more translations may be
impossible to write, and all limits from twenty on give the same outcome. -/
theorem ofSources_mono (sources : List Source) {small large : Nat} (h : small ≤ large) :
    let tight := ofSources (.clamp small) sources
    let wide := ofSources (.clamp large) sources
    (∀ pattern, tight.classification.get? pattern ≠ none →
      wide.classification.get? pattern ≠ none) ∧
    (∀ pattern, tight.classification.get? pattern = some false →
      wide.classification.get? pattern = some false) ∧
    wide.stats.overLimit ≤ tight.stats.overLimit ∧
    tight.stats.unencodable ≤ wide.stats.unencodable ∧
    wide.stats.files = tight.stats.files ∧
    wide.stats.directives = tight.stats.directives ∧
    (20 ≤ small → wide = tight) := by
  intro tight wide
  have hlimit := ExpansionLimit.count_clamp_mono h
  have hextends : wide.classification.Extends tight.classification :=
    extends_of_verdicts_subset (verdicts_subset hlimit sources)
  have hcount := count_mono hlimit sources.length (directives sources)
  refine ⟨hextends.classified, hextends.nonGenerated, hcount.1, hcount.2, rfl, rfl, ?_⟩
  intro hsmall
  have hlarge : 20 ≤ large := hsmall.trans h
  change ofSources (.clamp large) sources = ofSources (.clamp small) sources
  rw [ExpansionLimit.clamp_of_le hsmall, ExpansionLimit.clamp_of_le hlarge]

/-- Under a limit of one recursive segment the second line is skipped; under a limit of two it
takes back what the first line says of `a/c`. -/
theorem ofSources_mono_two_segments :
    let source : Source := ⟨".gitattributes",
      "a/**/c linguist-generated\na/**/**/c -linguist-generated\nx -linguist-generated"⟩
    let tight := ofSources (.clamp 1) [source]
    let wide := ofSources (.clamp 2) [source]
    1 ≤ 2 ∧
    (tight.classification.get? "a/c" ≠ none ∧ wide.classification.get? "a/c" ≠ none) ∧
    (tight.classification.get? "x" = some false ∧ wide.classification.get? "x" = some false) ∧
    wide.stats.overLimit ≤ tight.stats.overLimit ∧
    tight.stats.unencodable ≤ wide.stats.unencodable ∧
    wide.stats.files = tight.stats.files ∧
    wide.stats.directives = tight.stats.directives ∧
    (20 ≤ 25 ∧ 20 ≤ 20 ∧ ofSources (.clamp 25) [source] = ofSources (.clamp 20) [source]) := by
  intro source tight wide
  have hle : 1 ≤ 2 := by omega
  have hle' : 20 ≤ 25 := by omega
  rcases ofSources_mono [source] hle with
    ⟨hclassified, hfalse, hoverLimit, hunencodable, hfiles, hdirectives, -⟩
  rcases ofSources_mono [source] hle' with ⟨-, -, -, -, -, -, hequal⟩
  have hac : tight.classification.get? "a/c" ≠ none := by decide +kernel
  have hx : tight.classification.get? "x" = some false := by decide +kernel
  exact ⟨hle, ⟨hac, hclassified "a/c" hac⟩, ⟨hx, hfalse "x" hx⟩, hoverLimit, hunencodable, hfiles,
    hdirectives, hle', le_refl 20, hequal (le_refl 20)⟩

end Outcome
end AttributeScope
