import AttributeScope.CommandLine.Session
import AttributeScope.Proofs.AnchoredPatterns
import AttributeScope.Proofs.ProjectVerdicts
import AttributeScope.Proofs.WrittenLines

/-!
# Translations as a preview of a run

A pattern can be translated below a directory without writing an attribute file.  What is shown
then is what a run would classify if the pattern stood alone, set, in an attribute file of that
directory.  The two ways meet in the resolution of one directive: one spells out the directive and
the directory, the other reads them from a line and from the path of the file.

Main results:

- Theorem `ofText_setLine`: the directive in a line that sets the attribute for a pattern.
- Theorem `toList_classification_of_single`: the classification that a single directive gives.
- Theorem `translationsOf_eq_classification`: translations below a directory are the patterns that a
  run classifies, all of them as generated.
-/

namespace AttributeScope

open Pattern (ExpansionLimit)

/-! ## A line that sets the attribute -/

namespace Directive

/-- A pattern that can be the first word of a line as it is: neither cut by blanks, nor read as the
beginning of a comment or as a negated pattern. -/
structure IsPlainPattern (pattern : String) : Prop where
  ne_empty : pattern ≠ ""
  not_isBlank : ∀ c ∈ pattern.toList, Text.isBlank c = false
  head?_ne_hash : pattern.toList.head? ≠ some '#'
  head?_ne_bang : pattern.toList.head? ≠ some '!'

/-- A line that sets the attribute for a pattern. -/
def setLine (pattern : List Char) : List Char :=
  pattern ++ ' ' :: attributeName

theorem toList_append_attribute (pattern : String) :
    (pattern ++ " linguist-generated").toList = setLine pattern.toList := by
  unfold setLine attributeName
  rw [String.toList_append]
  rfl

/-- The line in its parts. -/
def plainLine (pattern : List Char) : WrittenLine where
  indent := []
  negated := false
  pattern := pattern
  others := []
  gap := [' ']
  qualifier := []
  value := []

theorem text_plainLine (pattern : List Char) : (plainLine pattern).text = setLine pattern := by
  unfold setLine
  rfl

section Plain

variable {pattern : String} (h : IsPlainPattern pattern)
include h

theorem toList_ne_nil : pattern.toList ≠ [] := by
  intro hnil
  exact h.ne_empty (String.toList_eq_nil_iff.mp hnil)

theorem isWellFormed_plainLine : (plainLine pattern.toList).IsWellFormed where
  indent_blank := by simp [plainLine, Text.IsBlankRun]
  isWord_pattern := ⟨toList_ne_nil h, h.not_isBlank⟩
  plain_of_not_negated := fun _ => h.head?_ne_bang
  others_spaced := by simp [plainLine]
  isGap_gap := show Text.IsGap [' '] by decide
  qualifier_not_blank := by simp [plainLine]
  value_mem := List.mem_cons_self
  head?_ne_hash := by
    rw [text_plainLine]
    unfold setLine
    rw [List.head?_append_of_ne_nil _ (toList_ne_nil h)]
    exact h.head?_ne_hash

/-- The directive in a line that sets the attribute. -/
theorem ofChars?_setLine :
    ofChars? (setLine pattern.toList) = some ⟨pattern, true, false⟩ := by
  have hread := WrittenLine.ofChars?_text (isWellFormed_plainLine h) (Or.inl rfl)
  have hmeant : (plainLine pattern.toList).directive = ⟨pattern, true, false⟩ := by
    unfold plainLine WrittenLine.directive
    rw [String.ofList_toList]
    rfl
  rwa [List.append_nil, text_plainLine, hmeant] at hread

/-- A text that is one such line has this directive and no other. -/
theorem ofText_setLine :
    ofText (pattern ++ " linguist-generated") = [(1, ⟨pattern, true, false⟩)] := by
  have hbreak : '\n' ∉ setLine pattern.toList := by
    unfold setLine
    rw [List.mem_append, not_or]
    refine ⟨fun hmem => ?_, by decide⟩
    have := h.not_isBlank '\n' hmem
    exact absurd this (by decide)
  unfold ofText
  rw [toList_append_attribute, List.splitOn_eq_singleton hbreak]
  simp [ofChars?_setLine h]

end Plain

end Directive

/-! ## A single directive -/

namespace Outcome

/-- A single directive classifies its patterns, and nothing else. -/
theorem toList_classification_of_single (limit : ExpansionLimit) (source : Source)
    {number : Nat} {directive : Directive}
    (h : Directive.ofText source.text = [(number, directive)]) :
    (ofSources limit [source]).classification.toList =
      (Resolution.ofDirective limit source.directory directive).patterns.map
        fun pattern => (pattern, directive.isGenerated) := by
  have hverdicts : verdicts limit [source] =
      Directive.verdictsBelow limit (source.directory, directive) := by
    have hdirectives : directives [source] = [⟨source.path, number, directive⟩] := by
      change [source].flatMap Source.directives = _
      rw [List.flatMap_singleton]
      unfold Source.directives
      rw [h]
      rfl
    unfold verdicts
    rw [hdirectives, List.flatMap_singleton]
    rfl
  rw [classification_ofSources, hverdicts]
  apply Classification.toList_mergeEach_of_ordered
  unfold Directive.verdictsBelow Classification.Ordered
  rw [List.pairwise_map]
  exact Resolution.patterns_pairwise_lt _ _ _

end Outcome

/-! ## Translations below a directory -/

namespace CommandLine

open Outcome (ofSources)

/-- Every plain pattern of a request for translations below a directory is shown with exactly those
variants that a run classifies, as generated, when its one attribute file is in that directory and
sets the attribute for the pattern.  The directory may be written with any slashes and
backslashes. -/
theorem translationsOf_eq_classification (request : TranslateRequest) {dir pattern : String}
    (hdir : request.dir = some dir) (hpattern : pattern ∈ request.patterns)
    (hplain : Directive.IsPlainPattern pattern) (variants : List String) :
    ⟨pattern, variants⟩ ∈ translationsOf request ↔
      (ofSources (.clamp request.maxRecursiveSegments)
        [⟨dir ++ "/.gitattributes", pattern ++ " linguist-generated"⟩]).classification.toList =
          variants.map fun variant => (variant, true) := by
  have hdirectory : SourceDir.containing (dir ++ "/.gitattributes") = .ofPath dir := by
    have hname := SourceDir.containing_append_file dir ".gitattributes" (by decide) (by decide)
    rw [String.append_assoc] at hname
    exact hname
  have hshown : ⟨pattern, variants⟩ ∈ translationsOf request ↔
      (Resolution.ofDirective (.clamp request.maxRecursiveSegments) (.ofPath dir)
        ⟨pattern, true, false⟩).patterns = variants := by
    unfold translationsOf variantsOf
    rw [hdir, List.mem_map]
    constructor
    · intro h
      rcases h with ⟨other, -, heq⟩
      rcases Translation.mk.inj heq with ⟨rfl, hvariants⟩
      exact hvariants
    · intro h
      exact ⟨pattern, hpattern, congrArg (Translation.mk pattern) h⟩
  have hinjective : Function.Injective (fun variant : String => (variant, true)) := by
    intro variant other heq
    exact (Prod.mk.inj heq).1
  have hgenerated : (⟨pattern, true, false⟩ : Directive).isGenerated = true := rfl
  have hclassified := Outcome.toList_classification_of_single
    (.clamp request.maxRecursiveSegments)
    ⟨dir ++ "/.gitattributes", pattern ++ " linguist-generated"⟩ (Directive.ofText_setLine hplain)
  unfold Source.directory at hclassified
  rw [hdirectory, hgenerated] at hclassified
  rw [hshown, hclassified, (List.map_injective_iff.mpr hinjective).eq_iff]

/-- A pattern with a recursive segment below `pkg/web`, written with backslashes and slashes. -/
theorem translationsOf_eq_classification_pkg :
    let request : TranslateRequest :=
      { patterns := ["x", "**/gen@/*.rs"]
        dir := some "\\pkg\\web//"
        output := .json
        maxRecursiveSegments := 3 }
    let variants := ["pkg/web/*/gen*/*.rs", "pkg/web/gen*/*.rs"]
    request.dir = some "\\pkg\\web//" ∧ "**/gen@/*.rs" ∈ request.patterns ∧
      Directive.IsPlainPattern "**/gen@/*.rs" ∧
      ⟨"**/gen@/*.rs", variants⟩ ∈ translationsOf request ∧
      (ofSources (.clamp request.maxRecursiveSegments)
        [⟨"\\pkg\\web//" ++ "/.gitattributes",
          "**/gen@/*.rs" ++ " linguist-generated"⟩]).classification.toList =
            variants.map fun variant => (variant, true) := by
  intro request variants
  have hdir : request.dir = some "\\pkg\\web//" := rfl
  have hpattern : "**/gen@/*.rs" ∈ request.patterns := by decide
  have hall : "**/gen@/*.rs".toList.all (fun c => !Text.isBlank c) = true := by decide
  have hblank : ∀ c ∈ "**/gen@/*.rs".toList, Text.isBlank c = false := by
    intro c hc
    simpa using List.all_eq_true.mp hall c hc
  have hplain : Directive.IsPlainPattern "**/gen@/*.rs" :=
    ⟨by decide, hblank, by decide, by decide⟩
  have hshown : ⟨"**/gen@/*.rs", variants⟩ ∈ translationsOf request := by decide +kernel
  exact ⟨hdir, hpattern, hplain, hshown,
    (translationsOf_eq_classification request hdir hpattern hplain variants).mp hshown⟩

end CommandLine
end AttributeScope
