import AttributeScope.Proofs.AnchoredPatterns
import AttributeScope.Proofs.ProjectVerdicts

/-!
# One more attribute file

Two runs are compared, one of which has an attribute file more than the other.  The additional
file speaks only of patterns that begin with its own directory.  There it may add patterns and take
back that they are generated, and nothing else.

Main results:

- Theorem `prefix_of_says_singleton`: a file speaks of patterns that begin with its directory.
- Theorem `classification_insert_source`: what an additional file does to a classification.
-/

namespace AttributeScope

open Pattern (ExpansionLimit withoutAtSigns segments)

/-! ## What a directive can speak of -/

namespace Resolution

/-- The patterns of a directive begin with its directory. -/
theorem prefix_of_mem_patterns {limit : ExpansionLimit} {dir : SourceDir} {directive : Directive}
    {pattern : String} (h : pattern ∈ (ofDirective limit dir directive).patterns) :
    withoutAtSigns dir.text.toList <+: pattern.toList := by
  rcases mem_patterns_ofDirective.mp h with ⟨variant, -, hanchor⟩
  exact Pattern.prefix_of_anchor? hanchor

/-- Below a directory whose path has a name `@` a directive has no patterns. -/
theorem notMem_patterns_of_atSign {limit : ExpansionLimit} {file : String} {directive : Directive}
    (h : ['@'] ∈ segments (SourceDir.containing file).text.toList) (pattern : String) :
    pattern ∉ (ofDirective limit (.containing file) directive).patterns := by
  intro hpattern
  rcases mem_patterns_ofDirective.mp hpattern with ⟨variant, -, hanchor⟩
  have hnone : Pattern.anchor? (.containing file) variant = none :=
    (Pattern.anchor?_eq_none_iff (SourceDir.isClosed_containing file)).mpr (Or.inl h)
  rw [hnone] at hanchor
  cases hanchor

end Resolution

/-! ## What a file can speak of -/

namespace Source

variable {limit : ExpansionLimit} {extra : Source} {pattern : String} {generated : Bool}

theorem says_append_iff (first second : List Source) :
    Says limit (first ++ second) pattern generated ↔
      Says limit first pattern generated ∨ Says limit second pattern generated := by
  unfold Says
  constructor
  · intro h
    rcases h with ⟨source, hsource, hline⟩
    rcases List.mem_append.mp hsource with hfirst | hsecond
    · exact Or.inl ⟨source, hfirst, hline⟩
    · exact Or.inr ⟨source, hsecond, hline⟩
  · intro h
    rcases h with ⟨source, hfirst, hline⟩ | ⟨source, hsecond, hline⟩
    · exact ⟨source, List.mem_append_left second hfirst, hline⟩
    · exact ⟨source, List.mem_append_right first hsecond, hline⟩

/-- What files say with one more among them is what they or this one say. -/
theorem says_insert_iff (before after : List Source) :
    Says limit (before ++ extra :: after) pattern generated ↔
      Says limit (before ++ after) pattern generated ∨ Says limit [extra] pattern generated := by
  have hsplit : before ++ extra :: after = before ++ ([extra] ++ after) := rfl
  rw [hsplit, says_append_iff, says_append_iff, says_append_iff]
  tauto

/-- What a single file says is resolved below its directory. -/
theorem exists_mem_patterns_of_says (h : Says limit [extra] pattern generated) :
    ∃ directive, pattern ∈ (Resolution.ofDirective limit extra.directory directive).patterns := by
  rcases h with ⟨source, hsource, line, -, hpattern, -⟩
  obtain rfl : source = extra := List.mem_singleton.mp hsource
  exact ⟨line.2, hpattern⟩

/-- A file speaks of patterns that begin with its directory. -/
theorem prefix_of_says_singleton (h : Says limit [extra] pattern generated) :
    withoutAtSigns extra.directory.text.toList <+: pattern.toList := by
  rcases exists_mem_patterns_of_says h with ⟨directive, hpattern⟩
  exact Resolution.prefix_of_mem_patterns hpattern

/-- A file below a name `@` speaks of no pattern. -/
theorem not_says_singleton_of_atSign (h : ['@'] ∈ segments extra.directory.text.toList) :
    ¬ Says limit [extra] pattern generated := by
  intro hsays
  rcases exists_mem_patterns_of_says hsays with ⟨directive, hpattern⟩
  exact Resolution.notMem_patterns_of_atSign h pattern hpattern

end Source

/-! ## What one more file does -/

namespace Outcome

/-- An additional attribute file, wherever it stands in the list, leaves every pattern alone that
does not begin with its directory, written with `*` for every `@`.  Below its directory patterns
may be added and generated ones become non-generated.  A file below a name `@` changes nothing. -/
theorem classification_insert_source (cap : Nat) (before after : List Source) (extra : Source) :
    let old := (ofSources (.clamp cap) (before ++ after)).classification
    let new := (ofSources (.clamp cap) (before ++ extra :: after)).classification
    (∀ pattern : String, ¬ withoutAtSigns extra.directory.text.toList <+: pattern.toList →
      new.get? pattern = old.get? pattern) ∧
    (∀ pattern, old.get? pattern ≠ none → new.get? pattern ≠ none) ∧
    (∀ pattern, old.get? pattern = some false → new.get? pattern = some false) ∧
    (['@'] ∈ segments extra.directory.text.toList → new = old) := by
  intro old new
  have hverdicts (pattern : String) (generated : Bool) :
      (pattern, generated) ∈ verdicts (.clamp cap) (before ++ extra :: after) ↔
        (pattern, generated) ∈ verdicts (.clamp cap) (before ++ after) ∨
          Source.Says (.clamp cap) [extra] pattern generated := by
    rw [mem_verdicts_iff, mem_verdicts_iff, Source.says_insert_iff]
  have hextends : new.Extends old := by
    apply extends_of_verdicts_subset
    intro verdict hverdict
    exact (hverdicts verdict.1 verdict.2).mpr (Or.inl hverdict)
  have hold : old = Classification.empty.mergeEach _ := classification_ofSources _ _
  have hnew : new = Classification.empty.mergeEach _ := classification_ofSources _ _
  refine ⟨?_, hextends.classified, hextends.nonGenerated, ?_⟩
  · intro pattern hprefix
    rw [hold, hnew]
    apply Classification.get?_mergeEach_congr
    intro generated
    rw [hverdicts]
    exact or_iff_left fun hsays => hprefix (Source.prefix_of_says_singleton hsays)
  · intro hatSign
    rw [hold, hnew]
    apply Classification.mergeEach_congr Classification.ordered_empty
    intro verdict
    rw [hverdicts]
    exact or_iff_left (Source.not_says_singleton_of_atSign hatSign)

/-- A file in `pkg` has no say about `web/dist`, loses neither `pkg/x` nor the verdict on `pkg/y`,
and a file in `web/@` says nothing at all. -/
theorem classification_insert_source_pkg :
    let top : Source := ⟨".gitattributes", "pkg/x linguist-generated\npkg/y -linguist-generated"⟩
    let web : Source := ⟨"web/.gitattributes", "dist linguist-generated"⟩
    let pkg : Source := ⟨"pkg/.gitattributes", "x -linguist-generated\ny linguist-generated"⟩
    let unwritable : Source := ⟨"web/@/.gitattributes", "**/* linguist-generated"⟩
    let old := (ofSources (.clamp 10) ([top] ++ [web])).classification
    let new := (ofSources (.clamp 10) ([top] ++ pkg :: [web])).classification
    (¬ withoutAtSigns pkg.directory.text.toList <+: "web/dist".toList ∧
      new.get? "web/dist" = old.get? "web/dist") ∧
    (old.get? "pkg/x" ≠ none ∧ new.get? "pkg/x" ≠ none) ∧
    (old.get? "pkg/y" = some false ∧ new.get? "pkg/y" = some false) ∧
    (['@'] ∈ segments unwritable.directory.text.toList ∧
      (ofSources (.clamp 10) ([top] ++ unwritable :: [web])).classification = old) := by
  intro top web pkg unwritable old new
  rcases classification_insert_source 10 [top] [web] pkg with ⟨hframe, hclassified, hfalse, -⟩
  rcases classification_insert_source 10 [top] [web] unwritable with ⟨-, -, -, hatSign⟩
  have houtside : ¬ withoutAtSigns pkg.directory.text.toList <+: "web/dist".toList := by
    decide +kernel
  have hx : old.get? "pkg/x" ≠ none := by decide +kernel
  have hy : old.get? "pkg/y" = some false := by decide +kernel
  have hname : ['@'] ∈ segments unwritable.directory.text.toList := by decide +kernel
  exact ⟨⟨houtside, hframe "web/dist" houtside⟩, ⟨hx, hclassified "pkg/x" hx⟩,
    ⟨hy, hfalse "pkg/y" hy⟩, hname, hatSign hname⟩

end Outcome
end AttributeScope
