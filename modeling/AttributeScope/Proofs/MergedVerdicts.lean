import Mathlib.Tactic.Tauto
import AttributeScope.Classification

/-!
# Classifications as merged verdicts

A verdict calls the files that a pattern matches generated or non-generated.  This module
describes what a whole list of verdicts makes of a classification: for each pattern the
classification remembers that it was named and whether some verdict called it non-generated.
The order of the verdicts and their repetitions leave no trace.

Main results:

- Theorems `get?_mergeEach_eq_false_iff`, `get?_mergeEach_eq_true_iff` and
  `get?_mergeEach_eq_none_iff`: what is said about a pattern after any list of verdicts.
- Theorem `eq_of_get?_eq`: ordered classifications that answer alike are equal.
- Theorem `mergeEach_congr`: lists with the same verdicts give the same classification.
- Theorem `extends_mergeEach_of_subset`: with more verdicts more patterns are classified, and what
  was non-generated stays so.
- Theorems `mem_patterns_true_iff` and `mem_patterns_false_iff`: the patterns of the
  classification that a list of verdicts gives.
-/

namespace AttributeScope
namespace Classification

theorem ordered_empty : Ordered empty.toList :=
  List.Pairwise.nil

@[simp]
theorem get?_empty (pattern : String) : empty.get? pattern = none :=
  rfl

/-- Merge verdicts one after the other. -/
def mergeEach (m : Classification) (verdicts : List (String × Bool)) : Classification :=
  verdicts.foldl (fun acc verdict => acc.merge verdict.1 verdict.2) m

@[simp]
theorem mergeEach_nil (m : Classification) : m.mergeEach [] = m :=
  rfl

@[simp]
theorem mergeEach_cons (m : Classification) (pattern : String) (generated : Bool)
    (rest : List (String × Bool)) :
    m.mergeEach ((pattern, generated) :: rest) = (m.merge pattern generated).mergeEach rest :=
  rfl

theorem mergeEach_append (m : Classification) (first second : List (String × Bool)) :
    m.mergeEach (first ++ second) = (m.mergeEach first).mergeEach second := by
  unfold mergeEach
  exact List.foldl_append

/-- Merging one classification of several patterns merges one verdict for each of them. -/
theorem mergeAll_eq_mergeEach (m : Classification) (patterns : List String) (generated : Bool) :
    m.mergeAll patterns generated =
      m.mergeEach (patterns.map fun pattern => (pattern, generated)) := by
  unfold mergeAll mergeEach
  rw [List.foldl_map]

/-! ## What one verdict does -/

theorem get?_merge_eq_false_iff (m : Classification) (pattern other : String) (generated : Bool) :
    (m.merge pattern generated).get? other = some false ↔
      m.get? other = some false ∨ (other, false) = (pattern, generated) := by
  by_cases h : other = pattern
  · subst h
    rw [get?_merge_self]
    cases generated <;> cases m.get? other <;> simp
  · rw [get?_merge_of_ne m generated h]
    simp [h]

theorem get?_merge_eq_true_iff (m : Classification) (pattern other : String) (generated : Bool) :
    (m.merge pattern generated).get? other = some true ↔
      (m.get? other = some true ∨ (other, true) = (pattern, generated)) ∧
        ¬ (m.get? other = some false ∨ (other, false) = (pattern, generated)) := by
  by_cases h : other = pattern
  · subst h
    rw [get?_merge_self]
    cases generated <;> cases hm : m.get? other <;> simp
  · rw [get?_merge_of_ne m generated h]
    cases m.get? other <;> simp [h]

theorem get?_merge_eq_none_iff (m : Classification) (pattern other : String) (generated : Bool) :
    (m.merge pattern generated).get? other = none ↔ m.get? other = none ∧ other ≠ pattern := by
  by_cases h : other = pattern
  · subst h
    rw [get?_merge_self]
    simp
  · rw [get?_merge_of_ne m generated h]
    simp [h]

/-! ## What a list of verdicts does -/

/-- A pattern is non-generated once some verdict has called it so. -/
theorem get?_mergeEach_eq_false_iff (m : Classification) (verdicts : List (String × Bool))
    (pattern : String) :
    (m.mergeEach verdicts).get? pattern = some false ↔
      m.get? pattern = some false ∨ (pattern, false) ∈ verdicts := by
  induction verdicts generalizing m with
  | nil => simp
  | cons verdict rest ih =>
    rcases verdict with ⟨named, generated⟩
    rw [mergeEach_cons, ih, get?_merge_eq_false_iff, List.mem_cons, or_assoc]

/-- A pattern is generated if it was called so and never called otherwise. -/
theorem get?_mergeEach_eq_true_iff (m : Classification) (verdicts : List (String × Bool))
    (pattern : String) :
    (m.mergeEach verdicts).get? pattern = some true ↔
      (m.get? pattern = some true ∨ (pattern, true) ∈ verdicts) ∧
        ¬ (m.get? pattern = some false ∨ (pattern, false) ∈ verdicts) := by
  induction verdicts generalizing m with
  | nil =>
    simp only [mergeEach_nil, List.not_mem_nil, or_false]
    constructor
    · intro htrue
      exact ⟨htrue, by simp [htrue]⟩
    · exact And.left
  | cons verdict rest ih =>
    rcases verdict with ⟨named, generated⟩
    rw [mergeEach_cons, ih, get?_merge_eq_true_iff, get?_merge_eq_false_iff, List.mem_cons,
      List.mem_cons]
    tauto

/-- A pattern is classified once some verdict is about it. -/
theorem get?_mergeEach_eq_none_iff (m : Classification) (verdicts : List (String × Bool))
    (pattern : String) :
    (m.mergeEach verdicts).get? pattern = none ↔
      m.get? pattern = none ∧ ∀ generated, (pattern, generated) ∉ verdicts := by
  induction verdicts generalizing m with
  | nil => simp
  | cons verdict rest ih =>
    rcases verdict with ⟨named, value⟩
    rw [mergeEach_cons, ih, get?_merge_eq_none_iff]
    constructor
    · intro h
      rcases h with ⟨⟨hm, hne⟩, hrest⟩
      refine ⟨hm, fun generated hmem => ?_⟩
      rcases List.mem_cons.mp hmem with heq | hmem
      · exact hne (Prod.mk.inj heq).1
      · exact hrest generated hmem
    · intro h
      rcases h with ⟨hm, hnot⟩
      refine ⟨⟨hm, ?_⟩, fun generated hmem => hnot generated (List.mem_cons_of_mem _ hmem)⟩
      intro heq
      exact hnot value (heq ▸ List.mem_cons_self)

/-- What is said about a pattern depends only on the verdicts about it. -/
theorem get?_mergeEach_congr (m : Classification) {first second : List (String × Bool)}
    {pattern : String}
    (h : ∀ generated, (pattern, generated) ∈ first ↔ (pattern, generated) ∈ second) :
    (m.mergeEach first).get? pattern = (m.mergeEach second).get? pattern := by
  have hfalse := get?_mergeEach_eq_false_iff m first pattern
  have htrue := get?_mergeEach_eq_true_iff m first pattern
  rw [h, ← get?_mergeEach_eq_false_iff] at hfalse
  rw [h, h, ← get?_mergeEach_eq_true_iff] at htrue
  apply Option.ext
  intro value
  cases value with
  | false => exact hfalse
  | true => exact htrue

theorem ordered_mergeEach {m : Classification} (h : Ordered m.toList)
    (verdicts : List (String × Bool)) : Ordered (m.mergeEach verdicts).toList := by
  induction verdicts generalizing m with
  | nil => exact h
  | cons verdict rest ih => exact ih (ordered_merge h verdict.1 verdict.2)

/-! ## Ordered classifications are determined by their answers -/

/-- In an ordered list the look-up finds every entry. -/
theorem lookup_eq_some_iff_mem {entries : List (String × Bool)} (h : Ordered entries)
    (pattern : String) (generated : Bool) :
    entries.lookup pattern = some generated ↔ (pattern, generated) ∈ entries := by
  induction entries with
  | nil => simp
  | cons entry rest ih =>
    rcases entry with ⟨first, value⟩
    have hordered := List.pairwise_cons.mp h
    rw [List.lookup_cons, List.mem_cons]
    by_cases hfirst : pattern = first
    · subst hfirst
      have hfresh : (pattern, generated) ∉ rest := by
        intro hmem
        exact String.lt_irrefl pattern (hordered.1 _ hmem)
      simp [hfresh, eq_comm]
    · have hne : (pattern == first) = false := by simpa using hfirst
      rw [hne, ih hordered.2]
      simp [hfirst]

theorem nodup_of_ordered {entries : List (String × Bool)} (h : Ordered entries) :
    entries.Nodup := by
  refine List.Pairwise.imp ?_ h
  intro a b hlt heq
  subst heq
  exact String.lt_irrefl a.1 hlt

/-- Ordered classifications that answer every look-up alike are equal. -/
theorem eq_of_get?_eq {first second : Classification} (hfirst : Ordered first.toList)
    (hsecond : Ordered second.toList)
    (hget : ∀ pattern, first.get? pattern = second.get? pattern) : first = second := by
  have hperm : first.toList.Perm second.toList := by
    rw [List.perm_ext_iff_of_nodup (nodup_of_ordered hfirst) (nodup_of_ordered hsecond)]
    intro h
    rcases h with ⟨pattern, generated⟩
    rw [← lookup_eq_some_iff_mem hfirst, ← lookup_eq_some_iff_mem hsecond]
    change first.get? pattern = _ ↔ second.get? pattern = _
    rw [hget]
  have hlists : first.toList = second.toList := by
    apply List.Perm.eq_of_pairwise _ hfirst hsecond hperm
    intro a b _ _ hab hba
    exact absurd (String.lt_trans hab hba) (String.lt_irrefl a.1)
  cases first
  cases second
  simpa using hlists

/-- Verdicts with the same members merge into the same classification, whatever their order and
however often they are repeated. -/
theorem mergeEach_congr {m : Classification} (h : Ordered m.toList)
    {first second : List (String × Bool)} (hmem : ∀ verdict, verdict ∈ first ↔ verdict ∈ second) :
    m.mergeEach first = m.mergeEach second := by
  apply eq_of_get?_eq (ordered_mergeEach h first) (ordered_mergeEach h second)
  intro pattern
  exact m.get?_mergeEach_congr fun generated => hmem (pattern, generated)

/-- An ordered list of verdicts, merged into nothing, is kept as it is. -/
theorem toList_mergeEach_of_ordered {verdicts : List (String × Bool)} (h : Ordered verdicts) :
    (empty.mergeEach verdicts).toList = verdicts := by
  have hget (pattern : String) (generated : Bool) :
      (⟨verdicts⟩ : Classification).get? pattern = some generated ↔
        (pattern, generated) ∈ verdicts :=
    lookup_eq_some_iff_mem h pattern generated
  have heq : empty.mergeEach verdicts = ⟨verdicts⟩ := by
    apply eq_of_get?_eq (ordered_mergeEach ordered_empty verdicts) h
    intro pattern
    apply Option.ext
    intro value
    cases value with
    | false =>
      rw [get?_mergeEach_eq_false_iff, hget]
      simp
    | true =>
      rw [get?_mergeEach_eq_true_iff, hget]
      -- an ordered list does not hold a pattern with both classifications
      have hone : (pattern, true) ∈ verdicts → (pattern, false) ∉ verdicts := by
        intro htrue hfalse
        rw [← hget] at htrue hfalse
        rw [htrue] at hfalse
        cases hfalse
      simpa using hone
  rw [heq]

/-! ## More verdicts -/

/-- A classification that says at least as much as another one: what was classified still is, and
what was non-generated still is. -/
structure Extends (larger smaller : Classification) : Prop where
  classified : ∀ pattern, smaller.get? pattern ≠ none → larger.get? pattern ≠ none
  nonGenerated : ∀ pattern, smaller.get? pattern = some false → larger.get? pattern = some false

/-- Further verdicts add patterns, and only ever take back that a pattern is generated. -/
theorem extends_mergeEach_of_subset {m : Classification} {fewer more : List (String × Bool)}
    (h : fewer ⊆ more) : (m.mergeEach more).Extends (m.mergeEach fewer) where
  classified := by
    intro pattern hfewer hmore
    rw [get?_mergeEach_eq_none_iff] at hmore
    apply hfewer
    rw [get?_mergeEach_eq_none_iff]
    exact ⟨hmore.1, fun generated hmem => hmore.2 generated (h hmem)⟩
  nonGenerated := by
    intro pattern hfewer
    rw [get?_mergeEach_eq_false_iff] at hfewer ⊢
    exact hfewer.imp_right fun hmem => h hmem

/-! ## Patterns of a classification -/

/-- The patterns of an ordered classification are those that a look-up finds. -/
theorem mem_patterns_iff {m : Classification} (h : Ordered m.toList) (pattern : String)
    (generated : Bool) :
    pattern ∈ m.patterns generated ↔ m.get? pattern = some generated := by
  unfold patterns get?
  rw [lookup_eq_some_iff_mem h]
  simp

/-- The non-generated patterns are those that some verdict calls so. -/
theorem mem_patterns_false_iff (verdicts : List (String × Bool)) (pattern : String) :
    pattern ∈ (empty.mergeEach verdicts).patterns false ↔ (pattern, false) ∈ verdicts := by
  rw [mem_patterns_iff (ordered_mergeEach ordered_empty verdicts), get?_mergeEach_eq_false_iff]
  simp

/-- The generated patterns are those that some verdict calls so and no verdict calls otherwise. -/
theorem mem_patterns_true_iff (verdicts : List (String × Bool)) (pattern : String) :
    pattern ∈ (empty.mergeEach verdicts).patterns true ↔
      (pattern, true) ∈ verdicts ∧ (pattern, false) ∉ verdicts := by
  rw [mem_patterns_iff (ordered_mergeEach ordered_empty verdicts), get?_mergeEach_eq_true_iff]
  simp

end Classification
end AttributeScope
