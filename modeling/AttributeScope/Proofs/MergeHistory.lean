import Mathlib.Data.Finset.Card
import AttributeScope.Proofs.ByteOrder
import AttributeScope.Proofs.MergedVerdicts

/-!
# The history behind a classification

A classification is built by writes: single merges, and merges of the same classification of several
patterns.  Everything that can be asked of it is a function of the whole history of writes.  The
invariant that carries this says which values were ever written for a pattern, not which came last.

Main results:

- Theorem `ofWrites_eq_mergeEach`: writes merge their verdicts one after the other.
- Theorems `get?_ofWrites` and `outcome_ofWrites`: what is answered for a pattern, and what the
  next merge of a pattern does, after any writes.
- Theorem `size_ofWrites`: the size is the number of patterns that were written.
- Theorem `ofWrites_reflects_history`: all of this, with the order of the entries.
-/

namespace AttributeScope
namespace Classification

open Text.Utf8 (ByteLt)

/-- One change of a classification. -/
inductive Write where
  | merge (pattern : String) (generated : Bool)
  | mergeAll (patterns : List String) (generated : Bool)

namespace Write

/-- Carry out a change. -/
def apply (m : Classification) : Write → Classification
  | merge pattern generated => m.merge pattern generated
  | mergeAll patterns generated => m.mergeAll patterns generated

/-- The verdicts that a change brings, in order. -/
def verdicts : Write → List (String × Bool)
  | merge pattern generated => [(pattern, generated)]
  | mergeAll patterns generated => patterns.map fun pattern => (pattern, generated)

/-- A change merges its verdicts one after the other. -/
theorem apply_eq_mergeEach (m : Classification) (write : Write) :
    write.apply m = m.mergeEach write.verdicts := by
  cases write with
  | merge pattern generated => rfl
  | mergeAll patterns generated => exact m.mergeAll_eq_mergeEach patterns generated

end Write

/-- The classification that changes make of the empty one. -/
def ofWrites (writes : List Write) : Classification :=
  writes.foldl Write.apply empty

/-- All verdicts that changes bring, in order. -/
def history (writes : List Write) : List (String × Bool) :=
  writes.flatMap Write.verdicts

/-- The values that changes bring for one pattern, in order. -/
def valuesOf (writes : List Write) (pattern : String) : List Bool :=
  (history writes).filterMap fun verdict => if verdict.1 = pattern then some verdict.2 else none

theorem mem_valuesOf {writes : List Write} {pattern : String} {generated : Bool} :
    generated ∈ valuesOf writes pattern ↔ (pattern, generated) ∈ history writes := by
  unfold valuesOf
  rw [List.mem_filterMap]
  constructor
  · intro h
    rcases h with ⟨verdict, hverdict, hvalue⟩
    split at hvalue
    next hpattern =>
      obtain rfl := Option.some.inj hvalue
      exact hpattern ▸ hverdict
    next => cases hvalue
  · intro h
    exact ⟨(pattern, generated), h, if_pos rfl⟩

theorem valuesOf_eq_nil_iff {writes : List Write} {pattern : String} :
    valuesOf writes pattern = [] ↔ ∀ generated, (pattern, generated) ∉ history writes := by
  rw [List.eq_nil_iff_forall_not_mem]
  simp only [mem_valuesOf]

/-! ## Single patterns -/

/-- Changes merge their verdicts one after the other. -/
theorem ofWrites_eq_mergeEach (writes : List Write) :
    ofWrites writes = empty.mergeEach (history writes) := by
  unfold ofWrites history
  generalize empty = m
  induction writes generalizing m with
  | nil => rfl
  | cons write rest ih =>
    rw [List.foldl_cons, List.flatMap_cons, ih, mergeEach_append, write.apply_eq_mergeEach]

theorem ordered_ofWrites (writes : List Write) : Ordered (ofWrites writes).toList := by
  rw [ofWrites_eq_mergeEach]
  exact ordered_mergeEach ordered_empty _

theorem all_id_eq_false_iff {values : List Bool} : values.all id = false ↔ false ∈ values := by
  simp

/-- A pattern is generated if it was written, and only ever as generated. -/
theorem get?_ofWrites (writes : List Write) (pattern : String) :
    (ofWrites writes).get? pattern =
      if valuesOf writes pattern = [] then none
      else some ((valuesOf writes pattern).all id) := by
  rw [ofWrites_eq_mergeEach]
  by_cases hnil : valuesOf writes pattern = []
  · rw [if_pos hnil, get?_mergeEach_eq_none_iff]
    exact ⟨rfl, valuesOf_eq_nil_iff.mp hnil⟩
  · rw [if_neg hnil]
    cases hall : (valuesOf writes pattern).all id with
    | false =>
      rw [get?_mergeEach_eq_false_iff]
      exact Or.inr (mem_valuesOf.mp (all_id_eq_false_iff.mp hall))
    | true =>
      have hfalse : (pattern, false) ∉ history writes := by
        intro hmem
        have := all_id_eq_false_iff.mpr (mem_valuesOf.mpr hmem)
        rw [hall] at this
        cases this
      rcases List.exists_mem_of_ne_nil _ hnil with ⟨value, hvalue⟩
      obtain rfl : value = true := List.all_eq_true.mp hall value hvalue
      rw [get?_mergeEach_eq_true_iff]
      exact ⟨Or.inr (mem_valuesOf.mp hvalue), by simpa using hfalse⟩

/-- What the next merge of a pattern does. -/
theorem outcome_ofWrites (writes : List Write) (pattern : String) :
    (ofWrites writes).outcome pattern =
      if valuesOf writes pattern = [] then .inserted
      else if false ∈ valuesOf writes pattern then .kept
      else .updated := by
  unfold outcome
  rw [get?_ofWrites]
  by_cases hnil : valuesOf writes pattern = []
  · rw [if_pos hnil, if_pos hnil]
  · rw [if_neg hnil, if_neg hnil]
    cases hall : (valuesOf writes pattern).all id with
    | false => rw [if_pos (all_id_eq_false_iff.mp hall)]
    | true =>
      have hfalse : false ∉ valuesOf writes pattern := by
        rw [← all_id_eq_false_iff, hall]
        decide
      rw [if_neg hfalse]

/-- A merge that keeps a pattern changes nothing. -/
theorem merge_eq_self_of_kept {m : Classification} {pattern : String}
    (h : m.outcome pattern = .kept) (generated : Bool) : m.merge pattern generated = m := by
  unfold merge
  rw [h]

/-! ## All patterns -/

/-- The patterns of a classification, in the order of its entries. -/
def keys (m : Classification) : List String :=
  m.toList.map Prod.fst

section Ordered

variable {m : Classification} (h : Ordered m.toList)
include h

theorem keys_pairwise : m.keys.Pairwise ByteLt := by
  unfold keys
  rw [List.pairwise_map]
  exact List.Pairwise.imp Text.Utf8.byteLt_iff.mpr h

theorem patterns_pairwise (generated : Bool) : (m.patterns generated).Pairwise ByteLt := by
  unfold patterns
  rw [List.pairwise_map]
  exact List.Pairwise.imp Text.Utf8.byteLt_iff.mpr (List.Pairwise.filter _ h)

theorem nodup_keys : m.keys.Nodup := by
  refine List.Pairwise.imp ?_ (keys_pairwise h)
  intro pattern other hlt heq
  subst heq
  exact String.lt_irrefl pattern (Text.Utf8.byteLt_iff.mp hlt)

theorem mem_keys_iff {pattern : String} : pattern ∈ m.keys ↔ m.get? pattern ≠ none := by
  unfold keys
  rw [List.mem_map, Option.ne_none_iff_exists']
  constructor
  · intro hentry
    rcases hentry with ⟨entry, hentry, rfl⟩
    exact ⟨entry.2, (lookup_eq_some_iff_mem h entry.1 entry.2).mpr hentry⟩
  · intro hget
    rcases hget with ⟨generated, hget⟩
    exact ⟨(pattern, generated), (lookup_eq_some_iff_mem h pattern generated).mp hget, rfl⟩

/-- No pattern is generated and non-generated. -/
theorem disjoint_patterns : (m.patterns true).Disjoint (m.patterns false) := by
  intro pattern htrue hfalse
  rw [mem_patterns_iff h] at htrue hfalse
  rw [htrue] at hfalse
  cases hfalse

end Ordered

/-- Every pattern is generated or non-generated. -/
theorem patterns_append_perm (m : Classification) :
    (m.patterns true ++ m.patterns false).Perm m.keys := by
  have hnot : (fun entry : String × Bool => entry.2 == false) =
      fun entry => !(entry.2 == true) := by
    funext entry
    cases entry.2 <;> rfl
  unfold patterns keys
  rw [← List.map_append, hnot]
  exact (List.filter_append_perm _ m.toList).map Prod.fst

/-- The patterns that are classified are those that were written. -/
theorem mem_keys_ofWrites (writes : List Write) (pattern : String) :
    pattern ∈ (ofWrites writes).keys ↔ pattern ∈ (history writes).map Prod.fst := by
  rw [mem_keys_iff (ordered_ofWrites writes), ofWrites_eq_mergeEach, Ne, get?_mergeEach_eq_none_iff,
    List.mem_map]
  constructor
  · intro hclassified
    by_contra hnone
    apply hclassified
    exact ⟨rfl, fun generated hmem => hnone ⟨(pattern, generated), hmem, rfl⟩⟩
  · intro hwritten hnone
    rcases hwritten with ⟨verdict, hmem, rfl⟩
    exact hnone.2 verdict.2 hmem

/-- The size is the number of different patterns that were written. -/
theorem size_ofWrites (writes : List Write) :
    (ofWrites writes).size = ((history writes).map Prod.fst).toFinset.card := by
  have hkeys : (ofWrites writes).keys.toFinset = ((history writes).map Prod.fst).toFinset := by
    ext pattern
    rw [List.mem_toFinset, List.mem_toFinset, mem_keys_ofWrites]
  calc
    (ofWrites writes).size = (ofWrites writes).keys.length := by
      unfold size keys
      rw [List.length_map]
    _ = (ofWrites writes).keys.toFinset.card :=
      (List.toFinset_card_of_nodup (nodup_keys (ordered_ofWrites writes))).symm
    _ = ((history writes).map Prod.fst).toFinset.card := by rw [hkeys]

/-- After any writes, and so before each of the merges that they consist of: a pattern answers
whether it was only ever written as generated; the next merge of it inserts, updates or keeps
according to what was written before, and changes nothing if it keeps; the entries are the answers,
in the order of bytes; and the two lists of patterns divide them. -/
theorem ofWrites_reflects_history (writes : List Write) :
    let m := ofWrites writes
    (∀ pattern, m.get? pattern =
      if valuesOf writes pattern = [] then none
      else some ((valuesOf writes pattern).all id)) ∧
    (∀ pattern, m.outcome pattern =
      if valuesOf writes pattern = [] then .inserted
      else if false ∈ valuesOf writes pattern then .kept
      else .updated) ∧
    (∀ pattern generated, m.outcome pattern = .kept → m.merge pattern generated = m) ∧
    (∀ pattern generated, (pattern, generated) ∈ m.toList ↔ m.get? pattern = some generated) ∧
    m.keys.Pairwise ByteLt ∧
    (∀ generated, (m.patterns generated).Pairwise ByteLt) ∧
    (∀ pattern generated, pattern ∈ m.patterns generated ↔ m.get? pattern = some generated) ∧
    (m.patterns true).Disjoint (m.patterns false) ∧
    (m.patterns true ++ m.patterns false).Perm m.keys ∧
    m.size = ((history writes).map Prod.fst).toFinset.card := by
  intro m
  have hordered : Ordered m.toList := ordered_ofWrites writes
  refine ⟨get?_ofWrites writes, outcome_ofWrites writes, ?_, ?_, keys_pairwise hordered,
    patterns_pairwise hordered, mem_patterns_iff hordered, disjoint_patterns hordered,
    patterns_append_perm m, size_ofWrites writes⟩
  · intro pattern generated hkept
    exact merge_eq_self_of_kept hkept generated
  · intro pattern generated
    exact (lookup_eq_some_iff_mem hordered pattern generated).symm

/-- A pattern that was written as non-generated among several others is kept by later merges. -/
theorem ofWrites_reflects_history_kept :
    let writes : List Write :=
      [.merge "b" true, .mergeAll ["a", "b"] false, .merge "c" true, .merge "b" true]
    let m := ofWrites writes
    m.outcome "b" = .kept ∧ m.merge "b" true = m := by
  intro writes m
  rcases ofWrites_reflects_history writes with ⟨-, -, hkept, -⟩
  have hb : m.outcome "b" = .kept := by decide +kernel
  exact ⟨hb, hkept "b" true hb⟩

end Classification
end AttributeScope
