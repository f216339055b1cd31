import AttributeScope.Log

/-!
# Classification of patterns

A map from scope patterns to whether the files they match are generated.  A pattern that was
classified as non-generated stays so: what is said about it later is ignored.

Main results:

- `get?_merge_self` and `get?_merge_of_ne`: what merging one classification does to the map.
- `ordered_merge`: the entries stay in strictly increasing order of patterns.
-/

namespace AttributeScope

/-- A map from patterns to classifications. -/
structure Classification where
  /-- The entries, in strictly increasing order of patterns. -/
  toList : List (String × Bool)
deriving DecidableEq, Repr

/-- What merging one classification did. -/
inductive MergeOutcome where
  /-- The pattern was new. -/
  | inserted
  /-- The pattern was generated and took the new classification. -/
  | updated
  /-- The pattern was non-generated, and is still. -/
  | kept
deriving DecidableEq, Repr

namespace Classification

/-- No pattern is classified. -/
def empty : Classification := ⟨[]⟩

/-- The classification of a pattern. -/
def get? (m : Classification) (pattern : String) : Option Bool :=
  m.toList.lookup pattern

/-- The number of classified patterns. -/
def size (m : Classification) : Nat := m.toList.length

/-- Whether no pattern is classified. -/
def isEmpty (m : Classification) : Bool := m.toList.isEmpty

/-- Put an entry in its place, instead of an entry with the same pattern. -/
def put (pattern : String) (generated : Bool) : List (String × Bool) → List (String × Bool)
  | [] => [(pattern, generated)]
  | (p, g) :: rest =>
    if pattern < p then (pattern, generated) :: (p, g) :: rest
    else if p < pattern then (p, g) :: put pattern generated rest
    else (pattern, generated) :: rest

/-- What merging a classification of the pattern does. -/
def outcome (m : Classification) (pattern : String) : MergeOutcome :=
  match m.get? pattern with
  | none => .inserted
  | some true => .updated
  | some false => .kept

/-- Merge one classification. -/
def merge (m : Classification) (pattern : String) (generated : Bool) : Classification :=
  match m.outcome pattern with
  | .kept => m
  | _ => ⟨put pattern generated m.toList⟩

/-- What merging one classification reports. -/
def mergeEvents (m : Classification) (pattern : String) (generated : Bool) : List Event :=
  if m.outcome pattern = .kept && generated then [.keptNonGenerated pattern] else []

/-- Merge the same classification of several patterns. -/
def mergeAll (m : Classification) (patterns : List String) (generated : Bool) : Classification :=
  patterns.foldl (fun acc pattern => acc.merge pattern generated) m

/-- What merging the same classification of several patterns reports. -/
def mergeAllEvents (m : Classification) (patterns : List String) (generated : Bool) : List Event :=
  match patterns with
  | [] => []
  | pattern :: rest =>
    m.mergeEvents pattern generated ++ (m.merge pattern generated).mergeAllEvents rest generated

/-- The patterns with a classification, in increasing order. -/
def patterns (m : Classification) (generated : Bool) : List String :=
  (m.toList.filter fun entry => entry.2 == generated).map Prod.fst

/-! ## Entries and look-ups -/

/-- The entries are in strictly increasing order of patterns. -/
def Ordered (entries : List (String × Bool)) : Prop :=
  entries.Pairwise fun a b => a.1 < b.1

theorem mem_put {pattern : String} {generated : Bool} {entry : String × Bool}
    {entries : List (String × Bool)} (h : entry ∈ put pattern generated entries) :
    entry = (pattern, generated) ∨ entry ∈ entries := by
  induction entries with
  | nil => simpa [put] using h
  | cons first rest ih =>
    obtain ⟨p, g⟩ := first
    unfold put at h
    split at h
    · simpa using h
    · split at h
      · rcases List.mem_cons.mp h with rfl | h
        · simp
        · exact (ih h).imp_right (List.mem_cons_of_mem _)
      · exact (List.mem_cons.mp h).imp_right (List.mem_cons_of_mem _)

/-- Putting an entry keeps the order. -/
theorem ordered_put (pattern : String) (generated : Bool) {entries : List (String × Bool)}
    (h : Ordered entries) : Ordered (put pattern generated entries) := by
  induction entries with
  | nil => simp [put, Ordered]
  | cons first rest ih =>
    obtain ⟨p, g⟩ := first
    have hp := List.pairwise_cons.mp h
    unfold put
    split
    · rename_i hlt
      refine List.pairwise_cons.mpr ⟨fun entry he => ?_, h⟩
      rcases List.mem_cons.mp he with rfl | he
      · exact hlt
      · exact String.lt_trans hlt (hp.1 entry he)
    · split
      · rename_i hgt
        refine List.pairwise_cons.mpr ⟨fun entry he => ?_, ih hp.2⟩
        rcases mem_put he with rfl | he
        · exact hgt
        · exact hp.1 entry he
      · rename_i hle hge
        have : pattern = p := String.le_antisymm hge hle
        exact List.pairwise_cons.mpr ⟨fun entry he => this ▸ hp.1 entry he, hp.2⟩

theorem lookup_put_self (pattern : String) (generated : Bool) (entries : List (String × Bool)) :
    (put pattern generated entries).lookup pattern = some generated := by
  induction entries with
  | nil => simp [put]
  | cons first rest ih =>
    obtain ⟨p, g⟩ := first
    unfold put
    split
    · simp
    · split
      · rename_i hgt
        have : (pattern == p) = false := by
          simpa using fun e : pattern = p => String.lt_irrefl p (by rw [e] at hgt; exact hgt)
        simp [List.lookup_cons, this, ih]
      · simp

theorem lookup_put_of_ne {pattern other : String} (generated : Bool)
    (entries : List (String × Bool)) (h : other ≠ pattern) :
    (put pattern generated entries).lookup other = entries.lookup other := by
  have hne : (other == pattern) = false := by simpa using h
  induction entries with
  | nil => simp [put, List.lookup_cons, hne]
  | cons first rest ih =>
    obtain ⟨p, g⟩ := first
    unfold put
    split
    · simp [List.lookup_cons, hne]
    · split
      · simp [List.lookup_cons, ih]
      · rename_i hle hge
        have : pattern = p := String.le_antisymm hge hle
        subst this
        simp [List.lookup_cons, hne]

/-- After merging, a pattern is generated only if it is now called so and was never called
otherwise. -/
theorem get?_merge_self (m : Classification) (pattern : String) (generated : Bool) :
    (m.merge pattern generated).get? pattern =
      some (generated && m.get? pattern != some false) := by
  unfold merge outcome
  cases h : m.get? pattern with
  | none => simp [get?, lookup_put_self]
  | some b =>
    cases b with
    | false => simp [h]
    | true => simp [get?, lookup_put_self]

/-- Merging does not change what is said about other patterns. -/
theorem get?_merge_of_ne (m : Classification) {pattern other : String} (generated : Bool)
    (h : other ≠ pattern) : (m.merge pattern generated).get? other = m.get? other := by
  unfold merge
  split
  · rfl
  · simp [get?, lookup_put_of_ne generated m.toList h]

/-- The entries stay in strictly increasing order. -/
theorem ordered_merge {m : Classification} (h : Ordered m.toList) (pattern : String)
    (generated : Bool) : Ordered (m.merge pattern generated).toList := by
  unfold merge
  split
  · exact h
  · exact ordered_put pattern generated h

end Classification
end AttributeScope
