import AttributeScope.Log
import AttributeScope.Pattern.Canonical
import AttributeScope.Text.SortedSet

/-!
# Expansion of recursive segments

The scope dialect cannot say "any number of directories".  A `**` segment in the middle of a
pattern is read as no directory or as exactly one, so a pattern becomes a set of patterns, one for
each choice of readings.  The number of recursive segments is bounded.

Main results:

- `readings_ne_nil`: every text can be read.
- `translate_eq_nil_iff`: a translation is empty exactly when the bound is exceeded.
-/

namespace AttributeScope
namespace Pattern

/-- How many recursive segments of one pattern are expanded. -/
structure ExpansionLimit where
  count : Nat
  /-- More than a million readings are never written. -/
  count_le : count ≤ 20 := by decide
deriving DecidableEq, Repr

namespace ExpansionLimit

/-- The limit nearest to a requested one. -/
def clamp (requested : Nat) : ExpansionLimit :=
  ⟨min requested 20, Nat.min_le_right requested 20⟩

/-- The limit that holds when none is requested, as a number. -/
def defaultCount : Nat := 10

/-- The limit that holds when none is requested. -/
def default : ExpansionLimit := clamp defaultCount

end ExpansionLimit

/-- Cut a text at every `**` followed by a slash, from left to right. -/
def cutRecursive : List Char → List (List Char)
  | '*' :: '*' :: '/' :: rest => [] :: cutRecursive rest
  | c :: rest => (cutRecursive rest).modifyHead (c :: ·)
  | [] => [[]]

/-- All ways to join the parts of a cut text, with nothing or with one `*` segment at each cut, in
increasing order. -/
def readings : List String → List String
  | [] => []
  | [part] => [part]
  | part :: rest =>
    let tails := readings rest
    Text.unite (tails.map (part ++ ·)) (tails.map (part ++ "*/" ++ ·))

/-- How many recursive segments a canonical text has. -/
def recursiveCount (canonical : List Char) : Nat :=
  (cutRecursive canonical).length - 1

/-- The scope patterns that a pattern stands for: none if it has too many recursive segments. -/
def translate (limit : ExpansionLimit) (pattern : String) : List String :=
  let canonical := canonicalize pattern.toList
  if limit.count < recursiveCount canonical then []
  else readings ((cutRecursive canonical).map String.ofList)

/-- What a translation reports. -/
def translationEvents (limit : ExpansionLimit) (pattern : String) : List Event :=
  let count := recursiveCount (canonicalize pattern.toList)
  if limit.count < count then [.patternOverLimit pattern count limit.count] else []

/-- A text has at least one part. -/
theorem cutRecursive_ne_nil (text : List Char) : cutRecursive text ≠ [] := by
  fun_induction cutRecursive text with
  | case1 => simp
  | case2 c rest _ ih => simpa [List.modifyHead_eq_nil_iff] using ih
  | case3 => simp

/-- There is at least one reading. -/
theorem readings_ne_nil (part : String) (rest : List String) : readings (part :: rest) ≠ [] := by
  induction rest generalizing part with
  | nil => simp [readings]
  | cons next others ih =>
    obtain ⟨tail, ht⟩ := List.exists_mem_of_ne_nil _ (ih next)
    have : part ++ tail ∈ readings (part :: next :: others) :=
      Text.mem_unite.mpr (.inl (List.mem_map_of_mem ht))
    exact List.ne_nil_of_mem this

/-- A translation is empty exactly when the pattern has too many recursive segments. -/
theorem translate_eq_nil_iff (limit : ExpansionLimit) (pattern : String) :
    translate limit pattern = [] ↔
      limit.count < recursiveCount (canonicalize pattern.toList) := by
  unfold translate
  simp only
  split
  · rename_i h
    simp [h]
  · rename_i h
    refine iff_of_false (fun hnil => ?_) h
    cases hcut : cutRecursive (canonicalize pattern.toList) with
    | nil => exact cutRecursive_ne_nil _ hcut
    | cons part rest =>
      rw [hcut] at hnil
      exact readings_ne_nil _ _ hnil

example : translate .default "**/mundus" = ["*/mundus", "mundus"] := by decide +kernel

end Pattern
end AttributeScope
