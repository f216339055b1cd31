import Mathlib.Data.List.Forall2
import AttributeScope.Pattern.Canonical

/-!
# Meaning of patterns

Two dialects name files by patterns.  In an attribute file a `**` segment stands for any number of
directories; in the scope dialect there is no such segment, but a marker at the end for everything
below a directory.  This module says which paths a pattern of either dialect matches, without
reference to how one is translated into the other.

Main results:

- Definitions `SourceMatches` and `TargetMatches`: the meanings in the two dialects.
- Theorem `nameMatches_star_star`: two stars in a row match the same names as one.
- Theorem `Spans.append`: patterns of directories may be written one after the other.
-/

namespace AttributeScope
namespace Pattern

/-- The name of a file or of a directory. -/
abbrev Name := List Char

/-- The path of a file: its names from the outermost directory on. -/
structure NamePath where
  names : List Name
  names_ne_nil : names ≠ []
  name_ne_nil : ∀ name ∈ names, name ≠ []
  slash_notMem : ∀ name ∈ names, '/' ∉ name

/-- What a segment matches: a star stands for any text, also for none, and every other character
for itself. -/
inductive NameMatches : Segment → Name → Prop
  | nil : NameMatches [] []
  | literal {c : Char} {seg : Segment} {name : Name} (hc : c ≠ '*') (h : NameMatches seg name) :
      NameMatches (c :: seg) (c :: name)
  | star {seg : Segment} {name : Name} (text : List Char) (h : NameMatches seg name) :
      NameMatches ('*' :: seg) (text ++ name)

/-- The names that segments match, if none of them is the last one of a pattern: a `**` stands for
as many names as `reach` allows, and every other segment for one name. -/
inductive Spans (reach : Nat → Prop) : List Segment → List Name → Prop
  | nil : Spans reach [] []
  | name {seg : Segment} {name : Name} {rest : List Segment} {names : List Name}
      (hseg : seg ≠ recursive) (hname : NameMatches seg name) (h : Spans reach rest names) :
      Spans reach (seg :: rest) (name :: names)
  | skip {rest : List Segment} {names : List Name} (skipped : List Name)
      (hreach : reach skipped.length) (h : Spans reach rest names) :
      Spans reach (recursive :: rest) (skipped ++ names)

/-- What the segments of a pattern match.  A `**` at the end stands for at least one name. -/
def SegmentsMatch (reach : Nat → Prop) (parts : List Segment) (names : List Name) : Prop :=
  if parts.getLast? = some recursive then
    ∃ above below, names = above ++ below ∧ below ≠ [] ∧ Spans reach parts.dropLast above
  else Spans reach parts names

/-- The segments of a pattern behind its leading slashes. -/
def sourceSegments (pattern : List Char) : List Segment :=
  segments (pattern.dropWhile (· == '/'))

/-- What a pattern of an attribute file matches, if a `**` before the end stands for as many names
as `reach` allows. -/
def SourceMatches (reach : Nat → Prop) (pattern : List Char) (names : List Name) : Prop :=
  SegmentsMatch reach (sourceSegments pattern) names

/-- A `**` before the end stands for any number of names. -/
def anyNumber : Nat → Prop := fun _ => True

/-- A `**` before the end stands for no name or for one. -/
def atMostOne : Nat → Prop := fun number => number ≤ 1

/-- The marker for everything below a directory. -/
def marker : List Char := ['/', '/', '*']

/-- What a pattern of the scope dialect matches: segments match names one to one, the marker at
the end stands for at least one name, and the marker alone for every path. -/
def TargetMatches (text : List Char) (names : List Name) : Prop :=
  text = marker ∨
  (∃ directory above below, text = directory ++ marker ∧ names = above ++ below ∧ below ≠ [] ∧
    List.Forall₂ NameMatches (segments directory) above) ∨
  (¬ marker <:+ text ∧ List.Forall₂ NameMatches (segments text) names)

/-! ## Names -/

theorem nameMatches_nil_iff {name : Name} : NameMatches [] name ↔ name = [] := by
  constructor
  · intro h
    cases h
    rfl
  · intro hnil
    subst hnil
    exact .nil

theorem nameMatches_star_iff {seg : Segment} {name : Name} :
    NameMatches ('*' :: seg) name ↔ ∃ text rest, name = text ++ rest ∧ NameMatches seg rest := by
  constructor
  · intro h
    cases h with
    | literal hc _ => exact absurd rfl hc
    | star text h => exact ⟨text, _, rfl, h⟩
  · intro hsplit
    rcases hsplit with ⟨text, rest, rfl, h⟩
    exact .star text h

/-- The segment `*` matches every name. -/
theorem nameMatches_one (name : Name) : NameMatches one name := by
  simpa [one] using NameMatches.star name .nil

/-- Two stars in a row match the same names as one. -/
theorem nameMatches_star_star {seg : Segment} {name : Name} :
    NameMatches ('*' :: '*' :: seg) name ↔ NameMatches ('*' :: seg) name := by
  simp only [nameMatches_star_iff]
  constructor
  · intro hsplit
    rcases hsplit with ⟨before, _, rfl, after, rest, rfl, h⟩
    exact ⟨before ++ after, rest, by rw [List.append_assoc], h⟩
  · intro hsplit
    rcases hsplit with ⟨text, rest, rfl, h⟩
    exact ⟨text, rest, rfl, [], rest, rfl, h⟩

/-- Segments that begin alike match the same names if their rests do. -/
theorem nameMatches_cons_congr {seg seg' : Segment} (c : Char)
    (h : ∀ name, NameMatches seg name ↔ NameMatches seg' name) (name : Name) :
    NameMatches (c :: seg) name ↔ NameMatches (c :: seg') name := by
  by_cases hc : c = '*'
  · subst hc
    simp only [nameMatches_star_iff, h]
  · constructor
    · intro hname
      cases hname with
      | literal _ hrest => exact .literal hc ((h _).mp hrest)
      | star _ _ => exact absurd rfl hc
    · intro hname
      cases hname with
      | literal _ hrest => exact .literal hc ((h _).mpr hrest)
      | star _ _ => exact absurd rfl hc

/-! ## Directories -/

section Spans

variable {reach : Nat → Prop} {seg : Segment} {parts rest : List Segment} {names : List Name}

theorem spans_cons_of_ne (hseg : seg ≠ recursive) :
    Spans reach (seg :: rest) names ↔
      ∃ name tail, names = name :: tail ∧ NameMatches seg name ∧ Spans reach rest tail := by
  constructor
  · intro h
    cases h with
    | name _ hname h => exact ⟨_, _, rfl, hname, h⟩
    | skip _ _ _ => exact absurd rfl hseg
  · intro hfirst
    rcases hfirst with ⟨name, tail, rfl, hname, h⟩
    exact .name hseg hname h

theorem spans_recursive_cons :
    Spans reach (recursive :: rest) names ↔
      ∃ skipped tail, names = skipped ++ tail ∧ reach skipped.length ∧ Spans reach rest tail := by
  constructor
  · intro h
    cases h with
    | name hseg _ _ => exact absurd rfl hseg
    | skip skipped hreach h => exact ⟨skipped, _, rfl, hreach, h⟩
  · intro hsplit
    rcases hsplit with ⟨skipped, tail, rfl, hreach, h⟩
    exact .skip skipped hreach h

/-- A larger reach matches more paths. -/
theorem Spans.mono {reach' : Nat → Prop} (hreach : ∀ number, reach number → reach' number)
    (h : Spans reach parts names) : Spans reach' parts names := by
  induction h with
  | nil => exact .nil
  | name hseg hname _ ih => exact .name hseg hname ih
  | skip skipped hskipped _ ih => exact .skip skipped (hreach _ hskipped) ih

/-- Segments written one after the other match names one after the other. -/
theorem Spans.append {parts' : List Segment} {names' : List Name} (h : Spans reach parts names)
    (h' : Spans reach parts' names') : Spans reach (parts ++ parts') (names ++ names') := by
  induction h with
  | nil => exact h'
  | name hseg hname _ ih => exact .name hseg hname ih
  | skip skipped hskipped _ ih =>
    rw [List.append_assoc]
    exact .skip skipped hskipped ih

/-- Whatever a first segment matches, the rest may be replaced by segments that match more. -/
theorem Spans.cons_mono {rest' : List Segment}
    (hrest : ∀ names, Spans reach rest names → Spans reach rest' names)
    (h : Spans reach (seg :: rest) names) : Spans reach (seg :: rest') names := by
  cases h with
  | name hseg hname h => exact .name hseg hname (hrest _ h)
  | skip skipped hskipped h => exact .skip skipped hskipped (hrest _ h)

end Spans

theorem segmentsMatch_of_getLast?_ne {reach : Nat → Prop} {parts : List Segment}
    (hlast : parts.getLast? ≠ some recursive) (names : List Name) :
    SegmentsMatch reach parts names ↔ Spans reach parts names := by
  unfold SegmentsMatch
  rw [if_neg hlast]

theorem segmentsMatch_append_recursive {reach : Nat → Prop} (before : List Segment)
    (names : List Name) :
    SegmentsMatch reach (before ++ [recursive]) names ↔
      ∃ above below, names = above ++ below ∧ below ≠ [] ∧ Spans reach before above := by
  unfold SegmentsMatch
  rw [if_pos List.getLast?_concat, List.dropLast_concat]

end Pattern
end AttributeScope
