import AttributeScope.Proofs.PatternMeaning
import AttributeScope.Proofs.StarHalving

/-!
# The canonical form of a pattern

A pattern becomes canonical in three steps: a recursive end is replaced by the marker for all
descendants, pairs of a `**` and a `*` are absorbed, and glued stars are halved.  This module
describes the result in one lemma, so that no later proof looks into the steps.

Main results:

- Theorem `canonicalSegments_cases`: a canonical form is the condensed pattern, the marker alone,
  or the condensed front of the pattern before the marker.
- Theorem `isTidy_canonicalSegments`: in a canonical form stars are next to each other only in
  whole segments.
- Theorem `getLast?_canonicalSegments_ne`: a canonical form does not end with `**`.
- Theorem `segments_canonicalize`: cutting the canonical text at slashes gives the segments that it
  is written from.
-/

namespace AttributeScope
namespace Pattern

/-! ## Segments of a text -/

theorem infix_intercalate_of_mem {sep part : List Char} {parts : List (List Char)}
    (h : part ∈ parts) : part <:+: List.intercalate sep parts := by
  induction parts with
  | nil => simp at h
  | cons first rest ih =>
    cases rest with
    | nil =>
      obtain rfl : part = first := by simpa using h
      simp [List.intercalate_singleton]
    | cons next others =>
      rw [List.intercalate_cons_cons, List.append_assoc]
      rcases List.mem_cons.mp h with rfl | hrest
      · exact List.infix_append_left
      · exact List.infix_append_of_infix_right
          (List.infix_append_of_infix_right (ih hrest))

/-- A segment stands somewhere in its text. -/
theorem infix_of_mem_segments {seg : Segment} {text : List Char} (h : seg ∈ segments text) :
    seg <:+: text := by
  have hinfix : seg <:+: List.intercalate ['/'] (text.splitOn '/') := infix_intercalate_of_mem h
  rwa [List.intercalate_splitOn] at hinfix

/-- Segments without slashes are found again in their text. -/
theorem segments_ofSegments {parts : List Segment} (hparts : parts ≠ [])
    (hslash : ∀ seg ∈ parts, '/' ∉ seg) : segments (ofSegments parts) = parts :=
  List.splitOn_intercalate '/' hslash hparts

/-- A slash ends a segment. -/
theorem segments_append_slash (front back : List Char) :
    segments (front ++ '/' :: back) = segments front ++ segments back :=
  List.splitOn_append_cons_self front back

theorem segments_slash_cons (text : List Char) : segments ('/' :: text) = [] :: segments text :=
  segments_append_slash [] text

/-- Leading slashes cut off no segments but empty ones. -/
theorem mem_sourceSegments_iff {seg : Segment} (hseg : seg ≠ []) {pattern : List Char} :
    seg ∈ sourceSegments pattern ↔ seg ∈ segments pattern := by
  unfold sourceSegments
  induction pattern with
  | nil => rfl
  | cons c rest ih =>
    by_cases hc : c = '/'
    · subst hc
      rw [List.dropWhile_cons_of_pos (by rfl), ih, segments_slash_cons, List.mem_cons,
        or_iff_right hseg]
    · rw [List.dropWhile_cons_of_neg (by simpa using hc)]

/-- No segment of a pattern holds a slash or three stars in a row that the pattern does not. -/
theorem mem_sourceSegments {pattern : List Char} (hstars : ¬ threeStars <:+: pattern)
    {seg : Segment} (h : seg ∈ sourceSegments pattern) : '/' ∉ seg ∧ ¬ threeStars <:+: seg := by
  refine ⟨Text.not_mem_of_mem_splitOn h, fun hinfix => hstars ?_⟩
  exact hinfix.trans ((infix_of_mem_segments h).trans (List.dropWhile_suffix _).isInfix)

/-- A segment of a pattern that has no slashes or stars too many. -/
structure IsProper (seg : Segment) : Prop where
  ne_nil : seg ≠ []
  slash_notMem : '/' ∉ seg
  not_threeStars : ¬ threeStars <:+: seg

theorem isProper_of_mem_sourceSegments {pattern : List Char}
    (hempty : ∀ seg ∈ sourceSegments pattern, seg ≠ []) (hstars : ¬ threeStars <:+: pattern)
    {seg : Segment} (h : seg ∈ sourceSegments pattern) : IsProper seg :=
  ⟨hempty seg h, (mem_sourceSegments hstars h).1, (mem_sourceSegments hstars h).2⟩

theorem sourceSegments_ne_nil (pattern : List Char) : sourceSegments pattern ≠ [] :=
  List.splitOn_ne_nil '/' _

/-! ## Absorbing pairs -/

section Absorb

variable {first second : Segment}

/-- What holds of `*` and of all segments holds of what is left after absorbing. -/
theorem forall_mem_absorb {p : Segment → Prop} (hone : p one) {parts : List Segment}
    (h : ∀ seg ∈ parts, p seg) : ∀ seg ∈ absorb first second parts, p seg := by
  fun_induction absorb first second parts with
  | case1 a b rest _ ih =>
    intro seg hseg
    rcases List.mem_cons.mp hseg with rfl | hrest
    · exact hone
    · apply ih _ seg hrest
      intro other hother
      exact h other (List.mem_cons_of_mem a (List.mem_cons_of_mem b hother))
  | case2 a b rest _ ih =>
    intro seg hseg
    rcases List.mem_cons.mp hseg with rfl | hrest
    · exact h seg List.mem_cons_self
    · apply ih _ seg hrest
      intro other hother
      exact h other (List.mem_cons_of_mem a hother)
  | case3 => exact h

theorem absorb_eq_nil_iff {parts : List Segment} : absorb first second parts = [] ↔ parts = [] := by
  fun_cases absorb first second parts <;> simp

/-- Without such a pair nothing is absorbed. -/
theorem absorb_eq_self {parts : List Segment} (h : ¬ [first, second] <:+: parts) :
    absorb first second parts = parts := by
  fun_induction absorb first second parts with
  | case1 a b rest hpair _ =>
    rcases hpair with ⟨rfl, rfl⟩
    exact absurd ⟨[], rest, rfl⟩ h
  | case2 a b rest _ ih => rw [ih fun hrest => h (List.infix_cons hrest)]
  | case3 => rfl

/-- Absorbing leaves no `**` at the end that was not there. -/
theorem getLast?_of_getLast?_absorb {parts : List Segment}
    (h : (absorb first second parts).getLast? = some recursive) :
    parts.getLast? = some recursive := by
  fun_induction absorb first second parts with
  | case1 a b rest _ ih =>
    rw [List.getLast?_cons] at h
    cases hrest : (absorb first second rest).getLast? with
    | none =>
      rw [hrest] at h
      exact absurd h (by decide)
    | some last =>
      rw [hrest] at h
      have hlast := ih (by rw [hrest]; exact h)
      simp [List.getLast?_cons, hlast]
  | case2 a b rest _ ih =>
    rw [List.getLast?_cons] at h
    cases hrest : (absorb first second (b :: rest)).getLast? with
    | none =>
      rw [List.getLast?_eq_none_iff, absorb_eq_nil_iff] at hrest
      exact absurd hrest (by simp)
    | some last =>
      rw [hrest] at h
      rw [List.getLast?_cons_cons]
      exact ih (by rw [hrest]; exact h)
  | case3 => exact h

/-- Absorbing keeps the segments with a property that a pair has once, as `*` has it. -/
theorem filter_absorb {first second : Segment} {p : Segment → Bool} (hone : p one = true)
    (hpair : [first, second].filter p = [one]) (parts : List Segment) :
    (absorb first second parts).filter p = parts.filter p := by
  fun_induction absorb first second parts with
  | case1 a b rest hab ih =>
    rcases hab with ⟨rfl, rfl⟩
    rw [List.filter_cons_of_pos hone, ih]
    change one :: rest.filter p = ([a, b] ++ rest).filter p
    rw [List.filter_append, hpair]
    rfl
  | case2 a b rest _ ih => rw [List.filter_cons, ih, ← List.filter_cons]
  | case3 => rfl

/-- The marker for all descendants takes no part in a pair. -/
theorem absorb_append_marker (hfirst : first ≠ []) (hsecond : second ≠ []) (parts : List Segment) :
    absorb first second (parts ++ [[], one]) = absorb first second parts ++ [[], one] := by
  fun_induction absorb first second parts with
  | case1 a b rest hpair ih =>
    simp only [List.cons_append]
    rw [absorb, if_pos hpair, ih]
  | case2 a b rest hpair ih =>
    simp only [List.cons_append] at ih ⊢
    rw [absorb, if_neg hpair, ih]
  | case3 parts hshort =>
    have hmarker : absorb first second [[], one] = [[], one] := by
      rw [absorb, if_neg fun hpair => hfirst hpair.1.symm]
      rfl
    cases parts with
    | nil => exact hmarker
    | cons a rest =>
      cases rest with
      | nil =>
        change absorb first second (a :: [] :: [one]) = [a] ++ [[], one]
        rw [absorb, if_neg fun hpair => hsecond hpair.2.symm, hmarker]
        rfl
      | cons b others => exact absurd rfl (hshort a b others)

end Absorb

/-! ## Condensing -/

/-- Absorb the pairs of a `**` and a `*`, and halve glued stars. -/
def condense (parts : List Segment) : List Segment :=
  (absorb one recursive (absorb recursive one parts)).map degrade

/-- The segments that are left after absorbing both kinds of pairs. -/
theorem forall_mem_absorb_absorb {p : Segment → Prop} (hone : p one) {parts : List Segment}
    (h : ∀ seg ∈ parts, p seg) :
    ∀ seg ∈ absorb one recursive (absorb recursive one parts), p seg :=
  forall_mem_absorb hone (forall_mem_absorb hone h)

theorem forall_mem_condense {p : Segment → Prop} (hone : p (degrade one)) {parts : List Segment}
    (h : ∀ seg ∈ parts, p (degrade seg)) : ∀ seg ∈ condense parts, p seg := by
  intro seg hseg
  rcases List.mem_map.mp hseg with ⟨raw, hraw, rfl⟩
  exact forall_mem_absorb_absorb (p := fun seg => p (degrade seg)) hone h raw hraw

theorem condense_eq_nil_iff {parts : List Segment} : condense parts = [] ↔ parts = [] := by
  unfold condense
  rw [List.map_eq_nil_iff, absorb_eq_nil_iff, absorb_eq_nil_iff]

/-- Where no `*` stands next to a `**`, only glued stars are halved. -/
theorem condense_of_not_adjacent {parts : List Segment} (hbefore : ¬ [one, recursive] <:+: parts)
    (hbehind : ¬ [recursive, one] <:+: parts) : condense parts = parts.map degrade := by
  unfold condense
  rw [absorb_eq_self hbehind, absorb_eq_self hbefore]

theorem condense_append_marker (parts : List Segment) :
    condense (parts ++ [[], one]) = condense parts ++ [[], one] := by
  unfold condense
  rw [absorb_append_marker (by decide) (by decide), absorb_append_marker (by decide) (by decide),
    List.map_append]
  rfl

/-- Condensing loses no segment but those that become `**`. -/
theorem filter_condense (parts : List Segment) :
    (condense parts).filter (· ≠ recursive) =
      (parts.filter (degrade · ≠ recursive)).map degrade := by
  unfold condense
  rw [List.filter_map]
  have hcomp : (fun seg => decide (seg ≠ recursive)) ∘ degrade =
      fun seg => decide (degrade seg ≠ recursive) := rfl
  rw [hcomp, filter_absorb (by decide) (by decide), filter_absorb (by decide) (by decide)]

/-- A segment of one character is neither lost nor made by condensing. -/
theorem singleton_mem_condense_iff {c : Char} {parts : List Segment} :
    [c] ∈ condense parts ↔ [c] ∈ parts := by
  have hname : ∀ {segs : List Segment} {f : Segment → Segment}, f [c] = [c] →
      ([c] ∈ segs.filter (f · ≠ recursive) ↔ [c] ∈ segs) := by
    intro segs f hf
    rw [List.mem_filter, and_iff_left]
    simp [hf, recursive]
  have hkept : degrade [c] = [c] := degrade_eq_singleton_iff.mpr rfl
  calc
    [c] ∈ condense parts ↔ [c] ∈ (condense parts).filter (· ≠ recursive) :=
      (hname (f := id) rfl).symm
    _ ↔ [c] ∈ parts.filter (degrade · ≠ recursive) := by
      rw [filter_condense, List.mem_map]
      simp only [degrade_eq_singleton_iff, exists_eq_right]
    _ ↔ [c] ∈ parts := hname hkept

theorem getLast?_condense_ne {parts : List Segment}
    (hends : ∀ seg ∈ parts, ¬ threeStars <:+ seg) (hlast : parts.getLast? ≠ some recursive) :
    (condense parts).getLast? ≠ some recursive := by
  intro h
  unfold condense at h
  rw [List.getLast?_map, Option.map_eq_some_iff] at h
  rcases h with ⟨raw, hraw, hdegrade⟩
  have hrawEnds : ¬ threeStars <:+ raw :=
    forall_mem_absorb_absorb (by decide) hends raw (List.mem_of_getLast? hraw)
  rw [degrade_eq_recursive_iff_of_not_suffix hrawEnds] at hdegrade
  subst hdegrade
  exact hlast (getLast?_of_getLast?_absorb (getLast?_of_getLast?_absorb hraw))

/-! ## Recursive ends -/

/-- The ends of a pattern that the marker for all descendants replaces. -/
def IsRecursiveEnd (fold : List Segment) : Prop :=
  fold = [one, recursive] ∨ fold = [recursive, one] ∨ fold = [recursive]

/-- Either a recursive end is replaced, or there is none. -/
theorem markDescendants_cases (parts : List Segment) :
    (markDescendants parts = parts ∧ parts.getLast? ≠ some recursive ∧
      ¬ [recursive, one] <:+ parts) ∨
    ∃ before fold, IsRecursiveEnd fold ∧ parts = before ++ fold ∧
      markDescendants parts = descendants before := by
  unfold markDescendants
  obtain ⟨rev, rfl⟩ : ∃ rev : List Segment, parts = rev.reverse := ⟨parts.reverse, by simp⟩
  rw [List.reverse_reverse]
  fun_cases markDescendantsRev rev with
  | case1 before =>
    exact Or.inr ⟨before.reverse, [one, recursive], Or.inl rfl, by simp [one, recursive], rfl⟩
  | case2 before =>
    exact Or.inr ⟨before.reverse, [recursive, one], Or.inr (Or.inl rfl),
      by simp [one, recursive], rfl⟩
  | case3 before =>
    exact Or.inr ⟨before.reverse, [recursive], Or.inr (Or.inr rfl), by simp [recursive], rfl⟩
  | case4 rev hbefore hbehind hlast =>
    left
    refine ⟨rfl, ?_, ?_⟩
    · rw [List.getLast?_reverse]
      intro hhead
      rcases List.head?_eq_some_iff.mp hhead with ⟨rest, rfl⟩
      exact hlast rest rfl
    · rw [← List.reverse_prefix, List.reverse_reverse]
      intro h
      rcases h with ⟨rest, rfl⟩
      exact hbehind rest rfl

theorem canonicalSegments_eq (pattern : List Char) :
    canonicalSegments pattern = condense (markDescendants (sourceSegments pattern)) :=
  rfl

theorem condense_descendants (before : List Segment) :
    condense (descendants before) =
      (if before = [] then [[]] else condense before) ++ [[], one] := by
  cases before with
  | nil => decide
  | cons first rest =>
    rw [if_neg (by simp), ← condense_append_marker]
    rfl

/-- A canonical form is the condensed pattern, the marker alone, or the condensed front of the
pattern before the marker. -/
theorem canonicalSegments_cases (pattern : List Char) :
    (canonicalSegments pattern = condense (sourceSegments pattern) ∧
      (sourceSegments pattern).getLast? ≠ some recursive ∧
      ¬ [recursive, one] <:+ sourceSegments pattern) ∨
    ∃ before fold, IsRecursiveEnd fold ∧ sourceSegments pattern = before ++ fold ∧
      canonicalSegments pattern = (if before = [] then [[]] else condense before) ++ [[], one] := by
  rw [canonicalSegments_eq]
  rcases markDescendants_cases (sourceSegments pattern) with
    ⟨hkept, hlast, hbehind⟩ | ⟨before, fold, hfold, hparts, hmarked⟩
  · exact Or.inl ⟨by rw [hkept], hlast, hbehind⟩
  · exact Or.inr ⟨before, fold, hfold, hparts, by rw [hmarked, condense_descendants]⟩

/-- What holds of the halved segments of a pattern, and of those that the marker consists of, holds
of the segments of its canonical form. -/
theorem forall_mem_canonicalSegments {p : Segment → Prop} (hnil : p []) (hone : p one)
    {pattern : List Char} (h : ∀ seg ∈ sourceSegments pattern, p (degrade seg)) :
    ∀ seg ∈ canonicalSegments pattern, p seg := by
  rcases canonicalSegments_cases pattern with ⟨hplain, _⟩ | ⟨before, fold, _, hparts, hmarked⟩
  · rw [hplain]
    exact forall_mem_condense hone h
  · rw [hparts] at h
    have hfront : ∀ seg ∈ condense before, p seg :=
      forall_mem_condense hone fun seg hseg => h seg (List.mem_append_left fold hseg)
    intro seg hseg
    rw [hmarked, List.mem_append] at hseg
    rcases hseg with hbody | hmarker
    · by_cases hbefore : before = []
      · rw [if_pos hbefore, List.mem_singleton] at hbody
        rw [hbody]
        exact hnil
      · rw [if_neg hbefore] at hbody
        exact hfront seg hbody
    · simp only [List.mem_cons, List.not_mem_nil, or_false] at hmarker
      rcases hmarker with rfl | rfl
      · exact hnil
      · exact hone

theorem slash_notMem_canonicalSegments (pattern : List Char) :
    ∀ seg ∈ canonicalSegments pattern, '/' ∉ seg := by
  apply forall_mem_canonicalSegments
  · decide
  · decide
  · intro seg hseg hslash
    exact Text.not_mem_of_mem_splitOn hseg (mem_of_mem_degrade hslash)

/-- A segment of one character other than `*` is in a canonical form exactly if it is in the
pattern. -/
theorem singleton_mem_canonicalSegments_iff {c : Char} (hc : c ≠ '*') {pattern : List Char} :
    [c] ∈ canonicalSegments pattern ↔ [c] ∈ segments pattern := by
  have hone : [c] ≠ one := fun h => hc (List.cons.inj h).1
  have hmarker : [c] ∉ [[], one] := by simp [hone]
  rw [← mem_sourceSegments_iff (List.cons_ne_nil c [])]
  rcases canonicalSegments_cases pattern with ⟨hplain, _⟩ | ⟨before, fold, hfold, hparts, hmarked⟩
  · rw [hplain, singleton_mem_condense_iff]
  · have hend : [c] ∉ fold := by
      rcases hfold with rfl | rfl | rfl <;> simp [hone, recursive]
    rw [hmarked, hparts, List.mem_append, or_iff_left hmarker, List.mem_append, or_iff_left hend]
    by_cases hbefore : before = []
    · simp [hbefore]
    · rw [if_neg hbefore, singleton_mem_condense_iff]

/-! ## Tidy segments -/

/-- A segment in which stars are next to each other only if it is `**`. -/
def IsTidy (seg : Segment) : Prop :=
  '/' ∉ seg ∧ (seg = recursive ∨ ¬ recursive <:+: seg)

theorem isTidy_degrade {seg : Segment} (hslash : '/' ∉ seg) (hshort : ¬ IsOverstarred seg) :
    IsTidy (degrade seg) := by
  refine ⟨fun hmem => hslash (mem_of_mem_degrade hmem), ?_⟩
  rcases degrade_cases hshort with rfl | hinfix
  · exact Or.inl degrade_recursive
  · exact Or.inr hinfix

/-- Every segment of a canonical form is tidy if the pattern has no run of stars that is too long
to be halved to one. -/
theorem isTidy_canonicalSegments_of_not_isOverstarred {pattern : List Char}
    (hshort : ∀ seg ∈ sourceSegments pattern, ¬ IsOverstarred seg) :
    ∀ seg ∈ canonicalSegments pattern, IsTidy seg := by
  apply forall_mem_canonicalSegments
  · exact ⟨by decide, Or.inr (by decide)⟩
  · exact ⟨by decide, Or.inr (by decide)⟩
  · intro seg hseg
    exact isTidy_degrade (Text.not_mem_of_mem_splitOn hseg) (hshort seg hseg)

/-- Every segment of a canonical form is tidy. -/
theorem isTidy_canonicalSegments {pattern : List Char} (hstars : ¬ threeStars <:+: pattern) :
    ∀ seg ∈ canonicalSegments pattern, IsTidy seg :=
  isTidy_canonicalSegments_of_not_isOverstarred fun _ hseg =>
    not_isOverstarred_of_not_threeStars (mem_sourceSegments hstars hseg).2

/-- A canonical form does not end with `**` if no segment of the pattern ends with three stars. -/
theorem getLast?_canonicalSegments_ne_of_not_suffix {pattern : List Char}
    (hends : ∀ seg ∈ sourceSegments pattern, ¬ threeStars <:+ seg) :
    (canonicalSegments pattern).getLast? ≠ some recursive := by
  rcases canonicalSegments_cases pattern with ⟨hplain, hlast, _⟩ | ⟨before, fold, _, _, hmarked⟩
  · rw [hplain]
    exact getLast?_condense_ne hends hlast
  · rw [hmarked, List.getLast?_append]
    simp [one, recursive]

/-- A canonical form does not end with `**`. -/
theorem getLast?_canonicalSegments_ne {pattern : List Char} (hstars : ¬ threeStars <:+: pattern) :
    (canonicalSegments pattern).getLast? ≠ some recursive :=
  getLast?_canonicalSegments_ne_of_not_suffix fun _ hseg hsuffix =>
    (mem_sourceSegments hstars hseg).2 hsuffix.isInfix

theorem canonicalSegments_ne_nil (pattern : List Char) : canonicalSegments pattern ≠ [] := by
  rcases canonicalSegments_cases pattern with ⟨hplain, _⟩ | ⟨before, fold, _, _, hmarked⟩
  · rw [hplain]
    exact fun hnil => sourceSegments_ne_nil pattern (condense_eq_nil_iff.mp hnil)
  · rw [hmarked]
    simp

/-- The segments of the text of a canonical form are those it is written from. -/
theorem segments_canonicalize (pattern : List Char) :
    segments (canonicalize pattern) = canonicalSegments pattern :=
  segments_ofSegments (canonicalSegments_ne_nil pattern) (slash_notMem_canonicalSegments pattern)

end Pattern
end AttributeScope
