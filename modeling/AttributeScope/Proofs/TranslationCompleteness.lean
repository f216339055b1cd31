import AttributeScope.Proofs.ReadingMeaning

/-!
# Completeness of translation

A translation gives up the paths on which a `**` before the end stands for two directories or
more.  This module shows that it gives up nothing else, for patterns in which no `*` segment
stands next to a `**` segment: there one reading takes every `**` for exactly as many names as the
path needs.

Main results:

- Theorem `exists_isReading_condense`: the reading that a path asks for.
- Theorem `exists_targetMatches_of_sourceMatches`: every path on which no `**` stands for more
  than one name is matched by some translation.
-/

namespace AttributeScope
namespace Pattern

/-! ## Canonical forms without absorbed pairs -/

theorem count_map_degrade {parts : List Segment} (hstars : ∀ seg ∈ parts, ¬ threeStars <:+: seg) :
    (parts.map degrade).count recursive = parts.count recursive := by
  induction parts with
  | nil => rfl
  | cons seg rest ih =>
    have hrest := ih fun other h => hstars other (List.mem_cons_of_mem seg h)
    have hseg := degrade_eq_recursive_iff (hstars seg List.mem_cons_self)
    by_cases hrecursive : seg = recursive
    · rw [List.map_cons, hseg.mpr hrecursive, hrecursive, List.count_cons_self,
        List.count_cons_self, hrest]
    · rw [List.map_cons, List.count_cons_of_ne (mt hseg.mp hrecursive),
        List.count_cons_of_ne hrecursive, hrest]

/-- The last segment is not counted if it is no `**`. -/
theorem count_dropLast_of_getLast?_ne {parts : List Segment}
    (hlast : parts.getLast? ≠ some recursive) :
    parts.dropLast.count recursive = parts.count recursive := by
  by_cases hnil : parts = []
  · rw [hnil]
    rfl
  · have hne : parts.getLast hnil ≠ recursive := fun heq =>
      hlast (by rw [List.getLast?_eq_some_getLast hnil, heq])
    conv_rhs => rw [← List.dropLast_concat_getLast hnil]
    rw [List.count_append, List.count_singleton]
    simp [hne]

/-- Segments of a pattern in which no `*` stands next to a `**`. -/
structure IsSeparated (parts : List Segment) : Prop where
  proper : ∀ seg ∈ parts, IsProper seg
  not_one_recursive : ¬ [one, recursive] <:+: parts
  not_recursive_one : ¬ [recursive, one] <:+: parts

namespace IsSeparated

variable {parts : List Segment}

theorem front {fold : List Segment} (h : IsSeparated (parts ++ fold)) : IsSeparated parts where
  proper seg hseg := h.proper seg (List.mem_append_left fold hseg)
  not_one_recursive hinfix := h.not_one_recursive (List.infix_append_of_infix_left hinfix)
  not_recursive_one hinfix := h.not_recursive_one (List.infix_append_of_infix_left hinfix)

/-- Nothing is absorbed. -/
theorem condense_eq (h : IsSeparated parts) : condense parts = parts.map degrade :=
  condense_of_not_adjacent h.not_one_recursive h.not_recursive_one

theorem count_condense (h : IsSeparated parts) :
    (condense parts).count recursive = parts.count recursive := by
  rw [h.condense_eq, count_map_degrade fun seg hseg => (h.proper seg hseg).not_threeStars]

/-- A recursive end is a `**` alone. -/
theorem eq_recursive_of_isRecursiveEnd {fold : List Segment} (h : IsSeparated (parts ++ fold))
    (hfold : IsRecursiveEnd fold) : fold = [recursive] := by
  rcases hfold with rfl | rfl | rfl
  · exact absurd (List.suffix_append parts _).isInfix h.not_one_recursive
  · exact absurd (List.suffix_append parts _).isInfix h.not_recursive_one
  · rfl

/-! ## Readings that a path asks for -/

/-- Names that segments match, with at most one for each `**`, are matched by a reading of the
condensed segments.  The reading is not empty if some segment is no `**`. -/
theorem exists_isReading_condense (h : IsSeparated parts) (hsome : ∃ seg ∈ parts, seg ≠ recursive)
    {names : List Name} (hspans : Spans atMostOne parts names) :
    ∃ read, IsReading (condense parts) read ∧ read ≠ [] ∧ List.Forall₂ NameMatches read names := by
  have hstars : ∀ seg ∈ parts, ¬ threeStars <:+: seg := fun seg hseg =>
    (h.proper seg hseg).not_threeStars
  have hcondensed : Spans atMostOne (condense parts) names := by
    rw [h.condense_eq]
    exact (spans_map_degrade hstars).mpr hspans
  rcases spans_atMostOne_iff.mp hcondensed with ⟨read, hread, hnames⟩
  refine ⟨read, hread, ?_, hnames⟩
  rcases hsome with ⟨seg, hseg, hne⟩
  have hmem : degrade seg ∈ condense parts := by
    rw [h.condense_eq]
    exact List.mem_map_of_mem hseg
  have hdegrade : degrade seg ≠ recursive := mt (degrade_eq_recursive_iff (hstars seg hseg)).mp hne
  exact List.ne_nil_of_mem (hread.mem_of_ne hmem hdegrade)

/-- Some reading of the condensed segments matches, written out, the names that the segments
match. -/
theorem exists_targetMatches (h : IsSeparated parts) (hsome : ∃ seg ∈ parts, seg ≠ recursive)
    {names : List Name} (hspans : Spans atMostOne parts names) :
    ∃ read, IsReading (condense parts) read ∧ TargetMatches (ofSegments read) names := by
  rcases h.exists_isReading_condense hsome hspans with ⟨read, hread, hne, hnames⟩
  refine ⟨read, hread, ?_⟩
  rwa [targetMatches_ofSegments hne (hread.proper_of_condense h.proper)]

/-- With the marker behind it, some reading matches whatever lies below. -/
theorem exists_targetMatches_marker (h : IsSeparated parts)
    (hsome : ∃ seg ∈ parts, seg ≠ recursive) {above below : List Name} (hbelow : below ≠ [])
    (hspans : Spans atMostOne parts above) :
    ∃ read, IsReading (condense parts ++ [[], one]) read ∧
      TargetMatches (ofSegments read) (above ++ below) := by
  rcases h.exists_isReading_condense hsome hspans with ⟨read, hread, hne, hnames⟩
  refine ⟨read ++ [[], one], isReading_append_marker.mpr ⟨read, rfl, hread⟩, ?_⟩
  rw [targetMatches_ofSegments_marker hne (hread.proper_of_condense h.proper)]
  exact ⟨above, below, rfl, hbelow, hnames⟩

end IsSeparated

/-! ## Matching translations -/

/-- Translation gives up only paths on which a `**` before the end stands for more than one name:
every other path of the pattern is matched by some translation. -/
theorem exists_targetMatches_of_sourceMatches {pattern : String}
    (hempty : ∀ seg ∈ sourceSegments pattern.toList, seg ≠ [])
    (hstars : ¬ threeStars <:+: pattern.toList)
    (hbefore : ¬ [one, recursive] <:+: sourceSegments pattern.toList)
    (hbehind : ¬ [recursive, one] <:+: sourceSegments pattern.toList)
    (hproper : sourceSegments pattern.toList = [recursive] ∨
      ∃ seg ∈ sourceSegments pattern.toList, seg ≠ recursive)
    (cap : Nat) (hcap : (sourceSegments pattern.toList).dropLast.count recursive ≤ cap)
    (hmost : (sourceSegments pattern.toList).dropLast.count recursive ≤ 20)
    (path : NamePath) (h : SourceMatches atMostOne pattern.toList path.names) :
    ∃ text ∈ translate (.clamp cap) pattern, TargetMatches text.toList path.names := by
  have hseparated : IsSeparated (sourceSegments pattern.toList) :=
    ⟨fun _ hseg => isProper_of_mem_sourceSegments hempty hstars hseg, hbefore, hbehind⟩
  have hlimit : (sourceSegments pattern.toList).dropLast.count recursive ≤
      (ExpansionLimit.clamp cap).count := Nat.le_min.mpr ⟨hcap, hmost⟩
  -- It is enough to find a reading of the canonical form whose text matches.
  suffices hreading : (canonicalSegments pattern.toList).count recursive =
        (sourceSegments pattern.toList).dropLast.count recursive ∧
      ∃ read, IsReading (canonicalSegments pattern.toList) read ∧
        TargetMatches (ofSegments read) path.names by
    rcases hreading with ⟨hcount, read, hread, hmatch⟩
    refine ⟨String.ofList (ofSegments read), ?_, by rwa [String.toList_ofList]⟩
    exact (mem_translate_iff_isReading _ hstars).mpr ⟨by rwa [hcount], read, hread, rfl⟩
  unfold SourceMatches at h
  rcases canonicalSegments_cases pattern.toList with
    ⟨hplain, hlast, _⟩ | ⟨before, fold, hfold, hsource, hmarked⟩
  · rw [segmentsMatch_of_getLast?_ne hlast] at h
    have hsome : ∃ seg ∈ sourceSegments pattern.toList, seg ≠ recursive := by
      refine hproper.resolve_left fun hone => hlast ?_
      rw [hone]
      rfl
    rw [hplain, hseparated.count_condense, count_dropLast_of_getLast?_ne hlast]
    exact ⟨rfl, hseparated.exists_targetMatches hsome h⟩
  · rw [hsource] at hseparated hproper h ⊢
    obtain rfl := hseparated.eq_recursive_of_isRecursiveEnd hfold
    obtain ⟨above, below, hnames, hbelow, habove⟩ :=
      (segmentsMatch_append_recursive before path.names).mp h
    rw [hmarked, List.dropLast_concat]
    by_cases hnil : before = []
    · -- The pattern is `**` alone, and its translation the marker alone.
      subst hnil
      exact ⟨rfl, [[], [], one], (isReading_of_notMem (by decide)).mpr rfl, Or.inl rfl⟩
    · have hsome : ∃ seg ∈ before, seg ≠ recursive := by
        rcases hproper with hone | ⟨seg, hseg, hne⟩
        · exact absurd (by simpa using hone) hnil
        · exact ⟨seg, (List.mem_append.mp hseg).resolve_right (by simpa using hne), hne⟩
      rw [if_neg hnil, List.count_append, hseparated.front.count_condense, hnames]
      exact ⟨rfl, hseparated.front.exists_targetMatches_marker hsome hbelow habove⟩

/-- A path with one directory in front of the name that a glued `**` matches. -/
def gluedPath : NamePath where
  names := [['x'], ['a', 'c', 'b'], ['d'], ['e']]
  names_ne_nil := by decide
  name_ne_nil := by decide
  slash_notMem := by decide

/-- A pattern with a glued `**`, one `**` that stands for a name and one that stands for none has
a translation that matches the path. -/
theorem exists_targetMatches_gluedPath :
    (∀ seg ∈ sourceSegments "/**/a**b/**/**".toList, seg ≠ []) ∧
    ¬ threeStars <:+: "/**/a**b/**/**".toList ∧
    ¬ [one, recursive] <:+: sourceSegments "/**/a**b/**/**".toList ∧
    ¬ [recursive, one] <:+: sourceSegments "/**/a**b/**/**".toList ∧
    (∃ seg ∈ sourceSegments "/**/a**b/**/**".toList, seg ≠ recursive) ∧
    (sourceSegments "/**/a**b/**/**".toList).dropLast.count recursive = 2 ∧
    SourceMatches atMostOne "/**/a**b/**/**".toList gluedPath.names ∧
    ∃ text ∈ translate (.clamp 2) "/**/a**b/**/**",
      TargetMatches text.toList gluedPath.names := by
  have hempty : ∀ seg ∈ sourceSegments "/**/a**b/**/**".toList, seg ≠ [] := by decide
  have hstars : ¬ threeStars <:+: "/**/a**b/**/**".toList := by decide +kernel
  have hbefore : ¬ [one, recursive] <:+: sourceSegments "/**/a**b/**/**".toList := by
    decide +kernel
  have hbehind : ¬ [recursive, one] <:+: sourceSegments "/**/a**b/**/**".toList := by
    decide +kernel
  have hsome : ∃ seg ∈ sourceSegments "/**/a**b/**/**".toList, seg ≠ recursive := by decide
  have hcount : (sourceSegments "/**/a**b/**/**".toList).dropLast.count recursive = 2 := by decide
  have hname : NameMatches ['a', '*', '*', 'b'] ['a', 'c', 'b'] :=
    .literal (by decide) (.star ['c'] (.star [] (.literal (by decide) .nil)))
  have hspans : Spans atMostOne [recursive, ['a', '*', '*', 'b'], recursive]
      [['x'], ['a', 'c', 'b']] :=
    .skip [['x']] (Nat.le_refl 1) (.name (by decide) hname (.skip [] (Nat.zero_le 1) .nil))
  have hsource : SourceMatches atMostOne "/**/a**b/**/**".toList gluedPath.names :=
    (segmentsMatch_append_recursive [recursive, ['a', '*', '*', 'b'], recursive] _).mpr
      ⟨[['x'], ['a', 'c', 'b']], [['d'], ['e']], rfl, by decide, hspans⟩
  exact ⟨hempty, hstars, hbefore, hbehind, hsome, hcount, hsource,
    exists_targetMatches_of_sourceMatches hempty hstars hbefore hbehind (Or.inr hsome) 2
      (Nat.le_of_eq hcount) (by rw [hcount]; decide) gluedPath hsource⟩

end Pattern
end AttributeScope
