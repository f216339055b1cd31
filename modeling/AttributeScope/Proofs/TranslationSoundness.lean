import AttributeScope.Proofs.ReadingMeaning

/-!
# Soundness of translation

A scope pattern that an attribute pattern is translated to matches no path that the attribute
pattern does not match.  The one exception is a pattern that ends with `*` and `**`: that end is
replaced by the marker for all descendants, which does not ask for a directory in between.

Main results:

- Theorem `segmentsMatch_append_of_isRecursiveEnd`: a recursive end matches whatever lies below.
- Theorem `sourceMatches_of_targetMatches`: translation does not over-approximate.
-/

namespace AttributeScope
namespace Pattern

/-- What the marker for all descendants matches is matched by the end that it replaces, unless
that end asks for a directory first. -/
theorem segmentsMatch_append_of_isRecursiveEnd {before fold : List Segment}
    (hfold : IsRecursiveEnd fold) (hend : fold ≠ [one, recursive]) {above below : List Name}
    (hbelow : below ≠ []) (h : Spans anyNumber before above) :
    SegmentsMatch anyNumber (before ++ fold) (above ++ below) := by
  rcases hfold with rfl | rfl | rfl
  · exact absurd rfl hend
  · have hlast : (before ++ [recursive, one]).getLast? ≠ some recursive := by
      simp [List.getLast?_append, one, recursive]
    rw [segmentsMatch_of_getLast?_ne hlast]
    -- The `**` takes all names below but the last one, which is left for the `*`.
    have hsplit : below.dropLast ++ [below.getLast hbelow] = below :=
      List.dropLast_concat_getLast hbelow
    have hone : Spans anyNumber [one] [below.getLast hbelow] :=
      .name (by decide) (nameMatches_one _) .nil
    have hboth : Spans anyNumber [recursive, one] below := by
      rw [← hsplit]
      exact .skip below.dropLast trivial hone
    exact h.append hboth
  · rw [segmentsMatch_append_recursive]
    exact ⟨above, below, rfl, hbelow, h⟩

/-- The names that a reading of condensed segments matches are matched by the segments. -/
theorem Spans.of_isReading {parts read : List Segment} {names : List Name}
    (hparts : ∀ seg ∈ parts, IsProper seg) (hread : IsReading (condense parts) read)
    (h : List.Forall₂ NameMatches read names) : Spans anyNumber parts names := by
  have hcondensed : Spans atMostOne (condense parts) names :=
    spans_atMostOne_iff.mpr ⟨read, hread, h⟩
  have hspans : Spans atMostOne parts names := hcondensed.of_condense (Nat.zero_le 1) hparts
  exact hspans.mono fun _ _ => trivial

/-- Translation does not over-approximate: a path that some translation of a pattern matches is
matched by the pattern itself. -/
theorem sourceMatches_of_targetMatches {pattern : String}
    (hempty : ∀ seg ∈ sourceSegments pattern.toList, seg ≠ [])
    (hstars : ¬ threeStars <:+: pattern.toList)
    (hend : ¬ [one, recursive] <:+ sourceSegments pattern.toList)
    (cap : Nat) (path : NamePath) {text : String} (htext : text ∈ translate (.clamp cap) pattern)
    (h : TargetMatches text.toList path.names) :
    SourceMatches anyNumber pattern.toList path.names := by
  have hparts : ∀ seg ∈ sourceSegments pattern.toList, IsProper seg := fun _ hseg =>
    isProper_of_mem_sourceSegments hempty hstars hseg
  rcases (mem_translate_iff_isReading _ hstars).mp htext with ⟨_, read, hread, rfl⟩
  rw [String.toList_ofList] at h
  unfold SourceMatches
  rcases canonicalSegments_cases pattern.toList with
    ⟨hplain, hlast, _⟩ | ⟨before, fold, hfold, hsource, hmarked⟩
  · have hne : read ≠ [] :=
      hread.ne_nil (canonicalSegments_ne_nil _) (getLast?_canonicalSegments_ne hstars)
    rw [hplain] at hread
    rw [targetMatches_ofSegments hne (hread.proper_of_condense hparts)] at h
    rw [segmentsMatch_of_getLast?_ne hlast]
    exact Spans.of_isReading hparts hread h
  · rw [hsource] at hparts hend ⊢
    have hfoldEnd : fold ≠ [one, recursive] := by
      intro heq
      subst heq
      exact hend (List.suffix_append before _)
    have hfrontParts : ∀ seg ∈ before, IsProper seg := fun seg hseg =>
      hparts seg (List.mem_append_left fold hseg)
    rw [hmarked, isReading_append_marker] at hread
    rcases hread with ⟨front, rfl, hfront⟩
    by_cases hbefore : before = []
    · -- The marker stands alone, and the recursive end alone matches every path, too.
      subst hbefore
      exact segmentsMatch_append_of_isRecursiveEnd hfold hfoldEnd path.names_ne_nil .nil
    · rw [if_neg hbefore] at hfront
      by_cases hlost : front = []
      · subst hlost
        exact absurd h (not_targetMatches_lost_slash path.name_ne_nil)
      · rw [targetMatches_ofSegments_marker hlost (hfront.proper_of_condense hfrontParts)] at h
        rcases h with ⟨above, below, hnames, hbelow, habove⟩
        rw [hnames]
        exact segmentsMatch_append_of_isRecursiveEnd hfold hfoldEnd hbelow
          (Spans.of_isReading hfrontParts hfront habove)

/-- A path below a nested directory of generated files. -/
def generatedPath : NamePath where
  names := [['s', 'r', 'c'], ['a'], ['g', 'e', 'n'], ['x'], ['y']]
  names_ne_nil := by decide
  name_ne_nil := by decide
  slash_notMem := by decide

/-- A translation with an expanded `**` and the marker matches a path, and so does the pattern. -/
theorem sourceMatches_generatedPath :
    (∀ seg ∈ sourceSegments "/src/**/gen*/**".toList, seg ≠ []) ∧
    ¬ threeStars <:+: "/src/**/gen*/**".toList ∧
    ¬ [one, recursive] <:+ sourceSegments "/src/**/gen*/**".toList ∧
    "src/*/gen*//*" ∈ translate (.clamp 1) "/src/**/gen*/**" ∧
    TargetMatches "src/*/gen*//*".toList generatedPath.names ∧
    SourceMatches anyNumber "/src/**/gen*/**".toList generatedPath.names := by
  have hempty : ∀ seg ∈ sourceSegments "/src/**/gen*/**".toList, seg ≠ [] := by decide
  have hstars : ¬ threeStars <:+: "/src/**/gen*/**".toList := by decide +kernel
  have hend : ¬ [one, recursive] <:+ sourceSegments "/src/**/gen*/**".toList := by decide
  have htext : "src/*/gen*//*" ∈ translate (.clamp 1) "/src/**/gen*/**" := by
    have hall : translate (.clamp 1) "/src/**/gen*/**" = ["src/*/gen*//*", "src/gen*//*"] := by
      decide +kernel
    rw [hall]
    exact List.mem_cons_self
  have hsrc : NameMatches ['s', 'r', 'c'] ['s', 'r', 'c'] :=
    .literal (by decide) (.literal (by decide) (.literal (by decide) .nil))
  have hgen : NameMatches ['g', 'e', 'n', '*'] ['g', 'e', 'n'] :=
    .literal (by decide) (.literal (by decide) (.literal (by decide) (.star [] .nil)))
  have hmatch : TargetMatches "src/*/gen*//*".toList generatedPath.names :=
    Or.inr (Or.inl ⟨"src/*/gen*".toList, [['s', 'r', 'c'], ['a'], ['g', 'e', 'n']],
      [['x'], ['y']], rfl, rfl, by decide,
      .cons hsrc (.cons (nameMatches_one ['a']) (.cons hgen .nil))⟩)
  exact ⟨hempty, hstars, hend, htext, hmatch,
    sourceMatches_of_targetMatches hempty hstars hend 1 generatedPath htext hmatch⟩

end Pattern
end AttributeScope
