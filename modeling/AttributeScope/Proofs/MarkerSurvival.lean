import Mathlib.Data.List.Induction
import AttributeScope.Proofs.ReadingMeaning
import AttributeScope.Proofs.TextReadings

/-!
# Survival of the marker for all descendants

The marker is written with two slashes.  Its first slash ends the segment in front of it, and if
that segment is `**`, the slash is read together with it.  The marker survives in a reading if some
other segment further in front still ends with a slash there.

Main results:

- Theorem `forall_isTextReading_slash_iff`: all readings of segments with a slash behind them keep
  a slash at the end exactly if the last segment that is no `**` does not end with two stars.
- Theorem `forall_translate_marker_iff`: the patterns with a recursive end of which every
  translation ends with the marker.
-/

namespace AttributeScope
namespace Pattern

/-! ## Slashes at the end of readings -/

theorem ofSegments_concat {parts : List Segment} (h : parts ≠ []) (seg : Segment) :
    ofSegments (parts ++ [seg]) = ofSegments parts ++ '/' :: seg := by
  induction parts with
  | nil => exact absurd rfl h
  | cons first rest ih =>
    by_cases hrest : rest = []
    · subst hrest
      simp [ofSegments, List.intercalate_cons_cons, List.intercalate_singleton]
    · rw [List.cons_append, ofSegments_cons first (by simp), ofSegments_cons first hrest, ih hrest]
      simp only [List.append_assoc]

theorem isTextReading_cutMark {read : List Char} :
    IsTextReading cutMark read ↔ read = [] ∨ read = ['*', '/'] := by
  have h := @isTextReading_cutMark_append [] read
  simpa [isTextReading_nil] using h

/-- In front of the last segment stands nothing, or a slash. -/
theorem exists_ofSegments_concat (parts : List Segment) (seg : Segment) :
    ∃ front, ofSegments (parts ++ [seg]) = front ++ seg ∧ (front = [] ∨ ['/'] <:+ front) := by
  by_cases hparts : parts = []
  · subst hparts
    exact ⟨[], by simp [ofSegments, List.intercalate_singleton], Or.inl rfl⟩
  · refine ⟨ofSegments parts ++ ['/'], ?_, Or.inr (List.suffix_append _ _)⟩
    rw [ofSegments_concat hparts, List.append_assoc]
    rfl

/-- Nothing is cut across a slash that stands in front of a border. -/
theorem isBorder_of_slash {front : List Char} (h : front = [] ∨ ['/'] <:+ front)
    (back : List Char) : IsBorder front back := by
  have hstars : ∀ number, ¬ stars (number + 1) <:+ front := by
    intro number hsuffix
    rcases h with rfl | ⟨before, rfl⟩
    · simp [stars] at hsuffix
    · exact absurd (stars_suffix_concat_iff.mp hsuffix).1 (by decide)
  exact ⟨fun hone => absurd hone (hstars 0), fun htwo => absurd htwo (hstars 1)⟩

/-- Two stars at the end of a text of segments stand in its last segment. -/
theorem recursive_suffix_of_append {front seg : List Char} (hfront : front = [] ∨ ['/'] <:+ front)
    (h : recursive <:+ front ++ seg) : recursive <:+ seg := by
  rcases hfront with rfl | ⟨before, rfl⟩
  · exact h
  · have hslash : '/' :: seg <:+ before ++ ['/'] ++ seg := ⟨before, by simp⟩
    rcases List.suffix_or_suffix_of_suffix h hslash with hshort | hlong
    · rcases List.suffix_cons_iff.mp hshort with heq | hseg
      · exact absurd (List.cons.inj heq).1 (by decide)
      · exact hseg
    · exact absurd (hlong.subset List.mem_cons_self) (by decide)

/-- A cut at the end decides nothing: what stands in front of it ends with a slash or not. -/
theorem forall_isTextReading_append_cutMark_iff {front : List Char}
    (hborder : IsBorder front cutMark) :
    (∀ read, IsTextReading (front ++ cutMark) read → ['/'] <:+ read) ↔
      ∀ read, IsTextReading front read → ['/'] <:+ read := by
  simp only [isTextReading_append hborder, isTextReading_cutMark]
  constructor
  · intro h read hread
    simpa using h (read ++ []) ⟨read, [], rfl, hread, Or.inl rfl⟩
  · intro h read hread
    rcases hread with ⟨first, second, rfl, hfirst, rfl | rfl⟩
    · simpa using h first hfirst
    · exact ⟨first ++ ['*'], by simp⟩

/-- Without two stars in front of it a slash is kept. -/
theorem slash_suffix_of_isTextReading {text read : List Char} (hstars : ¬ recursive <:+ text)
    (h : IsTextReading (text ++ ['/']) read) : ['/'] <:+ read := by
  have hborder : IsBorder text ['/'] := ⟨fun _ => by decide, fun htwo => absurd htwo hstars⟩
  rw [isTextReading_append hborder] at h
  rcases h with ⟨first, second, rfl, _, hsecond⟩
  rw [isTextReading_cons (by decide)] at hsecond
  rcases hsecond with ⟨tail, rfl, htail⟩
  rw [isTextReading_nil.mp htail]
  exact List.suffix_append first ['/']

/-- Behind two stars that are glued to other text a slash may be lost. -/
theorem exists_isTextReading_not_slash_suffix {front seg : List Char}
    (hfront : front = [] ∨ ['/'] <:+ front) (hslash : '/' ∉ seg) (hglued : seg ≠ recursive)
    (hstars : recursive <:+ seg) :
    ∃ read, IsTextReading (front ++ seg ++ ['/']) read ∧ ¬ ['/'] <:+ read := by
  rcases hstars with ⟨text, rfl⟩
  have htext : text ≠ [] := fun hnil => hglued (by rw [hnil]; rfl)
  have hkept : '/' ∉ text := fun h => hslash (List.mem_append_left recursive h)
  rcases exists_isTextReading front with ⟨first, hfirst⟩
  have hread : IsTextReading (front ++ text) (first ++ text) :=
    (isTextReading_append (isBorder_of_slash hfront text)).mpr
      ⟨first, text, rfl, hfirst, (isTextReading_of_slash_notMem hkept).mpr rfl⟩
  have hborder : IsBorder (front ++ text) cutMark := ⟨fun _ => by decide, fun _ => by decide⟩
  have hwhole : front ++ (text ++ recursive) ++ ['/'] = front ++ text ++ cutMark := by
    simp [recursive, cutMark]
  refine ⟨first ++ text ++ [], ?_, fun hsuffix => ?_⟩
  · rw [hwhole, isTextReading_append hborder]
    exact ⟨first ++ text, [], rfl, hread, isTextReading_cutMark.mpr (Or.inl rfl)⟩
  · rw [List.append_nil] at hsuffix
    have hlast : ['/'] <:+ text := List.suffix_of_suffix_length_le hsuffix
      (List.suffix_append first text) (List.length_pos_iff.mpr htext)
    exact hkept (hlast.subset List.mem_cons_self)

/-- Whether the last segment that is no `**` does not end with two stars. -/
def KeepsSlash (parts : List Segment) : Prop :=
  ∃ seg, (parts.filter (· ≠ recursive)).getLast? = some seg ∧ ¬ recursive <:+ seg

theorem keepsSlash_concat_recursive (parts : List Segment) :
    KeepsSlash (parts ++ [recursive]) ↔ KeepsSlash parts := by
  unfold KeepsSlash
  simp

theorem keepsSlash_concat_of_ne (parts : List Segment) {seg : Segment} (h : seg ≠ recursive) :
    KeepsSlash (parts ++ [seg]) ↔ ¬ recursive <:+ seg := by
  unfold KeepsSlash
  simp [h]

/-- All readings of segments with a slash behind them end with a slash exactly if the last segment
that is no `**` does not end with two stars. -/
theorem forall_isTextReading_slash_iff {parts : List Segment} (hparts : parts ≠ [])
    (hslash : ∀ seg ∈ parts, '/' ∉ seg) :
    (∀ read, IsTextReading (ofSegments parts ++ ['/']) read → ['/'] <:+ read) ↔
      KeepsSlash parts := by
  induction parts using List.reverseRecOn with
  | nil => exact absurd rfl hparts
  | append_singleton before last ih =>
    by_cases hlast : last = recursive
    · subst hlast
      rw [keepsSlash_concat_recursive]
      by_cases hbefore : before = []
      · -- A `**` alone may be left out, and the slash with it.
        subst hbefore
        refine iff_of_false (fun h => ?_) (by simp [KeepsSlash])
        exact absurd (h [] (isTextReading_cutMark.mpr (Or.inl rfl))) (by decide)
      · have htext : ofSegments (before ++ [recursive]) ++ ['/'] =
            ofSegments before ++ ['/'] ++ cutMark := by
          rw [ofSegments_concat hbefore]
          simp [recursive, cutMark]
        have hborder := isBorder_of_slash (Or.inr (List.suffix_append (ofSegments before) ['/']))
        rw [htext, forall_isTextReading_append_cutMark_iff (hborder cutMark)]
        exact ih hbefore fun seg hseg => hslash seg (List.mem_append_left _ hseg)
    · rw [keepsSlash_concat_of_ne before hlast]
      rcases exists_ofSegments_concat before last with ⟨front, htext, hfront⟩
      rw [htext]
      by_cases hstars : recursive <:+ last
      · refine iff_of_false (fun h => ?_) (not_not_intro hstars)
        have hlastSlash : '/' ∉ last := hslash last (by simp)
        rcases exists_isTextReading_not_slash_suffix hfront hlastSlash hlast hstars with
          ⟨read, hread, hlost⟩
        exact hlost (h read hread)
      · refine iff_of_true (fun read hread => ?_) hstars
        exact slash_suffix_of_isTextReading (mt (recursive_suffix_of_append hfront) hstars) hread

/-! ## The longest recursive end -/

/-- The longest recursive end of a pattern is replaced by the marker. -/
theorem markDescendants_append {before fold : List Segment} (hfold : IsRecursiveEnd fold)
    (hlongest : fold = [recursive] → before.getLast? ≠ some one) :
    markDescendants (before ++ fold) = descendants before := by
  unfold markDescendants
  rw [List.reverse_append]
  rcases hfold with rfl | rfl | rfl
  · change descendants before.reverse.reverse = _
    rw [List.reverse_reverse]
  · change descendants before.reverse.reverse = _
    rw [List.reverse_reverse]
  · change markDescendantsRev (['*', '*'] :: before.reverse) = _
    rw [markDescendantsRev.eq_3, List.reverse_reverse]
    intro others hreverse
    refine hlongest rfl ?_
    rw [← List.head?_reverse, hreverse]
    rfl

/-- The canonical text of a pattern with a recursive end. -/
theorem canonicalize_of_isRecursiveEnd {pattern : List Char} {before fold : List Segment}
    (hsource : sourceSegments pattern = before ++ fold) (hfold : IsRecursiveEnd fold)
    (hlongest : fold = [recursive] → before.getLast? ≠ some one) :
    canonicalize pattern =
      if before = [] then marker else ofSegments (condense before) ++ ['/'] ++ ['/', '*'] := by
  unfold canonicalize
  rw [canonicalSegments_eq, hsource, markDescendants_append hfold hlongest, condense_descendants]
  split
  · rfl
  next hbefore =>
    rw [ofSegments_append_marker (mt condense_eq_nil_iff.mp hbefore), List.append_assoc]
    rfl

theorem isTextReading_star_segment {read : List Char} :
    IsTextReading ['/', '*'] read ↔ read = ['/', '*'] := by
  rw [isTextReading_cons (by decide)]
  simp [isTextReading_of_slash_notMem]

/-- All readings of a text with the marker end with it exactly if a slash is kept in front of its
second one. -/
theorem forall_isTextReading_marker_iff {front : List Char} (hfront : ['/'] <:+ front) :
    (∀ read, IsTextReading (front ++ ['/', '*']) read → marker <:+ read) ↔
      ∀ read, IsTextReading front read → ['/'] <:+ read := by
  have hsuffix : ∀ read : List Char, marker <:+ read ++ ['/', '*'] ↔ ['/'] <:+ read := fun read =>
    @List.suffix_append_self_iff Char ['/'] read ['/', '*']
  simp only [isTextReading_append (isBorder_of_slash (Or.inr hfront) ['/', '*']),
    isTextReading_star_segment]
  constructor
  · intro h read hread
    exact (hsuffix read).mp (h _ ⟨read, ['/', '*'], rfl, hread, rfl⟩)
  · intro h read hread
    rcases hread with ⟨first, _, rfl, hfirst, rfl⟩
    exact (hsuffix first).mpr (h first hfirst)

/-- Condensed segments keep the slash if the last segment that does not become `**` does not end
with three stars. -/
theorem keepsSlash_condense_iff (parts : List Segment) :
    KeepsSlash (condense parts) ↔
      ∃ seg, (parts.filter (degrade · ≠ recursive)).getLast? = some seg ∧ ¬ threeStars <:+ seg := by
  unfold KeepsSlash
  rw [filter_condense, List.getLast?_map]
  constructor
  · intro h
    rcases h with ⟨_, hlast, hstars⟩
    rcases Option.map_eq_some_iff.mp hlast with ⟨seg, hseg, rfl⟩
    exact ⟨seg, hseg, fun hthree => hstars (recursive_suffix_degrade_iff.mpr (Or.inr hthree))⟩
  · intro h
    rcases h with ⟨seg, hseg, hthree⟩
    have hne : degrade seg ≠ recursive := by
      simpa using (List.mem_filter.mp (List.mem_of_getLast? hseg)).2
    refine ⟨degrade seg, Option.map_eq_some_iff.mpr ⟨seg, hseg, rfl⟩, fun hstars => ?_⟩
    rcases recursive_suffix_degrade_iff.mp hstars with rfl | hsuffix
    · exact hne degrade_recursive
    · exact hthree hsuffix

/-- Every translation of a pattern with a recursive end ends with the marker exactly if there is
none, if nothing stands in front of that end, or if the last segment there that does not become
`**` does not end with three stars. -/
theorem forall_translate_marker_iff {pattern : String} {before fold : List Segment}
    (hsource : sourceSegments pattern.toList = before ++ fold) (hfold : IsRecursiveEnd fold)
    (hlongest : fold = [recursive] → before.getLast? ≠ some one) (cap : Nat) :
    (∀ text ∈ translate (.clamp cap) pattern, marker <:+ text.toList) ↔
      translate (.clamp cap) pattern = [] ∨ before = [] ∨
        ∃ seg, (before.filter (degrade · ≠ recursive)).getLast? = some seg ∧
          ¬ threeStars <:+ seg := by
  rw [forall_mem_translate_iff (p := fun text => marker <:+ text),
    canonicalize_of_isRecursiveEnd hsource hfold hlongest]
  by_cases hbefore : before = []
  · have halone : ∀ read, IsTextReading marker read ↔ read = marker := fun read => by
      rw [marker, isTextReading_cons (by decide)]
      simp [isTextReading_star_segment]
    simp [hbefore, halone]
  · have hslash : ∀ seg ∈ condense before, '/' ∉ seg := by
      apply forall_mem_condense
      · decide
      · intro seg hseg hmem
        have hpart : seg ∈ sourceSegments pattern.toList := by
          rw [hsource]
          exact List.mem_append_left fold hseg
        exact Text.not_mem_of_mem_splitOn hpart (mem_of_mem_degrade hmem)
    rw [if_neg hbefore, or_iff_right hbefore,
      forall_isTextReading_marker_iff (List.suffix_append _ ['/']),
      forall_isTextReading_slash_iff (mt condense_eq_nil_iff.mp hbefore) hslash,
      keepsSlash_condense_iff]

/-- A directory in front of a recursive end keeps the marker, also with a `**` in between. -/
theorem forall_translate_marker_directory :
    sourceSegments "/gen/**/**".toList = [['g', 'e', 'n'], recursive] ++ [recursive] ∧
    [['g', 'e', 'n'], recursive].getLast? ≠ some one ∧
    ∀ text ∈ translate (.clamp 1) "/gen/**/**", marker <:+ text.toList := by
  have hsource : sourceSegments "/gen/**/**".toList =
      [['g', 'e', 'n'], recursive] ++ [recursive] := by decide
  have hlongest : [['g', 'e', 'n'], recursive].getLast? ≠ some one := by decide
  refine ⟨hsource, hlongest, ?_⟩
  refine (forall_translate_marker_iff hsource (Or.inr (Or.inr rfl)) (fun _ => hlongest) 1).mpr ?_
  exact Or.inr (Or.inr ⟨['g', 'e', 'n'], by decide, by decide⟩)

/-- A `**` alone in front of a recursive end may be left out together with a slash of the marker. -/
theorem not_forall_translate_marker_recursive_pair :
    ¬ ∀ text ∈ translate (.clamp 10) "**/**", marker <:+ text.toList := by
  have hall : translate (.clamp 10) "**/**" = ["*//*", "/*"] := by decide +kernel
  rw [hall]
  intro h
  exact absurd (h "/*" (by decide)) (by decide)

end Pattern
end AttributeScope
