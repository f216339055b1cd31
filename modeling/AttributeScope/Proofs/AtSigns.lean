import Mathlib.Data.List.Forall2
import AttributeScope.Proofs.AnchoredPatterns

/-!
# Segments with `@`

The scope dialect has no `@`, so that an anchored pattern has `*` for each of them.  A segment that
is `@` alone is refused, since `*` would match every name there.  Segment by segment, this module
says what the rewriting makes of the others.

Main results:

- Theorem `segments_of_anchor?`: an anchored pattern is rewritten segment by segment.
- Theorem `anchor?_keeps_names_iff`: which anchored patterns have no segment of stars but those
  that were segments of stars before.
-/

namespace AttributeScope
namespace Pattern

/-! ## Rewriting segment by segment -/

theorem segments_cons_of_ne {c : Char} (hc : c ≠ '/') (text : List Char) :
    segments (c :: text) = (segments text).modifyHead (c :: ·) := by
  unfold segments
  rw [List.splitOn_cons_eq_if_modifyHead, if_neg (by simpa using hc)]

/-- Rewriting keeps the slashes of a path. -/
theorem segments_withoutAtSigns (path : List Char) :
    segments (withoutAtSigns path) = (segments path).map withoutAtSigns := by
  induction path with
  | nil => rfl
  | cons c rest ih =>
    have hcons : withoutAtSigns (c :: rest) = (if c = '@' then '*' else c) :: withoutAtSigns rest :=
      rfl
    by_cases hc : c = '/'
    · subst hc
      rw [hcons, if_neg (by decide), segments_slash_cons, segments_slash_cons, ih]
      rfl
    · have hrewritten : (if c = '@' then '*' else c) ≠ '/' := by
        split
        · decide
        · exact hc
      rw [hcons, segments_cons_of_ne hrewritten, segments_cons_of_ne hc, ih]
      cases segments rest with
      | nil => rfl
      | cons first others => rfl

/-- An anchored pattern is rewritten segment by segment. -/
theorem segments_of_anchor? {dir : SourceDir} {variant pattern : String}
    (h : anchor? dir variant = some pattern) :
    segments pattern.toList = (segments (below dir variant.toList)).map withoutAtSigns := by
  rw [← (anchor?_eq_some_iff.mp h).2, String.toList_ofList, segments_withoutAtSigns]

/-! ## Segments of stars -/

/-- Whether a segment consists of stars only. -/
def IsStars (seg : Segment) : Prop := ∀ c ∈ seg, c = '*'

/-- Whether a segment consists of stars and `@` only. -/
def IsStarsOrAtSigns (seg : Segment) : Prop := ∀ c ∈ seg, c = '*' ∨ c = '@'

/-- Stars are what becomes of stars and of `@`. -/
theorem isStars_withoutAtSigns_iff (seg : Segment) :
    IsStars (withoutAtSigns seg) ↔ IsStarsOrAtSigns seg := by
  have hstar : ∀ c, (if c = '@' then '*' else c) = '*' ↔ c = '*' ∨ c = '@' := by
    intro c
    split
    next h => simp [h]
    next h => rw [or_iff_left h]
  unfold IsStars IsStarsOrAtSigns withoutAtSigns
  simp only [List.forall_mem_map, hstar]

/-- A segment of stars and `@` is a segment of stars if it has no `@`. -/
theorem isStars_of_isStarsOrAtSigns_iff (seg : Segment) :
    (IsStarsOrAtSigns seg → seg = [] ∨ IsStars seg) ↔
      ('@' ∈ seg → ∃ c ∈ seg, c ≠ '*' ∧ c ≠ '@') := by
  constructor
  · intro h hat
    by_contra hnone
    have hall : IsStarsOrAtSigns seg := by
      intro c hc
      by_contra hother
      exact hnone ⟨c, hc, not_or.mp hother⟩
    rcases h hall with rfl | hstars
    · simp at hat
    · exact absurd (hstars '@' hat) (by decide)
  · intro h hall
    right
    intro c hc
    refine (hall c hc).resolve_right ?_
    rintro rfl
    rcases h hc with ⟨d, hd, hstar, hat⟩
    rcases hall d hd with heq | heq
    · exact hstar heq
    · exact hat heq

/-- An anchored pattern has as many segments as the path that it is written from.  A segment of it
consists of stars exactly if the path has stars and `@` there.  So stars stand only where the path
has stars, or nothing, exactly if every segment with an `@` has a character other than `*` and
`@`. -/
theorem anchor?_keeps_names_iff {dir : SourceDir} {variant pattern : String}
    (h : anchor? dir variant = some pattern) :
    let path := segments (below dir variant.toList)
    let anchored := segments pattern.toList
    anchored.length = path.length ∧
    List.Forall₂ (fun named written => IsStars written ↔ IsStarsOrAtSigns named) path anchored ∧
    (List.Forall₂ (fun named written => IsStars written → named = [] ∨ IsStars named) path
        anchored ↔
      ∀ named ∈ path, '@' ∈ named → ∃ c ∈ named, c ≠ '*' ∧ c ≠ '@') := by
  intro path anchored
  have hanchored : anchored = path.map withoutAtSigns := segments_of_anchor? h
  have hforall : ∀ relation : Segment → Segment → Prop,
      List.Forall₂ relation path anchored ↔
        ∀ named ∈ path, relation named (withoutAtSigns named) := by
    intro relation
    rw [hanchored, List.forall₂_map_right_iff, List.forall₂_same]
  refine ⟨?_, ?_, ?_⟩
  · rw [hanchored, List.length_map]
  · exact (hforall _).mpr fun named _ => isStars_withoutAtSigns_iff named
  · rw [hforall]
    simp only [isStars_withoutAtSigns_iff, isStars_of_isStarsOrAtSigns_iff]

/-- In `lib@2/*/@types` below `web/@scope` every `@` stands in a name. -/
theorem anchor?_keeps_names_scope :
    let dir := SourceDir.ofPath "web/@scope"
    let path := segments (below dir "lib@2/*/@types".toList)
    let anchored := segments "web/*scope/lib*2/*/*types".toList
    anchor? dir "lib@2/*/@types" = some "web/*scope/lib*2/*/*types" ∧
    anchored.length = path.length ∧
    List.Forall₂ (fun named written => IsStars written → named = [] ∨ IsStars named) path
      anchored := by
  intro dir path anchored
  have hanchor : anchor? dir "lib@2/*/@types" = some "web/*scope/lib*2/*/*types" := by
    decide +kernel
  have hpath : path = ["web".toList, "@scope".toList, "lib@2".toList, ['*'], "@types".toList] := by
    decide +kernel
  rcases anchor?_keeps_names_iff hanchor with ⟨hlength, -, hkeeps⟩
  refine ⟨hanchor, hlength, hkeeps.mpr ?_⟩
  change ∀ named ∈ path, _
  simp [hpath]

/-- A segment of two `@` becomes `**`. -/
theorem not_anchor?_keeps_names_of_two_at_signs :
    ¬ ∀ pattern, anchor? .root "@@/x" = some pattern →
      List.Forall₂ (fun named written => IsStars written → named = [] ∨ IsStars named)
        (segments (below .root "@@/x".toList)) (segments pattern.toList) := by
  intro h
  have hanchor : anchor? .root "@@/x" = some "**/x" := by decide +kernel
  have hpath : segments (below .root "@@/x".toList) = [['@', '@'], ['x']] := by decide +kernel
  have hanchored : segments "**/x".toList = [['*', '*'], ['x']] := by decide +kernel
  have hforall := h _ hanchor
  rw [hpath, hanchored, List.forall₂_cons] at hforall
  have hstars : IsStars ['*', '*'] := by simp [IsStars]
  rcases hforall.1 hstars with hnil | hnamed
  · exact absurd hnil (by decide)
  · exact absurd (hnamed '@' List.mem_cons_self) (by decide)

end Pattern
end AttributeScope
