import AttributeScope.Proofs.SegmentReadings

/-!
# Meaning of canonical forms and readings

Each step on the way from a pattern to its scope patterns is compared by what it matches.  Halving
glued stars changes nothing, absorbing a pair only shrinks the meaning, and the readings of
segments together match what the segments do if a `**` stands for at most one name.

Main results:

- Theorem `nameMatches_degrade`: halved segments match the same names.
- Theorem `Spans.of_condense`: condensed segments match no more than the given ones.
- Theorem `spans_atMostOne_iff`: the names that segments match are those that a reading matches.
- Theorems `targetMatches_ofSegments` and `targetMatches_ofSegments_marker`: what the text of a
  reading matches, without and with the marker for all descendants.
-/

namespace AttributeScope
namespace Pattern

/-! ## Halved stars -/

theorem nameMatches_halveStars {glued : Nat → Bool} {position : Nat} {seg : Segment}
    {name : Name} :
    NameMatches (halveStars '*' glued position seg) name ↔ NameMatches seg name := by
  fun_induction halveStars '*' glued position seg generalizing name with
  | case1 position a b rest hstars ih =>
    rcases hstars with ⟨rfl, rfl, _⟩
    rw [nameMatches_star_star]
    exact nameMatches_cons_congr '*' (fun _ => ih) name
  | case2 position a b rest _ ih => exact nameMatches_cons_congr a (fun _ => ih) name
  | case3 => exact Iff.rfl

/-- A segment matches the same names after glued stars are halved. -/
theorem nameMatches_degrade {seg : Segment} {name : Name} :
    NameMatches (degrade seg) name ↔ NameMatches seg name := by
  unfold degrade halveBeforeText halveAfterText
  rw [nameMatches_halveStars, nameMatches_halveStars]

/-- Halving glued stars in every segment changes nothing. -/
theorem spans_map_degrade {reach : Nat → Prop} {parts : List Segment}
    (hstars : ∀ seg ∈ parts, ¬ threeStars <:+: seg) {names : List Name} :
    Spans reach (parts.map degrade) names ↔ Spans reach parts names := by
  induction parts generalizing names with
  | nil => exact Iff.rfl
  | cons seg rest ih =>
    have hseg := degrade_eq_recursive_iff (hstars seg List.mem_cons_self)
    have hrest : ∀ names, Spans reach (rest.map degrade) names ↔ Spans reach rest names :=
      fun _ => ih fun other h => hstars other (List.mem_cons_of_mem seg h)
    rw [List.map_cons]
    by_cases hrecursive : seg = recursive
    · rw [hseg.mpr hrecursive, hrecursive]
      simp only [spans_recursive_cons, hrest]
    · simp only [spans_cons_of_ne hrecursive, spans_cons_of_ne (mt hseg.mp hrecursive),
        nameMatches_degrade, hrest]

/-! ## Absorbed pairs -/

/-- Absorbing a pair matches no more, if the pair matches every single name. -/
theorem Spans.of_absorb {reach : Nat → Prop} {first second : Segment}
    (hpair : ∀ name rest names, Spans reach rest names →
      Spans reach (first :: second :: rest) (name :: names))
    {parts : List Segment} {names : List Name} (h : Spans reach (absorb first second parts) names) :
    Spans reach parts names := by
  fun_induction absorb first second parts generalizing names with
  | case1 a b rest hab ih =>
    rcases hab with ⟨rfl, rfl⟩
    rw [spans_cons_of_ne (by decide)] at h
    rcases h with ⟨name, tail, rfl, _, h⟩
    exact hpair name rest tail (ih h)
  | case2 a b rest _ ih => exact Spans.cons_mono (fun _ => ih) h
  | case3 => exact h

/-- Condensed segments match no more than the given ones. -/
theorem Spans.of_condense {reach : Nat → Prop} (hreach : reach 0) {parts : List Segment}
    (hparts : ∀ seg ∈ parts, IsProper seg) {names : List Name}
    (h : Spans reach (condense parts) names) : Spans reach parts names := by
  have hone : one ≠ recursive := by decide
  have hraw : ∀ seg ∈ absorb one recursive (absorb recursive one parts), ¬ threeStars <:+: seg :=
    forall_mem_absorb_absorb (by decide) fun seg hseg => (hparts seg hseg).not_threeStars
  have habsorbed := (spans_map_degrade hraw).mp h
  -- In both orders the `**` of a pair is taken for no name, and the `*` for the one there is.
  have houter : Spans reach (absorb recursive one parts) names := by
    refine Spans.of_absorb (fun name rest names hrest => ?_) habsorbed
    exact .name hone (nameMatches_one name) (.skip [] hreach hrest)
  refine Spans.of_absorb (fun name rest names hrest => ?_) houter
  exact .skip [] hreach (.name hone (nameMatches_one name) hrest)

/-! ## Readings -/

/-- Segments in which a `**` stands for at most one name match what their readings match. -/
theorem spans_atMostOne_iff {parts : List Segment} {names : List Name} :
    Spans atMostOne parts names ↔
      ∃ read, IsReading parts read ∧ List.Forall₂ NameMatches read names := by
  constructor
  · intro h
    induction h with
    | nil => exact ⟨[], .nil, .nil⟩
    | name hseg hname _ ih =>
      rcases ih with ⟨read, hread, hnames⟩
      exact ⟨_, .keep hseg hread, .cons hname hnames⟩
    | skip skipped hskipped _ ih =>
      rcases ih with ⟨read, hread, hnames⟩
      cases skipped with
      | nil => exact ⟨read, .leaveOut hread, hnames⟩
      | cons name others =>
        obtain rfl : others = [] := by
          unfold atMostOne at hskipped
          rw [List.length_cons] at hskipped
          exact List.length_eq_zero_iff.mp (by omega)
        exact ⟨one :: read, .asOne hread, .cons (nameMatches_one name) hnames⟩
  · intro hreading
    rcases hreading with ⟨read, hread, hnames⟩
    induction hread generalizing names with
    | nil =>
      cases hnames
      exact .nil
    | keep hseg _ ih =>
      cases hnames with
      | cons hname hnames => exact .name hseg hname (ih hnames)
    | leaveOut _ ih => exact .skip [] (Nat.zero_le 1) (ih hnames)
    | asOne _ ih =>
      cases hnames with
      | cons _ hnames => exact .skip [_] (Nat.le_refl 1) (ih hnames)

/-- A reading of condensed segments has no empty segment and no slash if they have none. -/
theorem IsReading.proper_of_condense {parts read : List Segment}
    (h : IsReading (condense parts) read) (hparts : ∀ seg ∈ parts, IsProper seg) :
    ∀ seg ∈ read, seg ≠ [] ∧ '/' ∉ seg := by
  have hcondensed : ∀ seg ∈ condense parts, seg ≠ [] ∧ '/' ∉ seg := by
    apply forall_mem_condense
    · decide
    · intro seg hseg
      have hproper := hparts seg hseg
      constructor
      · exact mt degrade_eq_nil_iff.mp hproper.ne_nil
      · intro hslash
        exact hproper.slash_notMem (mem_of_mem_degrade hslash)
  intro seg hseg
  rcases h.mem hseg with rfl | hseg
  · decide
  · exact hcondensed seg hseg

/-! ## Texts of readings -/

/-- In front of the marker stands an empty segment. -/
theorem segments_append_marker (directory : List Char) :
    segments (directory ++ marker) = segments directory ++ [[], one] := by
  change (directory ++ '/' :: ['/', '*']).splitOn '/' = directory.splitOn '/' ++ [[], one]
  rw [List.splitOn_append_cons_self]
  rfl

theorem ofSegments_append_marker {read : List Segment} (h : read ≠ []) :
    ofSegments (read ++ [[], one]) = ofSegments read ++ marker := by
  induction read with
  | nil => exact absurd rfl h
  | cons seg rest ih =>
    by_cases hrest : rest = []
    · subst hrest
      simp [ofSegments, marker, one, List.intercalate_cons_cons]
    · rw [List.cons_append, ofSegments_cons seg (by simp), ofSegments_cons seg hrest, ih hrest]
      simp only [List.append_assoc]

/-- A text of segments that are not empty ends with no marker: it matches segment by segment. -/
theorem targetMatches_ofSegments {read : List Segment} (hread : read ≠ [])
    (hproper : ∀ seg ∈ read, seg ≠ [] ∧ '/' ∉ seg) (names : List Name) :
    TargetMatches (ofSegments read) names ↔ List.Forall₂ NameMatches read names := by
  have hsegments := segments_ofSegments hread fun seg hseg => (hproper seg hseg).2
  have hmarker : ∀ directory, ofSegments read ≠ directory ++ marker := by
    intro directory heq
    rw [heq, segments_append_marker] at hsegments
    exact (hproper [] (by simp [← hsegments])).1 rfl
  unfold TargetMatches
  rw [hsegments]
  constructor
  · intro h
    rcases h with heq | ⟨directory, _, _, heq, _⟩ | ⟨_, hnames⟩
    · exact absurd heq (hmarker [])
    · exact absurd heq (hmarker directory)
    · exact hnames
  · intro hnames
    refine Or.inr (Or.inr ⟨?_, hnames⟩)
    intro h
    rcases h with ⟨directory, heq⟩
    exact hmarker directory heq.symm

/-- A text with the marker matches what lies below a directory that the segments in front of the
marker match. -/
theorem targetMatches_ofSegments_marker {read : List Segment} (hread : read ≠ [])
    (hproper : ∀ seg ∈ read, seg ≠ [] ∧ '/' ∉ seg) (names : List Name) :
    TargetMatches (ofSegments (read ++ [[], one])) names ↔
      ∃ above below, names = above ++ below ∧ below ≠ [] ∧
        List.Forall₂ NameMatches read above := by
  have hsegments := segments_ofSegments hread fun seg hseg => (hproper seg hseg).2
  unfold TargetMatches
  rw [ofSegments_append_marker hread]
  constructor
  · intro h
    rcases h with heq | ⟨directory, above, below, heq, hnames, hbelow, habove⟩ | ⟨hsuffix, _⟩
    · have hnil : ofSegments read = [] := by simpa using heq
      rw [hnil] at hsegments
      have hmem : [] ∈ read := hsegments ▸ List.mem_singleton_self []
      exact absurd rfl (hproper [] hmem).1
    · obtain rfl := List.append_cancel_right heq
      rw [hsegments] at habove
      exact ⟨above, below, hnames, hbelow, habove⟩
    · exact absurd (List.suffix_append _ _) hsuffix
  · intro h
    rcases h with ⟨above, below, hnames, hbelow, habove⟩
    refine Or.inr (Or.inl ⟨ofSegments read, above, below, rfl, hnames, hbelow, ?_⟩)
    rwa [hsegments]

/-- If every segment in front of the marker is left out, a slash is lost and no path matches. -/
theorem not_targetMatches_lost_slash {names : List Name} (hnames : ∀ name ∈ names, name ≠ []) :
    ¬ TargetMatches (ofSegments [[], one]) names := by
  have htext : ofSegments [[], one] = ['/', '*'] := rfl
  rw [htext]
  intro h
  rcases h with heq | ⟨directory, _, _, heq, _⟩ | ⟨_, hmatch⟩
  · exact absurd heq (by decide)
  · have hlength := congrArg List.length heq
    simp [marker] at hlength
  · change List.Forall₂ NameMatches [[], one] names at hmatch
    cases hmatch with
    | cons hname _ => exact hnames _ List.mem_cons_self (nameMatches_nil_iff.mp hname)

end Pattern
end AttributeScope
