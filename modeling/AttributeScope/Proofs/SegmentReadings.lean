import AttributeScope.Pattern.Expansion
import AttributeScope.Proofs.CanonicalForm

/-!
# Readings of recursive segments

A translation cuts the canonical text at every `**` followed by a slash and joins the parts again,
with nothing or with one `*` segment at each cut.  The cut knows nothing of segments.  This module
shows that on canonical patterns it does what it should: every `**` segment is left out or read as
one `*`, independently of the others.

Main results:

- Theorem `mem_textReadings_iff`: the readings of a text are the readings of its segments.
- Theorem `recursiveCount_ofSegments`: a text is cut once for every `**` segment.
- Theorem `mem_translate_iff_isReading`: the scope patterns that a pattern is translated to.
- Theorem `translate_segments_of_canonicalize`: the same of the segments of the canonical text.
-/

namespace AttributeScope
namespace Pattern

/-- Segments that are read from others: each `**` is left out or read as `*`. -/
inductive IsReading : List Segment → List Segment → Prop
  | nil : IsReading [] []
  | keep {seg : Segment} {parts read : List Segment} (hseg : seg ≠ recursive)
      (h : IsReading parts read) : IsReading (seg :: parts) (seg :: read)
  | leaveOut {parts read : List Segment} (h : IsReading parts read) :
      IsReading (recursive :: parts) read
  | asOne {parts read : List Segment} (h : IsReading parts read) :
      IsReading (recursive :: parts) (one :: read)

/-! ## Readings of segments -/

theorem isReading_cons_of_ne {seg : Segment} (hseg : seg ≠ recursive)
    {parts read : List Segment} :
    IsReading (seg :: parts) read ↔ ∃ tail, read = seg :: tail ∧ IsReading parts tail := by
  constructor
  · intro h
    cases h with
    | keep _ h => exact ⟨_, rfl, h⟩
    | leaveOut _ => exact absurd rfl hseg
    | asOne _ => exact absurd rfl hseg
  · intro htail
    rcases htail with ⟨tail, rfl, h⟩
    exact .keep hseg h

theorem isReading_recursive_cons {parts read : List Segment} :
    IsReading (recursive :: parts) read ↔
      ∃ tail, IsReading parts tail ∧ (read = tail ∨ read = one :: tail) := by
  constructor
  · intro h
    cases h with
    | keep hseg _ => exact absurd rfl hseg
    | leaveOut h => exact ⟨_, h, Or.inl rfl⟩
    | asOne h => exact ⟨_, h, Or.inr rfl⟩
  · intro htail
    rcases htail with ⟨tail, h, rfl | rfl⟩
    · exact .leaveOut h
    · exact .asOne h

/-- Segments without a `**` have one reading, themselves. -/
theorem isReading_of_notMem {parts : List Segment} (h : recursive ∉ parts) {read : List Segment} :
    IsReading parts read ↔ read = parts := by
  induction parts generalizing read with
  | nil =>
    constructor
    · intro hread
      cases hread
      rfl
    · intro hnil
      subst hnil
      exact .nil
  | cons seg rest ih =>
    rw [List.mem_cons, not_or] at h
    rw [isReading_cons_of_ne (Ne.symm h.1)]
    simp only [ih h.2]
    constructor
    · intro htail
      rcases htail with ⟨tail, rfl, rfl⟩
      rfl
    · intro heq
      subst heq
      exact ⟨rest, rfl, rfl⟩

/-- Parts of a pattern are read independently of each other. -/
theorem isReading_append {front back read : List Segment} :
    IsReading (front ++ back) read ↔
      ∃ first second, read = first ++ second ∧ IsReading front first ∧ IsReading back second := by
  induction front generalizing read with
  | nil =>
    simp only [List.nil_append, isReading_of_notMem (List.not_mem_nil)]
    constructor
    · intro h
      exact ⟨[], read, rfl, rfl, h⟩
    · intro hsplit
      rcases hsplit with ⟨_, second, rfl, rfl, h⟩
      exact h
  | cons seg rest ih =>
    by_cases hseg : seg = recursive
    · subst hseg
      simp only [List.cons_append, isReading_recursive_cons, ih]
      constructor
      · intro hsplit
        rcases hsplit with ⟨_, ⟨first, second, rfl, hfirst, hsecond⟩, rfl | rfl⟩
        · exact ⟨first, second, rfl, ⟨first, hfirst, Or.inl rfl⟩, hsecond⟩
        · exact ⟨one :: first, second, rfl, ⟨first, hfirst, Or.inr rfl⟩, hsecond⟩
      · intro hsplit
        rcases hsplit with ⟨_, second, rfl, ⟨first, hfirst, rfl | rfl⟩, hsecond⟩
        · exact ⟨_, ⟨_, second, rfl, hfirst, hsecond⟩, Or.inl rfl⟩
        · exact ⟨_, ⟨first, second, rfl, hfirst, hsecond⟩, Or.inr rfl⟩
    · simp only [List.cons_append, isReading_cons_of_ne hseg, ih]
      constructor
      · intro hsplit
        rcases hsplit with ⟨_, rfl, first, second, rfl, hfirst, hsecond⟩
        exact ⟨seg :: first, second, rfl, ⟨first, rfl, hfirst⟩, hsecond⟩
      · intro hsplit
        rcases hsplit with ⟨_, second, rfl, ⟨first, rfl, hfirst⟩, hsecond⟩
        exact ⟨first ++ second, rfl, first, second, rfl, hfirst, hsecond⟩

/-- The marker for all descendants is not touched. -/
theorem isReading_append_marker {parts read : List Segment} :
    IsReading (parts ++ [[], one]) read ↔
      ∃ front, read = front ++ [[], one] ∧ IsReading parts front := by
  have hmarker : ∀ back, IsReading [[], one] back ↔ back = [[], one] := fun _ =>
    isReading_of_notMem (by decide)
  simp only [isReading_append, hmarker]
  constructor
  · intro hsplit
    rcases hsplit with ⟨front, _, rfl, hfront, rfl⟩
    exact ⟨front, rfl, hfront⟩
  · intro hsplit
    rcases hsplit with ⟨front, rfl, hfront⟩
    exact ⟨front, _, rfl, hfront, rfl⟩

/-- A reading has only segments of the pattern, and `*`. -/
theorem IsReading.mem {parts read : List Segment} (h : IsReading parts read) {seg : Segment}
    (hseg : seg ∈ read) : seg = one ∨ seg ∈ parts := by
  induction h with
  | nil => simp at hseg
  | keep _ _ ih =>
    rcases List.mem_cons.mp hseg with rfl | hseg
    · exact Or.inr List.mem_cons_self
    · exact (ih hseg).imp_right (List.mem_cons_of_mem _)
  | leaveOut _ ih => exact (ih hseg).imp_right (List.mem_cons_of_mem _)
  | asOne _ ih =>
    rcases List.mem_cons.mp hseg with rfl | hseg
    · exact Or.inl rfl
    · exact (ih hseg).imp_right (List.mem_cons_of_mem _)

/-- A segment other than `**` is in every reading. -/
theorem IsReading.mem_of_ne {parts read : List Segment} (h : IsReading parts read) {seg : Segment}
    (hmem : seg ∈ parts) (hseg : seg ≠ recursive) : seg ∈ read := by
  induction h with
  | nil => exact hmem
  | keep _ _ ih =>
    rcases List.mem_cons.mp hmem with rfl | hmem
    · exact List.mem_cons_self
    · exact List.mem_cons_of_mem _ (ih hmem)
  | leaveOut _ ih => exact ih ((List.mem_cons.mp hmem).resolve_left hseg)
  | asOne _ ih => exact List.mem_cons_of_mem _ (ih ((List.mem_cons.mp hmem).resolve_left hseg))

/-- A pattern that does not end with `**` has no empty reading. -/
theorem IsReading.ne_nil {parts read : List Segment} (h : IsReading parts read)
    (hparts : parts ≠ []) (hlast : parts.getLast? ≠ some recursive) : read ≠ [] := by
  have hmem : parts.getLast hparts ∈ read := by
    refine h.mem_of_ne (List.getLast_mem hparts) fun heq => hlast ?_
    rw [List.getLast?_eq_some_getLast hparts, heq]
  exact List.ne_nil_of_mem hmem

/-! ## Cutting a text -/

theorem ofSegments_cons {parts : List Segment} (seg : Segment) (h : parts ≠ []) :
    ofSegments (seg :: parts) = seg ++ ['/'] ++ ofSegments parts := by
  unfold ofSegments
  rw [List.intercalate_cons_of_ne_nil h]

/-- A text without two stars in a row is not cut. -/
theorem cutRecursive_eq_singleton {text : List Char} (h : ¬ recursive <:+: text) :
    cutRecursive text = [text] := by
  fun_induction cutRecursive text with
  | case1 rest => exact absurd ⟨[], '/' :: rest, rfl⟩ h
  | case2 c rest _ ih =>
    rw [ih fun hrest => h (List.infix_cons hrest)]
    rfl
  | case3 => rfl

/-- A segment without two stars in a row stays whole, together with the slash behind it. -/
theorem cutRecursive_append_slash {seg : Segment} (h : ¬ recursive <:+: seg) (text : List Char) :
    cutRecursive (seg ++ ['/'] ++ text) =
      (cutRecursive text).modifyHead (seg ++ ['/'] ++ ·) := by
  induction seg with
  | nil =>
    change cutRecursive ('/' :: text) = (cutRecursive text).modifyHead ('/' :: ·)
    rw [cutRecursive.eq_2 _ _ (by simp)]
  | cons c rest ih =>
    have hrest : ¬ recursive <:+: rest := fun hinfix => h (List.infix_cons hinfix)
    -- The text is not cut at its first character, which would have to be followed by a star.
    have hcut : ∀ other, c = '*' → rest ++ ['/'] ++ text ≠ '*' :: '/' :: other := by
      intro other hc heq
      refine h (recursive_infix_cons_iff.mpr (Or.inl ⟨hc, ?_⟩))
      cases rest with
      | nil => exact absurd (List.cons.inj heq).1 (by decide)
      | cons d others => rw [List.head?_cons, (List.cons.inj heq).1]
    change cutRecursive (c :: (rest ++ ['/'] ++ text)) = _
    rw [cutRecursive.eq_2 _ _ hcut, ih hrest, List.modifyHead_modifyHead]
    rfl

/-- Cutting goes from segment to segment. -/
theorem cutRecursive_ofSegments_cons {seg : Segment} {parts : List Segment} (hseg : IsTidy seg)
    (hparts : parts ≠ []) :
    cutRecursive (ofSegments (seg :: parts)) =
      if seg = recursive then [] :: cutRecursive (ofSegments parts)
      else (cutRecursive (ofSegments parts)).modifyHead (seg ++ ['/'] ++ ·) := by
  rw [ofSegments_cons seg hparts]
  split
  next h =>
    subst h
    rfl
  next h => exact cutRecursive_append_slash (hseg.2.resolve_left h) _

/-- A text is cut once for every `**` segment. -/
theorem recursiveCount_ofSegments {parts : List Segment} (htidy : ∀ seg ∈ parts, IsTidy seg)
    (hparts : parts ≠ []) (hlast : parts.getLast? ≠ some recursive) :
    recursiveCount (ofSegments parts) = parts.count recursive := by
  suffices hlength : (cutRecursive (ofSegments parts)).length = parts.count recursive + 1 by
    unfold recursiveCount
    omega
  induction parts with
  | nil => exact absurd rfl hparts
  | cons seg rest ih =>
    have hseg : IsTidy seg := htidy seg List.mem_cons_self
    by_cases hrest : rest = []
    · subst hrest
      have hne : seg ≠ recursive := by simpa using hlast
      rw [ofSegments, List.intercalate_singleton,
        cutRecursive_eq_singleton (hseg.2.resolve_left hne), List.count_cons_of_ne hne]
      rfl
    · have hcount := ih (fun other h => htidy other (List.mem_cons_of_mem seg h)) hrest (by
        rwa [List.getLast?_cons_of_ne_nil hrest] at hlast)
      rw [cutRecursive_ofSegments_cons hseg hrest]
      split
      next h => rw [h, List.count_cons_self, List.length_cons, hcount]
      next h => rw [List.length_modifyHead, hcount, List.count_cons_of_ne h]

/-! ## Joining the parts -/

theorem mem_readings_cons {part : String} {rest : List String} (h : rest ≠ []) {text : String} :
    text ∈ readings (part :: rest) ↔
      ∃ tail ∈ readings rest, text = part ++ tail ∨ text = part ++ "*/" ++ tail := by
  cases rest with
  | nil => exact absurd rfl h
  | cons next others =>
    rw [readings.eq_3 _ _ (by simp), Text.mem_unite, List.mem_map, List.mem_map]
    constructor
    · intro htext
      rcases htext with ⟨tail, htail, rfl⟩ | ⟨tail, htail, rfl⟩
      · exact ⟨tail, htail, Or.inl rfl⟩
      · exact ⟨tail, htail, Or.inr rfl⟩
    · intro htext
      rcases htext with ⟨tail, htail, rfl | rfl⟩
      · exact Or.inl ⟨tail, htail, rfl⟩
      · exact Or.inr ⟨tail, htail, rfl⟩

/-- What stands in front of a text stands in front of its readings. -/
theorem mem_readings_modifyHead (front : List Char) (parts : List (List Char)) {text : String} :
    text ∈ readings ((parts.modifyHead (front ++ ·)).map String.ofList) ↔
      ∃ tail ∈ readings (parts.map String.ofList), text = String.ofList front ++ tail := by
  cases parts with
  | nil => simp [readings]
  | cons part rest =>
    by_cases hrest : rest = []
    · subst hrest
      simp [readings, String.ofList_append]
    · have hne : rest.map String.ofList ≠ [] := by simpa using hrest
      simp only [List.modifyHead_cons, List.map_cons, mem_readings_cons hne, String.ofList_append]
      constructor
      · intro htext
        rcases htext with ⟨tail, htail, rfl | rfl⟩
        · exact ⟨_, ⟨tail, htail, Or.inl rfl⟩, String.append_assoc⟩
        · exact ⟨_, ⟨tail, htail, Or.inr rfl⟩, by simp only [String.append_assoc]⟩
      · intro htext
        rcases htext with ⟨_, ⟨tail, htail, rfl | rfl⟩, rfl⟩
        · exact ⟨tail, htail, Or.inl String.append_assoc.symm⟩
        · exact ⟨tail, htail, Or.inr (by simp only [String.append_assoc])⟩

theorem ofList_ofSegments_cons {read : List Segment} (seg : Segment) (h : read ≠ []) :
    String.ofList (ofSegments (seg :: read)) =
      String.ofList (seg ++ ['/']) ++ String.ofList (ofSegments read) := by
  rw [ofSegments_cons seg h, String.ofList_append]

/-- The readings of the text that segments are written as. -/
def textReadings (parts : List Segment) : List String :=
  readings ((cutRecursive (ofSegments parts)).map String.ofList)

theorem textReadings_singleton {seg : Segment} (hseg : IsTidy seg) (hne : seg ≠ recursive) :
    textReadings [seg] = [String.ofList seg] := by
  unfold textReadings ofSegments
  rw [List.intercalate_singleton, cutRecursive_eq_singleton (hseg.2.resolve_left hne)]
  rfl

/-- A `**` segment in front is left out or read as `*`. -/
theorem mem_textReadings_recursive_cons {rest : List Segment} (hrest : rest ≠ []) {text : String} :
    text ∈ textReadings (recursive :: rest) ↔
      ∃ tail ∈ textReadings rest, text = tail ∨ text = "*/" ++ tail := by
  have htidy : IsTidy recursive := ⟨by decide, Or.inl rfl⟩
  have hne : (cutRecursive (ofSegments rest)).map String.ofList ≠ [] := by
    simpa using cutRecursive_ne_nil (ofSegments rest)
  unfold textReadings
  rw [cutRecursive_ofSegments_cons htidy hrest, if_pos rfl, List.map_cons, mem_readings_cons hne]
  simp only [String.ofList_nil, String.empty_append]

/-- Any other segment in front stays in front of the readings. -/
theorem mem_textReadings_cons_of_ne {seg : Segment} (hseg : IsTidy seg) (hne : seg ≠ recursive)
    {rest : List Segment} (hrest : rest ≠ []) {text : String} :
    text ∈ textReadings (seg :: rest) ↔
      ∃ tail ∈ textReadings rest, text = String.ofList (seg ++ ['/']) ++ tail := by
  unfold textReadings
  rw [cutRecursive_ofSegments_cons hseg hrest, if_neg hne, mem_readings_modifyHead]

/-- The readings of a text are the readings of its segments. -/
theorem mem_textReadings_iff {parts : List Segment} (htidy : ∀ seg ∈ parts, IsTidy seg)
    (hparts : parts ≠ []) (hlast : parts.getLast? ≠ some recursive) {text : String} :
    text ∈ textReadings parts ↔
      ∃ read, IsReading parts read ∧ text = String.ofList (ofSegments read) := by
  induction parts generalizing text with
  | nil => exact absurd rfl hparts
  | cons seg rest ih =>
    have hseg : IsTidy seg := htidy seg List.mem_cons_self
    by_cases hrest : rest = []
    · subst hrest
      have hne : seg ≠ recursive := by simpa using hlast
      have hread : ∀ read, IsReading [seg] read ↔ read = [seg] := fun read =>
        isReading_of_notMem (by simpa using Ne.symm hne)
      simp [textReadings_singleton hseg hne, hread, ofSegments]
    · rw [List.getLast?_cons_of_ne_nil hrest] at hlast
      have htails : ∀ tail, tail ∈ textReadings rest ↔
          ∃ read, IsReading rest read ∧ tail = String.ofList (ofSegments read) := fun _ =>
        ih (fun other h => htidy other (List.mem_cons_of_mem seg h)) hrest hlast
      -- A reading of the rest is not empty, so that a slash stands in front of it.
      have hjoin : ∀ first read, IsReading rest read → String.ofList (ofSegments (first :: read)) =
          String.ofList (first ++ ['/']) ++ String.ofList (ofSegments read) := fun first read h =>
        ofList_ofSegments_cons first (h.ne_nil hrest hlast)
      by_cases hne : seg = recursive
      · subst hne
        simp only [mem_textReadings_recursive_cons hrest, htails, isReading_recursive_cons]
        constructor
        · intro htext
          rcases htext with ⟨_, ⟨read, hread, rfl⟩, rfl | rfl⟩
          · exact ⟨read, ⟨read, hread, Or.inl rfl⟩, rfl⟩
          · exact ⟨one :: read, ⟨read, hread, Or.inr rfl⟩, (hjoin one read hread).symm⟩
        · intro htext
          rcases htext with ⟨_, ⟨read, hread, rfl | rfl⟩, rfl⟩
          · exact ⟨_, ⟨_, hread, rfl⟩, Or.inl rfl⟩
          · exact ⟨_, ⟨read, hread, rfl⟩, Or.inr (hjoin one read hread)⟩
      · simp only [mem_textReadings_cons_of_ne hseg hne hrest, htails, isReading_cons_of_ne hne]
        constructor
        · intro htext
          rcases htext with ⟨_, ⟨read, hread, rfl⟩, rfl⟩
          exact ⟨seg :: read, ⟨read, rfl, hread⟩, (hjoin seg read hread).symm⟩
        · intro htext
          rcases htext with ⟨_, ⟨read, rfl, hread⟩, rfl⟩
          exact ⟨_, ⟨read, hread, rfl⟩, hjoin seg read hread⟩

/-- A canonical text is cut once for every `**` segment. -/
theorem recursiveCount_canonicalize {pattern : List Char} (hstars : ¬ threeStars <:+: pattern) :
    recursiveCount (canonicalize pattern) = (canonicalSegments pattern).count recursive :=
  recursiveCount_ofSegments (isTidy_canonicalSegments hstars) (canonicalSegments_ne_nil pattern)
    (getLast?_canonicalSegments_ne hstars)

/-- A pattern is translated to the readings of its canonical form, if that does not have too many
`**` segments. -/
theorem mem_translate_iff_isReading (limit : ExpansionLimit) {pattern : String}
    (hstars : ¬ threeStars <:+: pattern.toList) {text : String} :
    text ∈ translate limit pattern ↔
      (canonicalSegments pattern.toList).count recursive ≤ limit.count ∧
        ∃ read, IsReading (canonicalSegments pattern.toList) read ∧
          text = String.ofList (ofSegments read) := by
  have htidy := isTidy_canonicalSegments hstars
  have hne := canonicalSegments_ne_nil pattern.toList
  have hlast := getLast?_canonicalSegments_ne hstars
  unfold translate
  simp only
  rw [recursiveCount_canonicalize hstars]
  split
  next h => simp [Nat.not_le.mpr h]
  next h =>
    change text ∈ textReadings (canonicalSegments pattern.toList) ↔ _
    rw [mem_textReadings_iff htidy hne hlast, and_iff_right (Nat.not_lt.mp h)]

/-- The segments of a reading are found again in its text. -/
theorem segments_ofSegments_of_isReading {pattern : List Char} (hstars : ¬ threeStars <:+: pattern)
    {read : List Segment} (h : IsReading (canonicalSegments pattern) read) :
    segments (ofSegments read) = read := by
  apply segments_ofSegments
  · exact h.ne_nil (canonicalSegments_ne_nil pattern) (getLast?_canonicalSegments_ne hstars)
  · intro seg hseg
    rcases h.mem hseg with rfl | hpart
    · decide
    · exact slash_notMem_canonicalSegments pattern seg hpart

/-- Up to the requested number of `**` segments, which is never more than twenty, a pattern is
translated to the readings of the segments of its canonical text.  Beyond that it is not translated
at all. -/
theorem translate_segments_of_canonicalize {pattern : String}
    (hstars : ¬ threeStars <:+: pattern.toList) (cap : Nat) :
    (min cap 20 < (segments (canonicalize pattern.toList)).count recursive →
      translate (.clamp cap) pattern = []) ∧
    ((segments (canonicalize pattern.toList)).count recursive ≤ min cap 20 →
      ∀ text, text ∈ translate (.clamp cap) pattern ↔
        ∃ read, IsReading (segments (canonicalize pattern.toList)) read ∧
          text = String.ofList (ofSegments read)) := by
  rw [segments_canonicalize]
  constructor
  · intro hmore
    apply List.eq_nil_iff_forall_not_mem.mpr
    intro text htext
    exact Nat.not_le.mpr hmore ((mem_translate_iff_isReading _ hstars).mp htext).1
  · intro hfew text
    have hlimit : (canonicalSegments pattern.toList).count recursive ≤
        (ExpansionLimit.clamp cap).count := hfew
    rw [mem_translate_iff_isReading _ hstars, and_iff_right hlimit]

/-- Three `**` segments are read independently of each other, two of them side by side, unless only
two are expanded. -/
theorem translate_segments_of_canonicalize_three :
    ¬ threeStars <:+: "**/a/**/**/b".toList ∧
    (segments (canonicalize "**/a/**/**/b".toList)).count recursive = 3 ∧
    translate (.clamp 2) "**/a/**/**/b" = [] ∧
    ∀ text, text ∈ translate (.clamp 3) "**/a/**/**/b" ↔
      ∃ read, IsReading (segments (canonicalize "**/a/**/**/b".toList)) read ∧
        text = String.ofList (ofSegments read) := by
  have hstars : ¬ threeStars <:+: "**/a/**/**/b".toList := by decide +kernel
  have hthree : (segments (canonicalize "**/a/**/**/b".toList)).count recursive = 3 := by
    rw [segments_canonicalize]
    decide +kernel
  refine ⟨hstars, hthree, ?_, ?_⟩
  · exact (translate_segments_of_canonicalize hstars 2).1 (by rw [hthree]; decide)
  · exact (translate_segments_of_canonicalize hstars 3).2 (by rw [hthree]; decide)

end Pattern
end AttributeScope
