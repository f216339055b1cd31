import AttributeScope.Proofs.TextReadings

/-!
# Stars in a row in translations

The scope dialect has no `**`.  A translation holds two stars in a row exactly where the canonical
text does without a slash behind them, since every `**` with a slash behind it is left out or read
as one star.  Canonical texts hold such loose stars only if a segment of the pattern has a run of
stars that the two passes of halving do not reduce to one star.

Main results:

- Theorem `exists_isTextReading_recursive_iff`: some reading of a text has two stars in a row
  exactly if the text has loose stars.
- Theorem `not_hasLooseStars_canonicalize`: short runs of stars leave no loose stars.
- Theorem `translate_free_of_recursive_iff`: which patterns have translations without `**`.
-/

namespace AttributeScope
namespace Pattern

/-- Whether a text holds two stars in a row that no slash follows. -/
def HasLooseStars (text : List Char) : Prop :=
  ∃ before after, text = before ++ recursive ++ after ∧ after.head? ≠ some '/'

/-! ## Loose stars of a text -/

section LooseStars

variable {c : Char} {text : List Char}

theorem recursive_infix_of_hasLooseStars (h : HasLooseStars text) : recursive <:+: text := by
  rcases h with ⟨before, after, rfl, _⟩
  exact ⟨before, after, rfl⟩

/-- Loose stars stand in front of a text or behind its first symbol. -/
theorem hasLooseStars_cons_iff :
    HasLooseStars (c :: text) ↔
      (recursive <+: c :: text ∧ ¬ cutMark <+: c :: text) ∨ HasLooseStars text := by
  constructor
  · intro h
    rcases h with ⟨before, after, heq, hafter⟩
    cases before with
    | nil =>
      left
      rw [List.nil_append] at heq
      rw [heq]
      refine ⟨List.prefix_append recursive after, fun hcut => hafter ?_⟩
      rcases hcut with ⟨rest, hrest⟩
      have hslash : '/' :: rest = after := (List.append_right_inj recursive).mp hrest
      rw [← hslash]
      rfl
    | cons d front =>
      right
      exact ⟨front, after, (List.cons.inj heq).2, hafter⟩
  · intro h
    rcases h with ⟨⟨after, hafter⟩, hcut⟩ | ⟨before, after, rfl, hafter⟩
    · refine ⟨[], after, hafter.symm, fun hslash => hcut ?_⟩
      rcases List.head?_eq_some_iff.mp hslash with ⟨rest, rfl⟩
      exact ⟨rest, hafter⟩
    · exact ⟨c :: before, after, rfl, hafter⟩

/-- In front of a symbol that is no star only the rest of the text can have loose stars. -/
theorem hasLooseStars_cons_of_not_pair (h : ¬ (c = '*' ∧ text.head? = some '*')) :
    HasLooseStars (c :: text) ↔ HasLooseStars text := by
  have hfront : ¬ stars 2 <+: c :: text := not_stars_prefix_cons h
  rw [hasLooseStars_cons_iff, or_iff_right fun hboth => hfront hboth.1]

theorem hasLooseStars_cutMark_append : HasLooseStars (cutMark ++ text) ↔ HasLooseStars text := by
  change HasLooseStars ('*' :: '*' :: '/' :: text) ↔ _
  rw [hasLooseStars_cons_iff, or_iff_right fun hfront => hfront.2 ⟨text, rfl⟩,
    hasLooseStars_cons_of_not_pair (by simp), hasLooseStars_cons_of_not_pair (by simp)]

theorem not_hasLooseStars_nil : ¬ HasLooseStars [] := by
  intro h
  exact absurd (recursive_infix_of_hasLooseStars h) (by decide)

end LooseStars

/-! ## Readings with stars in a row -/

/-- A reading begins with a star exactly if the text does. -/
theorem exists_isTextReading_head?_iff (text : List Char) :
    (∃ read, IsTextReading text read ∧ read.head? = some '*') ↔ text.head? = some '*' := by
  cases text using cut_induction with
  | nil => simp [isTextReading_nil]
  | cut rest _ =>
    rcases exists_isTextReading rest with ⟨tail, htail⟩
    refine iff_of_true ⟨'*' :: '/' :: tail, ?_, rfl⟩ rfl
    exact isTextReading_cutMark_append.mpr ⟨tail, htail, Or.inr rfl⟩
  | keep c rest hcut _ =>
    simp only [isTextReading_cons hcut]
    constructor
    · intro h
      rcases h with ⟨_, ⟨tail, rfl, _⟩, hhead⟩
      exact hhead
    · intro hhead
      rcases exists_isTextReading rest with ⟨tail, htail⟩
      exact ⟨c :: tail, ⟨tail, rfl, htail⟩, hhead⟩

/-- Some reading of a text has two stars in a row exactly if the text has loose stars. -/
theorem exists_isTextReading_recursive_iff (text : List Char) :
    (∃ read, IsTextReading text read ∧ recursive <:+: read) ↔ HasLooseStars text := by
  induction text using cut_induction with
  | nil =>
    refine iff_of_false ?_ not_hasLooseStars_nil
    intro h
    rcases h with ⟨read, hread, hinfix⟩
    rw [isTextReading_nil.mp hread] at hinfix
    exact absurd hinfix (by decide)
  | cut rest ih =>
    rw [hasLooseStars_cutMark_append, ← ih]
    simp only [isTextReading_cutMark_append]
    constructor
    · intro h
      rcases h with ⟨_, ⟨tail, htail, rfl | rfl⟩, hinfix⟩
      · exact ⟨_, htail, hinfix⟩
      · refine ⟨tail, htail, ?_⟩
        rwa [recursive_infix_cons_iff, or_iff_right (by simp), recursive_infix_cons_iff,
          or_iff_right (by simp)] at hinfix
    · intro h
      rcases h with ⟨tail, htail, hinfix⟩
      exact ⟨tail, ⟨tail, htail, Or.inl rfl⟩, hinfix⟩
  | keep c rest hcut ih =>
    have hfront : recursive <+: c :: rest ↔ c = '*' ∧ rest.head? = some '*' := by
      rw [← stars_one_prefix_iff]
      exact @stars_prefix_cons_iff 1 c rest
    rw [hasLooseStars_cons_iff, and_iff_left hcut, hfront, ← exists_isTextReading_head?_iff, ← ih]
    simp only [isTextReading_cons hcut]
    constructor
    · intro h
      rcases h with ⟨_, ⟨tail, rfl, htail⟩, hinfix⟩
      rcases recursive_infix_cons_iff.mp hinfix with ⟨hc, hhead⟩ | hrest
      · exact Or.inl ⟨hc, tail, htail, hhead⟩
      · exact Or.inr ⟨tail, htail, hrest⟩
    · intro h
      rcases h with ⟨hc, tail, htail, hhead⟩ | ⟨tail, htail, hrest⟩
      · exact ⟨c :: tail, ⟨tail, rfl, htail⟩, recursive_infix_cons_iff.mpr (Or.inl ⟨hc, hhead⟩)⟩
      · exact ⟨c :: tail, ⟨tail, rfl, htail⟩, recursive_infix_cons_iff.mpr (Or.inr hrest)⟩

/-! ## Canonical texts -/

/-- A segment without two stars in a row adds no loose stars. -/
theorem HasLooseStars.of_append_slash {seg text : List Char} (hseg : ¬ recursive <:+: seg)
    (h : HasLooseStars (seg ++ '/' :: text)) : HasLooseStars text := by
  induction seg with
  | nil => exact (hasLooseStars_cons_of_not_pair (by simp)).mp h
  | cons c rest ih =>
    rw [recursive_infix_cons_iff, not_or] at hseg
    refine ih hseg.2 ((hasLooseStars_cons_of_not_pair fun hpair => ?_).mp h)
    cases rest with
    | nil => exact absurd hpair.2 (by simp)
    | cons d others => exact hseg.1 hpair

/-- Tidy segments that do not end with `**` leave no loose stars. -/
theorem not_hasLooseStars_ofSegments {parts : List Segment} (htidy : ∀ seg ∈ parts, IsTidy seg)
    (hlast : parts.getLast? ≠ some recursive) : ¬ HasLooseStars (ofSegments parts) := by
  induction parts with
  | nil => exact not_hasLooseStars_nil
  | cons seg rest ih =>
    have hseg : IsTidy seg := htidy seg List.mem_cons_self
    by_cases hrest : rest = []
    · subst hrest
      have hne : seg ≠ recursive := by simpa using hlast
      intro h
      rw [ofSegments, List.intercalate_singleton] at h
      exact hseg.2.resolve_left hne (recursive_infix_of_hasLooseStars h)
    · rw [List.getLast?_cons_of_ne_nil hrest] at hlast
      have hothers := ih (fun other h => htidy other (List.mem_cons_of_mem seg h)) hlast
      rw [ofSegments_cons seg hrest]
      intro h
      rcases hseg.2 with rfl | hinfix
      · exact hothers (hasLooseStars_cutMark_append.mp h)
      · rw [List.append_assoc] at h
        exact hothers (h.of_append_slash hinfix)

/-- Runs of stars that are short enough leave no loose stars in the canonical text. -/
theorem not_hasLooseStars_canonicalize {pattern : List Char}
    (hshort : ∀ seg ∈ sourceSegments pattern, ¬ IsOverstarred seg) :
    ¬ HasLooseStars (canonicalize pattern) := by
  apply not_hasLooseStars_ofSegments
  · exact isTidy_canonicalSegments_of_not_isOverstarred hshort
  · apply getLast?_canonicalSegments_ne_of_not_suffix
    intro seg hseg hsuffix
    exact hshort seg hseg (Or.inr (Or.inr hsuffix))

/-- No translation of a pattern holds `**` exactly if there is none, or if a slash stands behind
every `**` of the canonical text.  It does if no segment of the pattern has five stars in a row,
four in front or three at its end. -/
theorem translate_free_of_recursive_iff (cap : Nat) (pattern : String) :
    ((∀ text ∈ translate (.clamp cap) pattern, ¬ recursive <:+: text.toList) ↔
      translate (.clamp cap) pattern = [] ∨ ¬ HasLooseStars (canonicalize pattern.toList)) ∧
    ((∀ seg ∈ sourceSegments pattern.toList, ¬ IsOverstarred seg) →
      ∀ text ∈ translate (.clamp cap) pattern, ¬ recursive <:+: text.toList) := by
  have hfree : (∀ text ∈ translate (.clamp cap) pattern, ¬ recursive <:+: text.toList) ↔
      translate (.clamp cap) pattern = [] ∨ ¬ HasLooseStars (canonicalize pattern.toList) := by
    rw [forall_mem_translate_iff (p := fun text => ¬ recursive <:+: text),
      ← exists_isTextReading_recursive_iff]
    simp only [not_exists, not_and]
  refine ⟨hfree, fun hshort => hfree.mpr (Or.inr ?_)⟩
  exact not_hasLooseStars_canonicalize hshort

/-- Three stars at the end of a segment are not reduced to one. -/
theorem not_translate_free_of_recursive_of_three_stars :
    ¬ ∀ text ∈ translate (.clamp 10) "a***", ¬ recursive <:+: text.toList := by
  have hall : translate (.clamp 10) "a***" = ["a**"] := by decide +kernel
  rw [hall]
  intro h
  exact h "a**" List.mem_cons_self (by decide)

end Pattern
end AttributeScope
