import AttributeScope.Proofs.DirectiveLines

/-!
# Lines that are put together

A line that is meant to have a directive is put together from a pattern, which may be negated, any
other words, and the attribute with a value.  Between the words are gaps of blanks, of any kind and
number.  This module says that every such line is read, and that it is read as it was meant.

Main results:

- Theorem `words_text`: the words of a line are those that it was put together from.
- Theorem `ofChars?_text`: a well-formed line has the directive that is meant.
- Theorem `exists_ofLine?_eq_some`: the parts of a line are found again in its directive.
-/

namespace AttributeScope
namespace Directive

open Text

/-- The parts of a line that is meant to be read. -/
structure WrittenLine where
  /-- What stands in front of the pattern. -/
  indent : List Char
  negated : Bool
  pattern : List Char
  /-- The words between the pattern and the attribute, each behind the gap in front of it. -/
  others : List (List Char × List Char)
  /-- The gap in front of the attribute. -/
  gap : List Char
  /-- What stands in the last word before the attribute's name. -/
  qualifier : List Char
  /-- What follows the attribute's name. -/
  value : List Char

namespace WrittenLine

/-- The last word of a line. -/
def key (line : WrittenLine) : List Char :=
  line.qualifier ++ attributeName ++ line.value

/-- Words, each behind its gap. -/
def spaced (pieces : List (List Char × List Char)) : List Char :=
  pieces.flatMap fun piece => piece.1 ++ piece.2

/-- The line with all its parts. -/
def text (line : WrittenLine) : List Char :=
  line.indent ++
    (pathToken line.negated line.pattern ++ spaced (line.others ++ [(line.gap, line.key)]))

/-- The directive that is meant. -/
def directive (line : WrittenLine) : Directive where
  path := String.ofList line.pattern
  generated := line.value != clearedSuffix && line.key.head? != some '-'
  negated := line.negated

/-- The parts of a line are what they should be: words, gaps between them and a value.  A pattern
that is not negated does not look so, and the line does not look like a comment. -/
structure IsWellFormed (line : WrittenLine) : Prop where
  indent_blank : IsBlankRun line.indent
  isWord_pattern : IsWord line.pattern
  plain_of_not_negated : line.negated = false → line.pattern.head? ≠ some '!'
  others_spaced : ∀ piece ∈ line.others, IsGap piece.1 ∧ IsWord piece.2
  isGap_gap : IsGap line.gap
  qualifier_not_blank : ∀ c ∈ line.qualifier, isBlank c = false
  value_mem : line.value ∈ valueTexts
  head?_ne_hash : line.text.head? ≠ some '#'

/-- Words are found again behind their gaps. -/
theorem words_append_spaced {word : List Char} {pieces : List (List Char × List Char)}
    (hword : IsWord word) (hpieces : ∀ piece ∈ pieces, IsGap piece.1 ∧ IsWord piece.2) :
    words (word ++ spaced pieces) = word :: pieces.map Prod.snd := by
  induction pieces generalizing word with
  | nil =>
    change words (word ++ []) = [word]
    rw [List.append_nil, words_of_not_isBlank hword.ne_nil hword.not_isBlank]
  | cons piece rest ih =>
    rcases hpieces piece List.mem_cons_self with ⟨hgap, hnext⟩
    have hrest : ∀ piece ∈ rest, IsGap piece.1 ∧ IsWord piece.2 := fun other hother =>
      hpieces other (List.mem_cons_of_mem piece hother)
    have hspaced : spaced (piece :: rest) = piece.1 ++ (piece.2 ++ spaced rest) := by
      unfold spaced
      rw [List.flatMap_cons, List.append_assoc]
    rw [hspaced, words_append_gap_append hgap, ih hnext hrest,
      words_of_not_isBlank hword.ne_nil hword.not_isBlank]
    rfl

section WellFormed

variable {line : WrittenLine} (h : line.IsWellFormed)
include h

theorem isWord_pathToken : IsWord (pathToken line.negated line.pattern) where
  ne_nil := by
    unfold pathToken
    split
    · exact List.cons_ne_nil '!' line.pattern
    · exact h.isWord_pattern.ne_nil
  not_isBlank := forall_mem_pathToken_iff.mpr h.isWord_pattern.not_isBlank

theorem isWord_key : IsWord line.key := by
  have hvalue : line.value ∈ doubledValue :: valueTexts := List.mem_cons_of_mem _ h.value_mem
  have hattribute := isWord_attribute hvalue
  unfold key
  rw [List.append_assoc]
  refine ⟨List.append_ne_nil_of_right_ne_nil _ hattribute.ne_nil, ?_⟩
  intro c hc
  rcases List.mem_append.mp hc with hc | hc
  · exact h.qualifier_not_blank c hc
  · exact hattribute.not_isBlank c hc

theorem words_text :
    words line.text =
      pathToken line.negated line.pattern :: (line.others.map Prod.snd ++ [line.key]) := by
  have hpieces : ∀ piece ∈ line.others ++ [(line.gap, line.key)],
      IsGap piece.1 ∧ IsWord piece.2 := by
    intro piece hpiece
    rcases List.mem_append.mp hpiece with hother | hlast
    · exact h.others_spaced piece hother
    · obtain rfl := List.mem_singleton.mp hlast
      exact ⟨h.isGap_gap, isWord_key h⟩
  unfold text
  rw [words_blanks_append h.indent_blank,
    words_append_spaced (isWord_pathToken h) hpieces, List.map_append]
  rfl

omit h in
theorem key_suffix_text (line : WrittenLine) : line.key <:+ line.text := by
  unfold text spaced
  rw [List.flatMap_append]
  refine ⟨line.indent ++ (pathToken line.negated line.pattern ++
    (line.others.flatMap (fun piece => piece.1 ++ piece.2) ++ line.gap)), ?_⟩
  simp

/-- A well-formed line spells the directive that is meant. -/
theorem spells_text : Spells valueTexts line.text line.directive where
  head?_ne_hash := h.head?_ne_hash
  two_le_length := by
    rw [words_text h]
    simp
  head?_words := by
    unfold directive
    rw [words_text h, String.toList_ofList]
    rfl
  isWord_path := by
    unfold directive
    rw [String.toList_ofList]
    exact h.isWord_pattern
  plain_of_not_negated := by
    unfold directive
    rw [String.toList_ofList]
    exact h.plain_of_not_negated
  exists_key := by
    refine ⟨line.qualifier ++ attributeName, line.value, h.value_mem, ?_, key_suffix_text line,
      List.suffix_append _ _, ?_⟩
    · rw [words_text h, ← List.cons_append, List.getLast?_concat]
      rfl
    · unfold directive
      rw [Bool.and_eq_false_iff, bne_eq_false_iff_eq, bne_eq_false_iff_eq]
      rfl

/-- A well-formed line is read, with a carriage return behind it or without. -/
theorem ofChars?_text {ending : List Char} (hending : IsLineEnd ending) :
    ofChars? (line.text ++ ending) = some line.directive := by
  have hlast : line.text.getLast? ≠ some '\r' := fun hreturn =>
    absurd (not_isBlank_of_word_suffix (isWord_key h) (key_suffix_text line) hreturn) (by decide)
  rw [ofChars?_eq_some_iff, withoutSuffix_append_lineEnd hlast hending]
  exact (spells_text h).mono fun value hvalue => List.mem_cons_of_mem doubledValue hvalue

end WellFormed

end WrittenLine

/-- Every line that is put together from a pattern, other words and the attribute has a directive:
the pattern is kept as it is, the directive is negated if the line says so, and it sets the
attribute unless `=false` follows its name or a `-` begins the last word. -/
theorem exists_ofLine?_eq_some {line : WrittenLine} (h : line.IsWellFormed) {ending : List Char}
    (hending : IsLineEnd ending) :
    ∃ d, ofLine? (String.ofList (line.text ++ ending)) = some d ∧
      d.path = String.ofList line.pattern ∧
      d.negated = line.negated ∧
      (d.generated = true ↔ line.value ≠ clearedSuffix ∧ line.key.head? ≠ some '-') := by
  refine ⟨line.directive, ?_, rfl, rfl, ?_⟩
  · unfold ofLine?
    rw [String.toList_ofList]
    exact WrittenLine.ofChars?_text h hending
  · unfold WrittenLine.directive
    rw [Bool.and_eq_true, bne_iff_ne, bne_iff_ne]

/-- A negated pattern behind a tab, another attribute and an attribute that is unset, with wide
blanks between them and a carriage return at the end. -/
theorem exists_ofLine?_eq_some_unset :
    let line : WrittenLine :=
      { indent := ['\t']
        negated := true
        pattern := "!gen/**".toList
        others := [(['\u00A0', ' '], "text=auto".toList)]
        gap := ['\u3000']
        qualifier := ['-']
        value := setSuffix }
    line.IsWellFormed ∧ IsLineEnd ['\r'] ∧
      String.ofList (line.text ++ ['\r']) =
        "\t!!gen/**\u00A0 text=auto\u3000-linguist-generated=true\r" ∧
      ∃ d, ofLine? (String.ofList (line.text ++ ['\r'])) = some d ∧
        d.path = "!gen/**" ∧ d.negated = true ∧ d.generated = false := by
  intro line
  have hwell : line.IsWellFormed :=
    { indent_blank := by decide
      isWord_pattern := by decide
      plain_of_not_negated := by decide
      others_spaced := by decide
      isGap_gap := by decide
      qualifier_not_blank := by simp [line, show isBlank '-' = false by decide]
      value_mem := by decide
      head?_ne_hash := by decide }
  have hending : IsLineEnd ['\r'] := Or.inr rfl
  rcases exists_ofLine?_eq_some hwell hending with ⟨d, hread, hpath, hnegated, hgenerated⟩
  refine ⟨hwell, hending, by decide +kernel, d, hread, hpath, hnegated, ?_⟩
  rw [← Bool.not_eq_true, hgenerated]
  decide

end Directive
end AttributeScope
