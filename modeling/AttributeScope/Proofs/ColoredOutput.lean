import AttributeScope.Proofs.ControlSequences
import AttributeScope.Report.Text

/-!
# Colored reports and translations

Reports and lists of translations are written as pieces, some of which are styled.  The texts that
they show stand in these pieces as they are, so that color changes nothing but the look.

Main results:

- Theorem `onlyAddsColor_render`: color changes nothing but the look of pieces.
- Theorem `Report.isUnescaped_pieces`: the escape character comes from shown texts only.
- Theorem `output_only_adds_color`: color changes nothing but the look of reports and of lists of
  translations.
-/

namespace AttributeScope

open Terminal
open Terminal.Piece (isStyledInLine_plain isStyledInLine_styled isUnescaped_plain
  isUnescaped_styled)

/-- Whether color changes nothing but the look of an output that shows certain texts, none of which
has the escape character: without its control sequences the colored output is the uncolored one, and
if no text has a line break, no style reaches over the end of a line. -/
def OnlyAddsColor (texts : List String) (output : Bool → String) : Prop :=
  (∀ text ∈ texts, escape ∉ text.toList) →
    withoutSequences (output true) = output false ∧
      ((∀ text ∈ texts, '\n' ∉ text.toList) → IsResetAtLineEnds (output true))

/-- Color changes nothing but the look of pieces with the texts of the output. -/
theorem onlyAddsColor_render {texts : List String} {pieces : List Piece}
    (hescape : (∀ text ∈ texts, escape ∉ text.toList) → ∀ piece ∈ pieces, piece.IsUnescaped)
    (hlines : (∀ text ∈ texts, '\n' ∉ text.toList) → ∀ piece ∈ pieces, piece.IsStyledInLine) :
    OnlyAddsColor texts fun colored => render colored pieces := by
  intro htexts
  refine ⟨withoutSequences_render (hescape htexts), fun hbreaks => ?_⟩
  exact isResetAtLineEnds_render (hescape htexts) (hlines hbreaks)

/-- A character is in none of two texts exactly if it is not in both in a row. -/
theorem notMem_append {c : Char} {front back : String} :
    c ∉ (front ++ back).toList ↔ c ∉ front.toList ∧ c ∉ back.toList := by
  rw [String.toList_append, List.mem_append, not_or]

/-! ## Warnings -/

/-- A warning has no escape character unless its message has one. -/
theorem isUnescaped_warningLine {message : String} (h : escape ∉ message.toList) :
    ∀ piece ∈ warningLine message, piece.IsUnescaped := by
  simp only [warningLine, List.forall_mem_cons, isUnescaped_styled, isUnescaped_plain,
    notMem_append]
  exact ⟨by decide, ⟨⟨by decide, h⟩, by decide⟩, List.forall_mem_nil _⟩

/-- Only the word that begins a warning is styled, and the line ends outside of any style. -/
theorem isStyledInLine_warningLine (message : String) :
    ∀ piece ∈ warningLine message, piece.IsStyledInLine := by
  simp only [warningLine, List.forall_mem_cons, isStyledInLine_styled]
  exact ⟨by decide, isStyledInLine_plain _, List.forall_mem_nil _⟩

/-! ## Scopes -/

namespace NamedScope

/-- The texts that are shown of a scope. -/
def texts (scope : NamedScope) : List String := scope.name :: scope.pattern :: scope.color.toList

variable {scope : NamedScope}

/-- The lines of a scope have no escape character unless its texts have one. -/
theorem isUnescaped_pieces (h : ∀ text ∈ scope.texts, escape ∉ text.toList) :
    ∀ piece ∈ scope.pieces, piece.IsUnescaped := by
  simp only [texts, List.forall_mem_cons] at h
  rcases h with ⟨hname, hpattern, hcolor⟩
  simp only [pieces, List.forall_mem_append, List.forall_mem_cons, isUnescaped_styled,
    isUnescaped_plain]
  refine ⟨⟨⟨hname, List.forall_mem_nil _⟩, ?_⟩, by decide, ?_, by decide, List.forall_mem_nil _⟩
  · cases hcase : scope.color with
    | none => exact List.forall_mem_nil _
    | some color =>
      have hshown : escape ∉ color.toList := hcolor color (by simp [hcase])
      simp only [List.forall_mem_cons, isUnescaped_plain, notMem_append]
      exact ⟨⟨⟨by decide, hshown⟩, by decide⟩, List.forall_mem_nil _⟩
  · split
    · exact isUnescaped_styled.mpr (by decide)
    · exact isUnescaped_styled.mpr (notMem_append.mpr ⟨by decide, hpattern⟩)

/-- Without line breaks in its texts, no style of a scope reaches over the end of a line. -/
theorem isStyledInLine_pieces (h : ∀ text ∈ scope.texts, '\n' ∉ text.toList) :
    ∀ piece ∈ scope.pieces, piece.IsStyledInLine := by
  simp only [texts, List.forall_mem_cons] at h
  rcases h with ⟨hname, hpattern, -⟩
  simp only [pieces, List.forall_mem_append, List.forall_mem_cons, isStyledInLine_styled,
    isStyledInLine_plain]
  refine ⟨⟨⟨hname, List.forall_mem_nil _⟩, ?_⟩, trivial, ?_, trivial, List.forall_mem_nil _⟩
  · cases scope.color with
    | none => exact List.forall_mem_nil _
    | some color => exact List.forall_mem_singleton.mpr (isStyledInLine_plain _)
  · split
    · exact isStyledInLine_styled.mpr (by decide)
    · exact isStyledInLine_styled.mpr (notMem_append.mpr ⟨by decide, hpattern⟩)

end NamedScope

/-! ## Reports -/

/-- Numbers are written in digits. -/
theorem escape_notMem_counted (count : Nat) {one many : String} (hone : escape ∉ one.toList)
    (hmany : escape ∉ many.toList) : escape ∉ (counted count one many).toList := by
  have hdigits : escape ∉ (toString count).toList := by
    intro hmem
    have hdigit : escape.isDigit := by
      rw [Nat.toString_eq_repr, Nat.toList_repr] at hmem
      exact Nat.isDigit_of_mem_toDigits (by decide) (by decide) hmem
    exact absurd hdigit (by decide)
  unfold counted
  rw [notMem_append, notMem_append]
  refine ⟨⟨hdigits, by decide⟩, ?_⟩
  split
  · exact hone
  · exact hmany

namespace Report

variable {report : Report}

/-- The texts that are shown of a report. -/
def texts (report : Report) : List String :=
  report.generated.texts ++ report.nonGenerated.texts ++ report.unreadable

/-- The line that says how much was found is made of numbers and fixed words. -/
theorem escape_notMem_summary (report : Report) : escape ∉ report.summary.toList := by
  have hjoined : report.summary =
      counted report.files.length "directive file" "directive files" ++ ", " ++
        counted report.stats.directives "directive" "directives" ++ ", " ++
        counted report.classification.size "pattern" "patterns" := by
    unfold summary
    rw [← String.toList_inj]
    simp
  rw [hjoined]
  simp only [notMem_append]
  refine ⟨⟨⟨⟨?_, by decide⟩, ?_⟩, by decide⟩, ?_⟩
  all_goals exact escape_notMem_counted _ (by decide) (by decide)

/-- Of all warnings, only those about unreadable files show texts from outside. -/
theorem escape_notMem_warnings (h : ∀ path ∈ report.unreadable, escape ∉ path.toList) :
    ∀ message ∈ report.warnings, escape ∉ message.toList := by
  simp only [warnings, List.forall_mem_append, List.forall_mem_map]
  refine ⟨⟨?_, ?_⟩, fun path hpath => notMem_append.mpr ⟨by decide, h path hpath⟩⟩
  · split
    · exact List.forall_mem_singleton.mpr
        (notMem_append.mpr ⟨escape_notMem_counted _ (by decide) (by decide), by decide⟩)
    · exact List.forall_mem_nil _
  · split
    · exact List.forall_mem_singleton.mpr
        (notMem_append.mpr ⟨escape_notMem_counted _ (by decide) (by decide), by decide⟩)
    · exact List.forall_mem_nil _

/-- The escape character comes from shown texts only. -/
theorem isUnescaped_pieces (h : ∀ text ∈ report.texts, escape ∉ text.toList) :
    ∀ piece ∈ report.pieces, piece.IsUnescaped := by
  simp only [texts, List.forall_mem_append] at h
  rcases h with ⟨⟨hgenerated, hothers⟩, hunreadable⟩
  simp only [pieces, List.forall_mem_append, List.forall_mem_singleton, List.forall_mem_flatMap,
    isUnescaped_plain, notMem_append]
  refine ⟨⟨⟨⟨escape_notMem_summary report, by decide⟩, NamedScope.isUnescaped_pieces hgenerated⟩,
    NamedScope.isUnescaped_pieces hothers⟩, ?_⟩
  intro message hmessage
  exact isUnescaped_warningLine (escape_notMem_warnings hunreadable message hmessage)

/-- Without line breaks in its texts, no style of a report reaches over the end of a line. -/
theorem isStyledInLine_pieces (h : ∀ text ∈ report.texts, '\n' ∉ text.toList) :
    ∀ piece ∈ report.pieces, piece.IsStyledInLine := by
  simp only [texts, List.forall_mem_append] at h
  rcases h with ⟨⟨hgenerated, hothers⟩, -⟩
  simp only [pieces, List.forall_mem_append, List.forall_mem_singleton, List.forall_mem_flatMap]
  refine ⟨⟨⟨isStyledInLine_plain _, NamedScope.isStyledInLine_pieces hgenerated⟩,
    NamedScope.isStyledInLine_pieces hothers⟩, ?_⟩
  intro message _
  exact isStyledInLine_warningLine message

end Report

/-! ## Translations -/

namespace Translation

variable {translation : Translation}

/-- The texts that are shown of a pattern and its translations. -/
def texts (translation : Translation) : List String := translation.pattern :: translation.variants

/-- The lines of a pattern have no escape character unless the pattern or a translation has one. -/
theorem isUnescaped_pieces (h : ∀ text ∈ translation.texts, escape ∉ text.toList) :
    ∀ piece ∈ translation.pieces, piece.IsUnescaped := by
  simp only [texts, List.forall_mem_cons] at h
  rcases h with ⟨hpattern, hvariants⟩
  simp only [pieces, List.forall_mem_append, List.forall_mem_cons, isUnescaped_styled,
    isUnescaped_plain]
  refine ⟨⟨hpattern, by decide, List.forall_mem_nil _⟩, ?_⟩
  split
  · exact isUnescaped_warningLine (by decide)
  · simp only [List.forall_mem_flatMap, List.forall_mem_cons, isUnescaped_styled,
      isUnescaped_plain, notMem_append]
    intro variant hvariant
    exact ⟨⟨by decide, hvariants variant hvariant⟩, by decide, List.forall_mem_nil _⟩

/-- Without line breaks in the pattern and its translations, no style reaches over the end of a
line. -/
theorem isStyledInLine_pieces (h : ∀ text ∈ translation.texts, '\n' ∉ text.toList) :
    ∀ piece ∈ translation.pieces, piece.IsStyledInLine := by
  simp only [texts, List.forall_mem_cons] at h
  rcases h with ⟨hpattern, hvariants⟩
  simp only [pieces, List.forall_mem_append, List.forall_mem_cons, isStyledInLine_styled,
    isStyledInLine_plain]
  refine ⟨⟨hpattern, trivial, List.forall_mem_nil _⟩, ?_⟩
  split
  · exact isStyledInLine_warningLine _
  · simp only [List.forall_mem_flatMap, List.forall_mem_cons, isStyledInLine_styled,
      isStyledInLine_plain, notMem_append]
    intro variant hvariant
    exact ⟨⟨by decide, hvariants variant hvariant⟩, trivial, List.forall_mem_nil _⟩

end Translation

/-- Color changes nothing but the look of reports and of lists of translations. -/
theorem output_only_adds_color :
    (∀ report : Report, OnlyAddsColor report.texts fun colored => report.toText colored) ∧
      ∀ translations : List Translation,
        OnlyAddsColor (translations.flatMap Translation.texts) fun colored =>
          Translation.listToText colored translations := by
  constructor
  · intro report
    exact onlyAddsColor_render Report.isUnescaped_pieces Report.isStyledInLine_pieces
  · intro translations
    apply onlyAddsColor_render
    · simp only [List.forall_mem_flatMap]
      exact fun h translation hmem => Translation.isUnescaped_pieces (h translation hmem)
    · simp only [List.forall_mem_flatMap]
      exact fun h translation hmem => Translation.isStyledInLine_pieces (h translation hmem)

/-- A report with brackets and digits around the control sequences, and with every warning. -/
def bracketedReport : Report :=
  { timestamp := ""
    files := ["a"]
    unreadable := ["31m", "[0m"]
    stats := { files := 1, directives := 2, unencodable := 1, overLimit := 1 }
    classification := ⟨[("1m", true)]⟩
    generated := .ofExpr "[1m" (some "0m") (.literal "1m")
    nonGenerated := .ofExpr "m" none .empty }

/-- Brackets and digits next to control sequences stay. -/
theorem output_only_adds_color_brackets :
    (∀ text ∈ bracketedReport.texts, escape ∉ text.toList) ∧
      (∀ text ∈ bracketedReport.texts, '\n' ∉ text.toList) ∧
      withoutSequences (bracketedReport.toText true) = bracketedReport.toText false ∧
      IsResetAtLineEnds (bracketedReport.toText true) ∧
      (∀ text ∈ ["[m", "0", "1m", "7"], escape ∉ text.toList ∧ '\n' ∉ text.toList) ∧
      withoutSequences (Translation.listToText true [⟨"[m", ["0", "1m"]⟩, ⟨"7", []⟩]) =
        "[m\n  0\n  1m\n7\nwarning: no translation (too many '**/' segments)\n" ∧
      IsResetAtLineEnds (Translation.listToText true [⟨"[m", ["0", "1m"]⟩, ⟨"7", []⟩]) := by
  have hescape : ∀ text ∈ bracketedReport.texts, escape ∉ text.toList := by decide +kernel
  have hbreaks : ∀ text ∈ bracketedReport.texts, '\n' ∉ text.toList := by decide +kernel
  have hlist : ∀ text ∈ ["[m", "0", "1m", "7"], escape ∉ text.toList ∧ '\n' ∉ text.toList := by
    decide +kernel
  rcases output_only_adds_color.1 bracketedReport hescape with ⟨hreport, hreset⟩
  rcases output_only_adds_color.2 [⟨"[m", ["0", "1m"]⟩, ⟨"7", []⟩] fun text hmem =>
    (hlist text hmem).1 with ⟨htranslations, hreset'⟩
  refine ⟨hescape, hbreaks, hreport, hreset hbreaks, hlist, ?_, ?_⟩
  · rw [htranslations]
    decide +kernel
  · exact hreset' fun text hmem => (hlist text hmem).2

end AttributeScope
