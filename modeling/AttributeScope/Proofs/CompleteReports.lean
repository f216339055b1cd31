import AttributeScope.CommandLine.Invocation
import AttributeScope.Proofs.ReportDocuments
import AttributeScope.Report.Text

/-!
# Complete reports

What an output has to hold to be one whole report, said apart from how reports are written.  As text
it has all the lines of the report, and nothing but styles besides.  As JSON it is one document that
tells the report.

Main results:

- Theorem `isComplete_toText`: the text of a report is complete.
- Theorem `isComplete_toDocument`: so is its document.
- Theorem `IsComplete.ne_empty`: no complete report is empty.
-/

namespace AttributeScope

open CommandLine (OutputFormat)
open Terminal (Piece render)

/-! ## Lines -/

/-- The lines about a scope: its name, with the color of its files, and what it consists of. -/
def NamedScope.lines (scope : NamedScope) : List String :=
  [scope.name ++ (match scope.color with
      | some color => " (#" ++ color ++ ")"
      | none => ""),
    if scope.expression.isEmpty then "  (matches nothing)" else "  " ++ scope.pattern]

namespace Report

/-- What a report lacks, each with a line of its own: patterns without a translation, directives
with too many of them, and files. -/
def gaps (report : Report) : List String :=
  (if report.stats.unencodable = 0 then []
    else [counted report.stats.unencodable "pattern" "patterns" ++
      " dropped: a path segment is exactly '@'"]) ++
    (if report.stats.overLimit = 0 then []
      else [counted report.stats.overLimit "directive" "directives" ++
        " skipped: too many '**/' segments"]) ++
    report.unreadable.map fun path => "could not read " ++ path

/-- The lines of a report: how much was found, both scopes, and what is lacking. -/
def lines (report : Report) : List String :=
  [counted report.files.length "directive file" "directive files" ++ ", " ++
    counted report.stats.directives "directive" "directives" ++ ", " ++
    counted report.classification.size "pattern" "patterns"] ++
    report.generated.lines ++ report.nonGenerated.lines ++
    report.gaps.map fun gap => "warning: " ++ gap

/-- Whether an output is one whole report.  A text has the lines of the report, some of them styled;
a JSON document ends with a line break, and the report can be read from it. -/
def IsComplete (report : Report) (colored : Bool) (output : String) : OutputFormat → Prop
  | .text => ∃ pieces, output = render colored pieces ∧
      render false pieces = String.join (report.lines.map (· ++ "\n"))
  | .json => ∃ text value, output = text ++ "\n" ∧ Json.IsTextOf value text.toList ∧
      ofJson? value = some report

end Report

/-! ## Texts -/

/-- Lines in front of others. -/
theorem join_lines_append (front back : List String) :
    String.join ((front ++ back).map (· ++ "\n")) =
      String.join (front.map (· ++ "\n")) ++ String.join (back.map (· ++ "\n")) := by
  rw [List.map_append, String.join_append]

/-- A scope is written in its lines. -/
theorem NamedScope.render_pieces (scope : NamedScope) :
    render false scope.pieces = String.join (scope.lines.map (· ++ "\n")) := by
  rw [Terminal.render_false, ← String.toList_inj]
  unfold pieces lines
  cases scope.color <;> cases scope.expression.isEmpty <;> simp [Piece.text]

/-- A warning is written in a line of its own. -/
theorem render_warningLine (message : String) :
    render false (warningLine message) = "warning: " ++ message ++ "\n" := by
  rw [Terminal.render_false, ← String.toList_inj]
  simp [warningLine, Piece.text]

theorem render_warningLines (messages : List String) :
    render false (messages.flatMap warningLine) =
      String.join ((messages.map fun message => "warning: " ++ message).map (· ++ "\n")) := by
  induction messages with
  | nil => rfl
  | cons message rest ih =>
    rw [List.flatMap_cons, Terminal.render_append, render_warningLine, ih]
    simp

namespace Report

variable {report : Report}

/-- A report warns of everything that it lacks. -/
theorem warnings_eq_gaps (report : Report) : report.warnings = report.gaps := by
  simp only [warnings, gaps, Nat.pos_iff_ne_zero, ite_not]

/-- The text of a report is complete. -/
theorem isComplete_toText (report : Report) (colored : Bool) :
    report.IsComplete colored (report.toText colored) .text := by
  refine ⟨report.pieces, rfl, ?_⟩
  have hsummary : render false [.plain (report.summary ++ "\n")] = report.summary ++ "\n" := by
    simp [Terminal.render_false, Piece.text]
  unfold pieces lines
  simp only [Terminal.render_append, join_lines_append, NamedScope.render_pieces, hsummary,
    render_warningLines, warnings_eq_gaps]
  rfl

/-- The document of a report is complete. -/
theorem isComplete_toDocument (report : Report) (colored : Bool) :
    report.IsComplete colored report.toDocument .json :=
  ⟨report.toJson.indented, report.toJson, rfl, report.toJson.isTextOf_indented,
    ofJson?_toJson report⟩

/-- Where something stands in a text, something is written. -/
theorem render_false_eq_empty {colored : Bool} {pieces : List Piece}
    (h : render colored pieces = "") : render false pieces = "" := by
  induction pieces with
  | nil => rfl
  | cons piece rest ih =>
    have hcons (colored : Bool) :
        render colored (piece :: rest) = piece.render colored ++ render colored rest := by
      simp [render]
    rw [hcons, String.append_eq_empty_iff] at h
    rw [hcons, ih h.2]
    cases piece with
    | plain text => simpa [Piece.render] using h.1
    | styled style text =>
      cases colored with
      | false => simpa using h.1
      | true =>
        simp only [Piece.render, if_true, String.append_eq_empty_iff] at h
        rw [h.1.1.2]
        rfl

/-- No complete report is empty. -/
theorem IsComplete.ne_empty {colored : Bool} {output : String} {format : OutputFormat}
    (h : report.IsComplete colored output format) : output ≠ "" := by
  rintro rfl
  cases format with
  | text =>
    rcases h with ⟨pieces, hpieces, hlines⟩
    rw [render_false_eq_empty hpieces.symm] at hlines
    simp [lines] at hlines
  | json =>
    rcases h with ⟨text, _, htext, -, -⟩
    simp at htext

end Report
end AttributeScope
