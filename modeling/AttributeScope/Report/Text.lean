import AttributeScope.Report.Basic
import AttributeScope.Terminal.Style

/-!
# Reports as text

A report and a list of translations for a reader at a terminal.
-/

namespace AttributeScope

open Terminal

/-- A number with a noun in the right form. -/
def counted (count : Nat) (one many : String) : String :=
  toString count ++ " " ++ if count = 1 then one else many

/-- A line that warns. -/
def warningLine (message : String) : List Piece :=
  [.styled .warning "warning", .plain (": " ++ message ++ "\n")]

namespace NamedScope

/-- The lines of a scope: its name with the color, and what it consists of. -/
def pieces (scope : NamedScope) : List Piece :=
  [.styled .bold scope.name] ++
    (match scope.color with
    | some color => [.plain (" (#" ++ color ++ ")")]
    | none => []) ++
    [.plain "\n",
      if scope.expression.isEmpty then .styled .dimmed "  (matches nothing)"
      else .styled .cyan ("  " ++ scope.pattern),
      .plain "\n"]

end NamedScope

namespace Report

/-- The line that says how much was found. -/
def summary (report : Report) : String :=
  ", ".intercalate
    [counted report.files.length "directive file" "directive files",
      counted report.stats.directives "directive" "directives",
      counted report.classification.size "pattern" "patterns"]

/-- What a reader is warned of. -/
def warnings (report : Report) : List String :=
  let dropped := report.stats.unencodable
  let skipped := report.stats.overLimit
  (if 0 < dropped then
    [counted dropped "pattern" "patterns" ++ " dropped: a path segment is exactly '@'"]
  else []) ++
  (if 0 < skipped then
    [counted skipped "directive" "directives" ++ " skipped: too many '**/' segments"]
  else []) ++
  report.unreadable.map fun path => "could not read " ++ path

/-- The pieces of a report's text. -/
def pieces (report : Report) : List Piece :=
  [.plain (report.summary ++ "\n")] ++ report.generated.pieces ++ report.nonGenerated.pieces ++
    report.warnings.flatMap warningLine

/-- The text of a report. -/
def toText (colored : Bool) (report : Report) : String := render colored report.pieces

end Report

namespace Translation

/-- The lines of a pattern and its translations. -/
def pieces (translation : Translation) : List Piece :=
  [.styled .bold translation.pattern, .plain "\n"] ++
    if translation.variants.isEmpty then
      warningLine "no translation (too many '**/' segments)"
    else
      translation.variants.flatMap fun variant => [.styled .cyan ("  " ++ variant), .plain "\n"]

/-- The text of a list of translations. -/
def listToText (colored : Bool) (translations : List Translation) : String :=
  render colored (translations.flatMap pieces)

end Translation
end AttributeScope
