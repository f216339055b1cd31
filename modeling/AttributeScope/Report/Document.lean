import AttributeScope.Json.Encoding
import AttributeScope.Report.Basic

/-!
# Reports as JSON documents

A report and a list of translations for a program.  A document is indented and ends with a line
break.
-/

namespace AttributeScope

/-- The members of an object for an optional value: none, or one. -/
def optionalMember (key : String) (value : Option Json) : List (String × Json) :=
  match value with
  | some value => [(key, value)]
  | none => []

/-- An array of strings. -/
def Json.strings (texts : List String) : Json := .array (texts.map .string)

/-- The indented text of a value, with a line break. -/
def Json.document (value : Json) : String := value.indented ++ "\n"

/-- The counters of a run. -/
def Stats.toJson (stats : Stats) : Json :=
  .object
    [("files", .number stats.files),
      ("directives", .number stats.directives),
      ("unencodable", .number stats.unencodable),
      ("over_limit", .number stats.overLimit)]

/-- A scope; the color is left out if there is none. -/
def NamedScope.toJson (scope : NamedScope) : Json :=
  .object
    ([("name", .string scope.name)] ++
      optionalMember "color" (scope.color.map .string) ++
      [("pattern", .string scope.pattern), ("expression", scope.expression.toJson)])

namespace Report

/-- A report; the unreadable files are left out if there are none. -/
def toJson (report : Report) : Json :=
  .object
    ([("timestamp", .string report.timestamp), ("files", .strings report.files)] ++
      (if report.unreadable.isEmpty then [] else [("unreadable", .strings report.unreadable)]) ++
      [("stats", report.stats.toJson),
        ("classification", report.classification.toJson),
        ("generated", report.generated.toJson),
        ("non_generated", report.nonGenerated.toJson)])

/-- The document of a report. -/
def toDocument (report : Report) : String := report.toJson.document

end Report

namespace Translation

/-- The last translations of each pattern, in the order of patterns. -/
def byPattern (translations : List Translation) : List Translation :=
  (Text.sortedSet (translations.map pattern)).filterMap fun p =>
    translations.reverse.find? fun translation => translation.pattern == p

/-- The document of a list of translations: an object with the set of scope patterns of each
pattern.  The last translations of a pattern count. -/
def listToDocument (translations : List Translation) : String :=
  (Json.object ((byPattern translations).map fun translation =>
    (translation.pattern, .strings (Text.sortedSet translation.variants)))).document

end Translation
end AttributeScope
