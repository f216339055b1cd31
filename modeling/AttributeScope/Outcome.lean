import AttributeScope.Order.Insertion
import AttributeScope.Pattern.Anchor
import AttributeScope.Scope.Scopes

/-!
# From attribute files to scopes

The directives of all attribute files, in the order of the files' paths and of the lines in a
file, are resolved and merged into one classification, which gives the two scopes.
-/

namespace AttributeScope

/-- An attribute file: its path relative to the project and its text. -/
structure Source where
  /-- The path, with slashes between its components. -/
  path : String
  text : String
deriving DecidableEq, Repr

/-- What was counted on the way to a classification. -/
structure Stats where
  files : Nat
  directives : Nat
  /-- Translations that the scope dialect cannot express. -/
  unencodable : Nat
  /-- Directives with too many recursive segments. -/
  overLimit : Nat
deriving DecidableEq, Repr

/-- A directive with the place where it stands. -/
structure PlacedDirective where
  path : String
  line : Nat
  directive : Directive
deriving DecidableEq, Repr

namespace Source

/-- The directory that a file's patterns are meant below. -/
def directory (source : Source) : SourceDir := .containing source.path

/-- The directives of a file, in order. -/
def directives (source : Source) : List PlacedDirective :=
  (Directive.ofText source.text).map fun (line, directive) => ⟨source.path, line, directive⟩

/-- Files in the order of their paths; files of one path keep their order. -/
def sort (sources : List Source) : List Source :=
  Order.sortBy (fun a b => decide (a.path ≤ b.path)) sources

end Source

namespace PlacedDirective

/-- What becomes of a directive. -/
def resolution (limit : Pattern.ExpansionLimit) (placed : PlacedDirective) : Resolution :=
  Resolution.ofDirective limit (.containing placed.path) placed.directive

/-- Merge what a directive says into a classification. -/
def classify (limit : Pattern.ExpansionLimit) (m : Classification) (placed : PlacedDirective) :
    Classification :=
  m.mergeAll (placed.resolution limit).patterns placed.directive.isGenerated

/-- What resolving and merging a directive reports. -/
def events (limit : Pattern.ExpansionLimit) (m : Classification) (placed : PlacedDirective) :
    List Event :=
  let resolution := placed.resolution limit
  Resolution.events limit (.containing placed.path) placed.directive ++
    (if resolution.overLimit then
      [.directiveSkipped placed.path placed.line placed.directive.path]
    else []) ++
    .directiveResolved placed.path placed.line placed.directive.path resolution.patterns ::
      m.mergeAllEvents resolution.patterns placed.directive.isGenerated

end PlacedDirective

/-- What the attribute files of a project amount to. -/
structure Outcome where
  classification : Classification
  scopes : Scopes
  stats : Stats
deriving Repr

namespace Outcome

open Pattern (ExpansionLimit)

/-- All directives, file after file in the order of paths. -/
def directives (sources : List Source) : List PlacedDirective :=
  (Source.sort sources).flatMap Source.directives

/-- The classification that directives give, one after the other. -/
def classify (limit : ExpansionLimit) (m : Classification) (placed : List PlacedDirective) :
    Classification :=
  placed.foldl (PlacedDirective.classify limit) m

/-- What is counted in a number of files with the given directives. -/
def count (limit : ExpansionLimit) (files : Nat) (placed : List PlacedDirective) : Stats :=
  let resolutions := placed.map (PlacedDirective.resolution limit)
  { files
    directives := placed.length
    unencodable := (resolutions.map Resolution.unencodable).foldr (· + ·) 0
    overLimit := (resolutions.filter Resolution.overLimit).length }

/-- The outcome of attribute files. -/
def ofSources (limit : ExpansionLimit) (sources : List Source) : Outcome :=
  let placed := directives sources
  let classification := classify limit .empty placed
  { classification
    scopes := .ofClassification classification
    stats := count limit sources.length placed }

/-- What the directives of one file report, given what was classified before. -/
def directiveEvents (limit : ExpansionLimit) (m : Classification) :
    List PlacedDirective → List Event
  | [] => []
  | placed :: rest => placed.events limit m ++ directiveEvents limit (placed.classify limit m) rest

/-- What files report, given what was classified before. -/
def sourceEvents (limit : ExpansionLimit) (m : Classification) : List Source → List Event
  | [] => []
  | source :: rest =>
    .sourceStarted source.path source.directory.display ::
      (directiveEvents limit m source.directives ++
        sourceEvents limit (classify limit m source.directives) rest)

/-- What computing an outcome reports. -/
def events (limit : ExpansionLimit) (sources : List Source) : List Event :=
  sourceEvents limit .empty (Source.sort sources)

end Outcome
end AttributeScope
