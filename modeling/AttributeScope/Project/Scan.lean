import AttributeScope.Config.Basic
import AttributeScope.FileTree.Reader
import AttributeScope.Project.Discovery
import AttributeScope.Report.Basic

/-!
# Scans

A scan finds the directive files of a project, reads them and reports what they amount to.  A file
that cannot be read is reported and otherwise left out.

Main results:

- `scan_eq_ok_iff`: a scan fails exactly when its exclude patterns cannot be used.
-/

namespace AttributeScope
namespace Project

/-- A directive file and what reading it gave. -/
structure Reading where
  path : String
  /-- The text, or why there is none. -/
  content : Except Failure String

namespace Reading

/-- Read the directive file with given names below a root. -/
def ofFile (fs : FileSystem) (root : RawText) (below : List RawText) : Reading :=
  { path := Path.relativeTo root (pathOf root below)
    content := fs.readText FileSystem.defaultSizeLimit (pathOf root below) }

/-- The file as a source of directives, if it could be read. -/
def source? (reading : Reading) : Option Source :=
  match reading.content with
  | .ok text => some ⟨reading.path, text⟩
  | .error _ => none

/-- The path of a file that could not be read. -/
def unreadable? (reading : Reading) : Option String :=
  match reading.content with
  | .ok _ => none
  | .error _ => some reading.path

/-- What reading a file reports. -/
def events (fs : FileSystem) (root : RawText) (below : List RawText) : List Event :=
  let reading := ofFile fs root below
  fs.readEvents FileSystem.defaultSizeLimit (pathOf root below) ++
    match reading.content with
    | .ok _ => []
    | .error failure => [.fileSkipped reading.path failure.message]

end Reading

/-- The report about files that were found. -/
def reportOf (config : Config) (timestamp : String) (readings : List Reading) : Report :=
  let sources := readings.filterMap Reading.source?
  let outcome := Outcome.ofSources (.clamp config.scan.maxRecursiveSegments) sources
  { timestamp
    files := sources.map Source.path
    unreadable := readings.filterMap Reading.unreadable?
    stats := outcome.stats
    classification := outcome.classification
    generated :=
      .ofExpr config.scopes.generated config.scopes.color outcome.scopes.generated
    nonGenerated := .ofExpr config.scopes.nonGenerated none outcome.scopes.nonGenerated }

/-- The directive files of a project. -/
def configuredFiles (fs : FileSystem) (root : RawText) (config : Config) :
    Except Failure (List (List RawText)) :=
  directiveFiles fs root config.scan.directiveFile config.scan.exclude

/-- Scan a project. -/
def scan (fs : FileSystem) (root : RawText) (config : Config) (timestamp : String) :
    Except Failure Report :=
  (configuredFiles fs root config).map fun files =>
    reportOf config timestamp (files.map (Reading.ofFile fs root))

/-- What a scan reports. -/
def scanEvents (fs : FileSystem) (root : RawText) (config : Config) : List Event :=
  match configuredFiles fs root config with
  | .error _ => []
  | .ok files =>
    discoveryEvents fs root config.scan.directiveFile config.scan.exclude ++
      files.flatMap (Reading.events fs root) ++
      Outcome.events (.clamp config.scan.maxRecursiveSegments)
        ((files.map (Reading.ofFile fs root)).filterMap Reading.source?)

/-- A scan fails exactly when its exclude patterns cannot be used. -/
theorem scan_eq_ok_iff {fs : FileSystem} {root : RawText} {config : Config}
    {timestamp : String} :
    (∃ report, scan fs root config timestamp = .ok report) ↔
      ∃ rules, Ignore.excludeRules config.scan.exclude = .ok rules := by
  simp only [scan, configuredFiles, directiveFiles, directiveFilesBy]
  cases Ignore.excludeRules config.scan.exclude <;> simp [Except.map]

end Project
end AttributeScope
