import AttributeScope.Ignore.Walk
import AttributeScope.Log
import AttributeScope.Order.Insertion

/-!
# Discovery of directive files

The directive files of a project are the regular files of a given name below its root.  A walk
visits what is there, but for what ignore files and exclude patterns leave out.  The directories
`node_modules` and `.git` are not searched.

Main results:

- `mem_filesAmong_iff`: which of the visited entries are found.
-/

namespace AttributeScope
namespace Project

open Ignore (Entry Rule Visit Walk)

/-- The directories that are never searched. -/
def skippedDirectories : List RawText := ["node_modules", ".git"]

/-- Whether an entry is wanted in a walk: it is none of the directories that are never searched. -/
def maySearch (entry : Entry) : Bool :=
  !(entry.kind == .directory) || !skippedDirectories.contains entry.name

/-- Whether an entry is a directive file, given their name. -/
def isDirectiveFile (fileName : String) (entry : Entry) : Bool :=
  entry.kind == .file && entry.name == RawText.ofText fileName

/-- The directive files among what was visited, as names below the root. -/
def filesAmong (fileName : String) (visits : List Visit) : List (List RawText) :=
  ((Ignore.entriesOf visits).filter (isDirectiveFile fileName)).map Entry.below

/-- The order of files: name by name, each byte by byte. -/
def inOrder (file other : List RawText) : Bool :=
  !decide (other.map RawText.bytes < file.map RawText.bytes)

/-- The directive files that a walk comes upon below a root, as names below it, in order. -/
def directiveFilesBy (walk : Walk) (fs : FileSystem) (root : RawText) (fileName : String)
    (excludes : List String) : Except Failure (List (List RawText)) :=
  (Ignore.excludeRules excludes).map fun rules =>
    Order.sortBy inOrder (filesAmong fileName (walk fs root rules maySearch))

/-- The directive files below a root, as names below it, in order. -/
def directiveFiles (fs : FileSystem) (root : RawText) (fileName : String)
    (excludes : List String) : Except Failure (List (List RawText)) :=
  directiveFilesBy Ignore.walk fs root fileName excludes

/-- The path of a file with given names below a root. -/
def pathOf (root : RawText) (below : List RawText) : RawText := below.foldl Path.join root

/-- What is reported about what was visited. -/
def visitEvents : Visit → List Event
  | .entry _ => []
  | .fault message => [.walkFault message]

/-- What discovery reports. -/
def discoveryEvents (fs : FileSystem) (root : RawText) (fileName : String)
    (excludes : List String) : List Event :=
  match Ignore.excludeRules excludes with
  | .error _ => []
  | .ok rules =>
    let visits := Ignore.walk fs root rules maySearch
    visits.flatMap visitEvents ++ [.filesFound (filesAmong fileName visits).length root]

variable {fileName : String}

/-- Which of the visited entries are found. -/
theorem mem_filesAmong_iff {visits : List Visit} {below : List RawText} :
    below ∈ filesAmong fileName visits ↔
      ⟨below, .ofText fileName, .file⟩ ∈ Ignore.entriesOf visits := by
  simp only [filesAmong, List.mem_map, List.mem_filter, isDirectiveFile]
  constructor
  · rintro ⟨⟨names, name, kind⟩, ⟨hentry, htest⟩, rfl⟩
    obtain ⟨rfl, rfl⟩ : kind = .file ∧ name = .ofText fileName := by simpa using htest
    exact hentry
  · intro h
    exact ⟨_, ⟨h, by simp⟩, rfl⟩

end Project
end AttributeScope
