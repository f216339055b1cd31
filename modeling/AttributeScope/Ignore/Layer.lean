import AttributeScope.Ignore.Repository
import AttributeScope.Ignore.RuleFile

/-!
# Ignore files of directories

A directory may hold an `.ignore` file, a `.gitignore` file and the repository's own exclude file.
What `.ignore` files say comes first; the other two count only inside a repository and only up to
its top.  Among files of one kind, those of inner directories come first.

Main results:

- `verdict?_of_no_rules`: directories without rules say nothing.
-/

namespace AttributeScope
namespace Ignore

open FileSystem (Position)

/-- What one directory contributes. -/
structure Layer where
  position : Position
  directory : RawText
  ignore : RuleFile
  gitIgnore : RuleFile
  /-- Where the exclude file is of the repository it is the top of, if that can be said. -/
  excludePath : Except Repository.Fault (Option RawText)
  gitExclude : RuleFile
  /-- Whether it is the top of a repository. -/
  isRepository : Bool

namespace Layer

/-- The file of rules that holds everywhere. -/
def ignoreName : RawText := ".ignore"

/-- The file of rules that holds inside a repository. -/
def gitIgnoreName : RawText := ".gitignore"

/-- The rules in the file that a path leads to; none if it cannot be read. -/
def rulesAt (fs : FileSystem) (path : RawText) : RuleFile :=
  match fs.read path with
  | .ok bytes => .ofBytes bytes
  | .error _ => .empty

/-- The rules in an exclude file; none if it cannot be said where it is. -/
def rulesAtExclude (fs : FileSystem) : Except Repository.Fault (Option RawText) → RuleFile
  | .ok (some path) => rulesAt fs path
  | _ => .empty

/-- What the directory at a position contributes, which a path leads to. -/
def ofDirectory (fs : FileSystem) (position : Position) (directory : RawText) : Layer :=
  let excludePath := Repository.excludeFile fs directory
  { position
    directory
    ignore := rulesAt fs (Path.join directory ignoreName)
    gitIgnore := rulesAt fs (Path.join directory gitIgnoreName)
    excludePath
    gitExclude := rulesAtExclude fs excludePath
    isRepository := Repository.isTop fs directory }

/-- What a directory contributes that holds nothing of interest. -/
def bare (position : Position) (directory : RawText) : Layer :=
  { position
    directory
    ignore := .empty
    gitIgnore := .empty
    excludePath := .ok none
    gitExclude := .empty
    isRepository := false }

/-- The names of interest in a directory. -/
def names : List RawText := ignoreName :: gitIgnoreName :: Repository.markers

/-- What the directory at a position contributes, which a path leads to, given its entries. -/
def ofEntries (fs : FileSystem) (position : Position) (directory : RawText)
    (entries : List (RawText × Node)) : Layer :=
  if entries.any fun entry => names.contains entry.1 then ofDirectory fs position directory
  else bare position directory

/-- The layers of the directories above a position, the innermost first; none if its path is too
long to be looked at. -/
def above (fs : FileSystem) (position : Position) : List Layer :=
  if FileSystem.maxPathSize < (FileSystem.pathAt position).size then []
  else
    (List.range position.length).reverse.map fun depth =>
      let position := position.take depth
      ofDirectory fs position (FileSystem.pathAt position)

/-- A position as a path below the directory of a layer. -/
def pathBelow (layer : Layer) (position : Position) : RawText :=
  .joined (position.drop layer.position.length)

/-- What a file of rules in a layer says about a position. -/
def fileVerdict? (layer : Layer) (file : RuleFile) (position : Position) (isDirectory : Bool) :
    Option Verdict :=
  if file.rules.isEmpty then none
  else Ignore.verdict? file.rules (layer.pathBelow position) isDirectory

/-- What the first of several layers says that says something. -/
def firstVerdict? (file : Layer → RuleFile) (layers : List Layer) (position : Position)
    (isDirectory : Bool) : Option Verdict :=
  layers.findSome? fun layer => layer.fileVerdict? (file layer) position isDirectory

/-- The layers up to the top of the innermost repository; none outside of repositories. -/
def inRepository? : List Layer → Option (List Layer)
  | [] => none
  | layer :: rest =>
    if layer.isRepository then some [layer] else (inRepository? rest).map (layer :: ·)

/-- What layers, the innermost first, say about a position. -/
def verdict? (layers : List Layer) (position : Position) (isDirectory : Bool) : Option Verdict :=
  let inner := (inRepository? layers).getD []
  ((firstVerdict? ignore layers position isDirectory).or
    (firstVerdict? gitIgnore inner position isDirectory)).or
      (firstVerdict? gitExclude inner position isDirectory)

/-- What is wrong in a file: in its lines, and in its rules as a whole. -/
def fileFaultMessages (path : RawText) (file : RuleFile) : List String :=
  (file.reportedFaults.map fun (number, fault) => s!"{path}: line {number}: {fault.message}") ++
    (file.compileFault.map Glob.CompileFault.message).toList

/-- What is wrong with an exclude file, or with what should have said where it is. -/
def excludeFaultMessages (layer : Layer) : List String :=
  match layer.excludePath with
  | .ok none => []
  | .ok (some path) => fileFaultMessages path layer.gitExclude
  | .error fault => [fault.message]

/-- What is wrong in the files of a layer. -/
def faultMessages (layer : Layer) : List String :=
  fileFaultMessages (Path.join layer.directory ignoreName) layer.ignore ++
    fileFaultMessages (Path.join layer.directory gitIgnoreName) layer.gitIgnore ++
    layer.excludeFaultMessages

/-- A layer without rules. -/
def HasNoRules (layer : Layer) : Prop :=
  layer.ignore.rules = [] ∧ layer.gitIgnore.rules = [] ∧ layer.gitExclude.rules = []

/-- A directory that holds nothing of interest has no rules. -/
theorem hasNoRules_bare (position : Position) (directory : RawText) :
    (bare position directory).HasNoRules := ⟨rfl, rfl, rfl⟩

theorem firstVerdict?_of_no_rules {file : Layer → RuleFile} {layers : List Layer}
    (h : ∀ layer ∈ layers, (file layer).rules = []) (position : Position) (isDirectory : Bool) :
    firstVerdict? file layers position isDirectory = none := by
  simp only [firstVerdict?, List.findSome?_eq_none_iff]
  intro layer hlayer
  simp [fileVerdict?, h layer hlayer]

theorem mem_of_mem_inRepository? {layers inner : List Layer} {layer : Layer}
    (h : inRepository? layers = some inner) (hlayer : layer ∈ inner) : layer ∈ layers := by
  induction layers generalizing inner with
  | nil => simp [inRepository?] at h
  | cons first rest ih =>
    unfold inRepository? at h
    split at h
    · cases h
      exact List.mem_cons.mpr (.inl (List.mem_singleton.mp hlayer))
    · obtain ⟨others, ho, rfl⟩ := Option.map_eq_some_iff.mp h
      rcases List.mem_cons.mp hlayer with rfl | hlayer
      · exact List.mem_cons_self
      · exact List.mem_cons_of_mem _ (ih ho hlayer)

/-- Directories without rules say nothing. -/
theorem verdict?_of_no_rules {layers : List Layer} (h : ∀ layer ∈ layers, layer.HasNoRules)
    (position : Position) (isDirectory : Bool) : verdict? layers position isDirectory = none := by
  have hinner : ∀ layer ∈ (inRepository? layers).getD [], layer.HasNoRules := by
    intro layer hlayer
    cases hr : inRepository? layers with
    | none => simp [hr] at hlayer
    | some inner => exact h layer (mem_of_mem_inRepository? hr (by simpa [hr] using hlayer))
  simp only [verdict?]
  rw [firstVerdict?_of_no_rules fun layer hl => (h layer hl).1,
    firstVerdict?_of_no_rules fun layer hl => (hinner layer hl).2.1,
    firstVerdict?_of_no_rules fun layer hl => (hinner layer hl).2.2]
  rfl

end Layer
end Ignore
end AttributeScope
