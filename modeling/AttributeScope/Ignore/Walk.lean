import AttributeScope.Ignore.Exclude
import AttributeScope.Ignore.Layer

/-!
# Walks

A walk visits a root and what is below it, a directory before what is in it.  What is hidden is
visited as well, and symbolic links are not followed.  Neither visited nor entered is what exclude
patterns or ignore files leave out, and what whoever walks does not want.  A directory whose path is
too long cannot be opened.

Main results:

- `visitsAmong_eq_flatMap`: entries are visited one after the other.
- `passesOver_of_no_rules`: without rules, only what is not wanted is passed over.
-/

namespace AttributeScope

/-- What an entry of a directory is. -/
inductive NodeKind where
  | file
  | directory
  | symlink
deriving DecidableEq, Repr

/-- What a node is. -/
def Node.kind : Node → NodeKind
  | .file _ => .file
  | .directory _ => .directory
  | .symlink _ => .symlink

namespace Ignore

open FileSystem (Position)

/-- An entry as a walk comes upon it. -/
structure Entry where
  /-- The names that lead to it from the root. -/
  below : List RawText
  name : RawText
  kind : NodeKind
deriving DecidableEq, Repr

/-- Whether an entry is a directory. -/
def Entry.isDirectory (entry : Entry) : Bool := entry.kind == .directory

/-- What a walk comes upon. -/
inductive Visit where
  | entry (entry : Entry)
  /-- Something that cannot be looked at. -/
  | fault (message : String)
deriving DecidableEq, Repr

/-- The entry that is visited, if it is one. -/
def Visit.entry? : Visit → Option Entry
  | .entry found => some found
  | .fault _ => none

/-- The entries that are visited. -/
def entriesOf (visits : List Visit) : List Entry := visits.filterMap Visit.entry?

/-- A way to walk in a file system from a root, with exclude patterns, and with a test for the
entries that are wanted. -/
abbrev Walk := FileSystem → RawText → List Rule → (Entry → Bool) → List Visit

theorem mem_entriesOf_iff {visits : List Visit} {entry : Entry} :
    entry ∈ entriesOf visits ↔ .entry entry ∈ visits := by
  unfold entriesOf
  rw [List.mem_filterMap]
  constructor
  · rintro ⟨visit, hvisit, hentry⟩
    cases visit with
    | entry other => exact Option.some.inj hentry ▸ hvisit
    | fault message => cases hentry
  · exact fun h => ⟨_, h, rfl⟩

/-- The message about a path that cannot be looked at. -/
def faultMessage (path : RawText) (fault : LookupFault) : String :=
  s!"{path}: IO error for operation on {path}: {fault.message}"

/-- What a walk goes by. -/
structure Walker where
  fs : FileSystem
  /-- The position where the walk begins. -/
  root : Position
  /-- What the exclude patterns leave out. -/
  excludes : List Rule
  /-- Whether an entry is wanted. -/
  wants : Entry → Bool

namespace Walker

/-- Whether an entry is passed over. -/
def passesOver (w : Walker) (layers : List Layer) (entry : Entry) : Bool :=
  Ignore.excludes w.excludes (.joined entry.below) entry.isDirectory ||
    Layer.verdict? layers (w.root ++ entry.below) entry.isDirectory == some .ignored ||
    !w.wants entry

mutual

/-- What is visited at and below a node of a name, which a path leads to and names below the root.
The layers are those of the directories that the node is in. -/
def visits (w : Walker) (layers : List Layer) (path : RawText) (below : List RawText)
    (name : RawText) : Node → List Visit
  | .file _ => [.entry ⟨below, name, .file⟩]
  | .directory entries =>
    .entry ⟨below, name, .directory⟩ ::
      if FileSystem.maxPathSize < path.size then [.fault (faultMessage path .nameTooLong)]
      else
        let layer := Layer.ofEntries w.fs (w.root ++ below) path entries
        w.visitsAmong (layer :: layers) path below entries
  | .symlink _ => [.entry ⟨below, name, .symlink⟩]

/-- What is visited among and below the entries of a directory. -/
def visitsAmong (w : Walker) (layers : List Layer) (path : RawText) (below : List RawText) :
    List (RawText × Node) → List Visit
  | [] => []
  | (name, node) :: rest =>
    (if w.passesOver layers ⟨below ++ [name], name, node.kind⟩ then []
      else w.visits layers (Path.join path name) (below ++ [name]) name node) ++
      w.visitsAmong layers path below rest

end

variable {w : Walker} {layers : List Layer} {path : RawText} {below : List RawText}

/-- Entries are visited one after the other, each with what is below it. -/
theorem visitsAmong_eq_flatMap (entries : List (RawText × Node)) :
    w.visitsAmong layers path below entries =
      entries.flatMap fun entry =>
        if w.passesOver layers ⟨below ++ [entry.1], entry.1, entry.2.kind⟩ then []
        else w.visits layers (Path.join path entry.1) (below ++ [entry.1]) entry.1 entry.2 := by
  induction entries with
  | nil => rfl
  | cons entry rest ih => rw [visitsAmong, ih, List.flatMap_cons]

/-- Without rules, only what is not wanted is passed over. -/
theorem passesOver_of_no_rules (hexcludes : w.excludes = [])
    (hlayers : ∀ layer ∈ layers, layer.HasNoRules) (entry : Entry) :
    w.passesOver layers entry = !w.wants entry := by
  unfold passesOver
  rw [hexcludes, Ignore.excludes_nil, Layer.verdict?_of_no_rules hlayers]
  rfl

end Walker

/-- The name of a root: what its path ends with, or the path itself. -/
def rootName (root : RawText) : RawText := (Path.fileName? root).getD root

/-- What is wrong in the ignore files above a root that is a directory: one fault for everything. -/
def faultsAbove (fs : FileSystem) (trail : FileSystem.Trail) : List Visit :=
  if (fs.nodeOn trail).isDirectory then
    match (Layer.above fs trail.position).reverse.flatMap Layer.faultMessages with
    | [] => []
    | messages => [.fault ("\n".intercalate messages)]
  else []

/-- What is visited at and below a root. -/
def walk : Walk := fun fs root excludes wants =>
  match fs.trail root with
  | .error fault => [.fault (faultMessage root fault)]
  | .ok trail =>
    let walker : Walker := ⟨fs, trail.position, excludes, wants⟩
    faultsAbove fs trail ++
      walker.visits (Layer.above fs trail.position) root [] (rootName root) (fs.nodeOn trail)

end Ignore
end AttributeScope
