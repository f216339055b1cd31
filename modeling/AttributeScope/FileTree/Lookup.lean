import AttributeScope.FileTree.Node
import AttributeScope.FileTree.Path

/-!
# Looking up paths

A path is looked up component by component, from the top of the file system if it is absolute and
from the current directory otherwise.  Symbolic links are followed, but not more than forty of
them, every directory that is left through `..` has to exist, and there are limits to how long
a path and the names in it are.  No directory is closed to search: whoever asks may look up every
entry there is.

Main results:

- `follow_entry`: a name leads to the entry of that name.
- `follow_cons_eq_ok`: all ways in which a first piece can lead on.
- `find_of_long`: a path that is too long leads nowhere, whatever there is.
-/

namespace AttributeScope

/-- Why a path cannot be looked up or a file cannot be read. -/
inductive LookupFault where
  | notFound
  /-- Something on the way is no directory. -/
  | notDirectory
  /-- A directory is no file to be read. -/
  | isDirectory
  /-- Too many links have to be followed. -/
  | tooManyLinks
  /-- A file may not be opened. -/
  | permissionDenied
  /-- The path, or a name in it, is too long. -/
  | nameTooLong
  /-- No path can hold a zero byte. -/
  | zeroInPath
  | invalidText
deriving DecidableEq, Repr

namespace LookupFault

/-- The message of a fault. -/
def message : LookupFault → String
  | notFound => "No such file or directory (os error 2)"
  | notDirectory => "Not a directory (os error 20)"
  | isDirectory => "Is a directory (os error 21)"
  | tooManyLinks => "Too many levels of symbolic links (os error 40)"
  | permissionDenied => "Permission denied (os error 13)"
  | nameTooLong => "File name too long (os error 36)"
  | zeroInPath => "file name contained an unexpected NUL byte"
  | invalidText => "stream did not contain valid UTF-8"

end LookupFault

namespace FileSystem

open RawText (dot slash)

/-- The names on the way from the top to a node. -/
abbrev Position := List RawText

/-- The way from the top to a node: each name with the node it leads to, the last one first. -/
abbrev Trail := List (RawText × Node)

end FileSystem

/-- A file system. -/
structure FileSystem where
  top : Node
  /-- The current directory, where relative paths begin. -/
  here : FileSystem.Position := []

namespace FileSystem

open RawText (dot slash)

/-- The path of a position. -/
def pathAt (position : Position) : RawText := Path.ofPieces (position.map RawText.bytes)

/-- The names on a trail. -/
def Trail.position (trail : Trail) : Position := (trail.map Prod.fst).reverse

/-- The node that a trail leads to. -/
def nodeOn (fs : FileSystem) : Trail → Node
  | [] => fs.top
  | (_, node) :: _ => node

/-- How many links are followed on the way to one node. -/
def maxLinks : Nat := 40

/-- The longest name of an entry, in bytes. -/
def maxNameSize : Nat := 255

/-- The longest path that can be looked up, in bytes. -/
def maxPathSize : Nat := 4095

/-- The pieces of a path between its slashes, past a slash in front. -/
def pathPieces (path : RawText) : List (List UInt8) :=
  (if Path.isAbsolute path then path.bytes.drop 1 else path.bytes).splitOn slash

/-- Where a link is followed from: the top if its target is absolute. -/
def linkBase (trail : Trail) (target : RawText) : Trail :=
  if Path.isAbsolute target then [] else trail

/-- Where pieces of a path lead to from the end of a trail.  At a link, the pieces of its target
and those that are left are handed on. -/
def walk (fs : FileSystem) (atLink : Trail → List (List UInt8) → Except LookupFault Trail)
    (trail : Trail) : List (List UInt8) → Except LookupFault Trail
  | [] => .ok trail
  | piece :: rest =>
    if !(fs.nodeOn trail).isDirectory then .error .notDirectory
    else if piece = [] ∨ piece = [dot] then fs.walk atLink trail rest
    else if piece = [dot, dot] then fs.walk atLink trail.tail rest
    else
      match Node.child? (fs.nodeOn trail) ⟨piece⟩ with
      | none => .error (if maxNameSize < piece.length then .nameTooLong else .notFound)
      | some (.symlink target) => atLink (linkBase trail target) (pathPieces target ++ rest)
      | some node => fs.walk atLink ((⟨piece⟩, node) :: trail) rest

/-- Where pieces of a path lead to from the end of a trail, if no more than some number of links
has to be followed. -/
def follow (fs : FileSystem) : Nat → Trail → List (List UInt8) → Except LookupFault Trail
  | 0 => fs.walk fun _ _ => .error .tooManyLinks
  | links + 1 => fs.walk (fs.follow links)

/-- The pieces that a path is looked up by from the top. -/
def piecesFromTop (fs : FileSystem) (path : RawText) : List (List UInt8) :=
  (if Path.isAbsolute path then [] else fs.here.map RawText.bytes) ++ pathPieces path

/-- Where a path leads to. -/
def trail (fs : FileSystem) (path : RawText) : Except LookupFault Trail :=
  if path.isEmpty then .error .notFound
  else if 0 ∈ path.bytes then .error .zeroInPath
  else if maxPathSize < path.size then .error .nameTooLong
  else fs.follow maxLinks [] (fs.piecesFromTop path)

/-- The position that a path leads to. -/
def locate (fs : FileSystem) (path : RawText) : Except LookupFault Position :=
  (fs.trail path).map Trail.position

/-- The node that a path leads to. -/
def find (fs : FileSystem) (path : RawText) : Except LookupFault Node :=
  (fs.trail path).map fs.nodeOn

/-- Whether a path leads anywhere. -/
def exists? (fs : FileSystem) (path : RawText) : Bool := (fs.find path).isOk

/-- Whether a path leads to a directory. -/
def isDirectory (fs : FileSystem) (path : RawText) : Bool :=
  match fs.find path with
  | .ok node => node.isDirectory
  | .error _ => false

/-- Whether a path leads to a regular file. -/
def isFile (fs : FileSystem) (path : RawText) : Bool :=
  match fs.find path with
  | .ok node => node.isFile
  | .error _ => false

/-- Whether what a path leads to can be opened. -/
def canOpen (fs : FileSystem) (path : RawText) : Bool :=
  match fs.find path with
  | .ok (.file (.locked _)) => false
  | .ok _ => true
  | .error _ => false

/-- The bytes of the file that a path leads to. -/
def read (fs : FileSystem) (path : RawText) : Except LookupFault (Array UInt8) :=
  (fs.find path).bind fun node =>
    match node with
    | .file (.bytes bytes) => .ok bytes
    | .file (.locked _) => .error .permissionDenied
    | _ => .error .isDirectory

/-- The text of the file that a path leads to. -/
def readString (fs : FileSystem) (path : RawText) : Except LookupFault String :=
  (fs.read path).bind fun bytes =>
    match Text.Utf8.decodeStrict? bytes with
    | some text => .ok text
    | none => .error .invalidText

/-! ## One piece of a path -/

/-- A piece of a path that is the name of an entry. -/
def IsName (piece : List UInt8) : Prop := piece ≠ [] ∧ piece ≠ [dot] ∧ piece ≠ [dot, dot]

instance (piece : List UInt8) : Decidable (IsName piece) :=
  inferInstanceAs (Decidable (piece ≠ [] ∧ piece ≠ [dot] ∧ piece ≠ [dot, dot]))

section Steps

variable {fs : FileSystem} {links : Nat} {trail : Trail} {piece : List UInt8}
  {rest : List (List UInt8)}

@[simp] theorem follow_nil : fs.follow links trail [] = .ok trail := by
  cases links <;> rfl

/-- Nothing leads on from what is no directory. -/
theorem follow_of_not_isDirectory (h : (fs.nodeOn trail).isDirectory = false) :
    fs.follow links trail (piece :: rest) = .error .notDirectory := by
  cases links <;> simp [follow, walk, h]

/-- An empty piece and a `.` lead nowhere else. -/
theorem follow_padding (hdir : (fs.nodeOn trail).isDirectory = true)
    (h : piece = [] ∨ piece = [dot]) :
    fs.follow links trail (piece :: rest) = fs.follow links trail rest := by
  cases links <;> simp [follow, walk, hdir, h]

/-- A `..` leads back. -/
theorem follow_above (hdir : (fs.nodeOn trail).isDirectory = true) :
    fs.follow links trail ([dot, dot] :: rest) = fs.follow links trail.tail rest := by
  cases links <;> simp [follow, walk, hdir]

/-- A name leads to the entry of that name if it is no link. -/
theorem follow_entry {child : Node} (hdir : (fs.nodeOn trail).isDirectory = true)
    (hname : IsName piece)
    (hchild : Node.child? (fs.nodeOn trail) ⟨piece⟩ = some child)
    (hlink : ∀ target, child ≠ .symlink target) :
    fs.follow links trail (piece :: rest) =
      fs.follow links ((⟨piece⟩, child) :: trail) rest := by
  cases links <;>
  · simp only [follow, walk, hdir, hname.1, hname.2.1, hname.2.2, hchild]
    cases child with
    | symlink target => exact absurd rfl (hlink target)
    | file content => simp
    | directory entries => simp

/-- At a link, its target comes next, with one link less to be followed. -/
theorem follow_link {target : RawText} (hdir : (fs.nodeOn trail).isDirectory = true)
    (hname : IsName piece)
    (hchild : Node.child? (fs.nodeOn trail) ⟨piece⟩ = some (.symlink target)) :
    fs.follow (links + 1) trail (piece :: rest) =
      fs.follow links (linkBase trail target) (pathPieces target ++ rest) := by
  simp [follow, walk, hdir, hname.1, hname.2.1, hname.2.2, hchild]

/-- All ways in which a first piece can lead on. -/
theorem follow_cons_eq_ok {found : Trail} (h : fs.follow links trail (piece :: rest) = .ok found) :
    (fs.nodeOn trail).isDirectory = true ∧
      ((piece = [] ∨ piece = [dot]) ∧ fs.follow links trail rest = .ok found ∨
        piece = [dot, dot] ∧ fs.follow links trail.tail rest = .ok found ∨
        IsName piece ∧
          ((∃ child, Node.child? (fs.nodeOn trail) ⟨piece⟩ = some child ∧
              (∀ target, child ≠ .symlink target) ∧
              fs.follow links ((⟨piece⟩, child) :: trail) rest = .ok found) ∨
            ∃ target less, links = less + 1 ∧
              Node.child? (fs.nodeOn trail) ⟨piece⟩ = some (.symlink target) ∧
              fs.follow less (linkBase trail target) (pathPieces target ++ rest) = .ok found)) := by
  by_cases hdir : (fs.nodeOn trail).isDirectory = true
  · refine ⟨hdir, ?_⟩
    by_cases hpadding : piece = [] ∨ piece = [dot]
    · rw [follow_padding hdir hpadding] at h
      exact .inl ⟨hpadding, h⟩
    by_cases habove : piece = [dot, dot]
    · subst habove
      rw [follow_above hdir] at h
      exact .inr (.inl ⟨rfl, h⟩)
    have hname : IsName piece := ⟨fun e => hpadding (.inl e), fun e => hpadding (.inr e), habove⟩
    refine .inr (.inr ⟨hname, ?_⟩)
    cases hchild : Node.child? (fs.nodeOn trail) ⟨piece⟩ with
    | none => cases links <;> simp [follow, walk, hdir, hname.1, hname.2.1, hname.2.2, hchild] at h
    | some child =>
      by_cases hlink : ∃ target, child = .symlink target
      · rcases hlink with ⟨target, rfl⟩
        cases links with
        | zero => simp [follow, walk, hdir, hname.1, hname.2.1, hname.2.2, hchild] at h
        | succ less =>
          rw [follow_link hdir hname hchild] at h
          exact .inr ⟨target, less, rfl, rfl, h⟩
      · have hlink : ∀ target, child ≠ .symlink target := fun target e => hlink ⟨target, e⟩
        rw [follow_entry hdir hname hchild hlink] at h
        exact .inl ⟨child, rfl, hlink, h⟩
  · rw [follow_of_not_isDirectory (by simpa using hdir)] at h
    simp at h

end Steps

/-- A path that is too long leads nowhere, whatever there is. -/
theorem find_of_long {fs : FileSystem} {path : RawText} (hzero : 0 ∉ path.bytes)
    (hlong : maxPathSize < path.size) : fs.find path = .error .nameTooLong := by
  have hne : path.isEmpty = false := by
    cases h : path.isEmpty with
    | false => rfl
    | true =>
      rw [RawText.isEmpty_iff.mp h] at hlong
      exact absurd hlong (by decide)
  simp [find, trail, hne, hzero, hlong, Except.map]

end FileSystem
end AttributeScope
