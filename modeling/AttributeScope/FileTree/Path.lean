import AttributeScope.FileTree.RawText
import AttributeScope.Text.Affix

/-!
# Paths

Paths as names with slashes between them, and the components they consist of.  Slashes in a row
count as one, and a `.` counts only in front of a relative path.

Main results:

- `relativeTo_of_prefix`: a path below a root is shown without the root.
-/

namespace AttributeScope
namespace Path

open RawText (dot slash)

/-- A part of a path. -/
inductive Component where
  /-- The top of the file system. -/
  | top
  /-- The current directory, in front of a relative path. -/
  | here
  | above
  | entry (name : RawText)
deriving DecidableEq, Repr

namespace Component

/-- A component as it is written. -/
def text : Component → RawText
  | top => "/"
  | here => "."
  | above => ".."
  | entry name => name

/-- The component that what is between slashes stands for, past the front of a path. -/
def ofPiece? (piece : List UInt8) : Option Component :=
  if piece = [] ∨ piece = [dot] then none
  else if piece = [dot, dot] then some above
  else some (entry ⟨piece⟩)

end Component

/-- Whether a path begins at the top of the file system. -/
def isAbsolute (path : RawText) : Bool := path.bytes.head? = some slash

/-- The components of a path. -/
def components (path : RawText) : List Component :=
  match path.bytes.splitOn slash with
  | [] => []
  | first :: rest =>
    let front :=
      if isAbsolute path then [Component.top]
      else if first = [dot] then [Component.here]
      else (Component.ofPiece? first).toList
    front ++ rest.filterMap Component.ofPiece?

/-- A path as seen from a base: itself if it is absolute. -/
def join (base path : RawText) : RawText :=
  if isAbsolute path || base.isEmpty then path
  else if base.bytes.getLast? = some slash then base ++ path
  else ⟨base.bytes ++ slash :: path.bytes⟩

/-- The name that a path ends with, unless it ends at a `..` or at the top. -/
def fileName? (path : RawText) : Option RawText :=
  match (components path).getLast? with
  | some (.entry name) => some name
  | _ => none

/-- Whether a piece between slashes stands for no component. -/
def isPadding (piece : List UInt8) : Bool := piece.isEmpty || piece == [dot]

/-- The absolute path with given pieces. -/
def ofPieces (pieces : List (List UInt8)) : RawText :=
  ⟨slash :: List.intercalate [slash] pieces⟩

/-- The relative path with given pieces behind its first one. -/
def ofPiecesBehind (first : List UInt8) (pieces : List (List UInt8)) : RawText :=
  ⟨List.intercalate [slash] (first :: pieces)⟩

/-- The paths above one, the nearest first, from its pieces in reverse and the way to write the
path with given pieces. -/
def abovePieces (write : List (List UInt8) → RawText) : List (List UInt8) → List RawText
  | [] => []
  | piece :: rest =>
    if isPadding piece then abovePieces write rest
    else write (rest.dropWhile isPadding).reverse :: abovePieces write rest

/-- The paths that are left when the last components of a path are dropped one by one.  Those of
an absolute path end at the top, those of a relative one at the empty path. -/
def above (path : RawText) : List RawText :=
  match path.bytes.splitOn slash with
  | [] => []
  | first :: rest =>
    if isAbsolute path then abovePieces ofPieces rest.reverse
    else if first.isEmpty then []
    else abovePieces (ofPiecesBehind first) rest.reverse ++ [.ofText ""]

/-- A path and the paths above it. -/
def ancestors (path : RawText) : List RawText := path :: above path

/-- The components of a file's path that are left below a root, or all if it is not below. -/
def componentsBelow (root file : RawText) : List Component :=
  ((components root).isPrefixOf? (components file)).getD (components file)

/-- The path of a file relative to a root: the components as they are shown, with slashes between
them. -/
def relativeTo (root file : RawText) : String :=
  "/".intercalate ((componentsBelow root file).map fun component => component.text.shown)

/-- A path below a root is shown without the root. -/
theorem relativeTo_of_prefix {root file : RawText} {rest : List Component}
    (h : components file = components root ++ rest) :
    relativeTo root file = "/".intercalate (rest.map fun component => component.text.shown) := by
  unfold relativeTo componentsBelow
  rw [h, Text.isPrefixOf?_append]
  rfl

example : relativeTo "/w/." "/w/./x//y" = "x/y" := by decide +kernel

example : ancestors "/w/a/./" = ["/w/a/./", "/w", "/"] := by decide +kernel

example : ancestors "./w/..//a" = ["./w/..//a", "./w/..", "./w", ".", ""] := by decide +kernel

end Path
end AttributeScope
