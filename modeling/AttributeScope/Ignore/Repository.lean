import AttributeScope.FileTree.Lookup
import AttributeScope.Text.ByteLines

/-!
# Repositories

A directory is the top of a repository if it holds a `.git` or a `.jj`.  The exclude file of a
repository is kept below `.git`.  If `.git` is a file, as it is in a linked worktree, its first line
names a directory in its stead, and the exclude file is where the first line of `commondir` in that
directory says.

Main results:

- `excludeFile_of_not_isFile`: unless `.git` is a file, the exclude file is below it.
-/

namespace AttributeScope
namespace Ignore
namespace Repository

/-- What holds the data of a repository. -/
def gitName : RawText := ".git"

/-- What makes a directory the top of a repository. -/
def markers : List RawText := [gitName, ".jj"]

/-- What the line in a `.git` file begins with, in front of the directory it names. -/
def directoryLabel : String := "gitdir: "

/-- The file that says which directory several worktrees have in common. -/
def commonName : RawText := "commondir"

/-- The exclude file, below the directory that worktrees have in common. -/
def excludeName : RawText := "info/exclude"

/-- Why it cannot be said where the exclude file of a repository is. -/
structure Fault where
  /-- The file that should have said it. -/
  path : RawText
  cause : LookupFault
deriving DecidableEq, Repr

/-- The message of a fault. -/
def Fault.message (fault : Fault) : String := s!"{fault.path}: {fault.cause.message}"

/-- Whether a directory is the top of a repository. -/
def isTop (fs : FileSystem) (directory : RawText) : Bool :=
  markers.any fun name => fs.exists? (Path.join directory name)

/-- The first line of the file that a path leads to; none if the file is empty. -/
def firstLine (fs : FileSystem) (path : RawText) : Except Fault (Option String) :=
  match fs.read path with
  | .error cause => .error ⟨path, cause⟩
  | .ok bytes =>
    match Text.firstLine? bytes with
    | none => .ok none
    | some (some line) => .ok (some line)
    | some none => .error ⟨path, .invalidText⟩

/-- The directory that a line of a `.git` file names. -/
def namedDirectory? (line : String) : Option String :=
  (directoryLabel.toList.isPrefixOf? line.toList).map String.ofList

/-- The directory that a line of a `commondir` file in some directory names: one that begins with
a dot is seen from there. -/
def commonDirectory (directory : RawText) (line : String) : RawText :=
  if line.toList.head? = some '.' then Path.join directory line else line

/-- What the `commondir` file of a directory names; nothing if it cannot be opened. -/
def commonDirectoryOf (fs : FileSystem) (directory : RawText) : Except Fault (Option RawText) :=
  let path := Path.join directory commonName
  if fs.canOpen path then
    (firstLine fs path).map fun line => line.map (commonDirectory directory)
  else .ok none

/-- The directory that a worktree has in common with others, from the line of its `.git` file. -/
def sharedDirectory (fs : FileSystem) (line : Option String) : Except Fault (Option RawText) :=
  match line.bind namedDirectory? with
  | none => .ok none
  | some directory => commonDirectoryOf fs directory

/-- The exclude file of the repository that a directory is the top of; there need not be one. -/
def excludeFile (fs : FileSystem) (directory : RawText) : Except Fault (Option RawText) :=
  let git := Path.join directory gitName
  if fs.isFile git then
    ((firstLine fs git).bind (sharedDirectory fs)).map fun shared =>
      shared.map fun directory => Path.join directory excludeName
  else .ok (some (Path.join git excludeName))

/-- Unless `.git` is a file, the exclude file is below it. -/
theorem excludeFile_of_not_isFile {fs : FileSystem} {directory : RawText}
    (h : fs.isFile (Path.join directory gitName) = false) :
    excludeFile fs directory =
      .ok (some (Path.join (Path.join directory gitName) excludeName)) := by
  simp [excludeFile, h]

example : namedDirectory? "gitdir: /m/.git/worktrees/w" = some "/m/.git/worktrees/w" := by
  decide +kernel

example : commonDirectory "/m/.git/worktrees/w" "../.." = "/m/.git/worktrees/w/../.." := by
  decide +kernel

end Repository
end Ignore
end AttributeScope
