import AttributeScope.CommandLine.Help
import Std.Time.Format

/-!
# The program

A session in the surroundings of the process.  As much of the disk as the session can ask about is
read first, the session runs on what was read, and its answer is written.

What is read are the ways to the paths that the session begins at, the files beside them that
concern whole directories, and the tree that is searched, with the contents of its directive files.
Paths are handed to the disk as texts, so what has a name that is no UTF-8 is not read.
-/

namespace AttributeScope
namespace Disk

open FileSystem (Position)

/-- The files that say something about the directory they are in. -/
def sideFiles : List RawText :=
  [Config.fileName, Ignore.Layer.ignoreName, Ignore.Layer.gitIgnoreName] ++
    Ignore.Repository.markers ++ [Path.join Ignore.Repository.gitName Ignore.Repository.excludeName]

/-- The names in a path. -/
def namesIn (path : RawText) : List RawText :=
  ((path.bytes.splitOn RawText.slash).filter fun piece => !piece.isEmpty).map RawText.mk

/-- The position of a path without links. -/
def positionOf (path : String) : Position := namesIn path

/-- The result of an action, if it does not fail. -/
def attempt {α : Type} (action : IO α) : IO (Option α) := do
  try return some (← action) catch _ => return none

/-- The position that a path leads to, if it leads anywhere. -/
def find? (path : RawText) : IO (Option Position) :=
  attempt do return positionOf (← IO.FS.realPath path.shown).toString

/-- A file, or an empty directory for a directory; nothing if it cannot be looked at. -/
def load? (position : Position) : IO (Option Node) :=
  attempt do
    let path ← IO.FS.realPath (FileSystem.pathAt position).shown
    if ← path.isDir then return .emptyDirectory
    match ← attempt (IO.FS.readBinFile path) with
    | some bytes => return .file bytes.data
    | none => return .file (.locked (← path.metadata).byteSize.toNat)

/-- Put what is at a position into the tree of everything. -/
def putFound (top : Node) (position : Position) : IO Node := do
  match ← load? position with
  | some node => return top.put node position
  | none => return top

/-- Put all that is on the way of an absolute path into the tree of everything, the way that what
is at a position is put there. -/
def putWay (put : Node → Position → IO Node) (top : Node) (path : RawText) : IO Node := do
  let mut top ← put top []
  let mut here : Position := []
  for name in namesIn path do
    if name = .ofText ".." then
      here := here.dropLast
    else if name ≠ .ofText "." then
      let next := here ++ [name]
      let some found ← find? (FileSystem.pathAt next) | return top
      if found ≠ next then
        top := top.put (.symlink (FileSystem.pathAt found)) next
      top ← put top found
      here := found
  return top

/-- The files outside of a directory that concern it because it is a worktree, as far as what has
been read so far names them. -/
def worktreeFiles (fs : FileSystem) (directory : RawText) : List RawText :=
  let git := Path.join directory Ignore.Repository.gitName
  let line := (Ignore.Repository.firstLine fs git).toOption.join
  let named := line.bind Ignore.Repository.namedDirectory?
  (named.map fun other : String => Path.join other Ignore.Repository.commonName).toList ++
    (Ignore.Repository.excludeFile fs directory).toOption.join.toList

/-- Put a directory into the tree of everything, with the files that say something about it. -/
def putDirectory (top : Node) (position : Position) : IO Node := do
  let mut top := top.put .emptyDirectory position
  for name in sideFiles do
    let file := position ++ namesIn name
    if let some found ← find? (FileSystem.pathAt file) then
      if let some node ← load? found then
        top := top.put node file
  let here := (← IO.currentDir).toString
  for _ in [0:2] do
    for path in worktreeFiles { top, here := positionOf here } (FileSystem.pathAt position) do
      top ← putWay putFound top (Path.join here path)
  return top

/-- Put what is at a position into the tree of everything, and the directories above it. -/
def putNode (top : Node) (position : Position) : IO Node := do
  let mut top := top
  for depth in [0:position.length] do
    top ← putDirectory top (position.take depth)
  match ← load? position with
  | some (.file content) => return top.put (.file content) position
  | some _ => putDirectory top position
  | none => return top

/-- Put what is searched in a directory into the tree of everything: its directories, and its
directive files, which have the given name. -/
partial def putSearched (fileName : String) (top : Node) (position : Position) : IO Node := do
  let mut top ← putDirectory top position
  let entries ← attempt do (← IO.FS.realPath (FileSystem.pathAt position).shown).readDir
  for entry in entries.getD #[] do
    let below := position ++ [.ofText entry.fileName]
    match ← attempt do return (← entry.path.symlinkMetadata).type with
    | some .dir =>
      if !Project.skippedDirectories.contains entry.fileName then
        top ← putSearched fileName top below
    | some .file =>
      if entry.fileName = fileName then
        if let some node ← load? below then
          top := top.put node below
    | _ => pure ()
  return top

end Disk

namespace CommandLine

/-- The surroundings of the process, without files. -/
def observe : IO Surroundings := do
  let isSet (name : String) : IO Bool := return (← IO.getEnv name).isSome
  let here ← Disk.attempt IO.currentDir
  let terminal ← IO.getEnv "TERM"
  let now := Std.Time.DateTime.ofTimestampWithZone (← Std.Time.Timestamp.now) .UTC
  return {
    fs := {
      top := .emptyDirectory
      here := (here.map fun path => Disk.positionOf path.toString).getD [] }
    hereFault := if here.isSome then none else some .notFound
    config := ← IO.getEnv "GENSCOPE_CONFIG"
    hints := {
      noColor := ← isSet "NO_COLOR"
      color := ← isSet "COLOR"
      ci := ← isSet "CI"
      terminal := ← (← IO.getStdout).isTty
      dumb := terminal.all (· == "dumb") }
    timestamp := now.toISO8601String }

/-- The surroundings with the files that a session with these arguments asks about. -/
def withFiles (surroundings : Surroundings) (arguments : List String) : IO Surroundings := do
  let mut top := surroundings.fs.top
  for path in startingPaths surroundings arguments do
    top ← Disk.putWay Disk.putNode top path
  let outlined := { surroundings with fs.top := top }
  let some (root, fileName) := searched? outlined arguments | return outlined
  let .ok position := outlined.fs.locate root | return outlined
  return { surroundings with fs.top := ← Disk.putSearched fileName top position }

/-- Write how a session ended.  The exit code of the process is returned. -/
def write : Ending → IO UInt32
  | .ran transcript => do
    IO.eprint transcript.messages
    IO.print transcript.output
    return transcript.exitCode.toNat.toUInt32
  | .help => do
    IO.print helpText
    return ExitCode.success.toNat.toUInt32
  | .version subcommand => do
    IO.print (versionText subcommand)
    return ExitCode.success.toNat.toUInt32
  | .usage fault => do
    IO.eprint fault.report
    return ExitCode.usage.toNat.toUInt32
  | .script shell => do
    IO.print shell.completionScript
    return ExitCode.success.toNat.toUInt32

end CommandLine
end AttributeScope

/-- Run the program. -/
def main (arguments : List String) : IO UInt32 := do
  let surroundings ← AttributeScope.CommandLine.observe
  let surroundings ← AttributeScope.CommandLine.withFiles surroundings arguments
  AttributeScope.CommandLine.write (AttributeScope.CommandLine.run surroundings arguments)
