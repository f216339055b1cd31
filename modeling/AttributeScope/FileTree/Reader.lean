import AttributeScope.Failure
import AttributeScope.FileTree.Lookup
import AttributeScope.Log

/-!
# Reading directive files

Directive files are small, so a file above a size limit is not read.  What is no UTF-8 in a file
is replaced.
-/

namespace AttributeScope
namespace FileSystem

/-- The size that a directory is reported with. -/
def directorySize : Nat := 4096

/-- The size from which on reading a file is worth mentioning. -/
def largeSize : Nat := 1024 * 1024

/-- The largest size of a file that is read unless another limit is given. -/
def defaultSizeLimit : Nat := 10 * 1024 * 1024

/-- The size of what a node stands for, in bytes. -/
def nodeSize : Node → Nat
  | .file content => content.size
  | _ => directorySize

/-- The node that a path leads to, if its size is within a limit. -/
def findWithin (fs : FileSystem) (limit : Nat) (path : RawText) : Except Failure Node :=
  match fs.find path with
  | .error fault => .error (.io path fault.message)
  | .ok node =>
    if limit < nodeSize node then .error (.fileTooLarge path (nodeSize node) limit) else .ok node

/-- The bytes of a file whose size is within a limit. -/
def readWithin (fs : FileSystem) (limit : Nat) (path : RawText) : Except Failure (Array UInt8) :=
  (fs.findWithin limit path).bind fun node =>
    match node with
    | .file (.bytes bytes) => .ok bytes
    | .file (.locked _) => .error (.io path LookupFault.permissionDenied.message)
    | _ => .error (.io path LookupFault.isDirectory.message)

/-- The text of a file whose size is within a limit. -/
def readText (fs : FileSystem) (limit : Nat) (path : RawText) : Except Failure String :=
  (fs.readWithin limit path).map fun bytes =>
    match Text.Utf8.decodeStrict? bytes with
    | some text => text
    | none => (Text.Utf8.decode bytes).text

/-- What reading a file reports. -/
def readEvents (fs : FileSystem) (limit : Nat) (path : RawText) : List Event :=
  (match fs.findWithin limit path with
    | .ok node => if largeSize < nodeSize node then [.largeFile] else []
    | .error _ => []) ++
  match fs.readWithin limit path with
  | .ok bytes =>
    match Text.Utf8.decodeStrict? bytes with
    | some _ => []
    | none => [.decodedLossily path]
  | .error _ => []

end FileSystem
end AttributeScope
