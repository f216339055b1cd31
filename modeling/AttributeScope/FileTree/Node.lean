import AttributeScope.FileTree.RawText

/-!
# File trees

A file system as a value: files with their bytes, directories with their entries, and symbolic
links.  A file may be closed to reading; a directory can always be searched and listed.
-/

namespace AttributeScope

/-- What a regular file holds. -/
inductive FileContent where
  | bytes (data : Array UInt8)
  /-- A file that may not be opened: only its size is known. -/
  | locked (size : Nat)

instance : Coe (Array UInt8) FileContent := ⟨.bytes⟩

/-- The size of a regular file, in bytes. -/
def FileContent.size : FileContent → Nat
  | .bytes data => data.size
  | .locked size => size

/-- Something that a directory entry stands for. -/
inductive Node where
  | file (content : FileContent)
  | directory (entries : List (RawText × Node))
  /-- A symbolic link with the path it points to. -/
  | symlink (target : RawText)

namespace Node

/-- A directory without entries. -/
def emptyDirectory : Node := directory []

/-- Whether a node is a directory. -/
def isDirectory : Node → Bool
  | directory _ => true
  | _ => false

/-- Whether a node is a regular file. -/
def isFile : Node → Bool
  | file _ => true
  | _ => false

/-- The entry of a directory with a name. -/
def child? (node : Node) (name : RawText) : Option Node :=
  match node with
  | directory entries => entries.lookup name
  | _ => none

/-- The node that is reached through directories by names alone. -/
def descend? (node : Node) : List RawText → Option Node
  | [] => some node
  | name :: rest => (node.child? name).bind fun child => child.descend? rest

/-- Set the entry of that name. -/
def setEntry (name : RawText) (child : Node) : List (RawText × Node) → List (RawText × Node)
  | [] => [(name, child)]
  | (other, node) :: rest =>
    if other = name then (name, child) :: rest else (other, node) :: setEntry name child rest

/-- Put a node at a path of names and make the directories on the way.  A directory that is put
where a directory is leaves it as it is. -/
def put (node : Node) (child : Node) : List RawText → Node
  | [] => if node.isDirectory && child.isDirectory then node else child
  | name :: rest =>
    let entries := match node with
      | directory entries => entries
      | _ => []
    directory (setEntry name (((entries.lookup name).getD emptyDirectory).put child rest) entries)

end Node
end AttributeScope
