import AttributeScope.Directive
import AttributeScope.Pattern.Expansion

/-!
# Anchored patterns

A pattern in an attribute file is meant below the directory of that file.  Its translations are
anchored by writing that directory, relative to the project, in front of them.  The scope dialect
cannot write an `@`; inside a name it is read as `*`, and a name that is exactly `@` makes a
pattern impossible to write.
-/

namespace AttributeScope

/-- The directory of an attribute file, relative to the project: nothing for the project's own
directory, and else a path that ends with a slash. -/
structure SourceDir where
  /-- The path in front of which nothing has to be written. -/
  text : String
deriving DecidableEq, Repr

namespace SourceDir

/-- The project's own directory. -/
def root : SourceDir := ⟨""⟩

/-- Whether a directory is the project's own. -/
def isRoot (dir : SourceDir) : Bool := dir.text.isEmpty

/-- A path with slashes for backslashes. -/
def slashed (path : List Char) : List Char :=
  path.map fun c => if c = '\\' then '/' else c

/-- The directory that a path of slashes names. -/
def ofSlashed (path : List Char) : SourceDir :=
  match Text.dropEndWhile (· == '/') (path.dropWhile (· == '/')) with
  | [] => root
  | inner => ⟨String.ofList (inner ++ ['/'])⟩

/-- The directory that a path names; slashes around it do not matter. -/
def ofPath (path : String) : SourceDir :=
  ofSlashed (slashed path.toList)

/-- The directory that holds a file. -/
def containing (file : String) : SourceDir :=
  match Text.beforeLast? '/' (slashed file.toList) with
  | none => root
  | some dir => ofSlashed dir

/-- A directory as it is shown. -/
def display (dir : SourceDir) : String :=
  if dir.isRoot then "/" else dir.text

end SourceDir

namespace Pattern

/-- Write a path in the scope dialect, which has no `@`.  No result if a segment is exactly `@`,
since `*` would then match every directory there. -/
def encodeAtSign? (path : List Char) : Option (List Char) :=
  if (segments path).any (· == ['@']) then none
  else some (path.map fun c => if c = '@' then '*' else c)

/-- A path below a directory.  A leading slash of the path is not written twice. -/
def below (dir : SourceDir) (variant : List Char) : List Char :=
  dir.text.toList ++
    if dir.text.toList.getLast? = some '/' then
      match variant with
      | '/' :: rest => rest
      | _ => variant
    else variant

/-- A translation below a directory, in the scope dialect. -/
def anchor? (dir : SourceDir) (variant : String) : Option String :=
  (encodeAtSign? (below dir variant.toList)).map String.ofList

end Pattern

/-- What becomes of a directive below a directory. -/
structure Resolution where
  /-- The anchored patterns, as a sorted set. -/
  patterns : List String
  /-- How many translations the scope dialect cannot express. -/
  unencodable : Nat
  /-- Whether the pattern had too many recursive segments. -/
  overLimit : Bool
deriving DecidableEq, Repr

namespace Resolution

open Pattern

/-- Translate a directive's pattern and anchor every translation. -/
def ofDirective (limit : ExpansionLimit) (dir : SourceDir) (directive : Directive) : Resolution :=
  let variants := translate limit directive.path
  { patterns := Text.sortedSet (variants.filterMap (anchor? dir))
    unencodable := (variants.filter fun variant => (anchor? dir variant).isNone).length
    overLimit := variants.isEmpty }

/-- What resolving a directive reports. -/
def events (limit : ExpansionLimit) (dir : SourceDir) (directive : Directive) : List Event :=
  translationEvents limit directive.path ++
    (translate limit directive.path).filterMap fun variant =>
      if (anchor? dir variant).isNone then some (.variantDropped dir.text variant) else none

end Resolution
end AttributeScope
