import AttributeScope.FileTree.RawText
import AttributeScope.Glob.Language
import AttributeScope.Text.Blank

/-!
# Ignore rules

A line of an ignore file says which paths below its directory are ignored, or kept after all.
Of several rules, the last one that matches a path decides.

Main results:

- `verdict?_append`: later rules decide before earlier ones.
-/

namespace AttributeScope
namespace Ignore

open Text (trimEnd)

/-- What rules say about a path. -/
inductive Verdict where
  /-- The path is left out. -/
  | ignored
  /-- The path is kept, whatever earlier rules say. -/
  | kept
deriving DecidableEq, Repr

/-- A rule in words: the text of its glob, and what the characters around it mean. -/
structure RuleText where
  /-- The line without blanks at its end. -/
  line : List Char
  verdict : Verdict
  directoriesOnly : Bool
  glob : List Char
deriving DecidableEq, Repr

/-- A rule that can be applied. -/
structure Rule where
  glob : List Glob.Token
  /-- The paths that the glob matches. -/
  paths : Glob.Expr
  verdict : Verdict
  directoriesOnly : Bool

namespace RuleText

/-- A line without the blanks at its end, which count only after a backslash. -/
def trim (line : List Char) : List Char :=
  if ['\\', ' '].isSuffixOf line then line else trimEnd line

/-- The verdict of a line, and what is left of the line.  A `!` in front keeps paths; a backslash
in front takes the meaning of a `!` or a `#`. -/
def splitVerdict : List Char → Verdict × List Char
  | '\\' :: '!' :: rest => (.ignored, '!' :: rest)
  | '\\' :: '#' :: rest => (.ignored, '#' :: rest)
  | '!' :: rest => (.kept, rest)
  | line => (.ignored, line)

/-- Whether a text is bound to the directory of its file by a slash in front, and what is left. -/
def splitAnchor : List Char → Bool × List Char
  | '/' :: rest => (true, rest)
  | text => (false, text)

/-- Whether a text is meant for directories only, by a slash at its end, and what is left.  A
backslash in front of that slash has no meaning. -/
def splitDirectoryMark (text : List Char) : Bool × List Char :=
  match text.reverse with
  | '/' :: '\\' :: rest => (true, rest.reverse)
  | '/' :: rest => (true, rest.reverse)
  | _ => (false, text)

/-- The part of a glob that lets it match in every directory. -/
def anywhere : List Char := ['*', '*', '/']

/-- A glob that matches in every directory, unless it is bound to one. -/
def anchorGlob (anchored : Bool) (glob : List Char) : List Char :=
  if anchored || '/' ∈ glob || glob = ['*', '*'] then glob else anywhere ++ glob

/-- A glob for what is inside of a directory, if it ends like that: the directory itself is not
meant. -/
def excludeDirectory (glob : List Char) : List Char :=
  if ['/', '*', '*'].isSuffixOf glob then glob ++ ['/', '*'] else glob

/-- The rule in a line that is neither empty nor a comment. -/
def ofTrimmed (line : List Char) : RuleText :=
  let (verdict, rest) := splitVerdict line
  let (anchored, rest) := splitAnchor rest
  let (directoriesOnly, glob) := splitDirectoryMark rest
  { line, verdict, directoriesOnly, glob := excludeDirectory (anchorGlob anchored glob) }

/-- The rule in a line; none if the line is empty or a comment. -/
def ofLine? (line : List Char) : Option RuleText :=
  if line.head? = some '#' then none
  else
    let line := trim line
    if line.isEmpty then none else some (ofTrimmed line)

/-- The rule that a text stands for.  An unclosed class is allowed where a rule that cannot be
read should still be of use. -/
def rule (allowUnclosed : Bool) (text : RuleText) : Except GlobFault Rule :=
  (Glob.parse allowUnclosed text.glob).map fun tokens =>
    { glob := tokens
      paths := Glob.exprOf tokens
      verdict := text.verdict
      directoriesOnly := text.directoriesOnly }

/-- What is said about a rule that cannot be read. -/
def faultMessage (text : RuleText) (fault : GlobFault) : String :=
  s!"error parsing glob '{String.ofList text.line}': {fault.message}"

end RuleText

namespace Rule

/-- Whether a rule matches a path below its directory, given in bytes. -/
def covers (rule : Rule) (path : Array UInt8) (isDirectory : Bool) : Bool :=
  (isDirectory || !rule.directoriesOnly) && rule.paths.accepts path

end Rule

/-- What rules say about a path below their directory: the last one that matches decides. -/
def verdict? (rules : List Rule) (path : RawText) (isDirectory : Bool) : Option Verdict :=
  let bytes := path.bytes.toArray
  (rules.reverse.find? fun rule => rule.covers bytes isDirectory).map Rule.verdict

/-- Later rules decide before earlier ones. -/
theorem verdict?_append (earlier later : List Rule) (path : RawText) (isDirectory : Bool) :
    verdict? (earlier ++ later) path isDirectory =
      (verdict? later path isDirectory).or (verdict? earlier path isDirectory) := by
  simp only [verdict?, List.reverse_append, List.find?_append]
  cases later.reverse.find? fun rule => rule.covers path.bytes.toArray isDirectory <;> simp

/-- Without rules there is no verdict. -/
@[simp] theorem verdict?_nil (path : RawText) (isDirectory : Bool) :
    verdict? [] path isDirectory = none := rfl

example : (RuleText.ofLine? "!/a/b/ ".toList).map RuleText.glob = some "a/b".toList := by
  decide +kernel

example : (RuleText.ofLine? "a/**".toList).map RuleText.glob = some "a/**/*".toList := by
  decide +kernel

end Ignore
end AttributeScope
