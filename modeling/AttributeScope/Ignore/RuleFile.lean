import AttributeScope.Glob.Compilation
import AttributeScope.Ignore.Rule
import AttributeScope.Text.ByteLines

/-!
# Ignore files

The rules in the lines of an ignore file.  A line whose glob is malformed gives no rule, and a
line that is no text ends the file.  If the globs of a file cannot be compiled together, none of
its rules counts.
-/

namespace AttributeScope
namespace Ignore

open Text

/-- What is wrong with a line. -/
inductive LineFault where
  | malformed (text : RuleText) (fault : GlobFault)
  | notText
deriving DecidableEq, Repr

namespace LineFault

/-- The message of a fault. -/
def message : LineFault → String
  | malformed text fault => text.faultMessage fault
  | notText => "stream did not contain valid UTF-8"

end LineFault

/-- What the lines of an ignore file give. -/
structure RuleFile where
  rules : List Rule
  /-- The faults, with the numbers of their lines. -/
  faults : List (Nat × LineFault)
  /-- Why the rules cannot be used together, if they cannot. -/
  compileFault : Option Glob.CompileFault := none

namespace RuleFile

/-- No rules and no faults. -/
def empty : RuleFile := { rules := [], faults := [] }

/-- The mark that may stand at the beginning of a file. -/
def byteOrderMark : Char := Char.ofNat 0xFEFF

/-- A line without the marks that may stand before the first one. -/
def withoutMark (number : Nat) (line : List Char) : List Char :=
  if number = 1 then line.dropWhile (· == byteOrderMark) else line

/-- Put what one line gives in front of what the following ones give. -/
def addLine (number : Nat) (line : List Char) (rest : RuleFile) : RuleFile :=
  match RuleText.ofLine? (withoutMark number line) with
  | none => rest
  | some text =>
    match text.rule true with
    | .ok rule => { rest with rules := rule :: rest.rules }
    | .error fault => { rest with faults := (number, .malformed text fault) :: rest.faults }

/-- What lines give, numbered from `number` on. -/
def readLines (number : Nat) : List (List UInt8) → RuleFile
  | [] => empty
  | bytes :: rest =>
    match Utf8.decodeStrict? bytes.toArray with
    | none => { rules := [], faults := [(number, .notText)] }
    | some line => addLine number line.toList (readLines (number + 1) rest)

/-- Leave out the rules if they cannot be used together. -/
def compiled (file : RuleFile) : RuleFile :=
  match Glob.compileFault? (file.rules.map Rule.glob) with
  | none => file
  | some fault => { file with rules := [], compileFault := some fault }

/-- What a file with given bytes amounts to. -/
def ofBytes (bytes : Array UInt8) : RuleFile := (readLines 1 (byteLines bytes.toList)).compiled

/-- The faults worth mentioning: a file that merely begins with what is no text is like none. -/
def reportedFaults (file : RuleFile) : List (Nat × LineFault) :=
  match file.faults with
  | [(_, .notText)] => []
  | faults => faults

end RuleFile
end Ignore
end AttributeScope
