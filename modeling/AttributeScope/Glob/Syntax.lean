/-!
# Globs

The syntax of globs: `?` and `*`, the recursive `**`, classes such as `[a-z]` or `[!a]`,
alternatives such as `{a,b}`, and `\` in front of a character that is meant as itself.

Main results:

- `readRanges_length`: what follows a class is shorter than what it is read from.
-/

namespace AttributeScope

/-- Why a text is no glob. -/
inductive GlobFault where
  | unclosedClass
  /-- The bounds of a range in a class are in the wrong order. -/
  | invalidRange (first last : Char)
  | unclosedGroup
  /-- A closing brace closes no group. -/
  | unopenedGroup
  /-- A backslash stands at the end. -/
  | danglingEscape
deriving DecidableEq, Repr

namespace GlobFault

/-- The message of a fault. -/
def message : GlobFault → String
  | unclosedClass => "unclosed character class; missing ']'"
  | invalidRange first last =>
    "invalid range; '" ++ first.toString ++ "' > '" ++ last.toString ++ "'"
  | unclosedGroup =>
    "unclosed alternate group; missing '\x7d' (maybe escape '\x7b' with '[\x7b]'?)"
  | unopenedGroup =>
    "unopened alternate group; missing '\x7b' (maybe escape '\x7d' with '[\x7d]'?)"
  | danglingEscape => "dangling '\\'"

end GlobFault

namespace Glob

/-- The parts of a glob. -/
inductive Token where
  | literal (c : Char)
  /-- One symbol of a name. -/
  | anyOne
  /-- Any part of a name. -/
  | anyRun
  /-- `**` and a slash in front: any number of directories. -/
  | descend
  /-- A slash and `**` at the end: everything below. -/
  | contents
  /-- `**` between slashes: a slash, or several with directories between them. -/
  | between
  /-- One symbol inside or, if negated, outside of ranges. -/
  | oneOf (negated : Bool) (ranges : List (Char × Char))
  | alternatives (branches : List (List Token))

/-! ## Classes -/

/-- Add a character to the ranges of a class, the last range first: as the upper bound of the last
range, or as a range of its own. -/
def addToClass (asBound : Bool) (c : Char) :
    List (Char × Char) → Except GlobFault (List (Char × Char))
  | (first, last) :: others =>
    if asBound then
      if c < first then .error (.invalidRange first c) else .ok ((first, c) :: others)
    else .ok ((c, c) :: (first, last) :: others)
  | [] => .ok [(c, c)]

/-- Read the ranges of a class up to its closing bracket.  A bracket or a dash that comes first is
meant as itself, and so is a dash that comes last. -/
def readRanges (first afterDash : Bool) (ranges : List (Char × Char)) :
    List Char → Except GlobFault (List (Char × Char) × List Char)
  | [] => .error .unclosedClass
  | c :: rest =>
    if c = ']' ∧ !first then
      .ok ((if afterDash then ('-', '-') :: ranges else ranges).reverse, rest)
    else if c = '-' ∧ !first ∧ !afterDash then readRanges false true ranges rest
    else
      match addToClass afterDash c ranges with
      | .ok ranges => readRanges false false ranges rest
      | .error fault => .error fault

/-- What follows a class is shorter than what it is read from. -/
theorem readRanges_length {first afterDash : Bool} {ranges found : List (Char × Char)}
    {input rest : List Char} (h : readRanges first afterDash ranges input = .ok (found, rest)) :
    rest.length < input.length := by
  induction input generalizing first afterDash ranges with
  | nil => simp [readRanges] at h
  | cons c others ih =>
    unfold readRanges at h
    split at h
    · simp only [Except.ok.injEq, Prod.mk.injEq] at h
      simp [h.2]
    · split at h
      · exact Nat.lt_succ_of_lt (ih h)
      · split at h
        · exact Nat.lt_succ_of_lt (ih h)
        · simp at h

/-- Read a class after its opening bracket. -/
def readClass (input : List Char) : Except GlobFault (Token × List Char) :=
  match input with
  | '!' :: rest =>
    (readRanges true false [] rest).map fun (ranges, rest) => (.oneOf true ranges, rest)
  | '^' :: rest =>
    (readRanges true false [] rest).map fun (ranges, rest) => (.oneOf true ranges, rest)
  | rest => (readRanges true false [] rest).map fun (ranges, rest) => (.oneOf false ranges, rest)

/-- What follows a class is not longer than what it is read from. -/
theorem readClass_length {input rest : List Char} {token : Token}
    (h : readClass input = .ok (token, rest)) : rest.length ≤ input.length := by
  have key : ∀ {negated : Bool} {others : List Char},
      (readRanges true false [] others).map
        (fun (ranges, rest) => (Token.oneOf negated ranges, rest)) = .ok (token, rest) →
      rest.length ≤ others.length := by
    intro negated others h
    cases hr : readRanges true false [] others with
    | error fault => simp [hr, Except.map] at h
    | ok found =>
      obtain ⟨ranges, after⟩ := found
      simp only [hr, Except.map, Except.ok.injEq, Prod.mk.injEq] at h
      exact h.2 ▸ Nat.le_of_lt (readRanges_length hr)
  unfold readClass at h
  split at h
  · exact Nat.le_succ_of_le (key h)
  · exact Nat.le_succ_of_le (key h)
  · exact key h

/-! ## Groups -/

/-- A group of alternatives that is not closed yet. -/
structure OpenGroup where
  /-- The branches before the one that is being read, the last one first. -/
  branches : List (List Token)
  /-- What stands before the group, the last token first. -/
  before : List Token

/-- How far a glob has been read. -/
structure Progress where
  /-- The tokens of the branch that is being read, the last one first. -/
  tokens : List Token
  /-- The groups that are open, the innermost first. -/
  groups : List OpenGroup

namespace Progress

/-- Nothing has been read. -/
def start : Progress := ⟨[], []⟩

/-- Add a token. -/
def push (p : Progress) (token : Token) : Progress := { p with tokens := token :: p.tokens }

/-- Whether a group is open. -/
def inGroup (p : Progress) : Bool := !p.groups.isEmpty

/-- Begin a group of alternatives. -/
def openGroup (p : Progress) : Progress := ⟨[], ⟨[], p.tokens⟩ :: p.groups⟩

/-- Begin the next branch of the innermost group. -/
def nextBranch (p : Progress) : Progress :=
  match p.groups with
  | group :: rest => ⟨[], ⟨p.tokens.reverse :: group.branches, group.before⟩ :: rest⟩
  | [] => p.push (.literal ',')

/-- End the innermost group. -/
def closeGroup (p : Progress) : Except GlobFault Progress :=
  match p.groups with
  | group :: rest =>
    .ok ⟨.alternatives (p.tokens.reverse :: group.branches).reverse :: group.before, rest⟩
  | [] => .error .unopenedGroup

/-- Read two stars as two runs in one name. -/
def pushRuns (p : Progress) : Progress := (p.push .anyRun).push .anyRun

/-- Replace the slash before two stars by what both stand for.  Neighbouring recursive parts are
one. -/
def replaceSlash (p : Progress) (token : Token) : Progress :=
  match p.tokens with
  | .descend :: _ => p
  | .contents :: _ => p
  | _ :: rest => { p with tokens := token :: rest }
  | [] => p.push token

/-- Whether two stars may be recursive where they stand: after a slash, or where a branch begins
after text. -/
def mayRecurse (p : Progress) (previous : Option Char) : Bool :=
  previous == some '/' || (p.inGroup && (previous == some ',' || previous == some '\x7b'))

end Progress

/-! ## Whole globs -/

/-- Read a glob from the character after `previous` on.  If an unclosed class is allowed, its
bracket, like all that follow, is meant as itself. -/
def parseFrom (allowUnclosed bracketsLiteral : Bool) (previous : Option Char) (p : Progress) :
    List Char → Except GlobFault Progress
  | [] => .ok p
  | '?' :: rest => parseFrom allowUnclosed bracketsLiteral (some '?') (p.push .anyOne) rest
  | '*' :: '*' :: rest =>
    if p.tokens.isEmpty then
      match rest with
      | [] => .ok (p.push .descend)
      | '/' :: rest => parseFrom allowUnclosed bracketsLiteral (some '/') (p.push .descend) rest
      | rest => parseFrom allowUnclosed bracketsLiteral (some '*') p.pushRuns rest
    else if !p.mayRecurse previous then
      parseFrom allowUnclosed bracketsLiteral (some '*') p.pushRuns rest
    else
      match rest with
      | [] => .ok (p.replaceSlash .contents)
      | '/' :: rest =>
        parseFrom allowUnclosed bracketsLiteral (some '/') (p.replaceSlash .between) rest
      | c :: rest =>
        if p.inGroup && (c == ',' || c == '\x7d') then
          parseFrom allowUnclosed bracketsLiteral (some '*') (p.replaceSlash .contents) (c :: rest)
        else parseFrom allowUnclosed bracketsLiteral (some '*') p.pushRuns (c :: rest)
  | '*' :: rest => parseFrom allowUnclosed bracketsLiteral (some '*') (p.push .anyRun) rest
  | '[' :: rest =>
    if bracketsLiteral then
      parseFrom allowUnclosed bracketsLiteral (some '[') (p.push (.literal '[')) rest
    else
      match h : readClass rest with
      | .ok (token, after) =>
        have : after.length ≤ rest.length := readClass_length h
        parseFrom allowUnclosed bracketsLiteral (some ']') (p.push token) after
      | .error fault =>
        if fault = .unclosedClass ∧ allowUnclosed then
          parseFrom allowUnclosed true (some '[') (p.push (.literal '[')) rest
        else .error fault
  | '\x7b' :: rest => parseFrom allowUnclosed bracketsLiteral (some '\x7b') p.openGroup rest
  | '\x7d' :: rest =>
    match p.closeGroup with
    | .ok p => parseFrom allowUnclosed bracketsLiteral (some '\x7d') p rest
    | .error fault => .error fault
  | ',' :: rest => parseFrom allowUnclosed bracketsLiteral (some ',') p.nextBranch rest
  | ['\\'] => .error .danglingEscape
  | '\\' :: c :: rest =>
    parseFrom allowUnclosed bracketsLiteral (some c) (p.push (.literal c)) rest
  | c :: rest => parseFrom allowUnclosed bracketsLiteral (some c) (p.push (.literal c)) rest
termination_by input => input.length

/-- The tokens of a glob. -/
def parse (allowUnclosed : Bool) (glob : List Char) : Except GlobFault (List Token) :=
  match parseFrom allowUnclosed false none .start glob with
  | .ok p => if p.inGroup then .error .unclosedGroup else .ok p.tokens.reverse
  | .error fault => .error fault

/-- What is wrong with a glob, if anything is. -/
def fault? (glob : String) : Option GlobFault :=
  match parse false glob.toList with
  | .ok _ => none
  | .error fault => some fault

end Glob
end AttributeScope
