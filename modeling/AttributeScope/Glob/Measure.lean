import AttributeScope.Glob.Language

/-!
# How large globs are

Two measures of the expression that a glob stands for: how deeply it is nested, and how large the
automaton is that recognizes it.  Both are computed from the tokens of the glob.

Main results:

- `height_append`: of globs one after the other, the more deeply nested one counts.
- `size_append`: the sizes of globs one after the other add up.
-/

namespace AttributeScope
namespace Glob

/-! ## Nesting -/

/-- How expressions that stand side by side are nested. -/
structure Nesting where
  items : Nat
  /-- How deeply the most deeply nested one of them is nested. -/
  height : Nat
deriving DecidableEq, Repr

namespace Nesting

/-- No expression. -/
def none : Nesting := ⟨0, 0⟩

/-- One expression. -/
def one (height : Nat) : Nesting := ⟨1, height⟩

/-- Expressions beside other ones. -/
def beside (a b : Nesting) : Nesting := ⟨a.items + b.items, max a.height b.height⟩

/-- How deeply one expression is nested that consists of several, or of one, one after the
other. -/
def joined (nesting : Nesting) : Nat :=
  if nesting.items = 1 then nesting.height else nesting.height + 1

/-- A group of alternatives that are nested as deeply as given. -/
def group : List Nat → Nesting
  | [] => none
  | [height] => one (height + 1)
  | heights => one (heights.foldl max 0 + 2)

end Nesting

mutual

/-- How the expressions of a token are nested.  Each byte of a character is an expression, and so
is each item of a class. -/
def Token.nesting : Token → Nesting
  | .literal c => ⟨c.utf8Size, 0⟩
  | .anyOne => .one 1
  | .anyRun => .one 2
  | .descend => .one 4
  | .contents => ⟨2, 1⟩
  | .between => .one 4
  | .oneOf negated ranges =>
    .one (if (classSet negated ranges).ranges.length = 1 then 1 else 2)
  | .alternatives branches => .group (branchHeights branches)

/-- How the expressions of tokens are nested. -/
def nesting : List Token → Nesting
  | [] => .none
  | token :: rest => token.nesting.beside (nesting rest)

/-- How deeply the branches of a group are nested that are not nothing. -/
def branchHeights : List (List Token) → List Nat
  | [] => []
  | tokens :: rest =>
    (if (nesting tokens).items = 0 then [] else [(nesting tokens).joined]) ++ branchHeights rest

end

/-- How deeply the expression of a glob is nested, with what binds it to both ends of a path. -/
def height (tokens : List Token) : Nat := (nesting tokens).height + 1

/-! ## Size -/

/-- The size of a state of an automaton, in bytes. -/
def stateSize : Nat := 32

/-- The size of one way on from a state for the bytes of a range. -/
def rangeSize : Nat := 8

/-- The size of one way on from a state without a byte. -/
def branchSize : Nat := 4

/-- The size of the states for one byte of as many ranges. -/
def rangesSize (ranges : Nat) : Nat := 2 * stateSize + ranges * rangeSize

/-- The size of a state with two ways on. -/
def forkSize : Nat := stateSize + 2 * branchSize

/-- The size of the states for any part of a path. -/
def anythingSize : Nat := forkSize + rangesSize 1

/-- The size of the states that lead to alternatives and away from them. -/
def choiceSize (branches : Nat) : Nat := 2 * stateSize + branches * branchSize

/-- How many ranges without gaps between them a set of bytes consists of. -/
def rangeCount (holds : UInt8 → Bool) : Nat :=
  (List.range 256).countP fun n => holds n.toUInt8 && (n = 0 || !holds (n - 1).toUInt8)

/-- How many bytes are in a set. -/
def byteCount (holds : UInt8 → Bool) : Nat := (List.range 256).countP fun n => holds n.toUInt8

/-- The size of the states for one byte of a set. -/
def bytesSize (holds : UInt8 → Bool) : Nat :=
  if byteCount holds = 1 then stateSize else rangesSize (rangeCount holds)

/-- The size of a group of alternatives of given sizes. -/
def groupSize : List Nat → Nat
  | [] => 0
  | [size] => size
  | sizes => choiceSize sizes.length + sizes.foldr (· + ·) 0

mutual

/-- The bytes that a token stands for one of, if it always stands for one byte. -/
def Token.bytes? : Token → Option (UInt8 → Bool)
  | .literal c =>
    match String.utf8EncodeChar c with
    | [b] => some (· == b)
    | _ => none
  | .anyOne => some (· != slashByte)
  | .oneOf negated ranges => some (classSet negated ranges).contains
  | .alternatives branches => branchesBytes? branches
  | _ => none

/-- The bytes that tokens stand for one of, if they always stand for one byte. -/
def bytes? : List Token → Option (UInt8 → Bool)
  | [token] => token.bytes?
  | _ => none

/-- The bytes that several branches stand for one of, if each always stands for one byte. -/
def branchesBytes? : List (List Token) → Option (UInt8 → Bool)
  | [] => none
  | [tokens] => bytes? tokens
  | tokens :: rest =>
    (bytes? tokens).bind fun first =>
      (branchesBytes? rest).map fun others => fun b => first b || others b

end

mutual

/-- The size of the states for a token, in bytes.  Alternatives of one byte each are one set. -/
def Token.size : Token → Nat
  | .literal c => c.utf8Size * stateSize
  | .anyOne => rangesSize 2
  | .anyRun => forkSize + rangesSize 2
  | .descend => choiceSize 2 + (forkSize + 2 * stateSize) + (anythingSize + stateSize)
  | .contents => stateSize + anythingSize
  | .between => choiceSize 2 + stateSize + (2 * stateSize + anythingSize)
  | .oneOf negated ranges => bytesSize (classSet negated ranges).contains
  | .alternatives branches =>
    match branchesBytes? branches with
    | some holds => bytesSize holds
    | none => groupSize (branchSizes branches)

/-- The size of the states for tokens. -/
def size : List Token → Nat
  | [] => 0
  | token :: rest => token.size + size rest

/-- The sizes of the branches of a group that are not nothing. -/
def branchSizes : List (List Token) → List Nat
  | [] => []
  | tokens :: rest => (if size tokens = 0 then [] else [size tokens]) ++ branchSizes rest

end

/-- The size of the states around those of each glob: its bounds, the marks for where it matches,
and the sign that it does. -/
def frameSize : Nat := 5 * stateSize

/-- The size of the automaton that matches globs together. -/
def automatonSize (globs : List (List Token)) : Nat :=
  stateSize + groupSize (globs.map fun tokens => frameSize + size tokens)

/-! ## Tokens one after the other -/

theorem nesting_append (first rest : List Token) :
    nesting (first ++ rest) = (nesting first).beside (nesting rest) := by
  induction first with
  | nil => simp [nesting, Nesting.beside, Nesting.none]
  | cons token others ih =>
    simp [nesting, ih, Nesting.beside, Nat.add_assoc, Nat.max_assoc]

/-- Of globs one after the other, the more deeply nested one counts. -/
theorem height_append (first rest : List Token) :
    height (first ++ rest) = max (height first) (height rest) := by
  simp [height, nesting_append, Nesting.beside, Nat.add_max_add_right]

/-- The sizes of globs one after the other add up. -/
theorem size_append (first rest : List Token) : size (first ++ rest) = size first + size rest := by
  induction first with
  | nil => simp [size]
  | cons token others ih => simp [size, ih, Nat.add_assoc]

example : height [.alternatives [[.literal 'a'], [.literal 'b', .literal 'c']]] = 4 := by
  decide +kernel

example : size [.descend] = 320 := by decide +kernel

example : size [.alternatives [[.literal 'a'], [.oneOf false [('c', 'e')]]]] = 80 := by
  decide +kernel

end Glob
end AttributeScope
