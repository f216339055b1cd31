import AttributeScope.Text.Affix

/-!
# Canonical patterns

Attribute files name files by patterns of `/`-separated segments in which `*` stands for any part
of one name and the segment `**` for any number of directories.  The scope dialect has only `*`
and, at the end of a pattern, the marker `//*` for everything below a directory.  A pattern is
brought into canonical form by rewriting its segments: a recursive end becomes the marker, a `**`
next to a `*` is absorbed by it, and a `**` glued to other text is read as `*`.
-/

namespace AttributeScope
namespace Pattern

/-- The text between two slashes of a pattern. -/
abbrev Segment := List Char

/-- The segment that matches any name. -/
def one : Segment := ['*']

/-- The segment that matches any number of directories. -/
def recursive : Segment := ['*', '*']

/-- The segments of a pattern. -/
def segments (text : List Char) : List Segment := text.splitOn '/'

/-- The pattern with the given segments. -/
def ofSegments (parts : List Segment) : List Char := List.intercalate ['/'] parts

/-- What stands for everything below a directory, after the segments that name the directory.
Written out it is `//*`, with one slash of its own in front. -/
def descendants : List Segment → List Segment
  | [] => [[], [], one]
  | before => before ++ [[], one]

/-- Replace a recursive end, which may have one `*` segment before or behind it, by the marker
for all descendants.  The arguments are the segments from the last to the first. -/
def markDescendantsRev : List Segment → List Segment
  | ['*', '*'] :: ['*'] :: before => descendants before.reverse
  | ['*'] :: ['*', '*'] :: before => descendants before.reverse
  | ['*', '*'] :: before => descendants before.reverse
  | parts => parts.reverse

/-- Replace a recursive end by the marker for all descendants. -/
def markDescendants (parts : List Segment) : List Segment :=
  markDescendantsRev parts.reverse

/-- Replace each segment `first` that is followed by `second` by one `*`, together with it. -/
def absorb (first second : Segment) : List Segment → List Segment
  | a :: b :: rest =>
    if a = first ∧ b = second then one :: absorb first second rest
    else a :: absorb first second (b :: rest)
  | parts => parts

/-- Read symbols from left to right and halve each pair of stars at a position where `glued`
holds.  Pairs do not overlap; positions count the symbols read, from `position` on.  The symbols
may be characters or bytes. -/
def halveStars {α : Type} [DecidableEq α] (star : α) (glued : Nat → Bool) (position : Nat) :
    List α → List α
  | a :: b :: rest =>
    if a = star ∧ b = star ∧ glued position then star :: halveStars star glued (position + 2) rest
    else a :: halveStars star glued (position + 1) (b :: rest)
  | symbols => symbols

/-- Halve the pairs of stars that have something before them. -/
def halveAfterText {α : Type} [DecidableEq α] (star : α) (symbols : List α) : List α :=
  halveStars star (fun position => 0 < position) 0 symbols

/-- Halve the pairs of stars that have something behind them. -/
def halveBeforeText {α : Type} [DecidableEq α] (star : α) (symbols : List α) : List α :=
  halveStars star (fun position => position + 2 < symbols.length) 0 symbols

/-- Read a `**` that is glued to other text as `*`.  The segment `**` itself is kept. -/
def degrade (segment : Segment) : Segment :=
  halveBeforeText '*' (halveAfterText '*' segment)

/-- The segments of the canonical form of a pattern.  Leading slashes are dropped. -/
def canonicalSegments (pattern : List Char) : List Segment :=
  let parts := markDescendants (segments (pattern.dropWhile (· == '/')))
  (absorb one recursive (absorb recursive one parts)).map degrade

/-- The canonical form of a pattern. -/
def canonicalize (pattern : List Char) : List Char :=
  ofSegments (canonicalSegments pattern)

example : canonicalize "/gen/**".toList = "gen//*".toList := by decide

example : canonicalize "**/*".toList = "//*".toList := by decide

example : canonicalize "a**b/**/*/c".toList = "a*b/*/c".toList := by decide

end Pattern
end AttributeScope
