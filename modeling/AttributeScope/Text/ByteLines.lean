import AttributeScope.Text.Utf8

/-!
# Lines of bytes

The lines of a file before it is known to be text.  A line ends with a line feed, in front of which
a carriage return does not count, or at the end of the file.

Main results:

- `byteLines_of_not_mem`: bytes without a line feed are one line.
-/

namespace AttributeScope
namespace Text

/-- The byte that ends a line. -/
def lineFeed : UInt8 := 0x0A

/-- The byte that may stand before the end of a line. -/
def carriageReturn : UInt8 := 0x0D

/-- Lines without what ends them, from the pieces between line feeds. -/
def trimLines : List (List UInt8) → List (List UInt8)
  | [] => []
  | [last] => if last.isEmpty then [] else [last]
  | line :: rest =>
    (if line.getLast? = some carriageReturn then line.dropLast else line) :: trimLines rest

/-- The lines of a file. -/
def byteLines (bytes : List UInt8) : List (List UInt8) := trimLines (bytes.splitOn lineFeed)

/-- The first line of a file, if it has one, or nothing in its place if it is no text. -/
def firstLine? (bytes : Array UInt8) : Option (Option String) :=
  (byteLines bytes.toList).head?.map fun line => Utf8.decodeStrict? line.toArray

/-- Bytes without a line feed are one line. -/
theorem byteLines_of_not_mem {bytes : List UInt8} (hne : bytes ≠ []) (h : lineFeed ∉ bytes) :
    byteLines bytes = [bytes] := by
  have hsplit : bytes.splitOn lineFeed = [bytes] := by
    rw [List.splitOn, List.splitOnP_eq_singleton]
    intro b hb
    simpa using fun e : b = lineFeed => h (e ▸ hb)
  simp [byteLines, hsplit, trimLines, hne]

example : byteLines [0x61, 0x0D, 0x0A, 0x62, 0x0D] = [[0x61], [0x62, 0x0D]] := by decide +kernel

end Text
end AttributeScope
