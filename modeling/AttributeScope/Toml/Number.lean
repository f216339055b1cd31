/-!
# Numbers of TOML documents

Whole numbers, decimal or with the base in front, and numbers with a fraction or an exponent.
Underscores may stand between digits.
-/

namespace AttributeScope
namespace Toml

/-! ## Digits -/

/-- The value of a digit in a base. -/
def digitValue? (base : Nat) (c : Char) : Option Nat :=
  let n :=
    if '0' ≤ c ∧ c ≤ '9' then c.toNat - '0'.toNat
    else if 'a' ≤ c ∧ c ≤ 'f' then c.toNat - 'a'.toNat + 10
    else if 'A' ≤ c ∧ c ≤ 'F' then c.toNat - 'A'.toNat + 10
    else base
  if n < base then some n else none

/-- The number that digits in a base stand for, after a number that was read before them. -/
def foldDigits (base start : Nat) (digits : List Char) : Option Nat :=
  digits.foldlM (fun n c => (digitValue? base c).map fun d => n * base + d) start

/-- Digits without the underscores between them; none if one does not stand between two digits. -/
def joinDigits? (text : List Char) : Option (List Char) :=
  let pieces := text.splitOn '_'
  if pieces.any List.isEmpty then none else some pieces.flatten

/-- The digits of a number in a base, with its value. -/
def digits? (base : Nat) (text : List Char) : Option (List Char × Nat) := do
  let digits ← joinDigits? text
  let value ← foldDigits base 0 digits
  some (digits, value)

/-- Whether a number is negative, and its text without the sign. -/
def splitSign : List Char → Bool × List Char
  | '-' :: rest => (true, rest)
  | '+' :: rest => (false, rest)
  | text => (false, text)

/-- Decimal digits that begin with a zero only if they are no more than that. -/
def wholePart? (text : List Char) : Option (List Char × Nat) :=
  match text with
  | '0' :: _ :: _ => none
  | text => digits? 10 text

/-! ## Whole numbers -/

/-- The least whole number of 64 bits. -/
def minInteger : Int := Int64.minValue.toInt

/-- The greatest whole number of 64 bits. -/
def maxInteger : Int := Int64.maxValue.toInt

/-- A number, if it has 64 bits. -/
def inRange? (n : Int) : Option Int := if minInteger ≤ n ∧ n ≤ maxInteger then some n else none

/-- The whole number that a word stands for.  A base in front excludes a sign. -/
def integer? : List Char → Option Int
  | '0' :: 'x' :: text => (digits? 16 text).bind fun (_, n) => inRange? n
  | '0' :: 'o' :: text => (digits? 8 text).bind fun (_, n) => inRange? n
  | '0' :: 'b' :: text => (digits? 2 text).bind fun (_, n) => inRange? n
  | word =>
    let (negative, text) := splitSign word
    (wholePart? text).bind fun (_, n) => inRange? (if negative then -n else n)

/-! ## Numbers with a fraction or an exponent -/

/-- A decimal number: digits before and after the point, and an exponent of ten. -/
structure Decimal where
  negative : Bool
  digits : List Char
  /-- Where the point stands: the exponent of ten of the last digit. -/
  exponent : Int

namespace Decimal

/-- The number of which no digit is after the point. -/
def mantissa (d : Decimal) : Nat := (foldDigits 10 0 d.digits).getD 0

/-- The least number that is rounded to infinity in 64 bits. -/
def overflow : Nat := Nat.pow 2 1024 - Nat.pow 2 970

/-- How many decimal digits `overflow` has. -/
def overflowDigits : Nat := 309

/-- Whether a number rounds to positive infinity.  Numbers with far fewer or far more digits than
the bound are decided by their size alone. -/
def isInfinite (d : Decimal) : Bool :=
  let significant := d.digits.dropWhile (· == '0')
  let size := (significant.length : Int) + d.exponent
  if d.negative || significant.isEmpty || size < overflowDigits then false
  else if overflowDigits < size then true
  else overflow * Nat.pow 10 (-d.exponent).toNat ≤ d.mantissa * Nat.pow 10 d.exponent.toNat

end Decimal

/-- A text up to a separator, and what follows it. -/
def cut (isSeparator : Char → Bool) (text : List Char) : List Char × Option (List Char) :=
  match text.dropWhile fun c => !isSeparator c with
  | [] => (text, none)
  | _ :: rest => (text.takeWhile fun c => !isSeparator c, some rest)

/-- The exponent that a text stands for. -/
def exponent? (text : List Char) : Option Int :=
  let (negative, text) := splitSign text
  (digits? 10 text).map fun (_, n) => if negative then -n else n

/-- The decimal number that a word stands for, if it has a fraction or an exponent. -/
def decimal? (word : List Char) : Option Decimal := do
  let (negative, text) := splitSign word
  let (mantissa, exponentText) := cut (fun c => c == 'e' || c == 'E') text
  let (wholeText, fractionText) := cut (· == '.') mantissa
  let (whole, _) ← wholePart? wholeText
  match fractionText, exponentText with
  | none, none => none
  | some fractionText, none => do
    let (fraction, _) ← digits? 10 fractionText
    some ⟨negative, whole ++ fraction, -fraction.length⟩
  | none, some exponentText => do
    let exponent ← exponent? exponentText
    some ⟨negative, whole, exponent⟩
  | some fractionText, some exponentText => do
    let (fraction, _) ← digits? 10 fractionText
    let exponent ← exponent? exponentText
    some ⟨negative, whole ++ fraction, exponent - fraction.length⟩

/-- Whether a word is an infinity or no number at all. -/
def isSpecialFloat (word : List Char) : Bool :=
  let (_, text) := splitSign word
  text == ['i', 'n', 'f'] || text == ['n', 'a', 'n']

/-- Whether a word is a number with a fraction or an exponent, or a special one.  What would be
rounded to positive infinity is none. -/
def isFloat (word : List Char) : Bool :=
  isSpecialFloat word || (decimal? word).any fun d => !d.isInfinite

example : integer? "-9_223_372_036_854_775_808".toList = some minInteger := by decide +kernel

example : integer? "0xDEAD_beef".toList = some 3735928559 := by decide +kernel

example : (["1__0", "012", "_1", "+0x1", "9223372036854775808"].map fun word =>
    (integer? word.toList).isSome) = [false, false, false, false, false] := by decide +kernel

example : (["1e3", "1.5", "-0.0e-1", "1e309", "-1e309", "1.", ".5", "1e400000000000"].map
    fun word => isFloat word.toList) = [true, true, true, false, true, false, false, false] := by
  decide +kernel

end Toml
end AttributeScope
