/-!
# UTF-8

Decoding bytes into text.  Bytes that are no UTF-8 are replaced: one replacement character
stands for each maximal run of bytes that begins a character but does not complete it, and for
each byte that can begin none.  The decoder reads one byte at a time, so what it has written
never changes.

Main results:

- `Decoder.run_append`: decoding a concatenation continues from the state after its first part.
- `Decoder.step_ascii`: an ASCII byte first ends what is open and is then written as itself.
-/

namespace AttributeScope
namespace Text
namespace Utf8

/-- The character written for bytes that are no UTF-8. -/
def replacement : Char := Char.ofNat 0xFFFD

/-- The bytes of a text. -/
def encode (text : List Char) : List UInt8 :=
  text.flatMap String.utf8EncodeChar

/-- A character of which some bytes have been read. -/
structure Unfinished where
  /-- How many bytes are still owed. -/
  owed : Nat
  value : Nat
  /-- The least byte that may come next. -/
  low : UInt8
  /-- The greatest byte that may come next. -/
  high : UInt8
deriving DecidableEq, Repr

/-- What a first byte of several announces: how many bytes follow, and the range of the next.
The ranges exclude overlong forms, surrogates and values past the last code point. -/
def lead? (b : UInt8) : Option Unfinished :=
  if 0xC2 ≤ b && b ≤ 0xDF then some ⟨1, b.toNat % 32, 0x80, 0xBF⟩
  else if b = 0xE0 then some ⟨2, 0, 0xA0, 0xBF⟩
  else if b = 0xED then some ⟨2, 13, 0x80, 0x9F⟩
  else if 0xE1 ≤ b && b ≤ 0xEF then some ⟨2, b.toNat % 16, 0x80, 0xBF⟩
  else if b = 0xF0 then some ⟨3, 0, 0x90, 0xBF⟩
  else if 0xF1 ≤ b && b ≤ 0xF3 then some ⟨3, b.toNat % 8, 0x80, 0xBF⟩
  else if b = 0xF4 then some ⟨3, 4, 0x80, 0x8F⟩
  else none

/-- The state of the decoder between two bytes. -/
structure Decoder where
  text : String
  /-- The character being read, if one is open. -/
  opened : Option Unfinished
  /-- Whether anything had to be replaced. -/
  malformed : Bool

namespace Decoder

/-- Nothing read and nothing written. -/
def start : Decoder := ⟨"", none, false⟩

/-- Write a character and leave nothing open. -/
def write (d : Decoder) (c : Char) : Decoder :=
  { d with text := d.text.push c, opened := none }

/-- Write the replacement character for what was open or just read. -/
def replace (d : Decoder) : Decoder :=
  { d.write replacement with malformed := true }

/-- Read a byte while no character is open. -/
def begin (d : Decoder) (b : UInt8) : Decoder :=
  if b < 0x80 then d.write (Char.ofNat b.toNat)
  else match lead? b with
    | some u => { d with opened := some u }
    | none => d.replace

/-- Read one byte. -/
def step (d : Decoder) (b : UInt8) : Decoder :=
  match d.opened with
  | none => d.begin b
  | some u =>
    if u.low ≤ b && b ≤ u.high then
      let value := u.value * 64 + b.toNat % 64
      if u.owed = 1 then d.write (Char.ofNat value)
      else { d with opened := some ⟨u.owed - 1, value, 0x80, 0xBF⟩ }
    else d.replace.begin b

/-- Read bytes one after the other. -/
def run (d : Decoder) (bytes : Array UInt8) : Decoder :=
  bytes.foldl step d

/-- Replace a character that is still open at the end. -/
def finish (d : Decoder) : Decoder :=
  match d.opened with
  | none => d
  | some _ => d.replace

/-- Decoding a concatenation continues from the state after its first part. -/
theorem run_append (d : Decoder) (a b : Array UInt8) : d.run (a ++ b) = (d.run a).run b := by
  simp [run]

@[simp] theorem opened_write (d : Decoder) (c : Char) : (d.write c).opened = none := rfl

@[simp] theorem opened_replace (d : Decoder) : d.replace.opened = none := rfl

/-- With nothing open an ASCII byte is written as itself. -/
theorem begin_ascii {b : UInt8} (h : b < 0x80) (d : Decoder) :
    d.begin b = d.write (Char.ofNat b.toNat) := by
  simp [begin, h]

/-- No first byte of several announces that an ASCII byte may follow. -/
theorem low_of_lead? {b : UInt8} {u : Unfinished} (h : lead? b = some u) : 0x80 ≤ u.low := by
  simp only [lead?] at h
  repeat' split at h
  all_goals cases h
  all_goals simp

/-- An ASCII byte first ends what is open and is then written as itself.  The hypothesis holds of
every state that is reached from the start. -/
theorem step_ascii {b : UInt8} (h : b < 0x80) (d : Decoder)
    (hlow : ∀ u, d.opened = some u → 0x80 ≤ u.low) :
    d.step b = (d.finish).write (Char.ofNat b.toNat) := by
  unfold step finish
  cases hd : d.opened with
  | none => simp [begin_ascii h]
  | some u =>
    have hlt : ¬ u.low ≤ b := fun hle =>
      absurd (UInt8.lt_of_le_of_lt (UInt8.le_trans (hlow u hd) hle) h) (by decide)
    simp [hlt, begin_ascii h]

end Decoder

/-- Decode bytes, replacing what is no UTF-8. -/
def decode (bytes : Array UInt8) : Decoder :=
  (Decoder.start.run bytes).finish

/-- Decode bytes that must be UTF-8 as a whole. -/
def decodeStrict? (bytes : Array UInt8) : Option String :=
  let d := decode bytes
  if d.malformed then none else some d.text

example : (decode #[0x61, 0xE2, 0x82, 0x62]).text = "a\uFFFDb" := by decide +kernel

example : decodeStrict? #[0xE2, 0x82, 0xAC] = some "€" := by decide +kernel

end Utf8
end Text
end AttributeScope
