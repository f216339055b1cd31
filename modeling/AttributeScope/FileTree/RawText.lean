import AttributeScope.Text.Utf8

/-!
# Names and paths as bytes

Names and paths are bytes that need not be UTF-8.  Where one is reported, what is no UTF-8 in it is
replaced, so that different names may be shown alike.  They are in the order of their bytes.

A text stands for its bytes wherever a name or a path is expected, and a name or a path for what is
shown of it wherever a text is.

Main results:

- `size_append`: the sizes of paths in a row add up.
-/

namespace AttributeScope

/-- A name or a path. -/
@[ext] structure RawText where
  bytes : List UInt8
deriving DecidableEq, Repr

namespace RawText

/-- The byte that separates names in a path. -/
def slash : UInt8 := 0x2F

/-- The byte of the names that stand for a directory itself and for the one above. -/
def dot : UInt8 := 0x2E

/-- The bytes of a text. -/
def ofText (text : String) : RawText := ⟨Text.Utf8.encode text.toList⟩

/-- What is shown of a name or a path. -/
def shown (raw : RawText) : String := (Text.Utf8.decode raw.bytes.toArray).text

/-- The size, in bytes. -/
def size (raw : RawText) : Nat := raw.bytes.length

/-- Whether there are no bytes. -/
def isEmpty (raw : RawText) : Bool := raw.bytes.isEmpty

/-- Names with slashes between them. -/
def joined (names : List RawText) : RawText := ⟨List.intercalate [slash] (names.map bytes)⟩

instance : Append RawText := ⟨fun front back => ⟨front.bytes ++ back.bytes⟩⟩

instance : LT RawText := ⟨fun raw other => raw.bytes < other.bytes⟩

instance (raw other : RawText) : Decidable (raw < other) :=
  inferInstanceAs (Decidable (raw.bytes < other.bytes))

instance : ToString RawText := ⟨shown⟩

instance : Coe String RawText := ⟨ofText⟩

instance : Coe RawText String := ⟨shown⟩

instance : Coe (List String) (List RawText) := ⟨List.map ofText⟩

instance : Coe (List RawText) (List String) := ⟨List.map shown⟩

instance : Coe (List (List RawText)) (List (List String)) := ⟨List.map (List.map shown)⟩

instance : Coe (Option RawText) (Option String) := ⟨Option.map shown⟩

/-- Paths in a row have the bytes of the one and of the other. -/
@[simp] theorem bytes_append (front back : RawText) :
    (front ++ back).bytes = front.bytes ++ back.bytes := rfl

/-- The sizes of paths in a row add up. -/
@[simp] theorem size_append (front back : RawText) :
    (front ++ back).size = front.size + back.size := by
  simp [size]

/-- Only the empty text has no bytes. -/
theorem isEmpty_iff {raw : RawText} : raw.isEmpty = true ↔ raw = "" := by
  rw [isEmpty, List.isEmpty_iff, RawText.ext_iff]
  rfl

example : (⟨[0x61, 0xFF]⟩ : RawText).shown = (⟨[0x61, 0xFE]⟩ : RawText).shown := by decide +kernel

end RawText
end AttributeScope
