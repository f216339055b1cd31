import AttributeScope.Proofs.LossyDecoding

/-!
# Cutting a text at byte positions

Positions in a text can be counted in bytes.  Not every position is one between two characters, and
a text is cut at no other.

Main results:

- Theorem `cutAt?_eq_some_iff`: what a cut leaves on its two sides.
- Theorem `isSome_slice?_iff`: which parts of a text can be cut out.
- Theorem `utf8EncodeChar_of_mem`: the byte of an ASCII character belongs to no other one.
-/

namespace AttributeScope
namespace Text
namespace Utf8

/-! ## Sizes -/

/-- How many bytes a text has. -/
def size (text : List Char) : Nat := (encode text).length

@[simp] theorem size_nil : size [] = 0 := rfl

@[simp] theorem size_cons (c : Char) (rest : List Char) :
    size (c :: rest) = c.utf8Size + size rest := by
  unfold size encode
  rw [List.flatMap_cons, List.length_append, String.length_utf8EncodeChar]

theorem encode_append (front back : List Char) :
    encode (front ++ back) = encode front ++ encode back :=
  List.flatMap_append

@[simp] theorem size_append (front back : List Char) :
    size (front ++ back) = size front + size back := by
  unfold size
  rw [encode_append, List.length_append]

theorem size_eq_zero_iff {text : List Char} : size text = 0 ↔ text = [] := by
  cases text with
  | nil => simp
  | cons c rest =>
    have := c.utf8Size_pos
    simp
    omega

/-! ## Boundaries -/

/-- Whether a position, counted in bytes, is at the beginning or the end of a text or between two of
its characters. -/
def IsBoundary (text : List Char) (position : Nat) : Prop :=
  ∃ front, front <+: text ∧ size front = position

/-- A text cut in two at a position that is counted in bytes, if that is a boundary. -/
def cutAt? : Nat → List Char → Option (List Char × List Char)
  | 0, text => some ([], text)
  | _ + 1, [] => none
  | position + 1, c :: rest =>
    if c.utf8Size ≤ position + 1 then
      (cutAt? (position + 1 - c.utf8Size) rest).map fun (front, back) => (c :: front, back)
    else none

theorem cutAt?_append (front back : List Char) :
    cutAt? (size front) (front ++ back) = some (front, back) := by
  induction front with
  | nil => cases back <;> rfl
  | cons c rest ih =>
    have hpos := c.utf8Size_pos
    rcases Nat.exists_eq_add_of_lt hpos with ⟨width, hwidth⟩
    have hsize : size (c :: rest) = width + size rest + 1 := by
      rw [size_cons]
      omega
    rw [hsize, List.cons_append, cutAt?, if_pos (by omega)]
    have hrest : width + size rest + 1 - c.utf8Size = size rest := by omega
    rw [hrest, ih]
    rfl

/-- A text is cut into the characters before a position and those behind it. -/
theorem cutAt?_eq_some_iff {position : Nat} {text front back : List Char} :
    cutAt? position text = some (front, back) ↔ front ++ back = text ∧ size front = position := by
  constructor
  · intro h
    fun_induction cutAt? position text generalizing front back with
    | case1 text =>
      cases h
      exact ⟨rfl, rfl⟩
    | case2 => cases h
    | case3 position c rest hle ih =>
      rcases Option.map_eq_some_iff.mp h with ⟨⟨front', back'⟩, hcut, heq⟩
      cases heq
      rcases ih hcut with ⟨rfl, hsize⟩
      refine ⟨rfl, ?_⟩
      rw [size_cons, hsize]
      omega
    | case4 => cases h
  · rintro ⟨rfl, rfl⟩
    exact cutAt?_append front back

/-- The part of a text from one position to another, both counted in bytes.  No result if one of
them is no boundary, or if they are in the wrong order. -/
def slice? (text : List Char) : Nat × Nat → Option (List Char)
  | (start, stop) => (cutAt? stop text).bind fun (front, _) => (cutAt? start front).map Prod.snd

theorem slice?_eq_some_iff {text part : List Char} {start stop : Nat} :
    slice? text (start, stop) = some part ↔
      ∃ front back, front ++ part ++ back = text ∧ size front = start ∧
        size (front ++ part) = stop := by
  constructor
  · intro h
    rcases Option.bind_eq_some_iff.mp h with ⟨⟨whole, back⟩, hstop, hwhole⟩
    rcases Option.map_eq_some_iff.mp hwhole with ⟨⟨front, part'⟩, hstart, rfl⟩
    rcases cutAt?_eq_some_iff.mp hstop with ⟨rfl, rfl⟩
    rcases cutAt?_eq_some_iff.mp hstart with ⟨rfl, rfl⟩
    exact ⟨front, back, rfl, rfl, rfl⟩
  · rintro ⟨front, back, rfl, rfl, rfl⟩
    simp only [slice?, cutAt?_append, Option.bind_some, Option.map_some]

theorem IsBoundary.le_size {text : List Char} {position : Nat} (h : IsBoundary text position) :
    position ≤ size text := by
  rcases h with ⟨front, ⟨back, rfl⟩, rfl⟩
  simp

/-- Whether two positions are the ends of a part of a text: they are in order, not behind the end of
the text, and at boundaries. -/
def IsPart (text : List Char) : Nat × Nat → Prop
  | (start, stop) =>
    start ≤ stop ∧ stop ≤ size text ∧ IsBoundary text start ∧ IsBoundary text stop

/-- Nothing but a part of a text can be cut out of it. -/
theorem isSome_slice?_iff {text : List Char} {part : Nat × Nat} :
    (slice? text part).isSome ↔ IsPart text part := by
  rcases part with ⟨start, stop⟩
  rw [Option.isSome_iff_exists]
  constructor
  · rintro ⟨part, h⟩
    rcases slice?_eq_some_iff.mp h with ⟨front, back, rfl, rfl, rfl⟩
    have hstart : IsBoundary (front ++ part ++ back) (size front) := by
      rw [List.append_assoc]
      exact ⟨front, List.prefix_append _ _, rfl⟩
    have hstop : IsBoundary (front ++ part ++ back) (size (front ++ part)) :=
      ⟨front ++ part, List.prefix_append _ _, rfl⟩
    exact ⟨by simp, hstop.le_size, hstart, hstop⟩
  · rintro ⟨hle, -, ⟨front, hfront, rfl⟩, whole, hwhole, rfl⟩
    have hprefix : front <+: whole := by
      rcases List.prefix_or_prefix_of_prefix hfront hwhole with h | ⟨more, rfl⟩
      · exact h
      · -- The longer one has no more bytes, so it has no more characters either.
        have hmore : more = [] := size_eq_zero_iff.mp (by rw [size_append] at hle; omega)
        rw [hmore, List.append_nil]
    rcases hprefix with ⟨part, rfl⟩
    rcases hwhole with ⟨back, rfl⟩
    exact ⟨part, slice?_eq_some_iff.mpr ⟨front, back, rfl, rfl, rfl⟩⟩

/-! ## Bytes of ASCII characters -/

/-- An ASCII byte is the only byte of its character. -/
theorem utf8EncodeChar_of_mem {b : UInt8} (hascii : b < 0x80) {c : Char}
    (h : b ∈ String.utf8EncodeChar c) : String.utf8EncodeChar c = [b] := by
  have hb : b.toNat < 0x80 := hascii
  have hbound := toNat_val_lt c
  rw [utf8EncodeChar_eq] at h ⊢
  rcases List.mem_cons.mp h with rfl | hmem
  · rw [UInt8.toNat_ofNat_of_lt' (leadByte_lt hbound)] at hb
    have hcount : continuationCount c.val.toNat = 0 := by
      unfold leadByte at hb
      unfold continuationCount
      split_ifs at hb ⊢ <;> omega
    rw [hcount]
    rfl
  · exact absurd (le_of_mem_continuation hmem) (by omega)

end Utf8
end Text
end AttributeScope
