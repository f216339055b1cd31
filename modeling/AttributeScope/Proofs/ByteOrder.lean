import Mathlib.Data.List.Lex
import Mathlib.Data.UInt
import AttributeScope.Text.Utf8

/-!
# The order of UTF-8 bytes

Texts are compared character by character.  Their UTF-8 bytes, compared byte by byte, are in the
same order.  A character is written as a first byte, which says how many bytes follow, and the
digits in base 64 that the first byte leaves; more bytes mean a larger first byte.

Main results:

- Theorem `continuation_append_lt`: digits decide the order of numbers that agree before them.
- Theorem `utf8EncodeChar_append_lt`: the bytes of two characters decide the order, whatever
  follows them.
- Theorems `encode_lt_encode_iff` and `byteLt_iff`: texts and their bytes are in the same order.
-/

namespace AttributeScope
namespace Text
namespace Utf8

theorem cons_ofNat_lt_iff {v w : Nat} (hv : v < 256) (hw : w < 256) (rest others : List UInt8) :
    UInt8.ofNat v :: rest < UInt8.ofNat w :: others ↔ v < w ∨ v = w ∧ rest < others := by
  have hvalue : (UInt8.ofNat v).toNat = v := UInt8.toNat_ofNat_of_lt' hv
  have hvalue' : (UInt8.ofNat w).toNat = w := UInt8.toNat_ofNat_of_lt' hw
  rw [List.cons_lt_cons_iff, UInt8.lt_iff_toNat_lt, ← UInt8.toNat_inj, hvalue, hvalue']

/-! ## Characters -/

/-- The bytes behind the first one: the last digits of a code point in base 64. -/
def continuation : Nat → Nat → List UInt8
  | 0, _ => []
  | count + 1, v => continuation count (v / 64) ++ [UInt8.ofNat (v % 64 + 128)]

/-- How many bytes follow the first one. -/
def continuationCount (v : Nat) : Nat :=
  if v ≤ 0x7F then 0 else if v ≤ 0x7FF then 1 else if v ≤ 0xFFFF then 2 else 3

/-- The first byte, as a number. -/
def leadByte (v : Nat) : Nat :=
  if v ≤ 0x7F then v
  else if v ≤ 0x7FF then v / 64 + 0xC0
  else if v ≤ 0xFFFF then v / 4096 + 0xE0
  else v / 262144 + 0xF0

theorem toNat_val_lt (c : Char) : c.val.toNat < 0x110000 := by
  rcases c.valid with hlow | hhigh
  · have : c.val.toNat < 0xD800 := hlow
    omega
  · exact hhigh.2

/-- A character is written as its first byte and the digits that are left. -/
theorem utf8EncodeChar_eq (c : Char) :
    String.utf8EncodeChar c =
      UInt8.ofNat (leadByte c.val.toNat) ::
        continuation (continuationCount c.val.toNat) c.val.toNat := by
  have hbound := toNat_val_lt c
  unfold String.utf8EncodeChar leadByte continuationCount
  generalize c.val.toNat = v at *
  dsimp only
  split_ifs
  · rfl
  · have : v / 64 % 32 = v / 64 := by omega
    simp [continuation, this]
  · have : v / 4096 % 16 = v / 4096 := by omega
    simp [continuation, this]
  · have : v / 262144 % 8 = v / 262144 := by omega
    simp [continuation, this, Nat.div_div_eq_div_mul]

/-- Digits decide the order of two numbers that agree before them, whatever follows. -/
theorem continuation_append_lt (count : Nat) {v w : Nat} (h : v < w)
    (hfront : v / 64 ^ count = w / 64 ^ count) (rest others : List UInt8) :
    continuation count v ++ rest < continuation count w ++ others := by
  induction count generalizing v w rest others with
  | zero => omega
  | succ count ih =>
    unfold continuation
    rw [List.append_assoc, List.append_assoc]
    by_cases hquotient : v / 64 = w / 64
    · rw [hquotient]
      apply List.append_left_lt
      rw [List.singleton_append, List.singleton_append, cons_ofNat_lt_iff (by omega) (by omega)]
      left
      omega
    · apply ih
      · omega
      · rw [Nat.div_div_eq_div_mul, Nat.div_div_eq_div_mul, ← Nat.pow_succ', hfront]

/-- The first bytes are in the order of the code points; equal ones leave as many digits, and
the digits they stand for are equal. -/
theorem leadByte_lt_or_eq {v w : Nat} (h : v < w) :
    leadByte v < leadByte w ∨
      leadByte v = leadByte w ∧ continuationCount v = continuationCount w ∧
        v / 64 ^ continuationCount v = w / 64 ^ continuationCount w := by
  unfold leadByte continuationCount
  split_ifs <;> omega

/-- The bytes of a smaller character come first, whatever follows either of them. -/
theorem utf8EncodeChar_append_lt {c d : Char} (h : c < d) (rest others : List UInt8) :
    String.utf8EncodeChar c ++ rest < String.utf8EncodeChar d ++ others := by
  have hlt : c.val.toNat < d.val.toNat := h
  have hlead (e : Char) : leadByte e.val.toNat < 256 := by
    have := toNat_val_lt e
    unfold leadByte
    split_ifs <;> omega
  rw [utf8EncodeChar_eq, utf8EncodeChar_eq, List.cons_append, List.cons_append,
    cons_ofNat_lt_iff (hlead c) (hlead d)]
  rcases leadByte_lt_or_eq hlt with hfirst | ⟨hfirst, hcount, hfront⟩
  · exact Or.inl hfirst
  · right
    rw [hcount] at hfront ⊢
    exact ⟨hfirst, continuation_append_lt _ hlt hfront rest others⟩

/-! ## Texts -/

/-- A smaller text has smaller bytes. -/
theorem encode_lt_encode {text other : List Char} (h : text < other) :
    encode text < encode other := by
  induction text generalizing other with
  | nil =>
    cases other with
    | nil => exact absurd h (List.lt_irrefl [])
    | cons d others =>
      unfold encode
      rw [List.flatMap_nil, List.flatMap_cons, utf8EncodeChar_eq, List.cons_append]
      exact List.nil_lt_cons _ _
  | cons c rest ih =>
    cases other with
    | nil => exact absurd h (List.not_lt_nil _)
    | cons d others =>
      unfold encode
      rw [List.flatMap_cons, List.flatMap_cons]
      rcases List.cons_lt_cons_iff.mp h with hcd | ⟨rfl, hrest⟩
      · exact utf8EncodeChar_append_lt hcd _ _
      · exact List.append_left_lt (ih hrest)

/-- Texts are in the order of their bytes. -/
theorem encode_lt_encode_iff {text other : List Char} :
    encode text < encode other ↔ text < other := by
  refine ⟨fun h => ?_, encode_lt_encode⟩
  by_contra hnot
  rcases List.le_iff_lt_or_eq.mp (List.not_lt.mp hnot) with hgt | heq
  · exact List.lt_asymm h (encode_lt_encode hgt)
  · exact List.lt_irrefl _ (heq ▸ h)

/-- A text comes before another one in the order of their UTF-8 bytes. -/
def ByteLt (text other : String) : Prop :=
  encode text.toList < encode other.toList

theorem byteLt_iff {text other : String} : ByteLt text other ↔ text < other := by
  unfold ByteLt
  rw [encode_lt_encode_iff, String.lt_iff]

end Utf8
end Text
end AttributeScope
