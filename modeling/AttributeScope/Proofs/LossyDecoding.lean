import AttributeScope.Proofs.ByteOrder

/-!
# Decoding bytes that are no UTF-8

Bytes are UTF-8 if they are the bytes of a text.  In any other bytes one replacement character
stands for each place where no character can be read: for as many bytes as begin a character that
the next byte does not continue, or for one byte that begins none.  Nothing but the bytes decides
which text that is, and the decoder writes it.

Main results:

- Theorem `Decodes.unique`: bytes are decoded in one way.
- Theorem `decodes_decode`: the decoder decodes them in that way.
- Theorem `decodeStrict?_eq_some_iff`: bytes that must be UTF-8 are read exactly if they are the
  bytes of a text, and then as this text.
-/

namespace AttributeScope
namespace Text
namespace Utf8

/-! ## Beginnings of characters -/

/-- Bytes that the bytes of some character begin with. -/
def IsBeginning (bytes : List UInt8) : Prop :=
  ∃ c : Char, bytes <+: String.utf8EncodeChar c

theorem IsBeginning.of_prefix {front bytes : List UInt8} (h : IsBeginning bytes)
    (hfront : front <+: bytes) : IsBeginning front := by
  rcases h with ⟨c, hc⟩
  exact ⟨c, hfront.trans hc⟩

theorem utf8EncodeChar_ne_nil (c : Char) : String.utf8EncodeChar c ≠ [] := by
  rw [utf8EncodeChar_eq]
  exact List.cons_ne_nil _ _

/-- The bytes of a character tell it, whatever follows them. -/
theorem eq_of_utf8EncodeChar_append_eq {c d : Char} {rest others : List UInt8}
    (h : String.utf8EncodeChar c ++ rest = String.utf8EncodeChar d ++ others) : c = d := by
  rcases Nat.lt_trichotomy c.val.toNat d.val.toNat with hlt | heq | hgt
  · exact absurd (utf8EncodeChar_append_lt hlt rest others) (h ▸ List.lt_irrefl _)
  · exact Char.ext (UInt32.toNat_inj.mp heq)
  · exact absurd (utf8EncodeChar_append_lt hgt others rest) (h ▸ List.lt_irrefl _)

/-! ## Decoding as a relation -/

/-- What one replacement character stands for, in front of other bytes: no character is completed,
more than one byte begin a character, and with the next byte they would begin none. -/
structure IsBroken (bytes rest : List UInt8) : Prop where
  ne_nil : bytes ≠ []
  incomplete : ∀ c : Char, ¬ String.utf8EncodeChar c <+: bytes
  begins : bytes.length = 1 ∨ IsBeginning bytes
  maximal : ∀ b ∈ rest.head?, ¬ IsBeginning (bytes ++ [b])

/-- The text that bytes are decoded to, and whether something in it replaces bytes. -/
inductive Decodes : List UInt8 → List Char → Bool → Prop where
  | nil : Decodes [] [] false
  | char {rest : List UInt8} {text : List Char} {lossy : Bool} (c : Char)
      (h : Decodes rest text lossy) : Decodes (String.utf8EncodeChar c ++ rest) (c :: text) lossy
  | broken {bytes rest : List UInt8} {text : List Char} {lossy : Bool}
      (hbroken : IsBroken bytes rest) (h : Decodes rest text lossy) :
      Decodes (bytes ++ rest) (replacement :: text) true

/-- The bytes of a text are decoded to it. -/
theorem decodes_encode (text : List Char) : Decodes (encode text) text false := by
  induction text with
  | nil => exact .nil
  | cons c rest ih => exact .char c ih

/-- Only the bytes of a text are decoded without a replacement. -/
theorem Decodes.eq_encode {bytes : List UInt8} {text : List Char} (h : Decodes bytes text false) :
    bytes = encode text := by
  generalize hlossy : false = lossy at h
  induction h with
  | nil => rfl
  | char c _ ih => exact congrArg (String.utf8EncodeChar c ++ ·) (ih hlossy)
  | broken => cases hlossy

/-- A character that replaces nothing is decoded from its own bytes. -/
theorem Decodes.infix_of_mem {bytes : List UInt8} {text : List Char} {lossy : Bool} {c : Char}
    (h : Decodes bytes text lossy) (hmem : c ∈ text) (hc : c ≠ replacement) :
    String.utf8EncodeChar c <:+: bytes := by
  induction h with
  | nil => cases hmem
  | char d _ ih =>
    rcases List.mem_cons.mp hmem with rfl | hrest
    · exact (List.prefix_append _ _).isInfix
    · exact (ih hrest).trans (List.suffix_append _ _).isInfix
  | broken _ _ ih =>
    rcases List.mem_cons.mp hmem with heq | hrest
    · exact absurd heq hc
    · exact (ih hrest).trans (List.suffix_append _ _).isInfix

/-- Some text is decoded from some bytes. -/
theorem Decodes.ne_nil {bytes : List UInt8} {text : List Char} {lossy : Bool}
    (h : Decodes bytes text lossy) (hbytes : bytes ≠ []) : text ≠ [] := by
  cases h with
  | nil => exact absurd rfl hbytes
  | char c _ => exact List.cons_ne_nil _ _
  | broken _ _ => exact List.cons_ne_nil _ _

namespace IsBroken

variable {bytes rest : List UInt8} (h : IsBroken bytes rest)
include h

/-- A broken character is not continued by bytes that follow it. -/
theorem not_isBeginning_append {more others : List UInt8} (hmore : more ≠ [])
    (hrest : rest = more ++ others) : ¬ IsBeginning (bytes ++ more) := by
  intro hbegins
  rcases List.exists_cons_of_ne_nil hmore with ⟨b, tail, rfl⟩
  have hnext : b ∈ rest.head? := by simp [hrest]
  refine h.maximal b hnext (hbegins.of_prefix ?_)
  exact ⟨tail, by simp⟩

theorem ne_char {c : Char} {others : List UInt8} :
    bytes ++ rest ≠ String.utf8EncodeChar c ++ others := by
  intro heq
  rcases List.append_eq_append_iff.mp heq with ⟨more, hchar, hrest⟩ | ⟨more, hbytes, -⟩
  · by_cases hmore : more = []
    · subst hmore
      exact h.incomplete c (by rw [hchar, List.append_nil])
    · exact h.not_isBeginning_append hmore hrest ⟨c, by rw [hchar]⟩
  · exact h.incomplete c (hbytes ▸ List.prefix_append _ _)

/-- Broken characters that the same bytes begin with are equally long. -/
theorem eq_of_append_eq {bytes' rest' : List UInt8} (h' : IsBroken bytes' rest')
    (heq : bytes ++ rest = bytes' ++ rest') : bytes = bytes' := by
  have hlonger : ∀ {front back more others : List UInt8}, IsBroken front back →
      IsBroken (front ++ more) others → back = more ++ others → more = [] := by
    intro front back more others hfront hlong hback
    by_contra hmore
    rcases hlong.begins with hlength | hbegins
    · have hfrontLength := List.length_pos_iff.mpr hfront.ne_nil
      have hmoreLength := List.length_pos_iff.mpr hmore
      rw [List.length_append] at hlength
      omega
    · exact hfront.not_isBeginning_append hmore hback hbegins
  rcases List.append_eq_append_iff.mp heq with ⟨more, rfl, hrest⟩ | ⟨more, rfl, hrest⟩
  · rw [hlonger h h' hrest, List.append_nil]
  · rw [hlonger h' h hrest, List.append_nil]

end IsBroken

/-- Bytes are decoded in one way. -/
theorem Decodes.unique {bytes : List UInt8} {text text' : List Char} {lossy lossy' : Bool}
    (h : Decodes bytes text lossy) (h' : Decodes bytes text' lossy') :
    text = text' ∧ lossy = lossy' := by
  induction h generalizing text' lossy' with
  | nil =>
    generalize hbytes : ([] : List UInt8) = bytes at h'
    cases h' with
    | nil => exact ⟨rfl, rfl⟩
    | char c =>
      exact absurd (List.append_eq_nil_iff.mp hbytes.symm).1 (utf8EncodeChar_ne_nil c)
    | broken hbroken => exact absurd (List.append_eq_nil_iff.mp hbytes.symm).1 hbroken.ne_nil
  | @char rest text lossy c _ ih =>
    generalize hbytes : String.utf8EncodeChar c ++ rest = bytes at h'
    cases h' with
    | nil => exact absurd (List.append_eq_nil_iff.mp hbytes).1 (utf8EncodeChar_ne_nil c)
    | char d h' =>
      obtain rfl := eq_of_utf8EncodeChar_append_eq hbytes
      rcases ih (List.append_cancel_left hbytes ▸ h') with ⟨rfl, rfl⟩
      exact ⟨rfl, rfl⟩
    | broken hbroken => exact absurd hbytes.symm hbroken.ne_char
  | @broken bytes rest text lossy hbroken _ ih =>
    generalize hbytes : bytes ++ rest = whole at h'
    cases h' with
    | nil => exact absurd (List.append_eq_nil_iff.mp hbytes).1 hbroken.ne_nil
    | char c => exact absurd hbytes hbroken.ne_char
    | broken hbroken' h' =>
      obtain rfl := hbroken.eq_of_append_eq hbroken' hbytes
      rcases ih (List.append_cancel_left hbytes ▸ h') with ⟨rfl, -⟩
      exact ⟨rfl, rfl⟩

/-! ## Characters that are read in part -/

/-- The digits behind a first byte begin with the highest one. -/
theorem continuation_succ (count v : Nat) :
    continuation (count + 1) v =
      UInt8.ofNat (v / 64 ^ count % 64 + 128) :: continuation count v := by
  induction count generalizing v with
  | zero => simp [continuation]
  | succ count ih =>
    rw [continuation, ih, continuation, List.cons_append, Nat.div_div_eq_div_mul, ← Nat.pow_succ']

theorem toNat_digit (v : Nat) : (UInt8.ofNat (v % 64 + 128)).toNat = v % 64 + 128 := by
  have hbound : v % 64 + 128 < 256 := by omega
  exact UInt8.toNat_ofNat_of_lt' hbound

@[simp] theorem length_continuation (count v : Nat) : (continuation count v).length = count := by
  induction count generalizing v with
  | zero => rfl
  | succ count ih => simp [continuation, ih]

theorem le_of_mem_continuation {count v : Nat} {b : UInt8} (h : b ∈ continuation count v) :
    0x80 ≤ b.toNat := by
  induction count generalizing v with
  | zero => cases h
  | succ count ih =>
    rw [continuation_succ, List.mem_cons] at h
    rcases h with rfl | h
    · rw [toNat_digit]
      exact Nat.le_add_left _ _
    · exact ih h

/-- The last digits of the digits of a number. -/
theorem continuation_suffix {count more : Nat} (h : count ≤ more) (v : Nat) :
    continuation count v <:+ continuation more v := by
  induction more with
  | zero => rw [Nat.le_zero.mp h]
  | succ more ih =>
    rcases Nat.lt_or_eq_of_le h with hlt | rfl
    · rw [continuation_succ more]
      exact (ih (Nat.le_of_lt_succ hlt)).trans (List.suffix_cons _ _)
    · exact List.suffix_rfl

theorem leadByte_range {v : Nat} (h : v < 0x110000) :
    leadByte v < 0x80 ∨ 0xC2 ≤ leadByte v ∧ leadByte v ≤ 0xF4 := by
  unfold leadByte
  split_ifs <;> omega

theorem leadByte_lt {v : Nat} (h : v < 0x110000) : leadByte v < 256 := by
  unfold leadByte
  split_ifs <;> omega

/-- Behind equal first bytes there are equally many bytes. -/
theorem length_eq_of_utf8EncodeChar_eq_cons {c d : Char} {first : UInt8} {more others : List UInt8}
    (hc : String.utf8EncodeChar c = first :: more)
    (hd : String.utf8EncodeChar d = first :: others) : more.length = others.length := by
  rw [utf8EncodeChar_eq, List.cons.injEq] at hc hd
  have hlead : leadByte c.val.toNat = leadByte d.val.toNat := by
    have hbyte := congrArg UInt8.toNat (hc.1.trans hd.1.symm)
    rwa [UInt8.toNat_ofNat_of_lt' (leadByte_lt (toNat_val_lt c)),
      UInt8.toNat_ofNat_of_lt' (leadByte_lt (toNat_val_lt d))] at hbyte
  have hcount : continuationCount c.val.toNat = continuationCount d.val.toNat := by
    have hboundC := toNat_val_lt c
    have hboundD := toNat_val_lt d
    unfold leadByte at hlead
    unfold continuationCount
    split_ifs at hlead ⊢ <;> omega
  rw [← hc.2, ← hd.2, length_continuation, length_continuation, hcount]

/-- The code points that an unfinished character can still become. -/
def Unfinished.Admits (u : Unfinished) (v : Nat) : Prop :=
  v / 64 ^ u.owed = u.value ∧ u.low.toNat ≤ v / 64 ^ (u.owed - 1) % 64 + 128 ∧
    v / 64 ^ (u.owed - 1) % 64 + 128 ≤ u.high.toNat

/-- A first byte admits the code points whose first byte it is. -/
theorem admits_iff_of_lead? {b : UInt8} {u : Unfinished} (h : lead? b = some u) (v : Nat) :
    u.Admits v ↔ v.isValidChar ∧ leadByte v = b.toNat ∧ continuationCount v = u.owed := by
  have hb : b.toNat < 256 := UInt8.toNat_lt b
  unfold Unfinished.Admits leadByte continuationCount Nat.isValidChar
  unfold lead? at h
  simp only [Bool.and_eq_true, decide_eq_true_eq, UInt8.le_iff_toNat_le, ← UInt8.toNat_inj,
    UInt8.reduceToNat] at h
  generalize b.toNat = n at h hb ⊢
  split_ifs at h
  all_goals cases h
  all_goals simp only [UInt8.reduceToNat, Nat.reducePow, Nat.reduceSub]
  all_goals split_ifs <;> omega

/-- An unfinished character after some bytes of it: what it admits are the characters that begin
with these bytes. -/
structure Pending (read : List UInt8) (u : Unfinished) : Prop where
  ne_nil : read ≠ []
  owed_pos : 0 < u.owed
  low_le : 128 ≤ u.low.toNat
  low_le_high : u.low.toNat ≤ u.high.toNat
  high_le : u.high.toNat ≤ 191
  admits_iff : ∀ v, u.Admits v ↔
    ∃ c : Char, c.val.toNat = v ∧ String.utf8EncodeChar c = read ++ continuation u.owed v

/-- A first byte opens a character. -/
theorem pending_of_lead? {b : UInt8} {u : Unfinished} (h : lead? b = some u) : Pending [b] u := by
  have hrange : 0 < u.owed ∧ 128 ≤ u.low.toNat ∧ u.low.toNat ≤ u.high.toNat ∧
      u.high.toNat ≤ 191 := by
    unfold lead? at h
    split_ifs at h
    all_goals cases h
    all_goals simp
  rcases hrange with ⟨howed, hlow, hlowHigh, hhigh⟩
  refine ⟨List.cons_ne_nil b [], howed, hlow, hlowHigh, hhigh, fun v => ?_⟩
  rw [admits_iff_of_lead? h]
  constructor
  · rintro ⟨hvalid, hlead, hcount⟩
    have hchar : (Char.ofNatAux v hvalid).val.toNat = v := rfl
    refine ⟨Char.ofNatAux v hvalid, hchar, ?_⟩
    rw [utf8EncodeChar_eq, hchar, hlead, hcount, UInt8.ofNat_toNat]
    rfl
  · rintro ⟨c, rfl, hbytes⟩
    rw [utf8EncodeChar_eq, List.singleton_append, List.cons.injEq] at hbytes
    refine ⟨c.valid, ?_, ?_⟩
    · rw [← hbytes.1, UInt8.toNat_ofNat_of_lt' (leadByte_lt (toNat_val_lt c))]
    · simpa using congrArg List.length hbytes.2

namespace Pending

variable {read : List UInt8} {u : Unfinished} (h : Pending read u)
include h

/-- Some character begins with the bytes. -/
theorem exists_char : ∃ c : Char, ∃ v,
    String.utf8EncodeChar c = read ++ continuation u.owed v := by
  rcases Nat.exists_eq_succ_of_ne_zero (Nat.pos_iff_ne_zero.mp h.owed_pos) with ⟨count, howed⟩
  have hpow : 0 < 64 ^ count := Nat.pow_pos (by decide)
  have hlow := h.low_le
  have hlowHigh := h.low_le_high
  have hhigh := h.high_le
  have hadmits : u.Admits ((u.value * 64 + (u.low.toNat - 128)) * 64 ^ count) := by
    unfold Unfinished.Admits
    rw [howed, Nat.succ_sub_one, Nat.pow_succ, ← Nat.div_div_eq_div_mul,
      Nat.mul_div_cancel _ hpow]
    omega
  rcases (h.admits_iff _).mp hadmits with ⟨c, -, hbytes⟩
  exact ⟨c, _, hbytes⟩

/-- The bytes of a character behind those that were read are its last digits. -/
theorem eq_continuation {c : Char} {rest : List UInt8}
    (hc : String.utf8EncodeChar c = read ++ rest) : rest = continuation u.owed c.val.toNat := by
  rcases h.exists_char with ⟨d, w, hd⟩
  rcases List.exists_cons_of_ne_nil h.ne_nil with ⟨first, others, rfl⟩
  have hlength : rest.length = u.owed := by
    have := length_eq_of_utf8EncodeChar_eq_cons hc hd
    simpa using this
  rw [utf8EncodeChar_eq, List.cons_append, List.cons.injEq] at hc
  have hrest : rest <:+ continuation (continuationCount c.val.toNat) c.val.toNat :=
    ⟨others, hc.2.symm⟩
  have howed : u.owed ≤ continuationCount c.val.toNat := by
    have := hrest.length_le
    rwa [hlength, length_continuation] at this
  have hsuffix : rest <:+ continuation u.owed c.val.toNat :=
    List.suffix_of_suffix_length_le hrest (continuation_suffix howed _) (by simp [hlength])
  exact hsuffix.sublist.eq_of_length (by simp [hlength])

/-- Only a byte in range continues a character. -/
theorem in_range {b : UInt8} (hbegins : IsBeginning (read ++ [b])) : u.low ≤ b ∧ b ≤ u.high := by
  rcases hbegins with ⟨c, tail, hc⟩
  rw [List.append_assoc, List.singleton_append] at hc
  have htail := h.eq_continuation hc.symm
  have hadmits : u.Admits c.val.toNat := (h.admits_iff _).mpr ⟨c, rfl, htail ▸ hc.symm⟩
  rcases Nat.exists_eq_succ_of_ne_zero (Nat.pos_iff_ne_zero.mp h.owed_pos) with ⟨count, howed⟩
  unfold Unfinished.Admits at hadmits
  rw [howed, continuation_succ, List.cons.injEq] at htail
  rw [howed, Nat.succ_sub_one] at hadmits
  have hdigit : b.toNat = c.val.toNat / 64 ^ count % 64 + 128 := by
    rw [htail.1, toNat_digit]
  rw [UInt8.le_iff_toNat_le, UInt8.le_iff_toNat_le, hdigit]
  exact hadmits.2

/-- Without a byte that continues them, the bytes are broken. -/
theorem isBroken {rest : List UInt8} (hrest : ∀ b ∈ rest.head?, ¬ (u.low ≤ b ∧ b ≤ u.high)) :
    IsBroken read rest where
  ne_nil := h.ne_nil
  incomplete := by
    rintro c ⟨tail, hread⟩
    rcases h.exists_char with ⟨d, v, hd⟩
    have hchars : String.utf8EncodeChar c ++ (tail ++ continuation u.owed v) =
        String.utf8EncodeChar d ++ [] := by
      rw [← List.append_assoc, hread, ← hd, List.append_nil]
    obtain rfl := eq_of_utf8EncodeChar_append_eq hchars
    have hlength := congrArg List.length hd
    have hreadLength := congrArg List.length hread
    have howed := h.owed_pos
    simp only [List.length_append, length_continuation] at hlength hreadLength
    omega
  begins := by
    rcases h.exists_char with ⟨c, v, hc⟩
    exact .inr ⟨c, continuation u.owed v, hc.symm⟩
  maximal := fun b hb hbegins => hrest b hb (h.in_range hbegins)

section Continued

variable {b : UInt8} (hlow : u.low ≤ b) (hhigh : b ≤ u.high)
include hlow hhigh

/-- A byte in range is the next digit. -/
theorem admits_iff_of_next {count : Nat} (howed : u.owed = count + 1) (v : Nat) :
    v / 64 ^ count = u.value * 64 + b.toNat % 64 ↔
      u.Admits v ∧ v / 64 ^ count % 64 + 128 = b.toNat := by
  have hrange := And.intro h.low_le h.high_le
  rw [UInt8.le_iff_toNat_le] at hlow hhigh
  unfold Unfinished.Admits
  rw [howed, Nat.succ_sub_one, Nat.pow_succ, ← Nat.div_div_eq_div_mul]
  omega

/-- A byte in range that is not the last one leaves the character open. -/
theorem push {count : Nat} (howed : u.owed = count + 2) :
    Pending (read ++ [b]) ⟨count + 1, u.value * 64 + b.toNat % 64, 0x80, 0xBF⟩ where
  ne_nil := by simp
  owed_pos := Nat.succ_pos count
  low_le := by simp
  low_le_high := by simp
  high_le := by simp
  admits_iff := by
    intro v
    have hnext := h.admits_iff_of_next hlow hhigh howed v
    have hadmits : Unfinished.Admits ⟨count + 1, u.value * 64 + b.toNat % 64, 0x80, 0xBF⟩ v ↔
        v / 64 ^ (count + 1) = u.value * 64 + b.toNat % 64 := by
      unfold Unfinished.Admits
      refine and_iff_left_of_imp fun _ => ⟨?_, ?_⟩
      · exact Nat.le_add_left _ _
      · have : v / 64 ^ count % 64 < 64 := Nat.mod_lt _ (by decide)
        show v / 64 ^ count % 64 + 128 ≤ 191
        omega
    rw [hadmits, hnext, h.admits_iff, howed, continuation_succ]
    constructor
    · rintro ⟨⟨c, hc, hbytes⟩, hdigit⟩
      refine ⟨c, hc, ?_⟩
      rw [hbytes, hdigit, UInt8.ofNat_toNat, List.append_assoc]
      rfl
    · rintro ⟨c, rfl, hbytes⟩
      rw [List.append_assoc, List.singleton_append] at hbytes
      have htail := h.eq_continuation hbytes
      rw [howed, continuation_succ (count + 1), List.cons.injEq] at htail
      refine ⟨⟨c, rfl, htail.1 ▸ hbytes⟩, ?_⟩
      rw [htail.1, toNat_digit]

/-- The last byte completes the character. -/
theorem complete (howed : u.owed = 1) :
    String.utf8EncodeChar (Char.ofNat (u.value * 64 + b.toNat % 64)) = read ++ [b] := by
  have howedSucc : u.owed = 0 + 1 := howed
  have hnext := h.admits_iff_of_next hlow hhigh howedSucc (u.value * 64 + b.toNat % 64)
  rw [Nat.pow_zero, Nat.div_one] at hnext
  rcases hnext.mp rfl with ⟨hadmits, hdigit⟩
  rcases (h.admits_iff _).mp hadmits with ⟨c, hc, hbytes⟩
  have hchar : Char.ofNat (u.value * 64 + b.toNat % 64) = c := by
    rw [← hc]
    exact Char.ofNat_toNat c
  rw [hchar, hbytes, howed, continuation_succ, Nat.pow_zero, Nat.div_one, hdigit,
    UInt8.ofNat_toNat]
  rfl

end Continued

end Pending

/-! ## The decoder -/

theorem utf8EncodeChar_of_ascii {b : UInt8} (h : b < 0x80) :
    String.utf8EncodeChar (Char.ofNat b.toNat) = [b] := by
  have hb : b.toNat < 128 := h
  have hvalid : b.toNat.isValidChar := Or.inl (by omega)
  have hchar : Char.ofNat b.toNat = Char.ofNatAux b.toNat hvalid := dif_pos hvalid
  have hvalue : (Char.ofNat b.toNat).val.toNat = b.toNat := congrArg (·.val.toNat) hchar
  rw [utf8EncodeChar_eq, hvalue]
  unfold leadByte continuationCount
  rw [if_pos (by omega), if_pos (by omega), UInt8.ofNat_toNat]
  rfl

/-- A byte that is no ASCII and announces no others begins no character. -/
theorem not_isBeginning_of_lead? {b : UInt8} (hascii : ¬ b < 0x80) (h : lead? b = none) :
    ¬ IsBeginning [b] := by
  rintro ⟨c, tail, hc⟩
  rw [utf8EncodeChar_eq, List.singleton_append, List.cons.injEq] at hc
  have hlead : b.toNat = leadByte c.val.toNat := by
    rw [hc.1, UInt8.toNat_ofNat_of_lt' (leadByte_lt (toNat_val_lt c))]
  have hfirst : 0x80 ≤ b.toNat := Nat.le_of_not_lt hascii
  have hrange := leadByte_range (toNat_val_lt c)
  rw [← hlead] at hrange
  unfold lead? at h
  simp only [Bool.and_eq_true, decide_eq_true_eq, UInt8.le_iff_toNat_le, ← UInt8.toNat_inj,
    UInt8.reduceToNat] at h
  generalize b.toNat = n at h hfirst hrange
  split_ifs at h
  omega

/-- Such a byte is broken whatever follows. -/
theorem isBroken_of_lead? {b : UInt8} (hascii : ¬ b < 0x80) (h : lead? b = none)
    (rest : List UInt8) : IsBroken [b] rest where
  ne_nil := List.cons_ne_nil b []
  incomplete := by
    rintro c ⟨tail, hc⟩
    rcases List.exists_cons_of_ne_nil (utf8EncodeChar_ne_nil c) with ⟨first, others, hbytes⟩
    rw [hbytes, List.cons_append, List.cons.injEq] at hc
    exact not_isBeginning_of_lead? hascii h ⟨c, others, by rw [hbytes, hc.1]; rfl⟩
  begins := .inl rfl
  maximal := fun other _ hbegins =>
    not_isBeginning_of_lead? hascii h (hbegins.of_prefix ⟨[other], rfl⟩)

namespace Decoder

/-- All ways to read a byte while no character is open. -/
theorem begin_cases (d : Decoder) (b : UInt8) :
    (∃ c, String.utf8EncodeChar c = [b] ∧ d.begin b = d.write c) ∨
      (∃ u, Pending [b] u ∧ d.begin b = { d with opened := some u }) ∨
        (∀ rest, IsBroken [b] rest) ∧ d.begin b = d.replace := by
  by_cases hascii : b < 0x80
  · exact .inl ⟨_, utf8EncodeChar_of_ascii hascii, begin_ascii hascii d⟩
  · unfold begin
    rw [if_neg hascii]
    cases h : lead? b with
    | some u => exact .inr (.inl ⟨u, pending_of_lead? h, rfl⟩)
    | none => exact .inr (.inr ⟨isBroken_of_lead? hascii h, rfl⟩)

/-- All ways to read a byte while a character is open. -/
theorem step_cases {d : Decoder} {u : Unfinished} (hopened : d.opened = some u)
    {read : List UInt8} (h : Pending read u) (b : UInt8) :
    (∃ c, String.utf8EncodeChar c = read ++ [b] ∧ d.step b = d.write c) ∨
      (∃ next, Pending (read ++ [b]) next ∧ d.step b = { d with opened := some next }) ∨
        (∀ rest, IsBroken read (b :: rest)) ∧ d.step b = d.replace.begin b := by
  unfold step
  rw [hopened]
  dsimp only
  by_cases hrange : u.low ≤ b ∧ b ≤ u.high
  · rw [if_pos (by simpa using hrange)]
    rcases Nat.exists_eq_succ_of_ne_zero (Nat.pos_iff_ne_zero.mp h.owed_pos) with ⟨count, howed⟩
    cases count with
    | zero =>
      rw [if_pos howed]
      exact .inl ⟨_, h.complete hrange.1 hrange.2 howed, rfl⟩
    | succ count =>
      rw [if_neg (by omega), howed]
      exact .inr (.inl ⟨_, h.push hrange.1 hrange.2 howed, rfl⟩)
  · rw [if_neg (by simpa using hrange)]
    refine .inr (.inr ⟨fun rest => h.isBroken ?_, rfl⟩)
    intro next hnext
    obtain rfl : b = next := by simpa using hnext
    exact hrange

/-- Whether a state has, behind the text of another one, what bytes are decoded to. -/
def Adds (bytes : List UInt8) (before after : Decoder) : Prop :=
  ∃ text lossy, Decodes bytes text lossy ∧
    after.text.toList = before.text.toList ++ text ∧ after.malformed = (before.malformed || lossy)

theorem Adds.refl (d : Decoder) : Adds [] d d := ⟨[], false, .nil, by simp, by simp⟩

section Adds

variable {bytes rest : List UInt8} {before after : Decoder}

theorem Adds.of_write {c : Char} (hc : String.utf8EncodeChar c = bytes)
    (h : Adds rest (before.write c) after) : Adds (bytes ++ rest) before after := by
  rcases h with ⟨text, lossy, hdecodes, htext, hmalformed⟩
  refine ⟨c :: text, lossy, hc ▸ .char c hdecodes, ?_, hmalformed⟩
  rw [htext]
  simp [write]

theorem Adds.of_replace (hbroken : IsBroken bytes rest) (h : Adds rest before.replace after) :
    Adds (bytes ++ rest) before after := by
  rcases h with ⟨text, lossy, hdecodes, htext, hmalformed⟩
  refine ⟨replacement :: text, true, .broken hbroken hdecodes, ?_, ?_⟩
  · rw [htext]
    simp [replace, write]
  · rw [hmalformed]
    simp [replace]

end Adds

theorem step_of_closed {d : Decoder} (h : d.opened = none) (b : UInt8) : d.step b = d.begin b := by
  unfold step
  rw [h]

/-- Reading bytes adds what they are decoded to, together with the bytes of a character that is
open. -/
theorem adds_run (bytes : List UInt8) :
    (∀ d : Decoder, d.opened = none → Adds bytes d (bytes.foldl step d).finish) ∧
      ∀ (d : Decoder) (u : Unfinished) (read : List UInt8), d.opened = some u → Pending read u →
        Adds (read ++ bytes) d (bytes.foldl step d).finish := by
  induction bytes with
  | nil =>
    constructor
    · intro d hd
      have hfinish : d.finish = d := by
        unfold finish
        rw [hd]
      simpa [hfinish] using Adds.refl d
    · intro d u read hd hread
      have hfinish : d.finish = d.replace := by
        unfold finish
        rw [hd]
      simp only [List.foldl_nil, hfinish]
      exact (Adds.refl d.replace).of_replace (hread.isBroken (by simp))
  | cons b rest ih =>
    have hclosed : ∀ d : Decoder, d.opened = none →
        Adds (b :: rest) d ((b :: rest).foldl step d).finish := by
      intro d hd
      rw [List.foldl_cons, step_of_closed hd]
      rcases begin_cases d b with ⟨c, hc, hstep⟩ | ⟨u, hu, hstep⟩ | ⟨hbroken, hstep⟩
      · rw [hstep]
        exact (ih.1 _ (opened_write d c)).of_write hc
      · rw [hstep]
        exact ih.2 { d with opened := some u } u [b] rfl hu
      · rw [hstep]
        exact (ih.1 _ (opened_replace d)).of_replace (hbroken rest)
    refine ⟨hclosed, fun d u read hd hread => ?_⟩
    rcases step_cases hd hread b with ⟨c, hc, hstep⟩ | ⟨next, hnext, hstep⟩ | ⟨hbroken, hstep⟩
    · rw [List.foldl_cons, hstep, List.append_cons]
      exact (ih.1 _ (opened_write d c)).of_write hc
    · rw [List.foldl_cons, hstep, List.append_cons]
      exact ih.2 { d with opened := some next } next (read ++ [b]) rfl hnext
    · -- The byte is read once more, with nothing open.
      rw [List.foldl_cons, hstep, ← step_of_closed (opened_replace d), ← List.foldl_cons]
      exact (hclosed _ (opened_replace d)).of_replace (hbroken rest)

end Decoder

/-! ## What is decoded -/

/-- The decoder decodes bytes, and knows whether it has replaced any. -/
theorem decodes_decode (bytes : Array UInt8) :
    Decodes bytes.toList (decode bytes).text.toList (decode bytes).malformed := by
  rcases (Decoder.adds_run bytes.toList).1 Decoder.start rfl with
    ⟨text, lossy, hdecodes, htext, hmalformed⟩
  have hrun : (bytes.toList.foldl Decoder.step Decoder.start).finish = decode bytes := by
    unfold decode Decoder.run
    rw [Array.foldl_toList]
  rw [hrun] at htext hmalformed
  rw [htext, hmalformed]
  exact hdecodes

/-- Bytes that are decoded to a text are decoded to it by the decoder. -/
theorem Decodes.decode_eq {bytes : Array UInt8} {text : List Char} {lossy : Bool}
    (h : Decodes bytes.toList text lossy) :
    (decode bytes).text.toList = text ∧ (decode bytes).malformed = lossy :=
  (decodes_decode bytes).unique h

/-- Bytes that must be UTF-8 are read exactly if they are the bytes of a text. -/
theorem decodeStrict?_eq_some_iff {bytes : Array UInt8} {text : String} :
    decodeStrict? bytes = some text ↔ bytes.toList = encode text.toList := by
  have hdecodes := decodes_decode bytes
  unfold decodeStrict?
  dsimp only
  cases hmalformed : (decode bytes).malformed with
  | true =>
    refine iff_of_false (by simp) fun hbytes => ?_
    have hvalid : Decodes bytes.toList text.toList false := hbytes ▸ decodes_encode text.toList
    cases hmalformed.symm.trans hvalid.decode_eq.2
  | false =>
    rw [if_neg (by decide), Option.some.injEq]
    rw [hmalformed] at hdecodes
    constructor
    · rintro rfl
      exact hdecodes.eq_encode
    · intro hbytes
      have hvalid : Decodes bytes.toList text.toList false := hbytes ▸ decodes_encode text.toList
      exact String.toList_injective hvalid.decode_eq.1

end Utf8
end Text
end AttributeScope
