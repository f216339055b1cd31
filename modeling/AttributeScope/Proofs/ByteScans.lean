import AttributeScope.Proofs.ByteCuts
import AttributeScope.Proofs.StarHalving

/-!
# Halving glued stars among bytes

The two passes that halve glued stars may look at the UTF-8 bytes of a segment instead of its
characters.  They then count positions in bytes and copy what stands between the halved pairs as
parts of the text, from one position to another.  No position that they cut at is inside a
character, and they write what the passes over characters write.

Main results:

- Theorem `halveBytes?_eq_some`: a pass over bytes never cuts through a character, and does what
  the pass over characters does.
- Theorem `canonicalizeBytes?_eq_some`: so every pattern has its canonical form.
- Theorem `passes_byte_by_byte`: where both passes cut, and what they write.
-/

namespace AttributeScope
namespace Pattern

open Text.Utf8 (IsPart encode size slice?)

/-- The byte of a star. -/
def starByte : UInt8 := 0x2A

/-! ## Passes over bytes -/

/-- The parts of a text that a pass copies, from one position to another.  The pass reads the bytes
from left to right; `index` is the next one, and `copied` the position behind the last pair that
was halved.  Whether a pair is halved depends on its position and on the number of bytes. -/
def copiedParts (glued : Nat → Nat → Bool) (bytes : Array UInt8) (copied index : Nat) :
    List (Nat × Nat) :=
  if h : index + 1 < bytes.size then
    if bytes[index] = starByte ∧ bytes[index + 1] = starByte ∧ glued index bytes.size then
      (copied, index) :: copiedParts glued bytes (index + 2) (index + 2)
    else copiedParts glued bytes copied (index + 1)
  else [(copied, bytes.size)]
termination_by bytes.size - index

/-- The parts of a text that a pass copies. -/
def partsOf (glued : Nat → Nat → Bool) (text : List Char) : List (Nat × Nat) :=
  copiedParts glued (encode text).toArray 0 0

/-- What a pass over bytes writes: the parts of the text that it copies, and one star for each pair
between them.  No result if a part begins or ends inside a character. -/
def halveBytes? (glued : Nat → Nat → Bool) (text : List Char) : Option (List Char) :=
  ((partsOf glued text).mapM (slice? text)).map (List.intercalate ['*'])

/-- Whether a pair has something before it. -/
def isBehindText (start _ : Nat) : Bool := 0 < start

/-- Whether a pair has something behind it. -/
def isBeforeText (start length : Nat) : Bool := start + 2 < length

/-- Both passes over the bytes of a segment. -/
def degradeBytes? (segment : Segment) : Option Segment :=
  (halveBytes? isBehindText segment).bind (halveBytes? isBeforeText)

/-- The canonical form of a pattern, with passes over bytes. -/
def canonicalizeBytes? (pattern : List Char) : Option (List Char) :=
  let parts := markDescendants (segments (pattern.dropWhile (· == '/')))
  ((absorb one recursive (absorb recursive one parts)).mapM degradeBytes?).map ofSegments

/-! ## Bytes of a text -/

theorem utf8EncodeChar_star : String.utf8EncodeChar '*' = [starByte] := by rfl

theorem starByte_mem_utf8EncodeChar_iff {c : Char} :
    starByte ∈ String.utf8EncodeChar c ↔ c = '*' := by
  constructor
  · intro h
    have hbytes := Text.Utf8.utf8EncodeChar_of_mem (by decide) h
    have hchars : String.utf8EncodeChar c ++ [] = String.utf8EncodeChar '*' ++ [] := by
      rw [hbytes, utf8EncodeChar_star]
    exact Text.Utf8.eq_of_utf8EncodeChar_append_eq hchars
  · rintro rfl
    exact List.mem_singleton_self starByte

/-- A text begins with a star if its first byte is one. -/
theorem head?_encode_eq_star_iff {text : List Char} :
    (encode text).head? = some starByte ↔ text.head? = some '*' := by
  cases text with
  | nil => simp [encode]
  | cons c rest =>
    rcases List.exists_cons_of_ne_nil (Text.Utf8.utf8EncodeChar_ne_nil c) with ⟨b, more, hbytes⟩
    have hhead : (encode (c :: rest)).head? = some b := by
      unfold encode
      rw [List.flatMap_cons, hbytes, List.cons_append, List.head?_cons]
    rw [hhead, List.head?_cons, Option.some_inj, Option.some_inj]
    constructor
    · rintro rfl
      exact starByte_mem_utf8EncodeChar_iff.mp (hbytes ▸ List.mem_cons_self)
    · rintro rfl
      rw [utf8EncodeChar_star] at hbytes
      exact (List.cons.inj hbytes).1.symm

/-- The bytes behind a part of a text. -/
theorem getElem?_encode_append (front back : List Char) (offset : Nat) :
    (encode (front ++ back)).toArray[size front + offset]? = (encode back)[offset]? := by
  have hle : (encode front).length ≤ size front + offset := Nat.le_add_right _ _
  rw [List.getElem?_toArray, Text.Utf8.encode_append, List.getElem?_append_right hle]
  unfold size
  rw [Nat.add_sub_cancel_left]

/-- The byte of a star is behind a part of a text if a star is. -/
theorem starByte_at_iff (front back : List Char) :
    (encode (front ++ back)).toArray[size front]? = some starByte ↔ back.head? = some '*' := by
  have hbyte := getElem?_encode_append front back 0
  rw [Nat.add_zero, ← List.head?_eq_getElem?] at hbyte
  rw [hbyte, head?_encode_eq_star_iff]

/-- No byte of another character is the byte of a star. -/
theorem starByte_not_inside {c : Char} (hc : c ≠ '*') (front back : List Char) {offset : Nat}
    (hoffset : offset < c.utf8Size) :
    (encode (front ++ c :: back)).toArray[size front + offset]? ≠ some starByte := by
  have hlength : offset < (String.utf8EncodeChar c).length := by
    rwa [String.length_utf8EncodeChar]
  intro hstar
  rw [getElem?_encode_append] at hstar
  unfold encode at hstar
  rw [List.flatMap_cons, List.getElem?_append_left hlength] at hstar
  exact hc (starByte_mem_utf8EncodeChar_iff.mp (List.mem_of_getElem? hstar))

/-! ## One step -/

section Steps

variable {glued : Nat → Nat → Bool} {bytes : Array UInt8} {copied index : Nat}

/-- Whether a pass halves a pair at a position. -/
def IsHalvedAt (glued : Nat → Nat → Bool) (bytes : Array UInt8) (index : Nat) : Prop :=
  bytes[index]? = some starByte ∧ bytes[index + 1]? = some starByte ∧ glued index bytes.size

theorem copiedParts_of_isHalvedAt (h : IsHalvedAt glued bytes index) :
    copiedParts glued bytes copied index =
      (copied, index) :: copiedParts glued bytes (index + 2) (index + 2) := by
  rcases h with ⟨hfirst, hsecond, hglued⟩
  rcases Array.getElem?_eq_some_iff.mp hfirst with ⟨_, hfirst⟩
  rcases Array.getElem?_eq_some_iff.mp hsecond with ⟨hbound, hsecond⟩
  rw [copiedParts, dif_pos hbound, if_pos ⟨hfirst, hsecond, hglued⟩]

/-- A byte at which nothing is halved is passed over, also at the end. -/
theorem copiedParts_of_not_isHalvedAt (h : ¬ IsHalvedAt glued bytes index) :
    copiedParts glued bytes copied index = copiedParts glued bytes copied (index + 1) := by
  rw [copiedParts]
  split
  next hbound =>
    rw [if_neg]
    rintro ⟨hfirst, hsecond, hglued⟩
    exact h ⟨Array.getElem?_eq_some_iff.mpr ⟨by omega, hfirst⟩,
      Array.getElem?_eq_some_iff.mpr ⟨hbound, hsecond⟩, hglued⟩
  next hbound => rw [copiedParts, dif_neg (by omega)]

theorem copiedParts_size : copiedParts glued bytes copied bytes.size = [(copied, bytes.size)] := by
  rw [copiedParts, dif_neg (by omega)]

/-- Bytes that are no stars are passed over. -/
theorem copiedParts_add (count : Nat) (h : ∀ k < count, bytes[index + k]? ≠ some starByte) :
    copiedParts glued bytes copied index = copiedParts glued bytes copied (index + count) := by
  induction count with
  | zero => rfl
  | succ count ih =>
    have hlast : ¬ IsHalvedAt glued bytes (index + count) := fun hhalved =>
      h count (Nat.lt_succ_self count) hhalved.1
    rw [ih fun k hk => h k (Nat.lt_succ_of_lt hk), copiedParts_of_not_isHalvedAt hlast]
    rfl

end Steps

/-! ## A whole pass -/

theorem isSome_of_mapM_eq_some {α β : Type} {f : α → Option β} {xs : List α} {ys : List β}
    (h : xs.mapM f = some ys) {x : α} (hx : x ∈ xs) : (f x).isSome := by
  induction xs generalizing ys with
  | nil => cases hx
  | cons first rest ih =>
    rw [List.mapM_cons] at h
    rcases Option.bind_eq_some_iff.mp h with ⟨y, hfirst, hbind⟩
    rcases Option.bind_eq_some_iff.mp hbind with ⟨others, hrest, -⟩
    rcases List.mem_cons.mp hx with rfl | hx
    · rw [hfirst]
      rfl
    · exact ih hrest hx

section WholePass

variable {glued : Nat → Nat → Bool} {gluedChars : Nat → Bool} {text : List Char}

/-- Whether a pass over bytes and one over characters halve the same pairs of a text: the first one
decides by the number of bytes before a pair and the second one by the number of characters. -/
def Agree (glued : Nat → Nat → Bool) (gluedChars : Nat → Bool) (text : List Char) : Prop :=
  ∀ before after, text = before ++ '*' :: '*' :: after →
    glued (size before) (size text) = gluedChars before.length

/-- Where a pass over bytes comes to a character, it halves a pair if the pass over characters
does. -/
theorem isHalvedAt_iff (h : Agree glued gluedChars text) {before rest : List Char}
    (htext : text = before ++ rest) :
    IsHalvedAt glued (encode text).toArray (size before) ↔
      ∃ after, rest = '*' :: '*' :: after ∧ gluedChars before.length := by
  have hnext : size before + 1 = size (before ++ ['*']) := by
    rw [Text.Utf8.size_append]
    rfl
  have hpair (others : List Char) :
      (encode (before ++ '*' :: others)).toArray[size before + 1]? = some starByte ↔
        others.head? = some '*' := by
    have hsplit : before ++ '*' :: others = (before ++ ['*']) ++ others := by simp
    rw [hsplit, hnext, starByte_at_iff]
  unfold IsHalvedAt
  constructor
  · rintro ⟨hfirst, hsecond, hglued⟩
    rw [htext, starByte_at_iff] at hfirst
    rcases List.head?_eq_some_iff.mp hfirst with ⟨others, rfl⟩
    rw [htext, hpair] at hsecond
    rcases List.head?_eq_some_iff.mp hsecond with ⟨after, rfl⟩
    exact ⟨after, rfl, (h before after htext).symm.trans hglued⟩
  · rintro ⟨after, rfl, hglued⟩
    have hfirst := (starByte_at_iff before ('*' :: '*' :: after)).mpr rfl
    have hsecond := (hpair ('*' :: after)).mpr rfl
    rw [← htext] at hfirst hsecond
    exact ⟨hfirst, hsecond, (h before after htext).trans hglued⟩

/-- A character at which nothing is halved is passed over, with all its bytes. -/
theorem copiedParts_character (h : Agree glued gluedChars text) {before rest : List Char} {c : Char}
    (htext : text = before ++ c :: rest)
    (hnot : ∀ after, c :: rest = '*' :: '*' :: after → ¬ gluedChars before.length) (copied : Nat) :
    copiedParts glued (encode text).toArray copied (size before) =
      copiedParts glued (encode text).toArray copied (size (before ++ [c])) := by
  have hsize : size (before ++ [c]) = size before + c.utf8Size := by simp
  rw [hsize]
  by_cases hc : c = '*'
  · have hhalved : ¬ IsHalvedAt glued (encode text).toArray (size before) := by
      rw [isHalvedAt_iff h htext]
      rintro ⟨after, hpair, hglued⟩
      exact hnot after hpair hglued
    rw [copiedParts_of_not_isHalvedAt hhalved, hc]
    rfl
  · apply copiedParts_add
    intro k hk
    rw [htext]
    exact starByte_not_inside hc before rest hk

theorem copiedParts_end (copied : Nat) :
    copiedParts glued (encode text).toArray copied (size text) = [(copied, size text)] :=
  copiedParts_size

/-- From the last character on, nothing is halved. -/
theorem copiedParts_of_short (h : Agree glued gluedChars text) {before rest : List Char}
    (htext : text = before ++ rest) (hshort : ∀ a b more, rest ≠ a :: b :: more) (copied : Nat) :
    copiedParts glued (encode text).toArray copied (size before) = [(copied, size text)] := by
  cases rest with
  | nil => rw [← copiedParts_end, htext, List.append_nil]
  | cons c rest =>
    cases rest with
    | nil => rw [copiedParts_character h htext (by simp), ← htext, copiedParts_end]
    | cons d more => exact absurd rfl (hshort c d more)

/-- From a character on, a pass over bytes has still to copy what it has read since the last pair,
and goes on as the pass over characters does. -/
theorem exists_slices (h : Agree glued gluedChars text) (front pending : List Char)
    {rest : List Char} (htext : text = front ++ pending ++ rest) {position : Nat}
    (hposition : (front ++ pending).length = position) :
    ∃ first others,
      (copiedParts glued (encode text).toArray (size front) (size (front ++ pending))).mapM
          (slice? text) = some (first :: others) ∧
        List.intercalate ['*'] (first :: others) =
          pending ++ halveStars '*' gluedChars position rest := by
  fun_induction halveStars '*' gluedChars position rest generalizing front pending with
  | case1 position a b rest hstars ih =>
    rcases hstars with ⟨rfl, rfl, hglued⟩
    have hhalved : IsHalvedAt glued (encode text).toArray (size (front ++ pending)) :=
      (isHalvedAt_iff h htext).mpr ⟨rest, rfl, hposition ▸ hglued⟩
    have hbehind : size (front ++ pending) + 2 = size (front ++ pending ++ ['*', '*']) := by
      rw [Text.Utf8.size_append (front ++ pending)]
      rfl
    have hslice : slice? text (size front, size (front ++ pending)) = some pending :=
      Text.Utf8.slice?_eq_some_iff.mpr ⟨front, '*' :: '*' :: rest, htext.symm, rfl, rfl⟩
    -- Nothing has been read since this pair.
    obtain ⟨first, others, hparts, hjoined⟩ :=
      ih (front ++ pending ++ ['*', '*']) [] (by simp [htext])
        (by simp [← hposition, Nat.add_assoc])
    rw [List.append_nil] at hparts
    refine ⟨pending, first :: others, ?_, ?_⟩
    · rw [copiedParts_of_isHalvedAt hhalved, List.mapM_cons, hslice, hbehind, hparts]
      rfl
    · rw [List.intercalate_cons_cons, hjoined]
      simp
  | case2 position a b rest hstars ih =>
    have hnot : ∀ after, a :: b :: rest = '*' :: '*' :: after →
        ¬ gluedChars (front ++ pending).length := by
      intro after hpair hglued
      cases hpair
      exact hstars ⟨rfl, rfl, hposition ▸ hglued⟩
    rw [copiedParts_character h htext hnot, List.append_assoc]
    obtain ⟨first, others, hparts, hjoined⟩ :=
      ih front (pending ++ [a]) (by simp [htext]) (by simp [← hposition, Nat.add_assoc])
    exact ⟨first, others, hparts, by simp [hjoined]⟩
  | case3 position symbols hshort =>
    have hslice : slice? text (size front, size text) = some (pending ++ symbols) :=
      Text.Utf8.slice?_eq_some_iff.mpr ⟨front, [], by simp [htext], rfl, by simp [htext]⟩
    refine ⟨pending ++ symbols, [], ?_, List.intercalate_singleton⟩
    rw [copiedParts_of_short h htext hshort, List.mapM_cons, hslice]
    rfl

/-- A pass over bytes never cuts through a character, and does what the pass over characters
does. -/
theorem halveBytes?_eq_some (h : Agree glued gluedChars text) :
    halveBytes? glued text = some (halveStars '*' gluedChars 0 text) := by
  obtain ⟨first, others, hparts, hjoined⟩ :=
    exists_slices h [] [] (List.nil_append text).symm rfl
  have hall : (partsOf glued text).mapM (slice? text) = some (first :: others) := hparts
  unfold halveBytes?
  rw [hall, Option.map_some, hjoined]
  rfl

/-- What a pass over bytes copies are parts of the text. -/
theorem isPart_of_mem_partsOf (h : Agree glued gluedChars text) {part : Nat × Nat}
    (hpart : part ∈ partsOf glued text) : IsPart text part := by
  obtain ⟨first, others, hparts, -⟩ :=
    exists_slices h [] [] (List.nil_append text).symm rfl
  have hall : (partsOf glued text).mapM (slice? text) = some (first :: others) := hparts
  exact Text.Utf8.isSome_slice?_iff.mp (isSome_of_mapM_eq_some hall hpart)

end WholePass

/-! ## Both passes -/

/-- Something stands before a pair if any bytes do. -/
theorem agree_isBehindText (text : List Char) :
    Agree isBehindText (fun position => 0 < position) text := by
  intro before after _
  unfold isBehindText
  rw [decide_eq_decide, Nat.pos_iff_ne_zero, Nat.pos_iff_ne_zero, Ne, Ne,
    Text.Utf8.size_eq_zero_iff, List.length_eq_zero_iff]

/-- Something stands behind a pair if any bytes do. -/
theorem agree_isBeforeText (text : List Char) :
    Agree isBeforeText (fun position => position + 2 < text.length) text := by
  intro before after htext
  have hsize : size text = size before + 2 + size after := by
    rw [htext, Text.Utf8.size_append, Text.Utf8.size_cons, Text.Utf8.size_cons]
    have : '*'.utf8Size = 1 := rfl
    omega
  have hlength : text.length = before.length + 2 + after.length := by
    rw [htext, List.length_append, List.length_cons, List.length_cons]
    omega
  have hafter : 0 < size after ↔ 0 < after.length := by
    rw [Nat.pos_iff_ne_zero, Nat.pos_iff_ne_zero, Ne, Ne, Text.Utf8.size_eq_zero_iff,
      List.length_eq_zero_iff]
  unfold isBeforeText
  rw [decide_eq_decide, hsize, hlength]
  omega

theorem halveBytes?_isBehindText (text : List Char) :
    halveBytes? isBehindText text = some (halveAfterText '*' text) :=
  halveBytes?_eq_some (agree_isBehindText text)

theorem halveBytes?_isBeforeText (text : List Char) :
    halveBytes? isBeforeText text = some (halveBeforeText '*' text) :=
  halveBytes?_eq_some (agree_isBeforeText text)

theorem degradeBytes?_eq_some (segment : Segment) :
    degradeBytes? segment = some (degrade segment) := by
  unfold degradeBytes?
  rw [halveBytes?_isBehindText, Option.bind_some, halveBytes?_isBeforeText]
  rfl

/-- Every pattern has its canonical form. -/
theorem canonicalizeBytes?_eq_some (pattern : List Char) :
    canonicalizeBytes? pattern = some (canonicalize pattern) := by
  have hall (parts : List Segment) : parts.mapM degradeBytes? = some (parts.map degrade) := by
    induction parts with
    | nil => rfl
    | cons first rest ih =>
      rw [List.mapM_cons, degradeBytes?_eq_some, ih]
      rfl
  unfold canonicalizeBytes?
  dsimp only
  rw [hall]
  rfl

/-- Both passes over the bytes of a segment copy parts of it, so that they never cut through a
character, and write what the passes over its characters write.  So every pattern has its canonical
form. -/
theorem passes_byte_by_byte :
    (∀ segment : Segment,
      (∀ part ∈ partsOf isBehindText segment, IsPart segment part) ∧
        halveBytes? isBehindText segment = some (halveAfterText '*' segment) ∧
        (∀ part ∈ partsOf isBeforeText (halveAfterText '*' segment),
          IsPart (halveAfterText '*' segment) part) ∧
        halveBytes? isBeforeText (halveAfterText '*' segment) =
          some (halveBeforeText '*' (halveAfterText '*' segment)) ∧
        degradeBytes? segment = some (degrade segment)) ∧
      ∀ pattern, canonicalizeBytes? pattern = some (canonicalize pattern) := by
  constructor
  · intro segment
    refine ⟨?_, halveBytes?_isBehindText segment, ?_,
      halveBytes?_isBeforeText (halveAfterText '*' segment), degradeBytes?_eq_some segment⟩
    · intro part hpart
      exact isPart_of_mem_partsOf (agree_isBehindText segment) hpart
    · intro part hpart
      exact isPart_of_mem_partsOf (agree_isBeforeText (halveAfterText '*' segment)) hpart
  · exact canonicalizeBytes?_eq_some

/-- Stars in front of a character with two bytes, and behind it. -/
theorem passes_byte_by_byte_accented :
    (0, 4) ∈ partsOf isBehindText "**é**".toList ∧ IsPart "**é**".toList (0, 4) ∧
      (2, 5) ∈ partsOf isBeforeText (halveAfterText '*' "**é**".toList) ∧
      IsPart (halveAfterText '*' "**é**".toList) (2, 5) ∧
      degradeBytes? "**é**".toList = some "*é*".toList := by
  rcases passes_byte_by_byte.1 "**é**".toList with ⟨hbehind, -, hbefore, -, hboth⟩
  have hfirst : (0, 4) ∈ partsOf isBehindText "**é**".toList := by decide +kernel
  have hsecond : (2, 5) ∈ partsOf isBeforeText (halveAfterText '*' "**é**".toList) := by
    decide +kernel
  have hdegraded : degrade "**é**".toList = "*é*".toList := by decide +kernel
  rw [hdegraded] at hboth
  exact ⟨hfirst, hbehind (0, 4) hfirst, hsecond, hbefore (2, 5) hsecond, hboth⟩

end Pattern
end AttributeScope
