import AttributeScope.FileTree.Reader
import AttributeScope.Proofs.LineEnds
import AttributeScope.Proofs.LossyDecoding
import AttributeScope.Text.ByteLines

/-!
# The lines of a file that is no UTF-8

No character but the line feed has the byte of a line feed, so bytes are decoded line by line: what
is no UTF-8 in one line changes nothing in the others.

Main results:

- Theorem `Decodes.append_lineFeed`: the bytes on both sides of a line feed are decoded apart.
- Theorem `splitOn_decodeChars`: the lines of decoded bytes are the decoded lines of the bytes.
- Theorem `mem_ofText_decode_iff`: a line that is UTF-8 has its own directive, whatever the others
  hold.
- Theorem `readText_line_by_line`: how files are read.
-/

namespace AttributeScope
namespace Text
namespace Utf8

/-! ## Line feeds -/

theorem utf8EncodeChar_lineFeed : String.utf8EncodeChar '\n' = [lineFeed] := by rfl

/-- A line feed continues no character. -/
theorem not_isBeginning_append_lineFeed {bytes : List UInt8} (hne : bytes ≠ []) :
    ¬ IsBeginning (bytes ++ [lineFeed]) := by
  rintro ⟨c, tail, hc⟩
  rcases List.exists_cons_of_ne_nil hne with ⟨first, others, rfl⟩
  rw [utf8EncodeChar_eq, List.cons_append, List.cons_append, List.cons.injEq] at hc
  have hmem : lineFeed ∈ continuation (continuationCount c.val.toNat) c.val.toNat := by
    rw [← hc.2]
    simp
  exact absurd (le_of_mem_continuation hmem) (by decide)

theorem IsBroken.append_lineFeed {bytes rest : List UInt8} (h : IsBroken bytes rest)
    (others : List UInt8) : IsBroken bytes (rest ++ lineFeed :: others) where
  ne_nil := h.ne_nil
  incomplete := h.incomplete
  begins := h.begins
  maximal := by
    intro b hb
    cases rest with
    | nil =>
      obtain rfl : lineFeed = b := by simpa using hb
      exact not_isBeginning_append_lineFeed h.ne_nil
    | cons next _ => exact h.maximal b (by simpa using hb)

/-- The bytes on both sides of a line feed are decoded apart. -/
theorem Decodes.append_lineFeed {front back : List UInt8} {text text' : List Char}
    {lossy lossy' : Bool} (h : Decodes front text lossy) (h' : Decodes back text' lossy') :
    Decodes (front ++ lineFeed :: back) (text ++ '\n' :: text') (lossy || lossy') := by
  induction h with
  | nil =>
    have hline := Decodes.char '\n' h'
    rwa [utf8EncodeChar_lineFeed] at hline
  | char c _ ih =>
    rw [List.append_assoc]
    exact .char c ih
  | broken hbroken _ ih =>
    rw [List.append_assoc, Bool.true_or]
    exact .broken (hbroken.append_lineFeed back) ih

/-- Only a line feed is decoded to a line feed. -/
theorem Decodes.lineFeed_mem {bytes : List UInt8} {text : List Char} {lossy : Bool}
    (h : Decodes bytes text lossy) (hmem : '\n' ∈ text) : lineFeed ∈ bytes := by
  have hpart := h.infix_of_mem hmem (by decide)
  rw [utf8EncodeChar_lineFeed] at hpart
  exact hpart.subset List.mem_cons_self

/-- The characters that bytes are decoded to. -/
def decodeChars (bytes : List UInt8) : List Char := (decode bytes.toArray).text.toList

theorem Decodes.decodeChars_eq {bytes : List UInt8} {text : List Char} {lossy : Bool}
    (h : Decodes bytes text lossy) : decodeChars bytes = text := by
  have hdecodes : Decodes bytes.toArray.toList text lossy := h
  exact hdecodes.decode_eq.1

theorem decodes_decodeChars (bytes : List UInt8) :
    ∃ lossy, Decodes bytes (decodeChars bytes) lossy :=
  ⟨_, decodes_decode bytes.toArray⟩

theorem decodeChars_append_lineFeed (front back : List UInt8) :
    decodeChars (front ++ lineFeed :: back) = decodeChars front ++ '\n' :: decodeChars back := by
  rcases decodes_decodeChars front with ⟨_, hfront⟩
  rcases decodes_decodeChars back with ⟨_, hback⟩
  exact (hfront.append_lineFeed hback).decodeChars_eq

/-- The lines of decoded bytes are the decoded lines of the bytes. -/
theorem splitOn_decodeChars (bytes : List UInt8) :
    (decodeChars bytes).splitOn '\n' = (bytes.splitOn lineFeed).map decodeChars := by
  induction hlength : bytes.length using Nat.strong_induction_on generalizing bytes with
  | _ length ih =>
    by_cases hmem : lineFeed ∈ bytes
    · rcases List.append_of_mem hmem with ⟨front, back, rfl⟩
      rw [List.length_append, List.length_cons] at hlength
      rw [decodeChars_append_lineFeed, List.splitOn_append_cons_self,
        List.splitOn_append_cons_self, List.map_append, ih _ (by omega) front rfl,
        ih _ (by omega) back rfl]
    · rcases decodes_decodeChars bytes with ⟨_, h⟩
      have htext : '\n' ∉ decodeChars bytes := fun htext => hmem (h.lineFeed_mem htext)
      rw [List.splitOn_eq_singleton htext, List.splitOn_eq_singleton hmem]
      rfl

end Utf8
end Text

open Text (lineFeed)
open Text.Utf8 (Decodes decode decodeChars decodeStrict? decodeStrict?_eq_some_iff decodes_decode
  decodes_encode encode)

/-! ## Directives -/

/-- A line that is UTF-8 has its own directive under its own number, whatever the others hold. -/
theorem Directive.mem_ofText_decode_iff {bytes : Array UInt8} {index : Nat} {line : String}
    (hline : (bytes.toList.splitOn lineFeed)[index]? = some (encode line.toList)) (d : Directive) :
    (index + 1, d) ∈ Directive.ofText (decode bytes).text ↔ Directive.ofLine? line = some d := by
  have hdecoded : ((decode bytes).text.toList.splitOn '\n')[index]? = some line.toList := by
    have hlines := Text.Utf8.splitOn_decodeChars bytes.toList
    unfold decodeChars at hlines
    rw [hlines, List.getElem?_map, hline]
    exact congrArg some (decodes_encode line.toList).decodeChars_eq
  rw [Directive.mem_ofText_iff]
  unfold Directive.ofLine?
  constructor
  · rintro ⟨found, text, hnumber, hfound, hread⟩
    obtain rfl : index = found := Nat.succ.inj hnumber
    obtain rfl := Option.some.inj (hdecoded.symm.trans hfound)
    exact hread
  · intro hread
    exact ⟨index, line.toList, rfl, hdecoded, hread⟩

/-! ## Files -/

namespace FileSystem

/-- A path leads to a file with some bytes. -/
def Holds (fs : FileSystem) (path : RawText) (bytes : Array UInt8) : Prop :=
  fs.find path = .ok (.file (.bytes bytes))

/-- Bytes that are UTF-8 are read as what they are decoded to like any others. -/
theorem decode_eq_of_decodeStrict? {bytes : Array UInt8} {text : String}
    (h : decodeStrict? bytes = some text) : (decode bytes).text = text := by
  have hvalid : Decodes bytes.toList text.toList false :=
    decodeStrict?_eq_some_iff.mp h ▸ decodes_encode text.toList
  exact String.toList_injective hvalid.decode_eq.1

/-- A file within the limit is read as what its bytes are decoded to. -/
theorem Holds.readText_eq {fs : FileSystem} {path : RawText} {bytes : Array UInt8}
    (h : fs.Holds path bytes) {limit : Nat} (hsize : bytes.size ≤ limit) :
    fs.readText limit path = .ok (decode bytes).text := by
  have hwithin : ¬ limit < nodeSize (.file (.bytes bytes)) := Nat.not_lt.mpr hsize
  unfold Holds at h
  unfold readText readWithin findWithin
  rw [h]
  simp only [if_neg hwithin, Except.bind, Except.map, Except.ok.injEq]
  cases hstrict : decodeStrict? bytes with
  | none => rfl
  | some text => exact (decode_eq_of_decodeStrict? hstrict).symm

/-- A file is read line by line.  The bytes on both sides of a line feed are read as if each side
were a file of its own.  A file is always read as what its bytes are decoded to, and the directive
of a line that is UTF-8, with its number, is the one that this line says by itself. -/
theorem readText_line_by_line (limit : Nat) :
    (∀ {whole first second : FileSystem} {path firstPath secondPath : RawText}
        {front back : Array UInt8}, whole.Holds path (front ++ #[lineFeed] ++ back) →
      first.Holds firstPath front → second.Holds secondPath back →
      (front ++ #[lineFeed] ++ back).size ≤ limit →
        ∃ text text', first.readText limit firstPath = .ok text ∧
          second.readText limit secondPath = .ok text' ∧
          whole.readText limit path = .ok (text ++ "\n" ++ text')) ∧
    ∀ {fs : FileSystem} {path : RawText} {bytes : Array UInt8}, fs.Holds path bytes →
      bytes.size ≤ limit →
        ∃ text, fs.readText limit path = .ok text ∧
          (∃ lossy, Decodes bytes.toList text.toList lossy) ∧
          ∀ (index : Nat) (line : String),
            (bytes.toList.splitOn lineFeed)[index]? = some (encode line.toList) →
              ∀ d, (index + 1, d) ∈ Directive.ofText text ↔ Directive.ofLine? line = some d := by
  constructor
  · intro whole first second path firstPath secondPath front back hwhole hfirst hsecond hsize
    have hsizes : front.size ≤ limit ∧ back.size ≤ limit := by
      simp only [Array.size_append] at hsize
      omega
    refine ⟨_, _, hfirst.readText_eq hsizes.1, hsecond.readText_eq hsizes.2, ?_⟩
    rw [hwhole.readText_eq hsize, Except.ok.injEq]
    apply String.toList_injective
    have hline := (decodes_decode front).append_lineFeed (decodes_decode back)
    have hbytes : (front ++ #[lineFeed] ++ back).toList =
        front.toList ++ lineFeed :: back.toList := by
      simp
    rw [← hbytes] at hline
    rw [hline.decode_eq.1]
    simp
  · intro fs path bytes hholds hsize
    refine ⟨_, hholds.readText_eq hsize, ⟨_, decodes_decode bytes⟩, ?_⟩
    intro index line hline d
    exact Directive.mem_ofText_decode_iff hline d

/-- A file system with one file. -/
def holding (bytes : Array UInt8) : FileSystem :=
  { top := .directory [("f", .file bytes)] }

theorem holding_holds (bytes : Array UInt8) : (holding bytes).Holds "/f" bytes := by rfl

/-- A letter and two of the three bytes of a character. -/
def cutShort : Array UInt8 := #[0x61, 0xE2, 0x82]

/-- A character that breaks off in front of a line feed swallows nothing of the next line. -/
theorem readText_line_by_line_cut_short :
    let next := "b linguist-generated".toUTF8.data
    let whole := cutShort ++ #[lineFeed] ++ next
    (∃ text text', (holding cutShort).readText 24 "/f" = .ok text ∧
        (holding next).readText 24 "/f" = .ok text' ∧
        (holding whole).readText 24 "/f" = .ok (text ++ "\n" ++ text')) ∧
      ∃ text, (holding whole).readText 24 "/f" = .ok text ∧
        (2, ⟨"b", true, false⟩) ∈ Directive.ofText text := by
  intro next whole
  have hsize : whole.size ≤ 24 := by decide +kernel
  refine ⟨(readText_line_by_line 24).1 (holding_holds _) (holding_holds _) (holding_holds _) hsize,
    ?_⟩
  rcases (readText_line_by_line 24).2 (holding_holds whole) hsize with ⟨text, hread, -, hlines⟩
  have hline : (whole.toList.splitOn lineFeed)[1]? =
      some (encode "b linguist-generated".toList) := by decide +kernel
  exact ⟨text, hread, (hlines 1 _ hline _).mpr (by decide +kernel)⟩

end FileSystem
end AttributeScope
