import Mathlib.Data.List.DropRight
import AttributeScope.Proofs.DirectiveLines

/-!
# Ends of lines

An attribute file is cut at its line feeds, and a carriage return in front of one does not count.
So both kinds of line ends are understood, mixed as they may be.  Any other blank at the end of a
line does count: the line then no longer ends with the attribute.

Main results:

- Theorem `mem_ofText_iff`: the directives of a text are those of its lines, with their numbers.
- Theorem `ofText_joined`: how the lines of a text are ended does not matter.
- Theorem `ofChars?_append_blanks`: what becomes of a line with blanks at its end.
- Theorem `ofLine?_append_blanks_eq_iff`: the lines to which blanks may be added.
-/

namespace AttributeScope
namespace Directive

open Text

/-- What ends a line does not change what the line says. -/
theorem ofChars?_append_lineEnd {line ending : List Char} (hline : line.getLast? ≠ some '\r')
    (hending : IsLineEnd ending) : ofChars? (line ++ ending) = ofChars? line := by
  have hkept : withoutSuffix ['\r'] line = line := by
    conv_lhs => rw [← List.append_nil line]
    exact withoutSuffix_append_lineEnd hline (Or.inl rfl)
  unfold ofChars?
  rw [withoutSuffix_append_lineEnd hline hending, hkept]

/-! ## Lines of a text -/

/-- The directives of a text are those of its lines, which are numbered from one. -/
theorem mem_ofText_iff {text : String} {number : Nat} {d : Directive} :
    (number, d) ∈ ofText text ↔
      ∃ index line, number = index + 1 ∧ (text.toList.splitOn '\n')[index]? = some line ∧
        ofChars? line = some d := by
  unfold ofText
  rw [List.mem_filterMap]
  constructor
  · rintro ⟨⟨line, found⟩, hline, hread⟩
    rcases Option.map_eq_some_iff.mp hread with ⟨other, hother, heq⟩
    obtain ⟨rfl, rfl⟩ := Prod.mk.inj heq
    rcases List.mk_mem_zipIdx_iff_le_and_getElem?_sub.mp hline with ⟨hle, hget⟩
    exact ⟨found - 1, line, by omega, hget, hother⟩
  · rintro ⟨index, line, rfl, hget, hread⟩
    refine ⟨(line, index + 1), ?_, ?_⟩
    · exact List.mk_mem_zipIdx_iff_le_and_getElem?_sub.mpr ⟨by omega, hget⟩
    · exact congrArg (Option.map fun d => (index + 1, d)) hread

/-- The directives of a text are listed in the order of its lines. -/
theorem ofText_pairwise_lt (text : String) :
    (ofText text).Pairwise fun first second => first.1 < second.1 := by
  have hnumbers : ((text.toList.splitOn '\n').zipIdx 1).Pairwise
      fun first second => first.2 < second.2 := by
    rw [← List.pairwise_map, List.zipIdx_map_snd]
    exact List.pairwise_lt_range' 1
  unfold ofText
  refine hnumbers.filterMap _ ?_
  rintro ⟨line, number⟩ ⟨line', number'⟩ hlt found hfound found' hfound'
  rcases Option.map_eq_some_iff.mp hfound with ⟨d, -, rfl⟩
  rcases Option.map_eq_some_iff.mp hfound' with ⟨d', -, rfl⟩
  exact hlt

/-- A line of a text, and whether it is ended by a carriage return and a line feed or by a line
feed only.  The last line has no line feed. -/
structure EndedLine where
  content : String
  hasReturn : Bool

namespace EndedLine

/-- What stands between a line and the next line feed. -/
def ending (line : EndedLine) : List Char :=
  if line.hasReturn then ['\r'] else []

theorem isLineEnd_ending (line : EndedLine) : IsLineEnd line.ending := by
  unfold ending
  split
  · exact Or.inr rfl
  · exact Or.inl rfl

/-- A line up to the next line feed. -/
def written (line : EndedLine) : List Char :=
  line.content.toList ++ line.ending

/-- The text of lines. -/
def joined (lines : List EndedLine) : String :=
  String.ofList (['\n'].intercalate (lines.map written))

/-- Whether a line holds none of the characters that end one. -/
structure IsBare (line : EndedLine) : Prop where
  lineFeed_notMem : '\n' ∉ line.content.toList
  return_notMem : '\r' ∉ line.content.toList

theorem lineFeed_notMem_written {line : EndedLine} (h : line.IsBare) : '\n' ∉ line.written := by
  unfold written
  rw [List.mem_append, not_or]
  refine ⟨h.lineFeed_notMem, ?_⟩
  rcases isLineEnd_ending line with hending | hending <;> rw [hending] <;> decide

theorem ofChars?_written {line : EndedLine} (h : line.IsBare) :
    ofChars? line.written = ofLine? line.content := by
  have hlast : line.content.toList.getLast? ≠ some '\r' := fun hlast =>
    h.return_notMem (List.mem_of_getLast? hlast)
  exact ofChars?_append_lineEnd hlast (isLineEnd_ending line)

theorem splitOn_joined {lines : List EndedLine} (hne : lines ≠ [])
    (h : ∀ line ∈ lines, line.IsBare) :
    (joined lines).toList.splitOn '\n' = lines.map written := by
  unfold joined
  rw [String.toList_ofList]
  apply List.splitOn_intercalate
  · exact List.forall_mem_map.mpr fun line hline => lineFeed_notMem_written (h line hline)
  · simpa using hne

end EndedLine

/-- The directives of a text are those of its lines, in order and with their numbers, whichever way
each of the lines is ended. -/
theorem ofText_joined {lines : List EndedLine} (hne : lines ≠ [])
    (h : ∀ line ∈ lines, line.IsBare) :
    ((ofText (EndedLine.joined lines)).Pairwise fun first second => first.1 < second.1) ∧
    ∀ number d, (number, d) ∈ ofText (EndedLine.joined lines) ↔
      ∃ index line, number = index + 1 ∧ lines[index]? = some line ∧
        ofLine? line.content = some d := by
  refine ⟨ofText_pairwise_lt _, ?_⟩
  intro number d
  rw [mem_ofText_iff, EndedLine.splitOn_joined hne h]
  constructor
  · rintro ⟨index, written, rfl, hget, hread⟩
    rw [List.getElem?_map] at hget
    rcases Option.map_eq_some_iff.mp hget with ⟨line, hline, rfl⟩
    rw [EndedLine.ofChars?_written (h line (List.mem_of_getElem? hline))] at hread
    exact ⟨index, line, rfl, hline, hread⟩
  · rintro ⟨index, line, rfl, hline, hread⟩
    refine ⟨index, line.written, rfl, ?_, ?_⟩
    · rw [List.getElem?_map, hline]
      rfl
    · rw [EndedLine.ofChars?_written (h line (List.mem_of_getElem? hline)), hread]

/-- A comment, an empty line and two directives, with either kind of line end and a carriage return
at the very end. -/
theorem ofText_joined_mixed :
    let lines : List EndedLine :=
      [⟨"# generated", true⟩, ⟨"", false⟩, ⟨"dist/** linguist-generated", true⟩,
        ⟨"!dist/keep.js linguist-generated=false", true⟩]
    lines ≠ [] ∧ (∀ line ∈ lines, line.IsBare) ∧
      EndedLine.joined lines =
        "# generated\r\n\ndist/** linguist-generated\r\n!dist/keep.js linguist-generated=false\r" ∧
      (3, ⟨"dist/**", true, false⟩) ∈ ofText (EndedLine.joined lines) ∧
      (4, ⟨"dist/keep.js", false, true⟩) ∈ ofText (EndedLine.joined lines) := by
  intro lines
  have hne : lines ≠ [] := by decide
  have hall : ∀ line ∈ lines, '\n' ∉ line.content.toList ∧ '\r' ∉ line.content.toList := by
    decide +kernel
  have hbare : ∀ line ∈ lines, line.IsBare := fun line hline =>
    ⟨(hall line hline).1, (hall line hline).2⟩
  rcases ofText_joined hne hbare with ⟨-, hlines⟩
  refine ⟨hne, hbare, by decide +kernel, ?_, ?_⟩
  · exact (hlines 3 _).mpr ⟨2, ⟨"dist/** linguist-generated", true⟩, rfl, rfl, by decide +kernel⟩
  · exact (hlines 4 _).mpr
      ⟨3, ⟨"!dist/keep.js linguist-generated=false", true⟩, rfl, rfl, by decide +kernel⟩

/-! ## Blanks at the end of a line -/

/-- The blanks at the end of a text. -/
def blankEnd (text : List Char) : List Char := text.rtakeWhile isBlank

theorem trimEnd_append_blankEnd (text : List Char) : trimEnd text ++ blankEnd text = text :=
  List.rdropWhile_append_rtakeWhile

theorem isBlankRun_blankEnd (text : List Char) : IsBlankRun (blankEnd text) := fun _ hc =>
  List.mem_rtakeWhile_imp hc

/-- A trimmed text does not end with a blank. -/
theorem not_isBlank_of_getLast?_trimEnd {text : List Char} {c : Char}
    (h : (trimEnd text).getLast? = some c) : isBlank c = false := by
  rcases List.getLast?_eq_some_iff.mp h with ⟨front, hfront⟩
  have hne : List.rdropWhile isBlank text ≠ [] := by
    change trimEnd text ≠ []
    rw [hfront]
    exact List.append_ne_nil_of_right_ne_nil front (List.cons_ne_nil c [])
  have hlast := List.rdropWhile_last_not isBlank text hne
  have hc : (List.rdropWhile isBlank text).getLast hne = c := by
    apply Option.some.inj
    rw [← List.getLast?_eq_some_getLast hne]
    exact h
  rw [hc] at hlast
  exact Bool.eq_false_iff.mpr hlast

/-- No word stands at the end of a text that ends with blanks. -/
theorem not_suffix_append_blanks {word blanks : List Char} (hword : IsWord word)
    (hne : blanks ≠ []) (hblanks : IsBlankRun blanks) (text : List Char) :
    ¬ word <:+ text ++ blanks := by
  intro h
  have hlast : (text ++ blanks).getLast? = some (blanks.getLast hne) := by
    rw [List.getLast?_append, List.getLast?_eq_some_getLast hne, Option.some_or]
  have hnot := not_isBlank_of_word_suffix hword h hlast
  rw [hblanks _ (List.getLast_mem hne)] at hnot
  cases hnot

/-- A line with blanks at its end is read as without them if they are what may end a line, and is
not read otherwise. -/
theorem ofChars?_append_blanks {line blanks : List Char}
    (hline : ∀ c, line.getLast? = some c → isBlank c = false) (hblanks : IsBlankRun blanks) :
    ofChars? (line ++ blanks) = if IsLineEnd blanks then ofChars? line else none := by
  by_cases hending : IsLineEnd blanks
  · rw [if_pos hending]
    refine ofChars?_append_lineEnd ?_ hending
    intro hreturn
    exact absurd (hline '\r' hreturn) (by decide)
  · rw [if_neg hending, Option.eq_none_iff_forall_ne_some]
    intro d hread
    -- One carriage return is dropped, and blanks are left behind the attribute.
    rcases exists_eq_withoutSuffix_append ['\r'] blanks with ⟨dropped, hdropped, hblanksEq⟩
    have hleft : withoutSuffix ['\r'] blanks ≠ [] := by
      intro hnil
      rw [hnil, List.nil_append] at hblanksEq
      rw [← hblanksEq] at hdropped
      exact hending (by simpa [IsLineEnd] using hdropped)
    have hrun : IsBlankRun (withoutSuffix ['\r'] blanks) := by
      intro c hc
      apply hblanks c
      rw [hblanksEq]
      exact List.mem_append_left dropped hc
    have hlength : ['\r'].length ≤ blanks.length := by
      apply List.length_pos_iff.mpr
      rintro rfl
      exact hending (Or.inl rfl)
    rcases (ofChars?_eq_some_iff.mp hread).exists_suffix with ⟨value, hvalue, hsuffix⟩
    rw [withoutSuffix_append_of_length_le hlength] at hsuffix
    exact not_suffix_append_blanks (isWord_attribute hvalue) hleft hrun line hsuffix

/-- With blanks behind it, a line is read as it is without any if all the blanks at its end together
are what may end a line, and else it is not read. -/
theorem ofChars?_append_eq_ite (line : List Char) {blanks : List Char}
    (hblanks : IsBlankRun blanks) :
    ofChars? (line ++ blanks) =
      if IsLineEnd (blankEnd line ++ blanks) then ofChars? (trimEnd line) else none := by
  have hrun : IsBlankRun (blankEnd line ++ blanks) := by
    intro c hc
    rcases List.mem_append.mp hc with hc | hc
    · exact isBlankRun_blankEnd line c hc
    · exact hblanks c hc
  have htext : line ++ blanks = trimEnd line ++ (blankEnd line ++ blanks) := by
    rw [← List.append_assoc, trimEnd_append_blankEnd]
  rw [htext]
  exact ofChars?_append_blanks (fun _ => not_isBlank_of_getLast?_trimEnd) hrun

/-- Without the blanks at its end, a line is read in the same way if they are what may end a line,
and else it is not read as it stands. -/
theorem ofChars?_eq_ite_trimEnd (line : List Char) :
    ofChars? line = if IsLineEnd (blankEnd line) then ofChars? (trimEnd line) else none := by
  have hnone : IsBlankRun [] := fun c hc => absurd hc List.not_mem_nil
  have hread := ofChars?_append_eq_ite line hnone
  rwa [List.append_nil, List.append_nil] at hread

/-- The beginning of what may end a line may end a line too. -/
theorem IsLineEnd.of_append {front back : List Char} (h : IsLineEnd (front ++ back)) :
    IsLineEnd front := by
  rcases h with hnil | hreturn
  · exact Or.inl (List.append_eq_nil_iff.mp hnil).1
  · rcases List.append_eq_singleton_iff.mp hreturn with ⟨hfront, -⟩ | ⟨hfront, -⟩
    · exact Or.inl hfront
    · exact Or.inr hfront

/-- A line is read as if it were trimmed if the blanks at its end are none or one carriage return,
and is not read otherwise.  So blanks may be added to a line without a change in what it says if
the line has no directive even when it is trimmed, if it is not read anyway, or if there is no more
than one carriage return at its end then.  In any other case a directive gets lost. -/
theorem ofLine?_append_blanks_eq_iff (line : String) {blanks : String}
    (h : IsBlankRun blanks.toList) :
    let trimmed := String.ofList (trimEnd line.toList)
    let before := blankEnd line.toList
    let after := before ++ blanks.toList
    ofLine? line = (if IsLineEnd before then ofLine? trimmed else none) ∧
    ofLine? (line ++ blanks) = (if IsLineEnd after then ofLine? trimmed else none) ∧
    (ofLine? (line ++ blanks) = ofLine? line ↔
      ofLine? trimmed = none ∨ ¬ IsLineEnd before ∨ IsLineEnd after) := by
  intro trimmed before after
  have htrimmed : ofLine? trimmed = ofChars? (trimEnd line.toList) :=
    congrArg ofChars? String.toList_ofList
  have hbefore : ofLine? line = if IsLineEnd before then ofLine? trimmed else none := by
    rw [htrimmed]
    exact ofChars?_eq_ite_trimEnd line.toList
  have hafter : ofLine? (line ++ blanks) = if IsLineEnd after then ofLine? trimmed else none := by
    unfold ofLine?
    rw [String.toList_append, ofChars?_append_eq_ite line.toList h, String.toList_ofList]
  refine ⟨hbefore, hafter, ?_⟩
  rw [hbefore, hafter]
  by_cases hends : IsLineEnd after
  · rw [if_pos hends, if_pos hends.of_append]
    exact iff_of_true rfl (Or.inr (Or.inr hends))
  · rw [if_neg hends]
    by_cases hended : IsLineEnd before
    · rw [if_pos hended, eq_comm]
      simp [hended, hends]
    · rw [if_neg hended]
      exact iff_of_true rfl (Or.inr (Or.inl hended))

/-- A carriage return may be added to a line that ends with the attribute, and a blank to one that
does not. -/
theorem ofLine?_append_blanks_eq_iff_return :
    IsBlankRun "\r".toList ∧
      ofLine? ("a linguist-generated" ++ "\r") = ofLine? "a linguist-generated" ∧
    IsBlankRun " ".toList ∧ ofLine? ("a binary" ++ " ") = ofLine? "a binary" := by
  have hreturn : IsBlankRun "\r".toList := by decide
  have hspace : IsBlankRun " ".toList := by decide
  refine ⟨hreturn, ?_, hspace, ?_⟩
  · refine (ofLine?_append_blanks_eq_iff "a linguist-generated" hreturn).2.2.mpr ?_
    exact Or.inr (Or.inr (by decide +kernel))
  · refine (ofLine?_append_blanks_eq_iff "a binary" hspace).2.2.mpr ?_
    exact Or.inl (by decide +kernel)

/-- A directive gets lost behind a blank at the end of its line. -/
theorem not_ofLine?_append_blanks_eq_of_space :
    ¬ ∀ line blanks : String, IsBlankRun blanks.toList →
      ofLine? (line ++ blanks) = ofLine? line := by
  intro h
  have hequal := h "a linguist-generated" " " (by decide)
  have hread : ofLine? "a linguist-generated" = some ⟨"a", true, false⟩ := by decide +kernel
  have hlost : ofLine? ("a linguist-generated" ++ " ") = none := by decide +kernel
  rw [hread, hlost] at hequal
  cases hequal

end Directive
end AttributeScope
