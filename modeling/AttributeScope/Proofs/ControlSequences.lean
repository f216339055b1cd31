import Mathlib.Data.List.TakeWhile
import AttributeScope.Terminal.Style
import AttributeScope.Text.Affix

/-!
# Control sequences

A terminal reads characters and control sequences.  Colored output has the characters of uncolored
output, and control sequences between them that are undone before the end of a line.

Main results:

- Theorem `sequence?_eq_some_iff`: what a control sequence is.
- Theorem `symbols_append_newline`: a text is read line by line.
- Theorem `withoutSequences_render`: without its control sequences, colored output is uncolored.
- Theorem `isResetAtLineEnds_render`: no style reaches over the end of a line.
-/

namespace AttributeScope
namespace Terminal

/-! ## Control sequences -/

/-- The character that every control sequence begins with. -/
def escape : Char := '\x1b'

/-- Whether a text can be the parameter of a control sequence: one digit or more. -/
def IsParameter (text : List Char) : Prop := text ≠ [] ∧ ∀ c ∈ text, c.isDigit

instance (text : List Char) : Decidable (IsParameter text) :=
  decidable_of_iff (text ≠ [] ∧ text.all Char.isDigit) (and_congr_right fun _ => List.all_eq_true)

/-- The parameter of the control sequence that a text begins with, and what follows the sequence. -/
def sequence? : List Char → Option (List Char × List Char)
  | '\x1b' :: '[' :: text =>
    match text.takeWhile Char.isDigit, text.dropWhile Char.isDigit with
    | first :: digits, 'm' :: rest => some (first :: digits, rest)
    | _, _ => none
  | _ => none

/-- A control sequence is a parameter between an escape with a bracket and an `m`. -/
theorem sequence?_eq_some_iff {text parameter rest : List Char} :
    sequence? text = some (parameter, rest) ↔
      IsParameter parameter ∧ text = escape :: '[' :: (parameter ++ 'm' :: rest) := by
  constructor
  · intro h
    unfold sequence? at h
    split at h
    next behind =>
      split at h
      next first digits others hdigits hothers =>
        cases h
        refine ⟨⟨List.cons_ne_nil first digits, ?_⟩, ?_⟩
        · intro c hc
          rw [← hdigits] at hc
          exact List.mem_takeWhile_imp hc
        · rw [← hdigits, ← hothers, List.takeWhile_append_dropWhile]
          rfl
      next => cases h
    next => cases h
  · rintro ⟨⟨hne, hdigits⟩, rfl⟩
    have htake : (parameter ++ 'm' :: rest).takeWhile Char.isDigit = parameter := by
      rw [List.takeWhile_append_of_pos hdigits]
      simp
    have hdrop : (parameter ++ 'm' :: rest).dropWhile Char.isDigit = 'm' :: rest := by
      rw [List.dropWhile_append_of_pos hdigits]
      simp
    rcases List.exists_cons_of_ne_nil hne with ⟨first, digits, rfl⟩
    unfold escape sequence?
    simp only [htake, hdrop]

theorem length_lt_of_sequence? {text parameter rest : List Char}
    (h : sequence? text = some (parameter, rest)) : rest.length < text.length := by
  rw [(sequence?_eq_some_iff.mp h).2]
  simp
  omega

/-- What a terminal reads at once. -/
inductive Symbol where
  /-- A character that is shown. -/
  | shown (c : Char)
  /-- A control sequence with a parameter. -/
  | control (parameter : String)
deriving DecidableEq, Repr

namespace Symbol

/-- The character that is shown, if one is. -/
def char? : Symbol → Option Char
  | shown c => some c
  | control _ => none

/-- The parameter of a control sequence. -/
def parameter? : Symbol → Option String
  | shown _ => none
  | control parameter => some parameter

end Symbol

/-- What a terminal reads of a text, from left to right. -/
def symbols : List Char → List Symbol
  | [] => []
  | c :: text =>
    match h : sequence? (c :: text) with
    | some (parameter, rest) =>
      have := length_lt_of_sequence? h
      .control (String.ofList parameter) :: symbols rest
    | none => .shown c :: symbols text
termination_by text => text.length
decreasing_by
  · exact this
  · exact Nat.lt_succ_self text.length

/-- A text without its control sequences. -/
def withoutSequences (text : String) : String :=
  String.ofList ((symbols text.toList).filterMap Symbol.char?)

/-- The parameter of the last control sequence. -/
def lastControl? (symbols : List Symbol) : Option String :=
  (symbols.filterMap Symbol.parameter?).getLast?

/-- Whether no style is left on at the end of a line: the last control sequence before it, if there
is one, is the reset. -/
def IsResetAtLineEnds (text : String) : Prop :=
  ∀ before after, text.toList = before ++ '\n' :: after →
    ∀ parameter, lastControl? (symbols before) = some parameter → sequence parameter = reset

theorem symbols_of_sequence? {text parameter rest : List Char}
    (h : sequence? text = some (parameter, rest)) :
    symbols text = .control (String.ofList parameter) :: symbols rest := by
  cases text with
  | nil => cases h
  | cons c text =>
    rw [symbols]
    split
    next heq =>
      rw [h] at heq
      cases heq
      rfl
    next heq => rw [h] at heq; cases heq

theorem symbols_cons_of_none {c : Char} {text : List Char} (h : sequence? (c :: text) = none) :
    symbols (c :: text) = .shown c :: symbols text := by
  rw [symbols]
  split
  next heq => rw [h] at heq; cases heq
  next => rfl

theorem sequence?_of_ne {c : Char} (h : c ≠ escape) (text : List Char) :
    sequence? (c :: text) = none := by
  rw [Option.eq_none_iff_forall_not_mem]
  rintro ⟨parameter, rest⟩ hsome
  exact h (List.cons.inj (sequence?_eq_some_iff.mp hsome).2).1

/-- A text without the escape character is read character by character. -/
theorem symbols_append_of_notMem {text : List Char} (h : escape ∉ text) (rest : List Char) :
    symbols (text ++ rest) = text.map Symbol.shown ++ symbols rest := by
  induction text with
  | nil => rfl
  | cons c text ih =>
    rw [List.mem_cons, not_or] at h
    rw [List.cons_append, symbols_cons_of_none (sequence?_of_ne (Ne.symm h.1) _), ih h.2]
    rfl

/-- A control sequence is read as one symbol. -/
theorem symbols_sequence_append {parameter : String} (h : IsParameter parameter.toList)
    (rest : List Char) :
    symbols ((sequence parameter).toList ++ rest) = .control parameter :: symbols rest := by
  have htext : (sequence parameter).toList ++ rest =
      escape :: '[' :: (parameter.toList ++ 'm' :: rest) := by
    simp [sequence, escape]
  rw [htext, symbols_of_sequence? (sequence?_eq_some_iff.mpr ⟨h, rfl⟩), String.ofList_toList]

/-- No control sequence reaches over the end of a line. -/
theorem sequence?_append_newline (before after : List Char) :
    sequence? (before ++ '\n' :: after) =
      (sequence? before).map fun (parameter, rest) => (parameter, rest ++ '\n' :: after) := by
  cases hbefore : sequence? before with
  | some found =>
    rcases found with ⟨parameter, rest⟩
    rcases sequence?_eq_some_iff.mp hbefore with ⟨hparameter, rfl⟩
    rw [Option.map_some]
    exact sequence?_eq_some_iff.mpr ⟨hparameter, by simp⟩
  | none =>
    rw [Option.map_none, Option.eq_none_iff_forall_not_mem]
    rintro ⟨parameter, rest⟩ hsome
    rcases sequence?_eq_some_iff.mp hsome with ⟨hparameter, htext⟩
    have hnewline : '\n' ∉ escape :: '[' :: (parameter ++ ['m']) := by
      have hdigits : '\n' ∉ parameter := fun hmem => absurd (hparameter.2 _ hmem) (by decide)
      simpa [escape] using hdigits
    have hprefix : escape :: '[' :: (parameter ++ ['m']) <+: before ++ '\n' :: after :=
      ⟨rest, by rw [htext]; simp⟩
    rcases Text.prefix_of_not_mem hnewline hprefix with ⟨more, rfl⟩
    have hfound : sequence? (escape :: '[' :: (parameter ++ ['m']) ++ more) =
        some (parameter, more) :=
      sequence?_eq_some_iff.mpr ⟨hparameter, by simp⟩
    rw [hfound] at hbefore
    cases hbefore

/-- A text is read line by line. -/
theorem symbols_append_newline (before after : List Char) :
    symbols (before ++ '\n' :: after) = symbols before ++ .shown '\n' :: symbols after := by
  fun_induction symbols before with
  | case1 => exact symbols_cons_of_none (sequence?_of_ne (by decide) after)
  | case2 c text parameter rest h _ ih =>
    have hsequence := sequence?_append_newline (c :: text) after
    rw [h, Option.map_some] at hsequence
    rw [symbols_of_sequence? hsequence, ih]
    rfl
  | case3 c text h ih =>
    have hsequence := sequence?_append_newline (c :: text) after
    rw [h, Option.map_none] at hsequence
    rw [List.cons_append] at hsequence ⊢
    rw [symbols_cons_of_none hsequence, ih]
    rfl

/-! ## Pieces -/

namespace Piece

/-- Whether the text of a piece does not have the escape character. -/
def IsUnescaped (piece : Piece) : Prop := escape ∉ piece.text.toList

/-- Whether a piece does not style the end of a line. -/
def IsStyledInLine : Piece → Prop
  | plain _ => True
  | styled _ text => '\n' ∉ text.toList

theorem isUnescaped_plain {text : String} : (plain text).IsUnescaped ↔ escape ∉ text.toList :=
  Iff.rfl

theorem isUnescaped_styled {style : Style} {text : String} :
    (styled style text).IsUnescaped ↔ escape ∉ text.toList :=
  Iff.rfl

theorem isStyledInLine_plain (text : String) : (plain text).IsStyledInLine := trivial

theorem isStyledInLine_styled {style : Style} {text : String} :
    (styled style text).IsStyledInLine ↔ '\n' ∉ text.toList :=
  Iff.rfl

/-- What a terminal reads of a piece that is colored. -/
def symbols : Piece → List Symbol
  | plain text => text.toList.map .shown
  | styled style text =>
    .control "0" :: style.parameters.map .control ++ text.toList.map .shown ++ [.control "0"]

end Piece

theorem isParameter_of_mem_parameters {style : Style} :
    ∀ parameter ∈ style.parameters, IsParameter parameter.toList := by
  cases style <;> decide

/-- The sequences that switch a style on are read one after the other. -/
theorem symbols_sequences_append {parameters : List String}
    (h : ∀ parameter ∈ parameters, IsParameter parameter.toList) (rest : List Char) :
    symbols ((String.join (parameters.map sequence)).toList ++ rest) =
      parameters.map .control ++ symbols rest := by
  induction parameters with
  | nil => rfl
  | cons first others ih =>
    rw [List.forall_mem_cons] at h
    rw [List.map_cons, String.join_cons, String.toList_append, List.append_assoc,
      symbols_sequence_append h.1, ih h.2]
    rfl

/-- A piece without the escape character is read apart from what follows it. -/
theorem symbols_render_append {piece : Piece} (h : piece.IsUnescaped) (rest : List Char) :
    symbols ((piece.render true).toList ++ rest) = piece.symbols ++ symbols rest := by
  have hreset : IsParameter "0".toList := by decide
  cases piece with
  | plain text => exact symbols_append_of_notMem h rest
  | styled style text =>
    have htext : escape ∉ text.toList := h
    have hrender : (Piece.styled style text).render true =
        sequence "0" ++ String.join (style.parameters.map sequence) ++ text ++ sequence "0" := rfl
    rw [hrender]
    simp only [String.toList_append, List.append_assoc]
    rw [symbols_sequence_append hreset, symbols_sequences_append isParameter_of_mem_parameters,
      symbols_append_of_notMem htext, symbols_sequence_append hreset]
    simp [Piece.symbols]

theorem filterMap_char?_shown (text : List Char) :
    (text.map Symbol.shown).filterMap Symbol.char? = text := by
  rw [List.filterMap_map]
  exact List.filterMap_some

theorem filterMap_char?_control (parameters : List String) :
    (parameters.map Symbol.control).filterMap Symbol.char? = [] := by
  rw [List.filterMap_map, List.filterMap_eq_nil_iff]
  exact fun _ _ => rfl

theorem filterMap_parameter?_shown (text : List Char) :
    (text.map Symbol.shown).filterMap Symbol.parameter? = [] := by
  rw [List.filterMap_map, List.filterMap_eq_nil_iff]
  exact fun _ _ => rfl

section Pieces

variable {pieces : List Piece}

/-- What a terminal reads of colored output. -/
theorem symbols_render (h : ∀ piece ∈ pieces, piece.IsUnescaped) :
    symbols (render true pieces).toList = pieces.flatMap Piece.symbols := by
  induction pieces with
  | nil => exact symbols.eq_1
  | cons piece rest ih =>
    rw [List.forall_mem_cons] at h
    have hcons : render true (piece :: rest) = piece.render true ++ render true rest := by
      simp [render]
    rw [hcons, String.toList_append, symbols_render_append h.1, ih h.2, List.flatMap_cons]

/-- The characters of a piece are those of its text. -/
theorem filterMap_char?_symbols (piece : Piece) :
    piece.symbols.filterMap Symbol.char? = piece.text.toList := by
  cases piece with
  | plain text => exact filterMap_char?_shown text.toList
  | styled style text =>
    unfold Piece.symbols
    rw [List.filterMap_append, List.filterMap_append, List.filterMap_cons_none rfl,
      filterMap_char?_control, filterMap_char?_shown, List.nil_append]
    exact List.append_nil text.toList

/-- Without its control sequences, colored output is uncolored. -/
theorem withoutSequences_render (h : ∀ piece ∈ pieces, piece.IsUnescaped) :
    withoutSequences (render true pieces) = render false pieces := by
  have hchars : (pieces.flatMap Piece.symbols).filterMap Symbol.char? =
      pieces.flatMap fun piece => piece.text.toList := by
    rw [List.filterMap_flatMap]
    simp only [filterMap_char?_symbols]
  unfold withoutSequences
  rw [symbols_render h, hchars, render_false, ← String.toList_inj, String.toList_ofList,
    String.toList_join, List.flatMap_map]

/-! ## Ends of lines -/

/-- Whether no style is left on after what a terminal has read. -/
def IsSettled (symbols : List Symbol) : Prop :=
  ∀ parameter, lastControl? symbols = some parameter → sequence parameter = reset

theorem IsSettled.append {front back : List Symbol} (hfront : IsSettled front)
    (hback : IsSettled back) : IsSettled (front ++ back) := by
  intro parameter h
  unfold lastControl? at h
  rw [List.filterMap_append, List.getLast?_append] at h
  rcases Option.or_eq_some_iff.mp h with h | ⟨-, h⟩
  · exact hback parameter h
  · exact hfront parameter h

theorem isSettled_shown (text : List Char) : IsSettled (text.map Symbol.shown) := by
  intro parameter h
  unfold lastControl? at h
  rw [filterMap_parameter?_shown] at h
  cases h

theorem isSettled_symbols (piece : Piece) : IsSettled piece.symbols := by
  cases piece with
  | plain text => exact isSettled_shown text.toList
  | styled style text =>
    intro parameter h
    unfold lastControl? Piece.symbols at h
    rw [List.filterMap_append, List.getLast?_append] at h
    cases h
    rfl

/-- Before a line break in a piece no style is on, if none is on at the break. -/
theorem isSettled_of_symbols_eq {piece : Piece} (hline : piece.IsStyledInLine)
    {before after : List Symbol} (h : piece.symbols = before ++ .shown '\n' :: after) :
    IsSettled before := by
  cases piece with
  | plain text =>
    rcases List.map_eq_append_iff.mp h with ⟨front, back, -, rfl, -⟩
    exact isSettled_shown front
  | styled style text =>
    have hmem : Symbol.shown '\n' ∈ (Piece.styled style text).symbols := by
      rw [h]
      exact List.mem_append_right before List.mem_cons_self
    have hnewline : '\n' ∈ text.toList := by simpa [Piece.symbols] using hmem
    exact absurd hnewline hline

/-- Before a line break in colored output no style is on, if none is on at the break. -/
theorem isSettled_of_flatMap_eq (hlines : ∀ piece ∈ pieces, piece.IsStyledInLine)
    {before after : List Symbol}
    (h : pieces.flatMap Piece.symbols = before ++ .shown '\n' :: after) : IsSettled before := by
  induction pieces generalizing before with
  | nil => exact absurd h (by simp)
  | cons piece rest ih =>
    rw [List.forall_mem_cons] at hlines
    rw [List.flatMap_cons] at h
    rcases List.append_eq_append_iff.mp h with ⟨more, rfl, hmore⟩ | ⟨more, hmore, hback⟩
    · exact (isSettled_symbols piece).append (ih hlines.2 hmore)
    · rcases List.cons_eq_append_iff.mp hback with ⟨rfl, -⟩ | ⟨others, rfl, -⟩
      · rw [List.append_nil] at hmore
        exact hmore ▸ isSettled_symbols piece
      · exact isSettled_of_symbols_eq hlines.1 hmore

/-- No style reaches over the end of a line, if no styled text does. -/
theorem isResetAtLineEnds_render (h : ∀ piece ∈ pieces, piece.IsUnescaped)
    (hlines : ∀ piece ∈ pieces, piece.IsStyledInLine) :
    IsResetAtLineEnds (render true pieces) := by
  intro before after htext
  have hsymbols := symbols_render h
  rw [htext, symbols_append_newline] at hsymbols
  exact isSettled_of_flatMap_eq hlines hsymbols.symm

end Pieces

end Terminal
end AttributeScope
