import AttributeScope.Text.Affix

/-!
# Blank characters

The characters with the Unicode property `White_Space`, the words of a text that they separate,
and trimming.

Main results:

- `isBlank_of_isWhitespace`: every ASCII blank is blank.
- `isWord_of_mem_words`: no word is empty or holds a blank.
- `words_append_blank`, `words_append_gap_append` and `words_of_not_isBlank`: the words of a text
  that is put together.
-/

namespace AttributeScope
namespace Text

/-- The code points with the property `White_Space`, as inclusive ranges in increasing order. -/
def blankRanges : List (Nat × Nat) :=
  [(0x9, 0xD), (0x20, 0x20), (0x85, 0x85), (0xA0, 0xA0), (0x1680, 0x1680), (0x2000, 0x200A),
    (0x2028, 0x2029), (0x202F, 0x202F), (0x205F, 0x205F), (0x3000, 0x3000)]

/-- A character with the property `White_Space`. -/
def isBlank (c : Char) : Bool :=
  blankRanges.any fun range => range.1 ≤ c.toNat && c.toNat ≤ range.2

/-- The maximal runs of characters that are not blank, in order. -/
def words (text : List Char) : List (List Char) :=
  (text.splitOnP isBlank).filter fun piece => !piece.isEmpty

/-- Drop the blanks at the end of a text. -/
def trimEnd (text : List Char) : List Char :=
  dropEndWhile isBlank text

/-- Blanks and nothing else. -/
def IsBlankRun (run : List Char) : Prop := ∀ c ∈ run, isBlank c = true

instance : DecidablePred IsBlankRun := fun run =>
  decidable_of_iff (run.all isBlank = true) List.all_eq_true

/-- What separates two words: blanks, and at least one of them. -/
structure IsGap (text : List Char) : Prop where
  ne_nil : text ≠ []
  isBlankRun : IsBlankRun text

instance : DecidablePred IsGap := fun text =>
  decidable_of_iff (text ≠ [] ∧ IsBlankRun text) ⟨fun h => ⟨h.1, h.2⟩, fun h => ⟨h.1, h.2⟩⟩

/-- A text that is one word: it is not empty and has no blanks. -/
structure IsWord (text : List Char) : Prop where
  ne_nil : text ≠ []
  not_isBlank : ∀ c ∈ text, isBlank c = false

instance : DecidablePred IsWord := fun text =>
  decidable_of_iff (text ≠ [] ∧ text.all (fun c => !isBlank c) = true)
    ⟨fun h => ⟨h.1, by simpa using h.2⟩, fun h => ⟨h.1, by simpa using h.2⟩⟩

/-- Every character that the core library calls white space is blank. -/
theorem isBlank_of_isWhitespace {c : Char} (h : c.isWhitespace = true) : isBlank c = true := by
  simp only [Char.isWhitespace, Bool.or_eq_true, decide_eq_true_eq] at h
  rcases h with ((h | h) | h) | h <;> subst h <;> decide

/-- There are twenty-five blank characters. -/
example : ((blankRanges.map fun range => range.2 + 1 - range.1).foldl (· + ·) 0) = 25 := by decide

/-- No word is empty. -/
theorem words_ne_nil {text word : List Char} (h : word ∈ words text) : word ≠ [] := by
  have := (List.mem_filter.mp h).2
  simpa using this

/-- No piece of a text holds a blank it was cut at. -/
theorem not_isBlank_of_mem_splitOnP {text piece : List Char} (h : piece ∈ text.splitOnP isBlank)
    {c : Char} (hc : c ∈ piece) : isBlank c = false := by
  induction text generalizing piece with
  | nil => simp_all
  | cons d rest ih =>
    rw [List.splitOnP_cons_eq_if_modifyHead] at h
    split at h
    · rcases List.mem_cons.mp h with rfl | h
      · simp at hc
      · exact ih h hc
    · rename_i hd
      cases hp : rest.splitOnP isBlank with
      | nil => exact absurd hp (List.splitOnP_ne_nil isBlank rest)
      | cons first others =>
        rw [hp, List.modifyHead_cons] at h
        rcases List.mem_cons.mp h with rfl | h
        · rcases List.mem_cons.mp hc with rfl | hc
          · simpa using hd
          · exact ih (by simp [hp]) hc
        · exact ih (by simp [hp, h]) hc

/-- No word holds a blank. -/
theorem not_isBlank_of_mem_words {text word : List Char} (h : word ∈ words text) {c : Char}
    (hc : c ∈ word) : isBlank c = false :=
  not_isBlank_of_mem_splitOnP (List.mem_filter.mp h).1 hc

/-- A text that ends with a word does not end with a blank. -/
theorem not_isBlank_of_word_suffix {word text : List Char} (hword : IsWord word)
    (h : word <:+ text) {c : Char} (hc : text.getLast? = some c) : isBlank c = false := by
  rcases h with ⟨front, rfl⟩
  rw [List.getLast?_append, List.getLast?_eq_some_getLast hword.ne_nil, Option.some_or] at hc
  obtain rfl := Option.some.inj hc
  exact hword.not_isBlank _ (List.getLast_mem hword.ne_nil)

/-- What `words` finds are words. -/
theorem isWord_of_mem_words {text word : List Char} (h : word ∈ words text) : IsWord word where
  ne_nil := words_ne_nil h
  not_isBlank := fun _ hc => not_isBlank_of_mem_words h hc

/-- The words of a text with a blank in it are those before and those behind the blank. -/
theorem words_append_blank {blank : Char} (h : isBlank blank = true) (front back : List Char) :
    words (front ++ blank :: back) = words front ++ words back := by
  unfold words
  rw [List.splitOnP_append_cons front back h, List.filter_append]

/-- Blanks in front of a text do not matter. -/
theorem words_blanks_append {run : List Char} (h : IsBlankRun run) (text : List Char) :
    words (run ++ text) = words text := by
  induction run with
  | nil => rfl
  | cons blank rest ih =>
    have hblank : isBlank blank = true := h blank List.mem_cons_self
    have hrest : IsBlankRun rest := fun c hc => h c (List.mem_cons_of_mem blank hc)
    calc
      words (blank :: (rest ++ text)) = words [] ++ words (rest ++ text) :=
        words_append_blank hblank [] _
      _ = words text := ih hrest

/-- The words of a text with a gap in it are those before and those behind the gap. -/
theorem words_append_gap_append {gap : List Char} (h : IsGap gap) (front back : List Char) :
    words (front ++ (gap ++ back)) = words front ++ words back := by
  cases gap with
  | nil => exact absurd rfl h.ne_nil
  | cons blank rest =>
    have hblank : isBlank blank = true := h.isBlankRun blank List.mem_cons_self
    have hrest : IsBlankRun rest := fun c hc => h.isBlankRun c (List.mem_cons_of_mem blank hc)
    rw [List.cons_append, words_append_blank hblank, words_blanks_append hrest]

/-- A text without blanks is one word. -/
theorem words_of_not_isBlank {word : List Char} (hne : word ≠ [])
    (h : ∀ c ∈ word, isBlank c = false) : words word = [word] := by
  unfold words
  rw [List.splitOnP_eq_singleton h]
  simp [hne]

end Text
end AttributeScope
