import AttributeScope.Proofs.SegmentReadings

/-!
# Readings of any text

A translation cuts the canonical text at every `**` followed by a slash and joins the parts again.
This module says what comes out of any text, also of one whose segments hold other runs of stars,
in terms of its symbols.

Main results:

- Theorem `isTextReading_append`: texts are read one after the other if no cut lies across the
  border.
- Theorems `mem_translate_iff_isTextReading` and `forall_mem_translate_iff`: the scope patterns of
  a pattern are the readings of its canonical text.
-/

namespace AttributeScope
namespace Pattern

/-- What is left out or read as a `*` segment. -/
def cutMark : List Char := ['*', '*', '/']

/-- Texts are built from cuts and from symbols at which no cut begins. -/
@[elab_as_elim]
theorem cut_induction {motive : List Char → Prop} (nil : motive [])
    (cut : ∀ rest, motive rest → motive (cutMark ++ rest))
    (keep : ∀ c rest, ¬ cutMark <+: c :: rest → motive rest → motive (c :: rest))
    (text : List Char) : motive text := by
  fun_induction cutRecursive text with
  | case1 rest ih => exact cut rest ih
  | case2 c rest hkept ih =>
    refine keep c rest (fun hprefix => ?_) ih
    rcases hprefix with ⟨others, heq⟩
    rcases List.cons.inj heq with ⟨rfl, rfl⟩
    exact hkept others rfl rfl
  | case3 => exact nil

/-- A text that is read from another one. -/
def IsTextReading (text read : List Char) : Prop :=
  String.ofList read ∈ readings ((cutRecursive text).map String.ofList)

/-! ## Laws of reading -/

section Laws

variable {text read : List Char}

theorem isTextReading_nil : IsTextReading [] read ↔ read = [] := by
  change String.ofList read ∈ [""] ↔ _
  rw [List.mem_singleton, ← String.toList_inj]
  simp

/-- At a cut nothing is written, or a `*` segment. -/
theorem isTextReading_cutMark_append :
    IsTextReading (cutMark ++ text) read ↔
      ∃ tail, IsTextReading text tail ∧ (read = tail ∨ read = '*' :: '/' :: tail) := by
  have hne : (cutRecursive text).map String.ofList ≠ [] := by
    simpa using cutRecursive_ne_nil text
  change String.ofList read ∈ readings ("" :: (cutRecursive text).map String.ofList) ↔ _
  rw [mem_readings_cons hne]
  constructor
  · intro h
    rcases h with ⟨tail, htail, heq⟩
    refine ⟨tail.toList, by rwa [IsTextReading, String.ofList_toList], ?_⟩
    simpa [← String.toList_inj] using heq
  · intro h
    rcases h with ⟨tail, htail, heq⟩
    refine ⟨String.ofList tail, htail, ?_⟩
    simpa [← String.toList_inj] using heq

/-- Any other symbol is kept. -/
theorem isTextReading_cons {c : Char} (hcut : ¬ cutMark <+: c :: text) :
    IsTextReading (c :: text) read ↔ ∃ tail, read = c :: tail ∧ IsTextReading text tail := by
  have hkept : cutRecursive (c :: text) = (cutRecursive text).modifyHead ([c] ++ ·) := by
    apply cutRecursive.eq_2
    intro rest hc htext
    exact hcut ⟨rest, by rw [hc, htext]; rfl⟩
  unfold IsTextReading
  rw [hkept, mem_readings_modifyHead]
  constructor
  · intro h
    rcases h with ⟨tail, htail, heq⟩
    refine ⟨tail.toList, ?_, by rwa [String.ofList_toList]⟩
    simpa [← String.toList_inj] using heq
  · intro h
    rcases h with ⟨tail, rfl, htail⟩
    exact ⟨String.ofList tail, htail, by simp⟩

/-- Every text can be read. -/
theorem exists_isTextReading (text : List Char) : ∃ read, IsTextReading text read := by
  cases hcut : cutRecursive text with
  | nil => exact absurd hcut (cutRecursive_ne_nil text)
  | cons part rest =>
    have hne := readings_ne_nil (String.ofList part) (rest.map String.ofList)
    rcases List.exists_mem_of_ne_nil _ hne with ⟨read, hread⟩
    refine ⟨read.toList, ?_⟩
    rwa [IsTextReading, hcut, String.ofList_toList]

/-- A text without slashes is read as it is. -/
theorem isTextReading_of_slash_notMem (h : '/' ∉ text) : IsTextReading text read ↔ read = text := by
  induction text generalizing read with
  | nil => exact isTextReading_nil
  | cons c rest ih =>
    have hcut : ¬ cutMark <+: c :: rest := by
      intro hfront
      exact h (hfront.subset (by decide))
    rw [List.mem_cons, not_or] at h
    simp [isTextReading_cons hcut, ih h.2]

/-- No cut lies across the border of two texts: the first one does not end with a beginning of the
cut of which the rest stands in front of the second one. -/
def IsBorder (front back : List Char) : Prop :=
  (stars 1 <:+ front → ¬ ['*', '/'] <+: back) ∧ (stars 2 <:+ front → ¬ ['/'] <+: back)

theorem IsBorder.of_append {before front back : List Char} (h : IsBorder (before ++ front) back) :
    IsBorder front back :=
  ⟨fun hone => h.1 (hone.trans (List.suffix_append before front)),
    fun htwo => h.2 (htwo.trans (List.suffix_append before front))⟩

/-- A cut does not begin in front of a border unless it ends there. -/
theorem IsBorder.not_cutMark_prefix {c : Char} {rest back : List Char}
    (h : IsBorder (c :: rest) back) (hcut : ¬ cutMark <+: c :: rest) :
    ¬ cutMark <+: c :: (rest ++ back) := by
  intro hprefix
  rw [cutMark, List.cons_prefix_cons] at hprefix
  rcases hprefix with ⟨rfl, hprefix⟩
  match rest with
  | [] => exact h.1 (by decide) hprefix
  | [d] =>
    rw [List.cons_append, List.cons_prefix_cons] at hprefix
    rcases hprefix with ⟨rfl, hprefix⟩
    exact h.2 (by decide) hprefix
  | d :: e :: others =>
    rw [List.cons_append, List.cons_append, List.cons_prefix_cons, List.cons_prefix_cons] at hprefix
    rcases hprefix with ⟨rfl, rfl, _⟩
    exact hcut ⟨others, rfl⟩

/-- Texts are read one after the other if no cut lies across the border. -/
theorem isTextReading_append {front back : List Char} (hborder : IsBorder front back) :
    IsTextReading (front ++ back) read ↔
      ∃ first second, read = first ++ second ∧ IsTextReading front first ∧
        IsTextReading back second := by
  induction front using cut_induction generalizing read with
  | nil => simp [isTextReading_nil]
  | cut rest ih =>
    have hrest : ∀ tail, IsTextReading (rest ++ back) tail ↔ ∃ first second,
        tail = first ++ second ∧ IsTextReading rest first ∧ IsTextReading back second := fun _ =>
      ih (@IsBorder.of_append cutMark rest back hborder)
    rw [List.append_assoc]
    simp only [isTextReading_cutMark_append, hrest]
    constructor
    · intro h
      rcases h with ⟨_, ⟨first, second, rfl, hfirst, hsecond⟩, rfl | rfl⟩
      · exact ⟨first, second, rfl, ⟨first, hfirst, Or.inl rfl⟩, hsecond⟩
      · exact ⟨'*' :: '/' :: first, second, rfl, ⟨first, hfirst, Or.inr rfl⟩, hsecond⟩
    · intro h
      rcases h with ⟨_, second, rfl, ⟨first, hfirst, rfl | rfl⟩, hsecond⟩
      · exact ⟨_, ⟨_, second, rfl, hfirst, hsecond⟩, Or.inl rfl⟩
      · exact ⟨_, ⟨first, second, rfl, hfirst, hsecond⟩, Or.inr rfl⟩
  | keep c rest hcut ih =>
    have hrest : ∀ tail, IsTextReading (rest ++ back) tail ↔ ∃ first second,
        tail = first ++ second ∧ IsTextReading rest first ∧ IsTextReading back second := fun _ =>
      ih (@IsBorder.of_append [c] rest back hborder)
    rw [List.cons_append, isTextReading_cons (hborder.not_cutMark_prefix hcut)]
    simp only [isTextReading_cons hcut, hrest]
    constructor
    · intro h
      rcases h with ⟨_, rfl, first, second, rfl, hfirst, hsecond⟩
      exact ⟨c :: first, second, rfl, ⟨first, rfl, hfirst⟩, hsecond⟩
    · intro h
      rcases h with ⟨_, second, rfl, ⟨first, rfl, hfirst⟩, hsecond⟩
      exact ⟨_, rfl, first, second, rfl, hfirst, hsecond⟩

end Laws

/-! ## Translations -/

/-- The scope patterns of a pattern are the readings of its canonical text, if that does not have
too many cuts. -/
theorem mem_translate_iff_isTextReading (limit : ExpansionLimit) (pattern text : String) :
    text ∈ translate limit pattern ↔
      recursiveCount (canonicalize pattern.toList) ≤ limit.count ∧
        IsTextReading (canonicalize pattern.toList) text.toList := by
  unfold translate IsTextReading
  simp only
  rw [String.ofList_toList]
  split
  next h => simp [Nat.not_le.mpr h]
  next h => rw [and_iff_right (Nat.not_lt.mp h)]

/-- What holds of all translations holds of all readings, unless there are no translations. -/
theorem forall_mem_translate_iff (limit : ExpansionLimit) (pattern : String)
    (p : List Char → Prop) :
    (∀ text ∈ translate limit pattern, p text.toList) ↔
      translate limit pattern = [] ∨
        ∀ read, IsTextReading (canonicalize pattern.toList) read → p read := by
  rw [translate_eq_nil_iff]
  simp only [mem_translate_iff_isTextReading]
  constructor
  · intro h
    by_cases hcount : limit.count < recursiveCount (canonicalize pattern.toList)
    · exact Or.inl hcount
    · right
      intro read hread
      have hp := h (String.ofList read) ⟨Nat.not_lt.mp hcount, by rwa [String.toList_ofList]⟩
      rwa [String.toList_ofList] at hp
  · intro h text htext
    rcases h with hcount | hall
    · exact absurd htext.1 (Nat.not_le.mpr hcount)
    · exact hall text.toList htext.2

end Pattern
end AttributeScope
