/-!
# Ends of a text

Dropping what a text begins or ends with, and the parts of a text around its last separator.
Texts are lists of characters.

Main results:

- `withoutSuffix_append`: a suffix that is there is dropped.
- `withoutSuffix_of_not_suffix`: any other text is kept.
- `suffix_append_iff`: what a text ends with shows in as many of its last symbols.
- `beforeLast?_append`: a text is found again before the last separator.
- `prefix_of_beforeLast?`: what stands before the last separator is the beginning of the text.
- `infix_or_infix_of_not_mem`: what lacks a symbol of a text stands on one side of it.
- `not_mem_of_mem_splitOn`: no piece of a text holds the separator it was cut at.
-/

namespace AttributeScope
namespace Text

/-- Drop a suffix once, if the text ends with it. -/
def withoutSuffix (suffix text : List Char) : List Char :=
  (suffix.isSuffixOf? text).getD text

/-- Drop the longest run of characters with the property `p` from the end of a text. -/
def dropEndWhile (p : Char → Bool) (text : List Char) : List Char :=
  (text.reverse.dropWhile p).reverse

/-- The text before the last separator, if it holds one. -/
def beforeLast? (sep : Char) (text : List Char) : Option (List Char) :=
  match text.reverse.dropWhile (· != sep) with
  | [] => none
  | _ :: before => some before.reverse

/-- What follows a prefix is what was put behind it. -/
theorem isPrefixOf?_append {α : Type} [BEq α] [LawfulBEq α] (front rest : List α) :
    front.isPrefixOf? (front ++ rest) = some rest := by
  induction front with
  | nil => rfl
  | cons x others ih =>
    change (if x == x then others.isPrefixOf? (others ++ rest) else none) = some rest
    rw [if_pos (beq_self_eq_true x), ih]

/-- A prefix that is found stands in front of what follows it. -/
theorem eq_append_of_isPrefixOf? {α : Type} [BEq α] [LawfulBEq α] {front text rest : List α}
    (h : front.isPrefixOf? text = some rest) : text = front ++ rest := by
  induction front generalizing text with
  | nil => exact Option.some.inj h
  | cons x others ih =>
    cases text with
    | nil =>
      change none = some rest at h
      cases h
    | cons y tail =>
      change (if x == y then others.isPrefixOf? tail else none) = some rest at h
      by_cases hxy : (x == y) = true
      · rw [if_pos hxy] at h
        rw [ih h, eq_of_beq hxy]
        rfl
      · rw [if_neg hxy] at h
        cases h

/-- A suffix that is there is dropped. -/
theorem withoutSuffix_append (text suffix : List Char) :
    withoutSuffix suffix (text ++ suffix) = text := by
  change ((suffix.reverse.isPrefixOf? (text ++ suffix).reverse).map List.reverse).getD _ = text
  rw [List.reverse_append, isPrefixOf?_append]
  exact List.reverse_reverse text

/-- A text that does not end with the suffix is kept. -/
theorem withoutSuffix_of_not_suffix {text suffix : List Char} (h : ¬ suffix <:+ text) :
    withoutSuffix suffix text = text := by
  change ((suffix.reverse.isPrefixOf? text.reverse).map List.reverse).getD text = text
  cases hp : suffix.reverse.isPrefixOf? text.reverse with
  | none => rfl
  | some rest =>
    have hreverse := congrArg List.reverse (eq_append_of_isPrefixOf? hp)
    exact absurd ⟨rest.reverse, by simpa using hreverse.symm⟩ h

/-- What a text ends with shows in as many of its last symbols. -/
theorem suffix_append_iff {α : Type} {suffix back : List α} (h : suffix.length ≤ back.length)
    (front : List α) : suffix <:+ front ++ back ↔ suffix <:+ back := by
  constructor
  · intro hsuffix
    exact List.suffix_of_suffix_length_le hsuffix (List.suffix_append front back) h
  · intro hsuffix
    exact hsuffix.trans (List.suffix_append front back)

/-- Whether a suffix is dropped is decided by as many of the last characters. -/
theorem withoutSuffix_append_of_length_le {suffix back : List Char}
    (h : suffix.length ≤ back.length) (front : List Char) :
    withoutSuffix suffix (front ++ back) = front ++ withoutSuffix suffix back := by
  by_cases hsuffix : suffix <:+ back
  · rcases hsuffix with ⟨kept, rfl⟩
    rw [← List.append_assoc, withoutSuffix_append, withoutSuffix_append]
  · have hwhole : ¬ suffix <:+ front ++ back := fun hfront =>
      hsuffix ((suffix_append_iff h front).mp hfront)
    rw [withoutSuffix_of_not_suffix hwhole, withoutSuffix_of_not_suffix hsuffix]

/-- At most the suffix is dropped. -/
theorem exists_eq_withoutSuffix_append (suffix text : List Char) :
    ∃ dropped ∈ [[], suffix], text = withoutSuffix suffix text ++ dropped := by
  by_cases h : suffix <:+ text
  · rcases h with ⟨front, rfl⟩
    refine ⟨suffix, by simp, ?_⟩
    rw [withoutSuffix_append]
  · refine ⟨[], by simp, ?_⟩
    rw [withoutSuffix_of_not_suffix h, List.append_nil]

/-- A text does not end with a suffix that has another last character. -/
theorem not_suffix_of_getLast?_ne {text suffix : List Char} (hne : suffix ≠ [])
    (h : suffix.getLast? ≠ text.getLast?) : ¬ suffix <:+ text := by
  rintro ⟨front, rfl⟩
  apply h
  rw [List.getLast?_append, List.getLast?_eq_some_getLast hne, Option.some_or]

/-- What lacks a symbol stands on one side of it. -/
theorem infix_or_infix_of_not_mem {α : Type} {part front back : List α} {c : α} (hc : c ∉ part)
    (h : part <:+: front ++ c :: back) : part <:+: front ∨ part <:+: back := by
  rcases List.infix_append_iff.mp h with hinside | hbehind | ⟨start, others, rfl, hstart, hothers⟩
  · exact Or.inl hinside
  · rcases List.infix_cons_iff.mp hbehind with hbegins | hbehind
    · rcases List.prefix_cons_iff.mp hbegins with rfl | ⟨more, rfl, -⟩
      · exact Or.inl (List.nil_infix)
      · exact absurd List.mem_cons_self hc
    · exact Or.inr hbehind
  · rcases List.prefix_cons_iff.mp hothers with rfl | ⟨more, rfl, -⟩
    · rw [List.append_nil]
      exact Or.inl hstart.isInfix
    · exact absurd (List.mem_append_right start List.mem_cons_self) hc

/-- What a text begins with, and lacks a symbol of the text, stands before that symbol. -/
theorem prefix_of_not_mem {α : Type} {part front back : List α} {c : α} (hc : c ∉ part)
    (h : part <+: front ++ c :: back) : part <+: front := by
  rcases List.prefix_or_prefix_of_prefix h (List.prefix_append front (c :: back)) with
    hpart | ⟨more, rfl⟩
  · exact hpart
  · rw [List.prefix_append_right_inj] at h
    rcases List.prefix_cons_iff.mp h with rfl | ⟨others, rfl, -⟩
    · simp
    · exact absurd (List.mem_append_right front List.mem_cons_self) hc

/-- A search for a separator passes over a name without one. -/
theorem dropWhile_ne_append {sep : Char} {name : List Char} (h : sep ∉ name) (rest : List Char) :
    (name ++ rest).dropWhile (· != sep) = rest.dropWhile (· != sep) := by
  apply List.dropWhile_append_of_pos
  intro c hc
  have : c ≠ sep := fun heq => h (heq ▸ hc)
  simpa using this

/-- The text before the last separator is what was put in front of it. -/
theorem beforeLast?_append {sep : Char} {name : List Char} (h : sep ∉ name) (text : List Char) :
    beforeLast? sep (text ++ sep :: name) = some text := by
  unfold beforeLast?
  rw [List.reverse_append, List.reverse_cons, List.append_assoc,
    dropWhile_ne_append (mt List.mem_reverse.mp h)]
  simp

/-- Without a separator there is no last one. -/
theorem beforeLast?_of_notMem {sep : Char} {text : List Char} (h : sep ∉ text) :
    beforeLast? sep text = none := by
  have hnil := dropWhile_ne_append (mt List.mem_reverse.mp h) []
  rw [List.append_nil] at hnil
  unfold beforeLast?
  rw [hnil]
  rfl

/-- What stands before the last separator is the beginning of the text. -/
theorem prefix_of_beforeLast? {sep : Char} {text before : List Char}
    (h : beforeLast? sep text = some before) : before <+: text := by
  unfold beforeLast? at h
  split at h
  next => cases h
  next c rest hdrop =>
    have hsuffix : rest <:+ text.reverse :=
      (List.suffix_cons c rest).trans (hdrop ▸ List.dropWhile_suffix _)
    rw [← Option.some.inj h, ← List.reverse_suffix, List.reverse_reverse]
    exact hsuffix

/-- No piece of a text holds the separator it was cut at. -/
theorem not_mem_of_mem_splitOn {α : Type} [BEq α] [LawfulBEq α] {sep : α} {text piece : List α}
    (h : piece ∈ text.splitOn sep) : sep ∉ piece := by
  induction text generalizing piece with
  | nil => simp_all
  | cons c rest ih =>
    rw [List.splitOn_cons_eq_if_modifyHead] at h
    split at h
    · rcases List.mem_cons.mp h with rfl | h
      · simp
      · exact ih h
    · rename_i hc
      cases hp : rest.splitOn sep with
      | nil => exact absurd hp (List.splitOn_ne_nil sep rest)
      | cons first others =>
        rw [hp, List.modifyHead_cons] at h
        rcases List.mem_cons.mp h with rfl | h
        · have : sep ∉ first := ih (by simp [hp])
          simp only [List.mem_cons, not_or]
          exact ⟨fun e => hc (by simp [e]), this⟩
        · exact ih (by simp [hp, h])

end Text
end AttributeScope
