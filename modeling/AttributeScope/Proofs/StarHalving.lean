import AttributeScope.Proofs.StarRuns

/-!
# Halving glued stars

Two passes read a `**` that is glued to other text as `*`.  The first one halves the runs of stars
behind the first symbol of a segment and the second one those before its last symbol.  Short runs
become one star that way, but longer runs do not.

Main results:

- Theorems `halveAfterText_cons` and `halveBeforeText_concat`: each pass halves every run of all
  but one symbol.
- Theorem `recursive_infix_degrade_iff`: the segments of which two stars in a row are left.
- Theorem `recursive_suffix_degrade_iff`: the segments of which two stars are left at the end.
- Theorem `degrade_eq_recursive_iff`: no other segment becomes `**`, unless it has three stars in
  a row.
-/

namespace AttributeScope
namespace Pattern

/-- Runs of which the passes leave two stars in a row: five stars anywhere, four at the beginning
of a segment, or three at its end. -/
def IsOverstarred (seg : Segment) : Prop :=
  stars 5 <:+: seg ∨ stars 4 <+: seg ∨ stars 3 <:+ seg

/-! ## One pass -/

section OnePass

variable {glued : Nat → Bool} {position : Nat} {text : List Char}

/-- A pass adds no symbols. -/
theorem mem_of_mem_halveStars {c : Char} (h : c ∈ halveStars '*' glued position text) :
    c ∈ text := by
  fun_induction halveStars '*' glued position text with
  | case1 position a b rest hstars ih =>
    rcases List.mem_cons.mp h with hc | hrest
    · simp [hc, hstars.1]
    · simp [ih hrest]
  | case2 position a b rest hstars ih =>
    rcases List.mem_cons.mp h with hc | hrest
    · simp [hc]
    · exact List.mem_cons_of_mem a (ih hrest)
  | case3 => exact h

theorem halveStars_eq_nil_iff : halveStars '*' glued position text = [] ↔ text = [] := by
  fun_cases halveStars '*' glued position text <;> simp

/-- A pass that may halve everywhere does so. -/
theorem halveStars_of_glued (hglued : ∀ n, position ≤ n → glued n = true) :
    halveStars '*' glued position text = halved text := by
  fun_induction halved text generalizing position with
  | case1 rest ih =>
    rw [halveStars, if_pos ⟨rfl, rfl, hglued position (Nat.le_refl position)⟩,
      ih fun n hn => hglued n (by omega)]
  | case2 c rest hpair ih =>
    cases rest with
    | nil => rfl
    | cons d others =>
      rw [halveStars, if_neg fun h => hpair others h.1 (by rw [h.2.1]),
        ih fun n hn => hglued n (by omega)]
  | case3 => rfl

/-- A pass that spares what stands at the end halves everything before the last symbol. -/
theorem halveStars_concat {length : Nat} (hlength : position + text.length + 1 = length)
    (last : Char) :
    halveStars '*' (fun n => n + 2 < length) position (text ++ [last]) = halved text ++ [last] := by
  fun_induction halved text generalizing position with
  | case1 rest ih =>
    have hnext : position + 2 + rest.length + 1 = length := by
      simp only [List.length_cons] at hlength
      omega
    simp only [List.cons_append]
    rw [halveStars, if_pos ⟨rfl, rfl, by simp; omega⟩, ih hnext]
  | case2 c rest hpair ih =>
    have hnext : position + 1 + rest.length + 1 = length := by
      simp only [List.length_cons] at hlength
      omega
    cases rest with
    | nil =>
      simp only [List.cons_append, List.nil_append]
      rw [halveStars, if_neg (by simp at hnext ⊢; omega)]
      rfl
    | cons d others =>
      simp only [List.cons_append] at ih ⊢
      rw [halveStars, if_neg fun h => hpair others h.1 (by rw [h.2.1]), ih hnext]
  | case3 => rfl

end OnePass

/-! ## Both passes -/

/-- The first pass keeps the first symbol and halves every run behind it. -/
theorem halveAfterText_cons (c : Char) (rest : List Char) :
    halveAfterText '*' (c :: rest) = c :: halved rest := by
  unfold halveAfterText
  cases rest with
  | nil => rfl
  | cons d others =>
    rw [halveStars, if_neg (by simp), halveStars_of_glued]
    intro n hn
    simp
    omega

/-- The second pass keeps the last symbol and halves every run before it. -/
theorem halveBeforeText_concat (text : List Char) (last : Char) :
    halveBeforeText '*' (text ++ [last]) = halved text ++ [last] := by
  unfold halveBeforeText
  apply halveStars_concat
  simp

/-- The second pass does not change whether two stars stand at the end. -/
theorem stars_suffix_halveBeforeText_iff (text : List Char) :
    stars 2 <:+ halveBeforeText '*' text ↔ stars 2 <:+ text := by
  rcases List.eq_nil_or_concat text with rfl | ⟨front, last, rfl⟩
  · rfl
  · rw [List.concat_eq_append, halveBeforeText_concat, stars_suffix_concat_iff,
      stars_suffix_concat_iff, stars_one_suffix_halved_iff]

/-- The second pass leaves two stars in a row at the end and of three stars. -/
theorem stars_infix_halveBeforeText_iff (text : List Char) :
    stars 2 <:+: halveBeforeText '*' text ↔ stars 2 <:+ text ∨ stars 3 <:+: text := by
  rcases List.eq_nil_or_concat text with rfl | ⟨front, last, rfl⟩
  · decide
  · rw [List.concat_eq_append]
    have hend := stars_suffix_halveBeforeText_iff (front ++ [last])
    rw [halveBeforeText_concat] at hend ⊢
    have hlonger : stars 3 <:+ front ++ [last] → stars 2 <:+ front ++ [last] := fun h =>
      List.IsSuffix.trans ⟨['*'], rfl⟩ h
    rw [List.infix_concat_iff, hend, stars_infix_halved_iff 0, List.infix_concat_iff, ← or_assoc,
      or_iff_left_of_imp hlonger]

/-- Both passes leave two stars at the end of `**` itself and of a segment that ends with three. -/
theorem recursive_suffix_degrade_iff {seg : Segment} :
    recursive <:+ degrade seg ↔ seg = recursive ∨ threeStars <:+ seg := by
  change stars 2 <:+ halveBeforeText '*' (halveAfterText '*' seg) ↔
    seg = stars 2 ∨ stars 3 <:+ seg
  rw [stars_suffix_halveBeforeText_iff]
  cases seg with
  | nil => decide
  | cons c rest =>
    have hwhole : ∀ number, c :: rest = stars (number + 1) ↔ c = '*' ∧ rest = stars number :=
      fun number => by simp [stars, List.replicate_succ]
    rw [halveAfterText_cons, stars_suffix_cons_iff, halved_eq_one_iff, stars_suffix_halved_iff,
      stars_suffix_cons_iff, hwhole, and_or_left, or_assoc]

/-- Both passes leave two stars in a row of `**` itself and of runs that are too long. -/
theorem recursive_infix_degrade_iff {seg : Segment} :
    recursive <:+: degrade seg ↔ seg = recursive ∨ IsOverstarred seg := by
  have hsuffix : stars 2 <:+ halveBeforeText '*' (halveAfterText '*' seg) ↔
      seg = stars 2 ∨ stars 3 <:+ seg := recursive_suffix_degrade_iff
  change stars 2 <:+: halveBeforeText '*' (halveAfterText '*' seg) ↔
    seg = stars 2 ∨ stars 5 <:+: seg ∨ stars 4 <+: seg ∨ stars 3 <:+ seg
  rw [stars_suffix_halveBeforeText_iff] at hsuffix
  rw [stars_infix_halveBeforeText_iff, hsuffix]
  -- Three stars are left in a row of four in front and of five elsewhere.
  have hrun : stars 3 <:+: halveAfterText '*' seg ↔ stars 5 <:+: seg ∨ stars 4 <+: seg := by
    cases seg with
    | nil => decide
    | cons c rest =>
      have hshorter : (c = '*' ∧ stars 4 <+: rest) → c = '*' ∧ stars 3 <+: rest := fun h =>
        ⟨h.1, stars_prefix_of_le h.2 (by decide)⟩
      rw [halveAfterText_cons, stars_infix_cons_iff, stars_prefix_halved_iff 1,
        stars_infix_halved_iff 1, stars_infix_cons_iff, stars_prefix_cons_iff, or_right_comm,
        or_iff_right_of_imp hshorter]
  rw [hrun, or_assoc, or_comm (a := stars 3 <:+ seg), or_assoc]

theorem degrade_recursive : degrade recursive = recursive := by
  decide

theorem mem_of_mem_degrade {seg : Segment} {c : Char} (h : c ∈ degrade seg) : c ∈ seg :=
  mem_of_mem_halveStars (mem_of_mem_halveStars h)

theorem degrade_eq_nil_iff {seg : Segment} : degrade seg = [] ↔ seg = [] := by
  unfold degrade halveBeforeText halveAfterText
  rw [halveStars_eq_nil_iff, halveStars_eq_nil_iff]

/-- A single character is left of that character only. -/
theorem degrade_eq_singleton_iff {seg : Segment} {c : Char} : degrade seg = [c] ↔ seg = [c] := by
  unfold degrade
  cases seg with
  | nil => rfl
  | cons d rest =>
    rw [halveAfterText_cons]
    rcases List.eq_nil_or_concat (halved rest) with hnil | ⟨front, last, hconcat⟩
    · rw [hnil, halved_eq_nil_iff.mp hnil]
      rfl
    · have hrest : rest ≠ [] := by
        rintro rfl
        simp [halved] at hconcat
      have hfront : halved (d :: front) ≠ [] := mt halved_eq_nil_iff.mp (List.cons_ne_nil d front)
      rw [hconcat, List.concat_eq_append, ← List.cons_append, halveBeforeText_concat]
      refine iff_of_false (fun h => ?_) fun h => hrest (List.cons.inj h).2
      rcases List.append_eq_singleton_iff.mp h with ⟨hnil, -⟩ | ⟨-, hlast⟩
      · exact hfront hnil
      · exact List.cons_ne_nil last [] hlast

/-- A segment whose runs of stars are short is `**`, or no two stars are left next to each other. -/
theorem degrade_cases {seg : Segment} (h : ¬ IsOverstarred seg) :
    seg = recursive ∨ ¬ recursive <:+: degrade seg := by
  rw [recursive_infix_degrade_iff, or_iff_left h]
  exact Classical.em (seg = recursive)

/-- Without three stars at its end no other segment becomes `**`. -/
theorem degrade_eq_recursive_iff_of_not_suffix {seg : Segment} (h : ¬ threeStars <:+ seg) :
    degrade seg = recursive ↔ seg = recursive := by
  constructor
  · intro hseg
    have hsuffix : recursive <:+ degrade seg := hseg ▸ List.suffix_rfl
    exact (recursive_suffix_degrade_iff.mp hsuffix).resolve_right h
  · intro heq
    subst heq
    exact degrade_recursive

/-- No other segment becomes `**`, unless it has three stars in a row. -/
theorem degrade_eq_recursive_iff {seg : Segment} (h : ¬ threeStars <:+: seg) :
    degrade seg = recursive ↔ seg = recursive :=
  degrade_eq_recursive_iff_of_not_suffix fun hsuffix => h hsuffix.isInfix

theorem not_isOverstarred_of_not_threeStars {seg : Segment} (h : ¬ threeStars <:+: seg) :
    ¬ IsOverstarred seg := by
  intro hlong
  rcases hlong with hfive | hfour | hthree
  · exact h (List.IsInfix.trans (by decide) hfive)
  · exact h (List.IsInfix.trans (by decide) hfour.isInfix)
  · exact h hthree.isInfix

end Pattern
end AttributeScope
