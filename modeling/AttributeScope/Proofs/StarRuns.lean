import AttributeScope.Pattern.Canonical

/-!
# Runs of stars

A run of stars in a text may stand in front, at the end or anywhere.  When every pair of stars is
halved, a run of two or more stars is left of a run that is about twice as long, at the same place.

Main results:

- Theorems `stars_prefix_halved_iff` and `stars_infix_halved_iff`: of which runs a run is left in
  front and anywhere.
- Theorem `stars_suffix_halved_iff`: of which runs two stars are left at the end.
-/

namespace AttributeScope
namespace Pattern

/-- A run of stars. -/
def stars (number : Nat) : List Char := List.replicate number '*'

/-- Three stars in a row. -/
def threeStars : List Char := ['*', '*', '*']

/-! ## Runs of stars -/

section Stars

variable {number : Nat} {c : Char} {text : List Char}

theorem stars_prefix_cons_iff :
    stars (number + 1) <+: c :: text ↔ c = '*' ∧ stars number <+: text := by
  unfold stars
  rw [List.replicate_succ, List.cons_prefix_cons, eq_comm]

theorem stars_infix_cons_iff :
    stars (number + 1) <:+: c :: text ↔
      (c = '*' ∧ stars number <+: text) ∨ stars (number + 1) <:+: text := by
  rw [List.infix_cons_iff, stars_prefix_cons_iff]

theorem stars_suffix_cons_iff :
    stars (number + 1) <:+ c :: text ↔
      (c = '*' ∧ text = stars number) ∨ stars (number + 1) <:+ text := by
  rw [List.suffix_cons_iff]
  unfold stars
  rw [List.replicate_succ, List.cons.injEq, eq_comm (a := '*'), eq_comm (b := text)]

theorem stars_suffix_concat_iff :
    stars (number + 1) <:+ text ++ [c] ↔ c = '*' ∧ stars number <:+ text := by
  have hwhole := @List.reverse_prefix Char (stars (number + 1)) (text ++ [c])
  have hrest := @List.reverse_prefix Char (stars number) text
  unfold stars at hwhole hrest ⊢
  rw [List.reverse_append, List.reverse_replicate] at hwhole
  rw [List.reverse_replicate] at hrest
  rw [← hwhole, ← hrest]
  exact stars_prefix_cons_iff

/-- A longer run begins with a shorter one. -/
theorem stars_prefix_of_le {more : Nat} (h : stars more <+: text) (hle : number ≤ more) :
    stars number <+: text := by
  refine List.IsPrefix.trans ?_ h
  refine ⟨stars (more - number), ?_⟩
  unfold stars
  rw [List.replicate_append_replicate, Nat.add_sub_cancel' hle]

theorem stars_one_prefix_iff : stars 1 <+: text ↔ text.head? = some '*' := by
  cases text with
  | nil => simp [stars]
  | cons d rest => simp [stars, eq_comm]

theorem recursive_infix_cons_iff :
    recursive <:+: c :: text ↔ (c = '*' ∧ text.head? = some '*') ∨ recursive <:+: text := by
  rw [← stars_one_prefix_iff]
  exact @stars_infix_cons_iff 1 c text

/-- No run of two stars or more begins where two symbols are not both stars. -/
theorem not_stars_prefix_cons (h : ¬ (c = '*' ∧ text.head? = some '*')) :
    ¬ stars (number + 2) <+: c :: text := by
  intro hprefix
  have hrest := stars_prefix_cons_iff.mp hprefix
  exact h ⟨hrest.1, stars_one_prefix_iff.mp (stars_prefix_of_le hrest.2 (by omega))⟩

end Stars

/-! ## Halving every run -/

/-- Halve every pair of stars, from left to right. -/
def halved : List Char → List Char
  | '*' :: '*' :: rest => '*' :: halved rest
  | c :: rest => c :: halved rest
  | [] => []

section Halved

variable {text : List Char}

/-- Halving does not change the first symbol. -/
theorem head?_halved (text : List Char) : (halved text).head? = text.head? := by
  fun_cases halved text <;> rfl

/-- What two stars in a row cannot begin with when they are read one by one. -/
theorem not_pair_of_ne {c : Char} (hpair : ∀ rest, c = '*' → text = '*' :: rest → False) :
    ¬ (c = '*' ∧ text.head? = some '*') := by
  intro h
  rcases List.head?_eq_some_iff.mp h.2 with ⟨rest, hrest⟩
  exact hpair rest h.1 hrest

/-- A run of one star more than `number` stars is left of one that is longer by one than twice as
many. -/
theorem stars_prefix_halved_iff (number : Nat) :
    stars (number + 1) <+: halved text ↔ stars (2 * number + 1) <+: text := by
  fun_induction halved text generalizing number with
  | case1 rest ih =>
    cases number with
    | zero => simp [stars]
    | succ less =>
      rw [show 2 * (less + 1) + 1 = 2 * less + 1 + 1 + 1 by omega]
      simp only [stars_prefix_cons_iff, ih, true_and]
  | case2 c rest hpair ih =>
    cases number with
    | zero => simp [stars]
    | succ less =>
      have hrest := not_pair_of_ne hpair
      rw [show 2 * (less + 1) + 1 = 2 * less + 1 + 2 by omega]
      refine iff_of_false (not_stars_prefix_cons ?_) (not_stars_prefix_cons hrest)
      rwa [head?_halved]
  | case3 => simp [stars]

/-- The same holds of a run anywhere. -/
theorem stars_infix_halved_iff (number : Nat) :
    stars (number + 2) <:+: halved text ↔ stars (2 * number + 3) <:+: text := by
  fun_induction halved text with
  | case1 rest ih =>
    rw [stars_infix_cons_iff, stars_prefix_halved_iff, ih, stars_infix_cons_iff,
      stars_prefix_cons_iff, stars_infix_cons_iff]
    simp only [true_and]
    -- A run that begins with the second star is longer than the one that begins with the first.
    rw [← or_assoc, or_iff_left_of_imp fun hsecond => stars_prefix_of_le hsecond (by omega)]
  | case2 c rest hpair ih =>
    have hrest := not_pair_of_ne hpair
    have hhalved : ¬ (c = '*' ∧ (halved rest).head? = some '*') := by rwa [head?_halved]
    rw [List.infix_cons_iff, or_iff_right (not_stars_prefix_cons hhalved), ih,
      List.infix_cons_iff, or_iff_right (not_stars_prefix_cons hrest)]
  | case3 => simp [stars]

theorem halved_eq_nil_iff : halved text = [] ↔ text = [] := by
  rw [← List.head?_eq_none_iff, head?_halved, List.head?_eq_none_iff]

/-- Halving does not change whether a star stands at the end. -/
theorem stars_one_suffix_halved_iff : stars 1 <:+ halved text ↔ stars 1 <:+ text := by
  fun_induction halved text with
  | case1 rest ih =>
    rw [stars_suffix_cons_iff, ih, stars_suffix_cons_iff, stars_suffix_cons_iff]
    simp [stars, halved_eq_nil_iff]
  | case2 c rest hpair ih =>
    rw [stars_suffix_cons_iff, ih, stars_suffix_cons_iff]
    simp only [stars, List.replicate_zero, halved_eq_nil_iff]
  | case3 => rfl

/-- One star is left of one and of two. -/
theorem halved_eq_one_iff : halved text = stars 1 ↔ text = stars 1 ∨ text = stars 2 := by
  fun_cases halved text with
  | case1 rest => simp [stars, halved_eq_nil_iff]
  | case2 c rest hpair =>
    have hrest := not_pair_of_ne hpair
    simp only [stars, List.replicate_succ, List.replicate_zero, List.cons.injEq,
      halved_eq_nil_iff]
    constructor
    · exact Or.inl
    · intro h
      rcases h with hone | htwo
      · exact hone
      · exact absurd ⟨htwo.1, by rw [htwo.2]; rfl⟩ hrest
  | case3 => simp [stars]

/-- Two stars are left at the end of a text that ends with three. -/
theorem stars_suffix_halved_iff : stars 2 <:+ halved text ↔ stars 3 <:+ text := by
  fun_induction halved text with
  | case1 rest ih =>
    have hshort : '*' :: rest = stars 2 ↔ rest = stars 1 := List.cons_inj_right '*'
    rw [stars_suffix_cons_iff, halved_eq_one_iff, ih, stars_suffix_cons_iff, hshort,
      stars_suffix_cons_iff]
    simp only [true_and, or_assoc]
  | case2 c rest hpair ih =>
    have hrest := not_pair_of_ne hpair
    have hhalved : ¬ (c = '*' ∧ (halved rest).head? = some '*') := by rwa [head?_halved]
    have hwhole : ∀ {number : Nat} {tail : List Char}, ¬ (c = '*' ∧ tail.head? = some '*') →
        stars (number + 2) ≠ c :: tail := fun h heq =>
      not_stars_prefix_cons h ⟨[], by rw [List.append_nil, heq]⟩
    rw [List.suffix_cons_iff, or_iff_right (hwhole hhalved), ih, List.suffix_cons_iff,
      or_iff_right (hwhole hrest)]
  | case3 => simp [stars]

end Halved

end Pattern
end AttributeScope
