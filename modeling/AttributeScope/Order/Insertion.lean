/-!
# Sorting by insertion

A stable sort, by insertion from the right.  Lists that are nearly in order are sorted in nearly
linear time, and the recursion is on the data, so that concrete lists are sorted by evaluation.

Main results:

- `sortBy_perm`: sorting permutes a list.
- `sortBy_pairwise`: a sorted list is in order.
- `filter_sortBy`: elements can be left out before or after sorting.
-/

namespace AttributeScope
namespace Order

variable {α : Type}

/-- Put an element in front of the first one that may follow it. -/
def insertBy (le : α → α → Bool) (a : α) : List α → List α
  | [] => [a]
  | b :: rest => if le a b then a :: b :: rest else b :: insertBy le a rest

/-- Sort a list; elements of equal rank keep their order. -/
def sortBy (le : α → α → Bool) (xs : List α) : List α :=
  xs.foldr (insertBy le) []

theorem insertBy_perm (le : α → α → Bool) (a : α) (xs : List α) :
    (insertBy le a xs).Perm (a :: xs) := by
  induction xs with
  | nil => exact List.Perm.refl _
  | cons b rest ih =>
    unfold insertBy
    split
    · exact List.Perm.refl _
    · exact (ih.cons b).trans (List.Perm.swap a b rest)

/-- Sorting permutes a list. -/
theorem sortBy_perm (le : α → α → Bool) (xs : List α) : (sortBy le xs).Perm xs := by
  induction xs with
  | nil => exact List.Perm.refl _
  | cons a rest ih => exact (insertBy_perm le a _).trans (ih.cons a)

theorem insertBy_pairwise {le : α → α → Bool} (trans : ∀ a b c, le a b → le b c → le a c)
    (total : ∀ a b, le a b ∨ le b a) (a : α) {xs : List α}
    (h : xs.Pairwise fun a b => le a b = true) :
    (insertBy le a xs).Pairwise fun a b => le a b = true := by
  induction xs with
  | nil => simp [insertBy]
  | cons b rest ih =>
    have hb := List.pairwise_cons.mp h
    unfold insertBy
    split
    · rename_i hab
      refine List.pairwise_cons.mpr ⟨fun c hc => ?_, h⟩
      rcases List.mem_cons.mp hc with rfl | hc
      · exact hab
      · exact trans a b c hab (hb.1 c hc)
    · rename_i hab
      refine List.pairwise_cons.mpr ⟨fun c hc => ?_, ih hb.2⟩
      rcases List.mem_cons.mp ((insertBy_perm le a rest).mem_iff.mp hc) with rfl | hc
      · exact (total c b).resolve_left hab
      · exact hb.1 c hc

/-- A sorted list is in order. -/
theorem sortBy_pairwise {le : α → α → Bool} (trans : ∀ a b c, le a b → le b c → le a c)
    (total : ∀ a b, le a b ∨ le b a) (xs : List α) :
    (sortBy le xs).Pairwise fun a b => le a b = true := by
  induction xs with
  | nil => simp [sortBy]
  | cons a rest ih => exact insertBy_pairwise trans total a ih

/-! ## Leaving elements out -/

theorem insertBy_of_forall_le {le : α → α → Bool} {a : α} {xs : List α}
    (h : ∀ b ∈ xs, le a b = true) : insertBy le a xs = a :: xs := by
  cases xs with
  | nil => rfl
  | cons b rest => rw [insertBy, if_pos (h b List.mem_cons_self)]

theorem filter_insertBy_of_neg {le : α → α → Bool} {keep : α → Bool} {a : α} (h : keep a = false)
    (xs : List α) : (insertBy le a xs).filter keep = xs.filter keep := by
  induction xs with
  | nil => simp [insertBy, h]
  | cons b rest ih =>
    unfold insertBy
    split
    · rw [List.filter_cons_of_neg (by simp [h])]
    · rw [List.filter_cons, List.filter_cons, ih]

/-- An element that is kept is put in front of the same elements as before, if they are in
order. -/
theorem filter_insertBy_of_pos {le : α → α → Bool} (trans : ∀ a b c, le a b → le b c → le a c)
    {keep : α → Bool} {a : α} (h : keep a = true) {xs : List α}
    (hxs : xs.Pairwise fun a b => le a b = true) :
    (insertBy le a xs).filter keep = insertBy le a (xs.filter keep) := by
  induction xs with
  | nil => simp [insertBy, h]
  | cons b rest ih =>
    rcases List.pairwise_cons.mp hxs with ⟨hb, hrest⟩
    by_cases hab : le a b = true
    · have hall : ∀ c ∈ (b :: rest).filter keep, le a c = true := by
        intro c hc
        rcases List.mem_cons.mp (List.mem_filter.mp hc).1 with rfl | hc
        · exact hab
        · exact trans a b c hab (hb c hc)
      rw [insertBy_of_forall_le hall, insertBy, if_pos hab, List.filter_cons_of_pos h]
    · rw [insertBy, if_neg hab, List.filter_cons, List.filter_cons, ih hrest]
      split
      · rw [insertBy, if_neg hab]
      · rfl

/-- Elements can be left out before or after sorting. -/
theorem filter_sortBy {le : α → α → Bool} (trans : ∀ a b c, le a b → le b c → le a c)
    (total : ∀ a b, le a b ∨ le b a) (keep : α → Bool) (xs : List α) :
    (sortBy le xs).filter keep = sortBy le (xs.filter keep) := by
  induction xs with
  | nil => rfl
  | cons a rest ih =>
    show (insertBy le a (sortBy le rest)).filter keep = _
    cases hkeep : keep a with
    | false => rw [filter_insertBy_of_neg hkeep, ih, List.filter_cons_of_neg (by simp [hkeep])]
    | true =>
      rw [filter_insertBy_of_pos trans hkeep (sortBy_pairwise trans total rest), ih,
        List.filter_cons_of_pos hkeep]
      rfl

end Order
end AttributeScope
