/-!
# Sorted sets of texts

A finite set of texts as the list of its members in increasing order.  Texts are ordered by
code points, which is also the order of their UTF-8 bytes.

Main results:

- `mem_insertText`, `mem_unite` and `mem_sortedSet`: the members of the sets that are built.
- `insertText_pairwise_lt`, `unite_pairwise_lt` and `sortedSet_pairwise_lt`: every set that is
  built lists its members in strictly increasing order.
-/

namespace AttributeScope
namespace Text

/-- Add a text to a set. -/
def insertText (a : String) : List String → List String
  | [] => [a]
  | b :: rest =>
    if a < b then a :: b :: rest
    else if b < a then b :: insertText a rest
    else b :: rest

/-- The set of the texts in a list. -/
def sortedSet (texts : List String) : List String :=
  texts.foldr insertText []

/-- Merge `a` and what is larger than it, of which `rest` gives the union with another set, into a
second set. -/
def uniteFrom (a : String) (larger : List String) (rest : List String → List String) :
    List String → List String
  | [] => a :: larger
  | b :: others =>
    if a < b then a :: rest (b :: others)
    else if b < a then b :: uniteFrom a larger rest others
    else a :: rest others

/-- The union of two sets. -/
def unite : List String → List String → List String
  | [] => id
  | a :: larger => uniteFrom a larger (unite larger)

theorem eq_of_not_lt {a b : String} (hab : ¬ a < b) (hba : ¬ b < a) : a = b :=
  String.le_antisymm hba hab

/-- Adding a text adds it and nothing else. -/
@[simp] theorem mem_insertText {a x : String} {set : List String} :
    x ∈ insertText a set ↔ x = a ∨ x ∈ set := by
  induction set with
  | nil => simp [insertText]
  | cons b rest ih =>
    unfold insertText
    split
    · simp
    · split
      · simp only [List.mem_cons, ih]
        exact ⟨fun h => h.elim (fun h => .inr (.inl h)) fun h => h.elim .inl fun h => .inr (.inr h),
          fun h => h.elim (fun h => .inr (.inl h)) fun h => h.elim .inl fun h => .inr (.inr h)⟩
      · rename_i hab hba
        simp [eq_of_not_lt hab hba]

/-- Adding a text keeps the order strict. -/
theorem insertText_pairwise_lt (a : String) {set : List String} (h : set.Pairwise (· < ·)) :
    (insertText a set).Pairwise (· < ·) := by
  induction set with
  | nil => simp [insertText]
  | cons b rest ih =>
    have hb := List.pairwise_cons.mp h
    unfold insertText
    split
    · rename_i hab
      refine List.pairwise_cons.mpr ⟨fun c hc => ?_, h⟩
      rcases List.mem_cons.mp hc with rfl | hc
      · exact hab
      · exact String.lt_trans hab (hb.1 c hc)
    · split
      · rename_i hba
        refine List.pairwise_cons.mpr ⟨fun c hc => ?_, ih hb.2⟩
        rcases mem_insertText.mp hc with rfl | hc
        · exact hba
        · exact hb.1 c hc
      · exact h

/-- The set has the members of the list it is made from. -/
@[simp] theorem mem_sortedSet {a : String} {texts : List String} :
    a ∈ sortedSet texts ↔ a ∈ texts := by
  induction texts with
  | nil => simp [sortedSet]
  | cons b rest ih =>
    show a ∈ insertText b (sortedSet rest) ↔ _
    simp [ih]

/-- The members of a set are listed in strictly increasing order. -/
theorem sortedSet_pairwise_lt (texts : List String) : (sortedSet texts).Pairwise (· < ·) := by
  induction texts with
  | nil => simp [sortedSet]
  | cons b rest ih => exact insertText_pairwise_lt b ih

theorem mem_uniteFrom {a x : String} {larger set : List String}
    {rest : List String → List String} (hrest : ∀ s, x ∈ rest s ↔ x ∈ larger ∨ x ∈ s) :
    x ∈ uniteFrom a larger rest set ↔ x = a ∨ x ∈ larger ∨ x ∈ set := by
  induction set with
  | nil => simp [uniteFrom]
  | cons b others ih =>
    unfold uniteFrom
    split
    · simp [hrest]
    · split
      · simp only [List.mem_cons, ih]
        grind
      · rename_i hab hba
        simp only [List.mem_cons, hrest, eq_of_not_lt hab hba]
        grind

/-- A union has the members of both sets. -/
@[simp] theorem mem_unite {x : String} {left right : List String} :
    x ∈ unite left right ↔ x ∈ left ∨ x ∈ right := by
  induction left generalizing right with
  | nil => simp [unite]
  | cons a larger ih =>
    rw [unite, mem_uniteFrom fun s => ih]
    simp [or_assoc]

/-- A union of sets lists its members in strictly increasing order. -/
theorem unite_pairwise_lt {left right : List String} (hl : left.Pairwise (· < ·))
    (hr : right.Pairwise (· < ·)) : (unite left right).Pairwise (· < ·) := by
  induction left generalizing right with
  | nil => simpa [unite] using hr
  | cons a larger ih =>
    have ha := List.pairwise_cons.mp hl
    rw [unite]
    induction right with
    | nil => simpa [uniteFrom] using hl
    | cons b others ihr =>
      have hb := List.pairwise_cons.mp hr
      unfold uniteFrom
      split
      · rename_i hab
        refine List.pairwise_cons.mpr ⟨fun c hc => ?_, ih ha.2 hr⟩
        rcases mem_unite.mp hc with hc | hc
        · exact ha.1 c hc
        · rcases List.mem_cons.mp hc with rfl | hc
          · exact hab
          · exact String.lt_trans hab (hb.1 c hc)
      · split
        · rename_i hba
          refine List.pairwise_cons.mpr ⟨fun c hc => ?_, ihr hb.2⟩
          rcases (mem_uniteFrom fun s => mem_unite).mp hc with rfl | hc | hc
          · exact hba
          · exact String.lt_trans hba (ha.1 c hc)
          · exact hb.1 c hc
        · rename_i hab hba
          obtain rfl := eq_of_not_lt hab hba
          refine List.pairwise_cons.mpr ⟨fun c hc => ?_, ih ha.2 hb.2⟩
          rcases mem_unite.mp hc with hc | hc
          · exact ha.1 c hc
          · exact hb.1 c hc

end Text
end AttributeScope
