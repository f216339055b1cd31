/-!
# Expressions over bytes

Regular expressions over bytes in which only sets of bytes are repeated.  An expression matches
part of a word; from the positions where the part may begin follow those where it may end.  All of
them are computed together, part by part of the expression.

Main results:

- `mem_ends_iff`: the positions that are computed are those where a part in the language may end.
- `accepts_iff`: acceptance is membership in the language.
-/

namespace AttributeScope
namespace Glob

/-! ## Sets of bytes -/

/-- A set of bytes: those inside or, if negated, outside of ranges. -/
structure ByteSet where
  /-- Whether the bytes outside of the ranges are meant. -/
  negated : Bool
  ranges : List (UInt8 × UInt8)
deriving DecidableEq, Repr

namespace ByteSet

/-- Whether a byte is in a set. -/
def contains (set : ByteSet) (b : UInt8) : Bool :=
  (set.ranges.any fun range => range.1 ≤ b && b ≤ range.2) != set.negated

/-- Whether the byte at a position of a word is in a set. -/
def containsAt (set : ByteSet) (word : Array UInt8) (i : Nat) : Bool :=
  word[i]?.any set.contains

end ByteSet

/-! ## Expressions and their languages -/

/-- A regular expression over bytes. -/
inductive Expr where
  | done
  | byte (set : ByteSet)
  /-- Any number of bytes of a set. -/
  | run (set : ByteSet)
  | seq (left right : Expr)
  | either (left right : Expr)
deriving DecidableEq, Repr

namespace Expr

/-- The words of an expression's language. -/
inductive Matches : Expr → List UInt8 → Prop where
  | done : Matches .done []
  | byte {set : ByteSet} {b : UInt8} : set.contains b = true → Matches (.byte set) [b]
  | run {set : ByteSet} {w : List UInt8} :
    (∀ b ∈ w, set.contains b = true) → Matches (.run set) w
  | seq {left right : Expr} {u v : List UInt8} :
    Matches left u → Matches right v → Matches (.seq left right) (u ++ v)
  | left {left right : Expr} {u : List UInt8} : Matches left u → Matches (.either left right) u
  | right {left right : Expr} {u : List UInt8} : Matches right u → Matches (.either left right) u

/-! ## Positions -/

/-- The first position from one on that holds no byte of a set. -/
def runEnd (set : ByteSet) (word : Array UInt8) (i : Nat) : Nat :=
  if h : i < word.size then
    if set.contains word[i] then runEnd set word (i + 1) else i
  else i
termination_by word.size - i

/-- The positions that runs of bytes of a set lead to, but for those from `first` to before `next`,
which are known. -/
def runEnds (set : ByteSet) (word : Array UInt8) (first next : Nat) : List Nat → List Nat
  | [] => []
  | i :: rest =>
    if first ≤ i ∧ i < next then runEnds set word first next rest
    else
      let stop := runEnd set word i + 1
      List.range' i (stop - i) ++ runEnds set word i stop rest

/-- The numbers of two increasing lists, in increasing order. -/
def union : List Nat → List Nat → List Nat
  | [], ys => ys
  | x :: xs, [] => x :: xs
  | x :: xs, y :: ys =>
    if x < y then x :: union xs (y :: ys)
    else if y < x then y :: union (x :: xs) ys
    else x :: union xs ys
termination_by xs ys => xs.length + ys.length

/-- The positions where what an expression matches may end, from those where it may begin. -/
def ends (word : Array UInt8) : Expr → List Nat → List Nat
  | done, starts => starts
  | byte set, starts =>
    (starts.filter fun i => set.containsAt word i).map (· + 1)
  | run set, starts => runEnds set word 0 0 starts
  | seq left right, starts =>
    match left.ends word starts with
    | [] => []
    | i :: rest => right.ends word (i :: rest)
  | either left right, starts => union (left.ends word starts) (right.ends word starts)

/-- Whether an expression accepts a word. -/
def accepts (e : Expr) (word : Array UInt8) : Bool := (e.ends word [0]).contains word.size

/-! ## Runs -/

/-- Whether all bytes from one position to before another are in a set. -/
def IsRun (set : ByteSet) (word : Array UInt8) (i j : Nat) : Prop :=
  i ≤ j ∧ ∀ k, i ≤ k → k < j → set.containsAt word k = true

theorem IsRun.trans {set : ByteSet} {word : Array UInt8} {i j k : Nat}
    (hij : IsRun set word i j) (hjk : IsRun set word j k) : IsRun set word i k := by
  refine ⟨Nat.le_trans hij.1 hjk.1, fun m h1 h2 => ?_⟩
  rcases Nat.lt_or_ge m j with hlt | hge
  · exact hij.2 m h1 hlt
  · exact hjk.2 m hge h2

theorem le_runEnd (set : ByteSet) (word : Array UInt8) (i : Nat) : i ≤ runEnd set word i := by
  fun_induction runEnd set word i <;> omega

/-- A run ends nowhere behind the first byte that is outside of the set. -/
theorem isRun_iff_le_runEnd {set : ByteSet} {word : Array UInt8} {i : Nat} (j : Nat) :
    IsRun set word i j ↔ i ≤ j ∧ j ≤ runEnd set word i := by
  fun_induction runEnd set word i with
  | case1 i h hb ih =>
    have hi : set.containsAt word i = true := by simp [ByteSet.containsAt, h, hb]
    constructor
    · rintro ⟨hij, hrun⟩
      rcases Nat.eq_or_lt_of_le hij with rfl | hlt
      · exact ⟨hij, Nat.le_of_succ_le (le_runEnd set word (i + 1))⟩
      · exact ⟨hij, (ih.mp ⟨hlt, fun k hk => hrun k (by omega)⟩).2⟩
    · rintro ⟨hij, hend⟩
      refine ⟨hij, fun k h1 h2 => ?_⟩
      rcases Nat.eq_or_lt_of_le h1 with rfl | hlt
      · exact hi
      · exact (ih.mpr ⟨by omega, hend⟩).2 k hlt h2
  | case2 i h hb =>
    constructor
    · rintro ⟨hij, hrun⟩
      refine ⟨hij, Nat.le_of_not_lt fun hlt => ?_⟩
      have := hrun i (Nat.le_refl _) hlt
      simp [ByteSet.containsAt, h, hb] at this
    · rintro ⟨h1, h2⟩
      exact ⟨h1, fun k h3 h4 => by omega⟩
  | case3 i h =>
    constructor
    · rintro ⟨hij, hrun⟩
      refine ⟨hij, Nat.le_of_not_lt fun hlt => ?_⟩
      have := hrun i (Nat.le_refl _) hlt
      simp [ByteSet.containsAt, h] at this
    · rintro ⟨h1, h2⟩
      exact ⟨h1, fun k h3 h4 => by omega⟩

/-- The positions from `first` to before `next`, and those that are computed, are those that runs
lead to, if the former are closed under runs. -/
theorem mem_runEnds_iff {set : ByteSet} {word : Array UInt8} {first next : Nat}
    {starts : List Nat} (j : Nat)
    (hclosed : ∀ i j, first ≤ i → i < next → IsRun set word i j → j < next) :
    (first ≤ j ∧ j < next) ∨ j ∈ runEnds set word first next starts ↔
      (first ≤ j ∧ j < next) ∨ ∃ i ∈ starts, IsRun set word i j := by
  induction starts generalizing first next with
  | nil => simp [runEnds]
  | cons i rest ih =>
    unfold runEnds
    split
    · rename_i hin
      rw [ih hclosed]
      constructor
      · exact Or.imp_right fun ⟨k, hk, hrun⟩ => ⟨k, List.mem_cons_of_mem _ hk, hrun⟩
      · rintro (h | ⟨k, hk, hrun⟩)
        · exact .inl h
        · rcases List.mem_cons.mp hk with rfl | hk
          · exact .inl ⟨Nat.le_trans hin.1 hrun.1, hclosed _ _ hin.1 hin.2 hrun⟩
          · exact .inr ⟨k, hk, hrun⟩
    · have hle := le_runEnd set word i
      have hrange : j ∈ List.range' i (runEnd set word i + 1 - i) ↔
          i ≤ j ∧ j < runEnd set word i + 1 := by
        rw [List.mem_range'_1]
        omega
      have hrun : i ≤ j ∧ j < runEnd set word i + 1 ↔ IsRun set word i j := by
        rw [isRun_iff_le_runEnd, Nat.lt_succ_iff]
      have hnext := @ih i (runEnd set word i + 1) fun k m h1 h2 hkm =>
        Nat.lt_succ_of_le ((isRun_iff_le_runEnd m).mp
          (IsRun.trans ((isRun_iff_le_runEnd k).mpr ⟨h1, Nat.le_of_lt_succ h2⟩) hkm)).2
      simp only [List.mem_append, List.mem_cons, exists_eq_or_imp, hrange]
      rw [hnext, hrun]

theorem mem_union_iff {xs ys : List Nat} (n : Nat) : n ∈ union xs ys ↔ n ∈ xs ∨ n ∈ ys := by
  fun_induction union xs ys <;> grind

/-! ## Acceptance is membership in the language -/

/-- The part of a word between two positions that both lie in it. -/
def IsPart (word : Array UInt8) (i j : Nat) (part : List UInt8) : Prop :=
  i ≤ j ∧ j ≤ word.size ∧ part = word.toList.extract i j

theorem extract_append_extract {l : List UInt8} {i j k : Nat} (hij : i ≤ j) (hjk : j ≤ k) :
    l.extract i j ++ l.extract j k = l.extract i k := by
  simp only [List.extract_eq_take_drop]
  have : l.drop j = (l.drop i).drop (j - i) := by rw [List.drop_drop]; congr 1; omega
  rw [this, ← List.take_add]
  congr 1
  omega

theorem exists_of_extract_eq_append {l u v : List UInt8} {i k : Nat} (hik : i ≤ k)
    (hk : k ≤ l.length) (h : l.extract i k = u ++ v) :
    ∃ j, i ≤ j ∧ j ≤ k ∧ l.extract i j = u ∧ l.extract j k = v := by
  have hlen := congrArg List.length h
  simp only [List.extract_eq_take_drop, List.length_take, List.length_drop, List.length_append]
    at hlen
  refine ⟨i + u.length, by omega, by omega, ?_, ?_⟩
  · have := congrArg (List.take u.length) h
    simp only [List.extract_eq_take_drop, List.take_take, List.take_left] at this ⊢
    refine Eq.trans ?_ this
    congr 1
    omega
  · have := congrArg (List.drop u.length) h
    simp only [List.extract_eq_take_drop, List.drop_take, List.drop_drop, List.drop_left] at this ⊢
    refine Eq.trans ?_ this
    congr 1
    omega

/-- The bytes of a part of a word are those at its positions. -/
theorem forall_mem_extract_iff {set : ByteSet} {word : Array UInt8} {i j : Nat}
    (hj : j ≤ word.size) :
    (∀ b ∈ word.toList.extract i j, set.contains b = true) ↔
      ∀ k, i ≤ k → k < j → set.containsAt word k = true := by
  simp only [List.extract_eq_take_drop, List.mem_iff_getElem?, List.getElem?_take,
    List.getElem?_drop, Array.getElem?_toList, ByteSet.containsAt]
  constructor
  · intro h k hik hkj
    have hk : k < word.size := by omega
    have := h word[k] ⟨k - i, by
      have hsub : i + (k - i) = k := by omega
      simp [hsub, hk, show k - i < j - i by omega]⟩
    simp [hk, this]
  · rintro h b ⟨m, hm⟩
    split at hm
    · have := h (i + m) (by omega) (by omega)
      simpa [hm] using this
    · simp at hm

theorem matches_run_iff {set : ByteSet} {word : Array UInt8} {i j : Nat} (hij : i ≤ j)
    (hj : j ≤ word.size) : Matches (.run set) (word.toList.extract i j) ↔ IsRun set word i j := by
  rw [IsRun, ← forall_mem_extract_iff hj]
  exact ⟨fun h => ⟨hij, by cases h; assumption⟩, fun h => .run h.2⟩

theorem matches_byte_iff {set : ByteSet} {word : Array UInt8} {i j : Nat} (hij : i ≤ j)
    (hj : j ≤ word.size) :
    Matches (.byte set) (word.toList.extract i j) ↔ j = i + 1 ∧ set.containsAt word i = true := by
  have hlen : (word.toList.extract i j).length = j - i := by
    simp only [List.extract_eq_take_drop, List.length_take, List.length_drop, Array.length_toList]
    omega
  constructor
  · intro h
    generalize hw : word.toList.extract i j = w at h hlen
    cases h with
    | @byte _ b hb =>
      have hji : j = i + 1 := by simp at hlen; omega
      refine ⟨hji, (forall_mem_extract_iff hj).mp ?_ i (Nat.le_refl i) (by omega)⟩
      simpa [hw] using hb
  · rintro ⟨rfl, hb⟩
    obtain ⟨b, hw⟩ := List.length_eq_one_iff.mp (hlen.trans (by omega))
    have hall : ∀ b ∈ word.toList.extract i (i + 1), set.contains b = true := by
      refine (forall_mem_extract_iff hj).mpr fun k h1 h2 => ?_
      obtain rfl : k = i := by omega
      exact hb
    rw [hw] at hall ⊢
    exact .byte (hall b List.mem_cons_self)

theorem ends_seq (word : Array UInt8) (left right : Expr) (starts : List Nat) (j : Nat) :
    j ∈ (seq left right).ends word starts ↔
      left.ends word starts ≠ [] ∧ j ∈ right.ends word (left.ends word starts) := by
  rw [ends]
  cases left.ends word starts <;> simp

/-- The positions that are computed are those where a part in the language may end. -/
theorem mem_ends_iff {e : Expr} {word : Array UInt8} {starts : List Nat}
    (hstarts : ∀ i ∈ starts, i ≤ word.size) (j : Nat) :
    j ∈ e.ends word starts ↔
      ∃ i ∈ starts, i ≤ j ∧ j ≤ word.size ∧ Matches e (word.toList.extract i j) := by
  induction e generalizing starts j with
  | done =>
    simp only [ends]
    constructor
    · intro h
      exact ⟨j, h, Nat.le_refl j, hstarts j h, by simpa [List.extract_eq_take_drop] using .done⟩
    · rintro ⟨i, hi, hij, hj, hm⟩
      generalize hw : word.toList.extract i j = w at hm
      cases hm
      have hlen := congrArg List.length hw
      simp only [List.extract_eq_take_drop, List.length_take, List.length_drop,
        Array.length_toList, List.length_nil] at hlen
      rwa [show j = i by omega]
  | byte set =>
    simp only [ends, List.mem_map, List.mem_filter]
    constructor
    · rintro ⟨i, ⟨hi, hb⟩, rfl⟩
      have hlt : i < word.size := by
        refine Nat.lt_of_not_le fun hle => ?_
        simp [ByteSet.containsAt, hle] at hb
      exact ⟨i, hi, Nat.le_succ i, hlt, (matches_byte_iff (Nat.le_succ i) hlt).mpr ⟨rfl, hb⟩⟩
    · rintro ⟨i, hi, hij, hj, hm⟩
      obtain ⟨rfl, hb⟩ := (matches_byte_iff hij hj).mp hm
      exact ⟨i, ⟨hi, hb⟩, rfl⟩
  | run set =>
    have key := @mem_runEnds_iff set word 0 0 starts j (by omega)
    simp only [Nat.not_lt_zero, and_false, false_or] at key
    simp only [ends, key]
    constructor
    · rintro ⟨i, hi, hrun⟩
      have hj : j ≤ word.size := by
        refine Nat.le_of_not_lt fun hlt => ?_
        have hle := hstarts i hi
        have := hrun.2 (j - 1) (by omega) (by omega)
        simp [ByteSet.containsAt, show word.size ≤ j - 1 by omega] at this
      exact ⟨i, hi, hrun.1, hj, (matches_run_iff hrun.1 hj).mpr hrun⟩
    · rintro ⟨i, hi, hij, hj, hm⟩
      exact ⟨i, hi, (matches_run_iff hij hj).mp hm⟩
  | seq left right ihl ihr =>
    have hleft : ∀ i ∈ left.ends word starts, i ≤ word.size := fun i hi => by
      obtain ⟨_, _, _, h, _⟩ := (ihl hstarts i).mp hi
      exact h
    rw [ends_seq, ihr hleft]
    constructor
    · rintro ⟨-, k, hk, hkj, hj, hr⟩
      obtain ⟨i, hi, hik, -, hl⟩ := (ihl hstarts k).mp hk
      refine ⟨i, hi, Nat.le_trans hik hkj, hj, ?_⟩
      rw [← extract_append_extract hik hkj]
      exact .seq hl hr
    · rintro ⟨i, hi, hij, hj, hm⟩
      generalize hw : word.toList.extract i j = w at hm
      cases hm with
      | seq hl hr =>
        obtain ⟨k, hik, hkj, rfl, rfl⟩ := exists_of_extract_eq_append hij (by simpa using hj) hw
        have hk := (ihl hstarts k).mpr ⟨i, hi, hik, Nat.le_trans hkj hj, hl⟩
        exact ⟨List.ne_nil_of_mem hk, k, hk, hkj, hj, hr⟩
  | either left right ihl ihr =>
    simp only [ends, mem_union_iff, ihl hstarts, ihr hstarts]
    constructor
    · rintro (⟨i, hi, hij, hj, hm⟩ | ⟨i, hi, hij, hj, hm⟩)
      · exact ⟨i, hi, hij, hj, .left hm⟩
      · exact ⟨i, hi, hij, hj, .right hm⟩
    · rintro ⟨i, hi, hij, hj, hm⟩
      cases hm with
      | left hm => exact .inl ⟨i, hi, hij, hj, hm⟩
      | right hm => exact .inr ⟨i, hi, hij, hj, hm⟩

/-- Acceptance is membership in the language. -/
theorem accepts_iff {e : Expr} {word : Array UInt8} :
    e.accepts word = true ↔ Matches e word.toList := by
  simp only [accepts, List.contains_iff_mem]
  rw [mem_ends_iff (by simp)]
  simp [List.take_of_length_le]

/-! ## Expressions of several parts -/

/-- Expressions one after the other. -/
def sequence : List Expr → Expr
  | [] => .done
  | [e] => e
  | e :: rest => .seq e (sequence rest)

/-- One of several expressions; without any, the empty word. -/
def choice : List Expr → Expr
  | [] => .done
  | [e] => e
  | e :: rest => .either e (choice rest)

end Expr
end Glob
end AttributeScope
