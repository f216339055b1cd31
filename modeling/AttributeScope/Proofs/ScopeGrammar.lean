import AttributeScope.Scope.Rendering

/-!
# The grammar of scope strings

A scope string is made of patterns, complements and texts in parentheses, with `&&` and `||`
between them.  A complement binds tighter than `&&`, and `&&` tighter than `||`.  The empty string
is the scope without files.

Main results:

- Theorem `Reads.eq_of_append_eq`: where a phrase can end, it ends in one place and is read as one
  expression.
- Theorem `ReadsScope.unique`: a scope string is read as one expression.
-/

namespace AttributeScope
namespace ScopeExpr

/-- The symbols that cannot stand in a pattern. -/
def marks : List Char := ['|', '&', '!', '(', ')']

/-- A text that can stand for a pattern. -/
def IsPlain (text : List Char) : Prop := ∀ c ∈ text, c ∉ marks

instance (text : List Char) : Decidable (IsPlain text) :=
  List.decidableBAll (· ∉ marks) text

/-! ## Phrases -/

/-- What stands between the parts of a phrase. -/
inductive Operator where
  | and
  | or

/-- The operator as it is written. -/
def Operator.text : Operator → List Char
  | .and => ['&', '&']
  | .or => ['|', '|']

/-- What the operator makes of its operands. -/
def Operator.node : Operator → List ScopeExpr → ScopeExpr
  | .and => .intersection
  | .or => .union

/-- The kinds of phrases: without an operator outside of parentheses, or with operators that bind
at least as tight as the given one. -/
inductive Phrase where
  | unary
  | joined (operator : Operator)

/-- What stands on either side of an operator. -/
def Operator.operand : Operator → Phrase
  | .and => .unary
  | .or => .joined .and

/-- What a phrase is read as. -/
inductive Reads : Phrase → List Char → ScopeExpr → Prop
  | pattern {text : List Char} (hplain : IsPlain text) :
      Reads .unary ("file:".toList ++ text) (.literal (String.ofList text))
  | complement {text : List Char} {e : ScopeExpr} (h : Reads .unary text e) :
      Reads .unary ('!' :: text) (.complement e)
  | parentheses {text : List Char} {e : ScopeExpr} (h : Reads (.joined .or) text e) :
      Reads .unary ('(' :: text ++ [')']) e
  | single {op : Operator} {text : List Char} {e : ScopeExpr} (h : Reads op.operand text e) :
      Reads (.joined op) text e
  | join {op : Operator} {front back : List Char} {e f : ScopeExpr}
      (hfront : Reads op.operand front e) (hback : Reads (.joined op) back f) :
      Reads (.joined op) (front ++ op.text ++ back) (op.node [e, f])

/-- What a scope string is read as. -/
inductive ReadsScope : String → ScopeExpr → Prop
  | empty : ReadsScope "" .empty
  | expr {text : String} {e : ScopeExpr} (h : Reads (.joined .or) text.toList e) :
      ReadsScope text e

theorem Reads.ne_nil {phrase : Phrase} {text : List Char} {e : ScopeExpr}
    (h : Reads phrase text e) : text ≠ [] := by
  induction h with
  | pattern _ => simp
  | complement _ _ => simp
  | parentheses _ _ => simp
  | single _ ih => exact ih
  | join _ _ ih _ => simp [ih]

/-! ## Where a phrase ends -/

/-- A text with which no pattern goes on. -/
def IsBoundary (rest : List Char) : Prop := ∀ c, rest.head? = some c → c ∈ marks

/-- A text with which no phrase of the given kind goes on. -/
def Stops : Phrase → List Char → Prop
  | .unary, rest => IsBoundary rest
  | .joined .and, rest => IsBoundary rest ∧ ¬ Operator.and.text <+: rest
  | .joined .or, rest =>
    (IsBoundary rest ∧ ¬ Operator.and.text <+: rest) ∧ ¬ Operator.or.text <+: rest

section Stops

variable {op : Operator} {phrase : Phrase} {rest : List Char}

theorem stops_joined_iff :
    Stops (.joined op) rest ↔ Stops op.operand rest ∧ ¬ op.text <+: rest := by
  cases op with
  | and => rfl
  | or => rfl

theorem isBoundary_cons_iff {c : Char} : IsBoundary (c :: rest) ↔ c ∈ marks := by
  simp [IsBoundary]

/-- The operands of an operator end in front of it. -/
theorem stops_operand_text (op : Operator) (rest : List Char) :
    Stops op.operand (op.text ++ rest) := by
  cases op with
  | and => exact isBoundary_cons_iff.mpr (by decide)
  | or =>
    refine ⟨isBoundary_cons_iff.mpr (by decide), fun h => ?_⟩
    exact absurd (List.cons_prefix_cons.mp h).1 (by decide)

theorem stops_parenthesis (phrase : Phrase) (rest : List Char) : Stops phrase (')' :: rest) := by
  have hunary : Stops .unary (')' :: rest) := isBoundary_cons_iff.mpr (by decide)
  have hnot : ∀ op : Operator, ¬ op.text <+: ')' :: rest := by
    intro op h
    cases op with
    | and => exact absurd (List.cons_prefix_cons.mp h).1 (by decide)
    | or => exact absurd (List.cons_prefix_cons.mp h).1 (by decide)
  match phrase with
  | .unary => exact hunary
  | .joined .and => exact ⟨hunary, hnot .and⟩
  | .joined .or => exact ⟨⟨hunary, hnot .and⟩, hnot .or⟩

theorem stops_nil (phrase : Phrase) : Stops phrase [] := by
  have hunary : Stops .unary [] := by simp [Stops, IsBoundary]
  match phrase with
  | .unary => exact hunary
  | .joined .and => exact ⟨hunary, by decide⟩
  | .joined .or => exact ⟨⟨hunary, by decide⟩, by decide⟩

end Stops

/-! ## Unambiguity -/

/-- A pattern ends in front of the first mark. -/
theorem IsPlain.eq_of_append_eq {front other rest rest' : List Char} (hfront : IsPlain front)
    (hother : IsPlain other) (hrest : IsBoundary rest) (hrest' : IsBoundary rest')
    (heq : front ++ rest = other ++ rest') : front = other := by
  -- What the longer one has more begins with a mark, as it also begins what follows the other.
  have hnil : ∀ {text more tail : List Char}, IsPlain (text ++ more) → IsBoundary (more ++ tail) →
      more = [] := by
    intro text more tail hplain hboundary
    cases more with
    | nil => rfl
    | cons c others =>
      exact absurd (isBoundary_cons_iff.mp hboundary) (hplain c (by simp))
  rcases List.append_eq_append_iff.mp heq with ⟨more, rfl, rfl⟩ | ⟨more, rfl, rfl⟩
  · rw [hnil hother hrest, List.append_nil]
  · rw [hnil hfront hrest', List.append_nil]

/-- Where a phrase can end, it ends in one place and is read as one expression. -/
theorem Reads.eq_of_append_eq {phrase : Phrase} {front other rest rest' : List Char}
    {e f : ScopeExpr} (h : Reads phrase front e) (hother : Reads phrase other f)
    (hrest : Stops phrase rest) (hrest' : Stops phrase rest')
    (heq : front ++ rest = other ++ rest') : front = other ∧ e = f := by
  induction h generalizing other f rest rest' with
  | @pattern text hplain =>
    cases hother with
    | @pattern text' hplain' =>
      rw [List.append_assoc, List.append_assoc, List.append_right_inj] at heq
      rw [hplain.eq_of_append_eq hplain' hrest hrest' heq]
      exact ⟨rfl, rfl⟩
    | complement _ => exact absurd (List.cons.inj heq).1 (by decide)
    | parentheses _ => exact absurd (List.cons.inj heq).1 (by decide)
  | complement _ ih =>
    cases hother with
    | pattern _ => exact absurd (List.cons.inj heq).1 (by decide)
    | complement hoperand =>
      rcases ih hoperand hrest hrest' (List.cons.inj heq).2 with ⟨rfl, rfl⟩
      exact ⟨rfl, rfl⟩
    | parentheses _ => exact absurd (List.cons.inj heq).1 (by decide)
  | parentheses _ ih =>
    cases hother with
    | pattern _ => exact absurd (List.cons.inj heq).1 (by decide)
    | complement _ => exact absurd (List.cons.inj heq).1 (by decide)
    | parentheses hinner =>
      simp only [List.cons_append, List.append_assoc] at heq
      rcases ih hinner (stops_parenthesis _ _) (stops_parenthesis _ _) (List.cons.inj heq).2 with
        ⟨rfl, rfl⟩
      exact ⟨rfl, rfl⟩
  | @single op _ _ _ ih =>
    rw [stops_joined_iff] at hrest hrest'
    cases hother with
    | single hoperand => exact ih hoperand hrest.1 hrest'.1 heq
    | join hoperand _ =>
      simp only [List.append_assoc] at heq
      rcases ih hoperand hrest.1 (stops_operand_text op _) heq with ⟨rfl, _⟩
      exact absurd ⟨_, (List.append_cancel_left heq).symm⟩ hrest.2
  | @join op _ _ _ _ _ _ ihfront ihback =>
    cases hother with
    | single hoperand =>
      rw [stops_joined_iff] at hrest'
      simp only [List.append_assoc] at heq
      rcases ihfront hoperand (stops_operand_text op _) hrest'.1 heq with ⟨rfl, _⟩
      exact absurd ⟨_, List.append_cancel_left heq⟩ hrest'.2
    | join hoperand hrests =>
      simp only [List.append_assoc] at heq
      rcases ihfront hoperand (stops_operand_text op _) (stops_operand_text op _) heq with
        ⟨rfl, rfl⟩
      have hback := List.append_cancel_left (List.append_cancel_left heq)
      rcases ihback hrests hrest hrest' hback with ⟨rfl, rfl⟩
      exact ⟨rfl, rfl⟩

/-- A scope string is read as one expression. -/
theorem ReadsScope.unique {text : String} {e f : ScopeExpr} (h : ReadsScope text e)
    (hother : ReadsScope text f) : e = f := by
  cases h with
  | empty =>
    cases hother with
    | empty => rfl
    | expr hexpr => exact absurd rfl hexpr.ne_nil
  | expr hexpr =>
    cases hother with
    | empty => exact absurd rfl hexpr.ne_nil
    | expr hexpr' =>
      exact (hexpr.eq_of_append_eq hexpr' (stops_nil _) (stops_nil _) rfl).2

end ScopeExpr
end AttributeScope
