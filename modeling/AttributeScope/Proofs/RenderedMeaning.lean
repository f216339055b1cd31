import AttributeScope.Proofs.ScopeGrammar
import AttributeScope.Scope.Scopes

/-!
# Rendered expressions

A scope string says what the expression means that it is written from.  It need not be read as the
same expression: operands are grouped in pairs, a union of one operand is written as that operand,
and the complement of the empty scope as the pattern for all files.

Main results:

- Theorem `says_node`: operands keep their meaning with an operator between them.
- Theorem `says_renderChars`: an expression keeps its meaning, also as an operand.
- Theorem `readsScope_render`: a rendered expression is read as one expression, which accepts the
  same files.
- Theorem `isWritable_ofClassification`: the scopes of a classification can be rendered.
-/

namespace AttributeScope
namespace ScopeExpr

universe u

/-- Expressions with a scope string: their patterns can be written, unions and intersections have
operands, and the empty scope is only complemented. -/
inductive IsWritable : ScopeExpr → Prop
  | literal {pattern : String} (hne : pattern ≠ "") (hplain : IsPlain pattern.toList) :
      IsWritable (.literal pattern)
  | union {operands : List ScopeExpr} (hne : operands ≠ [])
      (h : ∀ operand ∈ operands, IsWritable operand) : IsWritable (.union operands)
  | intersection {operands : List ScopeExpr} (hne : operands ≠ [])
      (h : ∀ operand ∈ operands, IsWritable operand) : IsWritable (.intersection operands)
  | complementEmpty : IsWritable (.complement .empty)
  | complement {operand : ScopeExpr} (h : IsWritable operand) : IsWritable (.complement operand)

/-! ## Expressions with the same meaning -/

/-- Expressions that accept the same files if the pattern for all files matches all of them. -/
def SameMeaning (e f : ScopeExpr) : Prop :=
  ∀ matched : String → Prop, matched allFiles → (Accepts matched e ↔ Accepts matched f)

section SameMeaning

variable {e f operand : ScopeExpr}

theorem SameMeaning.refl (e : ScopeExpr) : SameMeaning e e := fun _ _ => Iff.rfl

theorem SameMeaning.trans {g : ScopeExpr} (h : SameMeaning e f) (hother : SameMeaning f g) :
    SameMeaning e g := fun matched hall => (h matched hall).trans (hother matched hall)

theorem SameMeaning.complement (h : SameMeaning e f) :
    SameMeaning (.complement e) (.complement f) := by
  intro matched hall
  rw [accepts_complement, accepts_complement, h matched hall]

/-- The pattern for all files is the complement of the empty scope. -/
theorem sameMeaning_allFiles : SameMeaning (.literal allFiles) (.complement .empty) := by
  intro matched hall
  simp [Accepts, hall]

/-- A single operand means the same as the union or intersection of it. -/
theorem sameMeaning_node_singleton (op : Operator) (operand : ScopeExpr) :
    SameMeaning operand (op.node [operand]) := by
  intro matched _
  cases op with
  | and => simp [Operator.node, Accepts, AllAccept]
  | or => simp [Operator.node, Accepts, SomeAccepts]

/-- Operands may be grouped. -/
theorem SameMeaning.node_cons {rest : List ScopeExpr} (op : Operator) (h : SameMeaning e operand)
    (hrest : SameMeaning f (op.node rest)) :
    SameMeaning (op.node [e, f]) (op.node (operand :: rest)) := by
  intro matched hall
  have hfirst := h matched hall
  have hothers := hrest matched hall
  cases op with
  | and =>
    simp only [Operator.node, Accepts, AllAccept, and_true] at hothers ⊢
    rw [hfirst, hothers]
  | or =>
    simp only [Operator.node, Accepts, SomeAccepts, or_false] at hothers ⊢
    rw [hfirst, hothers]

end SameMeaning

/-! ## Phrases that say what an expression means -/

/-- Whether a phrase is read as an expression with the meaning of the given one. -/
def Says (phrase : Phrase) (text : List Char) (e : ScopeExpr) : Prop :=
  ∃ read, Reads phrase text read ∧ SameMeaning read e

section Says

variable {op : Operator} {text : List Char} {e : ScopeExpr}

theorem says_renderPattern {pattern : String} (h : IsPlain pattern.toList) :
    Says .unary (renderPattern pattern) (.literal pattern) := by
  refine ⟨.literal pattern, ?_, SameMeaning.refl _⟩
  have hreads := Reads.pattern h
  rwa [String.ofList_toList] at hreads

theorem Says.complement (h : Says .unary text e) : Says .unary ('!' :: text) (.complement e) := by
  rcases h with ⟨read, hreads, hsame⟩
  exact ⟨.complement read, .complement hreads, hsame.complement⟩

theorem Says.parenthesize (h : Says (.joined .or) text e) : Says .unary (parenthesize text) e := by
  rcases h with ⟨read, hreads, hsame⟩
  exact ⟨read, .parentheses hreads, hsame⟩

theorem Says.operand (op : Operator) (h : Says .unary text e) : Says op.operand text e := by
  rcases h with ⟨read, hreads, hsame⟩
  cases op with
  | and => exact ⟨read, hreads, hsame⟩
  | or => exact ⟨read, .single hreads, hsame⟩

theorem Says.single (h : Says op.operand text e) : Says (.joined op) text e := by
  rcases h with ⟨read, hreads, hsame⟩
  exact ⟨read, .single hreads, hsame⟩

/-- Every phrase with operators is a phrase of the loosest kind. -/
theorem Says.loosest (h : Says (.joined op) text e) : Says (.joined .or) text e := by
  rcases h with ⟨read, hreads, hsame⟩
  cases op with
  | and => exact ⟨read, .single hreads, hsame⟩
  | or => exact ⟨read, hreads, hsame⟩

theorem Says.of_sameMeaning {phrase : Phrase} {f : ScopeExpr} (h : Says phrase text e)
    (hsame : SameMeaning e f) : Says phrase text f := by
  rcases h with ⟨read, hreads, hread⟩
  exact ⟨read, hreads, hread.trans hsame⟩

end Says

/-! ## Operands with an operator between them -/

section Operands

variable {operands : List ScopeExpr}

theorem renderChars_node (op : Operator) (operands : List ScopeExpr) :
    renderChars (op.node operands) = renderJoined op.text operands := by
  cases op with
  | and => rw [Operator.node, Operator.text, renderChars]
  | or => rw [Operator.node, Operator.text, renderChars]

theorem isCompound_node (op : Operator) (operands : List ScopeExpr) :
    isCompound (op.node operands) = decide (1 < operands.length) := by
  cases op with
  | and => rfl
  | or => rfl

/-- Operands that keep their meaning keep it with an operator between them. -/
theorem says_renderJoined (op : Operator) (hne : operands ≠ [])
    (h : ∀ operand ∈ operands, Says .unary (asOperand operand (renderChars operand)) operand) :
    Says (.joined op) (renderJoined op.text operands) (op.node operands) := by
  induction operands with
  | nil => exact absurd rfl hne
  | cons operand rest ih =>
    have hfirst := (h operand List.mem_cons_self).operand op
    cases rest with
    | nil =>
      rw [renderJoined]
      exact hfirst.single.of_sameMeaning (sameMeaning_node_singleton op operand)
    | cons next others =>
      have hothers := ih (by simp) fun other hmem => h other (List.mem_cons_of_mem operand hmem)
      rcases hfirst with ⟨e, hfront, he⟩
      rcases hothers with ⟨f, hback, hf⟩
      rw [renderJoined.eq_3 _ _ _ (by simp)]
      exact ⟨op.node [e, f], .join hfront hback, SameMeaning.node_cons op he hf⟩

/-- A union or an intersection keeps its meaning if its operands do.  It stands in parentheses
where it is an operand itself, unless it is written as its only operand is. -/
theorem says_node (op : Operator) (hne : operands ≠ [])
    (h : ∀ operand ∈ operands, Says .unary (asOperand operand (renderChars operand)) operand) :
    Says (.joined .or) (renderChars (op.node operands)) (op.node operands) ∧
      Says .unary (asOperand (op.node operands) (renderChars (op.node operands)))
        (op.node operands) := by
  have hjoined : Says (.joined .or) (renderChars (op.node operands)) (op.node operands) := by
    rw [renderChars_node]
    exact (says_renderJoined op hne h).loosest
  refine ⟨hjoined, ?_⟩
  rw [asOperand, isCompound_node]
  by_cases hseveral : 1 < operands.length
  · rw [decide_eq_true hseveral, if_pos rfl]
    exact hjoined.parenthesize
  · rw [decide_eq_false hseveral, if_neg Bool.false_ne_true]
    have hpos := List.length_pos_iff.mpr hne
    rcases List.length_eq_one_iff.mp (by omega : operands.length = 1) with ⟨operand, rfl⟩
    rw [renderChars_node, renderJoined]
    exact (h operand List.mem_cons_self).of_sameMeaning (sameMeaning_node_singleton op operand)

end Operands

/-! ## Whole expressions -/

/-- A complement keeps its meaning if its operand does. -/
theorem says_complement {operand : ScopeExpr} (hne : operand ≠ .empty)
    (hwhole : Says (.joined .or) (renderChars operand) operand)
    (hoperand : Says .unary (asOperand operand (renderChars operand)) operand) :
    Says .unary (renderChars (.complement operand)) (.complement operand) := by
  by_cases hliteral : ∃ pattern, operand = .literal pattern
  · rcases hliteral with ⟨pattern, rfl⟩
    have hunary : Says .unary (renderPattern pattern) (.literal pattern) := by
      simpa [asOperand, isCompound, renderChars] using hoperand
    rw [renderChars]
    exact hunary.complement
  · rw [renderChars.eq_7 _ hne fun pattern h => hliteral ⟨pattern, h⟩]
    exact hwhole.parenthesize.complement

theorem IsWritable.ne_empty {e : ScopeExpr} (h : IsWritable e) : e ≠ .empty := by
  rintro rfl
  cases h

/-- An expression keeps its meaning when it is rendered, as a whole and as an operand. -/
theorem says_renderChars {e : ScopeExpr} (h : IsWritable e) :
    Says (.joined .or) (renderChars e) e ∧ Says .unary (asOperand e (renderChars e)) e := by
  -- What needs no parentheses as an operand is the same text as a whole.
  have hsimple : ∀ {f : ScopeExpr}, isCompound f = false → Says .unary (renderChars f) f →
      Says (.joined .or) (renderChars f) f ∧ Says .unary (asOperand f (renderChars f)) f := by
    intro f hf hunary
    refine ⟨(hunary.operand .or).single, ?_⟩
    rwa [asOperand, hf, if_neg Bool.false_ne_true]
  induction h with
  | literal _ hplain =>
    refine hsimple rfl ?_
    rw [renderChars]
    exact says_renderPattern hplain
  | @union operands hne _ ih => exact says_node .or hne fun o ho => (ih o ho).2
  | @intersection operands hne _ ih => exact says_node .and hne fun o ho => (ih o ho).2
  | complementEmpty =>
    refine hsimple rfl ?_
    rw [renderChars]
    exact (says_renderPattern (by decide)).of_sameMeaning sameMeaning_allFiles
  | complement h ih =>
    exact hsimple rfl (says_complement h.ne_empty ih.1 ih.2)

/-- A rendered expression is read as one expression.  That accepts the same files, whatever the
patterns match, as long as the pattern for all files matches all of them. -/
theorem readsScope_render {e : ScopeExpr} (h : e = .empty ∨ IsWritable e) :
    ∃ read, ReadsScope (render e) read ∧ (∀ other, ReadsScope (render e) other → other = read) ∧
      ∀ {File : Type u} (matched : String → File → Prop), (∀ file, matched allFiles file) →
        ∀ file, Accepts (matched · file) read ↔ Accepts (matched · file) e := by
  have hsays : ∃ read, ReadsScope (render e) read ∧ SameMeaning read e := by
    rcases h with rfl | hwritable
    · exact ⟨.empty, .empty, SameMeaning.refl _⟩
    · rcases (says_renderChars hwritable).1 with ⟨read, hreads, hsame⟩
      refine ⟨read, .expr ?_, hsame⟩
      rwa [render, String.toList_ofList]
  rcases hsays with ⟨read, hreads, hsame⟩
  refine ⟨read, hreads, fun other hother => hother.unique hreads, ?_⟩
  intro File matched hall file
  exact hsame (matched · file) (hall file)

/-- Unions of one and of two operands, a complement of several and the complement of the empty
scope inside each other. -/
def nestedScope : ScopeExpr :=
  .intersection [.union [.union [.literal "a", .literal "b"]],
    .complement (.intersection [.complement .empty, .literal "c"])]

/-- The files that `a` or `b` matches and `c` does not. -/
theorem readsScope_render_nestedScope :
    render nestedScope = "(file:a||file:b)&&!(file:*//*&&file:c)" ∧ IsWritable nestedScope ∧
    ∃ read, ReadsScope (render nestedScope) read ∧
      (∀ other, ReadsScope (render nestedScope) other → other = read) ∧
      ∀ file : String,
        Accepts (fun pattern => pattern = allFiles ∨ pattern = file) read ↔
          Accepts (fun pattern => pattern = allFiles ∨ pattern = file) nestedScope := by
  have hunion : IsWritable (.union [.literal "a", .literal "b"]) :=
    .union (by simp) (List.forall_mem_cons.mpr ⟨.literal (by decide) (by decide),
      List.forall_mem_singleton.mpr (.literal (by decide) (by decide))⟩)
  have hinner : IsWritable (.intersection [.complement .empty, .literal "c"]) :=
    .intersection (by simp) (List.forall_mem_cons.mpr ⟨.complementEmpty,
      List.forall_mem_singleton.mpr (.literal (by decide) (by decide))⟩)
  have hwritable : IsWritable nestedScope :=
    .intersection (by simp) (List.forall_mem_cons.mpr
      ⟨.union (by simp) (List.forall_mem_singleton.mpr hunion),
        List.forall_mem_singleton.mpr (.complement hinner)⟩)
  rcases readsScope_render (Or.inr hwritable) with ⟨read, hreads, hunique, hmeaning⟩
  refine ⟨by decide +kernel, hwritable, read, hreads, hunique, fun file => ?_⟩
  exact hmeaning (fun pattern file => pattern = allFiles ∨ pattern = file)
    (fun _ => Or.inl rfl) file

/-! ## The scopes of a classification -/

/-- Whether a pattern can stand in a scope string. -/
def IsScopePattern (pattern : String) : Prop := pattern ≠ "" ∧ IsPlain pattern.toList

theorem isWritable_unionOf {patterns : List String} (hne : patterns ≠ [])
    (h : ∀ pattern ∈ patterns, IsScopePattern pattern) : IsWritable (unionOf patterns) := by
  rw [unionOf, if_neg (by simpa using hne)]
  refine .union (by simpa using hne) fun operand hoperand => ?_
  rcases List.mem_map.mp hoperand with ⟨pattern, hpattern, rfl⟩
  exact .literal (h pattern hpattern).1 (h pattern hpattern).2

/-- The scope of the generated files can be rendered if the patterns can. -/
theorem isWritable_generatedScope {m : Classification}
    (h : ∀ generated, ∀ pattern ∈ m.patterns generated, IsScopePattern pattern) :
    Scopes.generatedScope m = .empty ∨ IsWritable (Scopes.generatedScope m) := by
  have hgenerated := h true
  have hother := h false
  unfold Scopes.generatedScope
  generalize m.patterns true = generated at hgenerated ⊢
  generalize m.patterns false = nonGenerated at hother ⊢
  cases generated with
  | nil => exact Or.inl rfl
  | cons pattern rest =>
    have hunion := isWritable_unionOf (List.cons_ne_nil pattern rest) hgenerated
    cases nonGenerated with
    | nil => exact Or.inr hunion
    | cons other others =>
      have hcomplement := (isWritable_unionOf (List.cons_ne_nil other others) hother).complement
      exact Or.inr (.intersection (by simp)
        (List.forall_mem_cons.mpr ⟨hunion, List.forall_mem_singleton.mpr hcomplement⟩))

/-- Both scopes of a classification can be rendered if the patterns can. -/
theorem isWritable_ofClassification {m : Classification}
    (h : ∀ generated, ∀ pattern ∈ m.patterns generated, IsScopePattern pattern) :
    ((Scopes.ofClassification m).generated = .empty ∨
      IsWritable (Scopes.ofClassification m).generated) ∧
    IsWritable (Scopes.ofClassification m).nonGenerated := by
  have hscope := isWritable_generatedScope h
  refine ⟨hscope, ?_⟩
  change IsWritable (.complement (Scopes.generatedScope m))
  rcases hscope with hempty | hwritable
  · rw [hempty]
    exact .complementEmpty
  · exact .complement hwritable

end ScopeExpr
end AttributeScope
