import Mathlib.Data.List.Infix
import AttributeScope.Proofs.PatternCharacters
import AttributeScope.Proofs.ProjectVerdicts
import AttributeScope.Proofs.RenderedMeaning

/-!
# Scope strings that show what was computed

Patterns are written into scope strings as they are, also where they hold what stands between
patterns there.  A pattern with `||file:` is written like two patterns, and a generated one with
`&&!(file:` like a pattern and an exclusion.  Nothing else can be confused: without these two texts
the scope string of the generated files tells which patterns it was written from.

Main results:

- Theorem `IsMark.eq_of_append_mark_eq`: a text is cut in one way at the first place of a mark.
- Theorem `IsMark.intercalate_inj`: texts with a mark between them are found again.
- Theorem `generatedScope_eq_of_renderChars_eq`: legible scopes with the same text are the same.
- Theorem `isLegible_classification`: attribute files without `|` and `&` are legible.
- Theorem `generated_eq_of_render_eq`: runs with the same string computed the same expression.
-/

namespace AttributeScope

/-! ## Marks in a text -/

namespace Text

/-- A mark that ends with a character it has nowhere else, so that it does not overlap itself. -/
def IsMark (mark : List Char) : Prop :=
  ∃ body last, mark = body ++ [last] ∧ last ∉ body

section Marks

variable {mark front front' back back' : List Char}

/-- No proper part at the end of a mark is also its beginning. -/
theorem IsMark.eq_of_prefix_of_suffix (hmark : IsMark mark) {part : List Char} (hne : part ≠ [])
    (hbegins : part <+: mark) (hends : part <:+ mark) : part = mark := by
  rcases hmark with ⟨body, last, rfl, hlast⟩
  rcases List.prefix_concat_iff.mp hbegins with heq | hbody
  · exact heq
  · have hend : part.getLast? = some last := by
      rcases hends with ⟨rest, hrest⟩
      rw [← List.getLast?_concat (l := body), ← hrest, List.getLast?_append,
        List.getLast?_eq_some_getLast hne, Option.some_or]
    exact absurd (hbody.subset (List.mem_of_getLast? hend)) hlast

/-- Nothing stands in front of the first place of a mark. -/
theorem IsMark.eq_nil_of_append_eq (hmark : IsMark mark) (hfront : ¬ mark <+: front)
    (heq : mark ++ back = front ++ (mark ++ back')) : front = [] := by
  rcases List.append_eq_append_iff.mp heq with ⟨rest, hrest, -⟩ | ⟨rest, hrest, hback⟩
  · exact absurd ⟨rest, hrest.symm⟩ hfront
  · by_cases hnil : rest = []
    · rw [hnil, List.append_nil] at hrest
      exact absurd (hrest ▸ List.prefix_rfl) hfront
    · have hlength : rest.length ≤ mark.length := by simp [hrest]
      have hbegins : rest <+: mark := by
        apply List.prefix_of_prefix_length_le _ (List.prefix_append mark back') hlength
        exact ⟨back, hback.symm⟩
      have hwhole := hmark.eq_of_prefix_of_suffix hnil hbegins ⟨front, hrest.symm⟩
      rw [hwhole] at hrest
      exact List.self_eq_append_left.mp hrest

/-- A text is cut in one way at the first place where a mark stands. -/
theorem IsMark.eq_of_append_mark_eq (hmark : IsMark mark) (hfront : ¬ mark <:+: front)
    (hfront' : ¬ mark <:+: front') (heq : front ++ mark ++ back = front' ++ mark ++ back') :
    front = front' ∧ back = back' := by
  rw [List.append_assoc, List.append_assoc] at heq
  have hsame : front = front' := by
    rcases List.append_eq_append_iff.mp heq with ⟨more, rfl, hmore⟩ | ⟨more, rfl, hmore⟩
    · have hnone : ¬ mark <+: more := fun h =>
        hfront' (h.isInfix.trans (List.suffix_append front more).isInfix)
      rw [hmark.eq_nil_of_append_eq hnone hmore, List.append_nil]
    · have hnone : ¬ mark <+: more := fun h =>
        hfront (h.isInfix.trans (List.suffix_append front' more).isInfix)
      rw [hmark.eq_nil_of_append_eq hnone hmore, List.append_nil]
  subst hsame
  exact ⟨rfl, List.append_cancel_left (List.append_cancel_left heq)⟩

/-- Texts with a mark between them are found again. -/
theorem IsMark.intercalate_inj (hmark : IsMark mark) {parts parts' : List (List Char)}
    (hne : parts ≠ []) (hne' : parts' ≠ []) (hparts : ∀ part ∈ parts, ¬ mark <:+: part)
    (hparts' : ∀ part ∈ parts', ¬ mark <:+: part)
    (heq : List.intercalate mark parts = List.intercalate mark parts') : parts = parts' := by
  induction parts generalizing parts' with
  | nil => exact absurd rfl hne
  | cons part rest ih =>
    cases parts' with
    | nil => exact absurd rfl hne'
    | cons part' rest' =>
      have hpart : ¬ mark <:+: part := hparts part List.mem_cons_self
      have hpart' : ¬ mark <:+: part' := hparts' part' List.mem_cons_self
      by_cases hrest : rest = [] <;> by_cases hrest' : rest' = []
      · subst hrest hrest'
        rw [List.intercalate_singleton, List.intercalate_singleton] at heq
        rw [heq]
      · subst hrest
        rw [List.intercalate_singleton, List.intercalate_cons_of_ne_nil hrest'] at heq
        exact absurd ⟨part', _, heq.symm⟩ hpart
      · subst hrest'
        rw [List.intercalate_singleton, List.intercalate_cons_of_ne_nil hrest] at heq
        exact absurd ⟨part, _, heq⟩ hpart'
      · rw [List.intercalate_cons_of_ne_nil hrest, List.intercalate_cons_of_ne_nil hrest'] at heq
        rcases hmark.eq_of_append_mark_eq hpart hpart' heq with ⟨rfl, hothers⟩
        rw [ih hrest hrest' (fun p hp => hparts p (List.mem_cons_of_mem part hp))
          (fun p hp => hparts' p (List.mem_cons_of_mem part hp)) hothers]

/-- A mark does not begin in a text without its first character. -/
theorem infix_of_infix_append_of_not_mem {c : Char} {rest : List Char} (hfront : c ∉ front)
    (h : c :: rest <:+: front ++ back) : c :: rest <:+: back := by
  rcases List.infix_append_iff.mp h with hinside | hinside | ⟨start, others, heq, hstart, hothers⟩
  · exact absurd (hinside.mem List.mem_cons_self) hfront
  · exact hinside
  · rcases List.cons_eq_append_iff.mp heq with ⟨-, rfl⟩ | ⟨more, rfl, -⟩
    · exact hothers.isInfix
    · exact absurd (hstart.mem List.mem_cons_self) hfront

end Marks

end Text

namespace ScopeExpr

/-! ## The texts between patterns -/

/-- What stands between two patterns of a union. -/
def unionMark : List Char := "||file:".toList

/-- What stands between the generated patterns and the others. -/
def exclusionMark : List Char := "&&!(file:".toList

theorem isMark_unionMark : Text.IsMark unionMark := ⟨"||file".toList, ':', by decide, by decide⟩

theorem isMark_exclusionMark : Text.IsMark exclusionMark :=
  ⟨"&&!(file".toList, ':', by decide, by decide⟩

/-- The patterns of a union as they are written after its first `file:`. -/
def patternsText (patterns : List String) : List Char :=
  List.intercalate unionMark (patterns.map String.toList)

section Unions

variable {patterns patterns' : List String}

theorem patternsText_singleton (pattern : String) : patternsText [pattern] = pattern.toList := by
  rw [patternsText, List.map_singleton, List.intercalate_singleton]

theorem patternsText_cons (pattern : String) (hne : patterns ≠ []) :
    patternsText (pattern :: patterns) = pattern.toList ++ unionMark ++ patternsText patterns := by
  rw [patternsText, List.map_cons, List.intercalate_cons_of_ne_nil (by simpa using hne),
    patternsText]

/-- A pattern as an operand is written as it is alone. -/
theorem asOperand_literal (pattern : String) :
    asOperand (literal pattern) (renderChars (literal pattern)) =
      "file:".toList ++ pattern.toList := by
  rw [renderChars]
  rfl

theorem renderJoined_literals (hne : patterns ≠ []) :
    renderJoined ['|', '|'] (patterns.map literal) = "file:".toList ++ patternsText patterns := by
  have hmark : unionMark = ['|', '|'] ++ "file:".toList := by decide
  induction patterns with
  | nil => exact absurd rfl hne
  | cons pattern rest ih =>
    by_cases hrest : rest = []
    · subst hrest
      rw [List.map_singleton, renderJoined, asOperand_literal, patternsText_singleton]
    · rw [List.map_cons, renderJoined.eq_3 _ _ _ (by simpa using hrest), ih hrest,
        asOperand_literal, patternsText_cons pattern hrest, hmark]
      simp only [List.append_assoc]

theorem renderChars_unionOf (hne : patterns ≠ []) :
    renderChars (unionOf patterns) = "file:".toList ++ patternsText patterns := by
  rw [unionOf, if_neg (by simpa using hne), renderChars, renderJoined_literals hne]

/-- Patterns without the text between two patterns are found again. -/
theorem patternsText_inj (hne : patterns ≠ []) (hne' : patterns' ≠ [])
    (h : ∀ pattern ∈ patterns, ¬ unionMark <:+: pattern.toList)
    (h' : ∀ pattern ∈ patterns', ¬ unionMark <:+: pattern.toList)
    (heq : patternsText patterns = patternsText patterns') : patterns = patterns' := by
  have hmap := isMark_unionMark.intercalate_inj (by simpa using hne) (by simpa using hne')
    (by simpa using h) (by simpa using h') heq
  exact (List.map_inj_right fun _ _ => String.toList_inj.mp).mp hmap

/-- No exclusion begins between the patterns of a union. -/
theorem not_exclusionMark_infix_patternsText
    (h : ∀ pattern ∈ patterns, ¬ exclusionMark <:+: pattern.toList) :
    ¬ exclusionMark <:+: patternsText patterns := by
  induction patterns with
  | nil => decide
  | cons pattern rest ih =>
    have hpattern := h pattern List.mem_cons_self
    by_cases hrest : rest = []
    · subst hrest
      rwa [patternsText_singleton]
    · have hmark : unionMark = '|' :: "|file:".toList := by decide
      rw [patternsText_cons pattern hrest, List.append_assoc, hmark, List.cons_append]
      intro hinfix
      rcases Text.infix_or_infix_of_not_mem (by decide) hinfix with hinside | hbehind
      · exact hpattern hinside
      · exact ih (fun p hp => h p (List.mem_cons_of_mem pattern hp))
          (Text.infix_of_infix_append_of_not_mem (by decide) hbehind)

end Unions

/-! ## Operands -/

section Operands

variable {patterns patterns' : List String}

/-- A complement as an operand is not put in parentheses. -/
theorem asOperand_complement (operand : ScopeExpr) (text : List Char) :
    asOperand (.complement operand) text = text := rfl

/-- The union of patterns as an operand: in parentheses if there are several. -/
theorem asOperand_unionOf (hne : patterns ≠ []) (text : List Char) :
    asOperand (unionOf patterns) text =
      if 1 < patterns.length then parenthesize text else text := by
  simp [unionOf, hne, asOperand, isCompound]

/-- Patterns as an operand show whether they stand in parentheses. -/
theorem renderChars_eq_of_asOperand_eq (hne : patterns ≠ []) (hne' : patterns' ≠ [])
    (heq : asOperand (unionOf patterns) (renderChars (unionOf patterns)) =
      asOperand (unionOf patterns') (renderChars (unionOf patterns'))) :
    renderChars (unionOf patterns) = renderChars (unionOf patterns') := by
  rw [asOperand_unionOf hne, asOperand_unionOf hne'] at heq
  have hfirst : (renderChars (unionOf patterns)).head? = some 'f' := by
    rw [renderChars_unionOf hne]
    rfl
  have hfirst' : (renderChars (unionOf patterns')).head? = some 'f' := by
    rw [renderChars_unionOf hne']
    rfl
  split at heq <;> split at heq
  · exact List.append_cancel_right (List.cons.inj heq).2
  · rw [← heq] at hfirst'
    exact absurd hfirst' (by simp [parenthesize])
  · rw [heq] at hfirst
    exact absurd hfirst (by simp [parenthesize])
  · exact heq

/-- No exclusion begins in a union of patterns that hold none, also where it is an operand. -/
theorem not_exclusionMark_infix_asOperand (hne : patterns ≠ [])
    (h : ∀ pattern ∈ patterns, ¬ exclusionMark <:+: pattern.toList) :
    ¬ exclusionMark <:+: renderChars (unionOf patterns) ∧
      ¬ exclusionMark <:+: asOperand (unionOf patterns) (renderChars (unionOf patterns)) := by
  have hwhole : ¬ exclusionMark <:+: renderChars (unionOf patterns) := by
    rw [renderChars_unionOf hne]
    intro hinfix
    exact not_exclusionMark_infix_patternsText h
      (Text.infix_of_infix_append_of_not_mem (by decide) hinfix)
  refine ⟨hwhole, ?_⟩
  rw [asOperand_unionOf hne]
  split
  · intro hinfix
    have hopened : exclusionMark <:+: ['('] ++ (renderChars (unionOf patterns) ++ [')']) := hinfix
    rcases Text.infix_or_infix_of_not_mem (by decide)
      (Text.infix_of_infix_append_of_not_mem (by decide) hopened) with hinside | hend
    · exact hwhole hinside
    · exact absurd (List.infix_nil.mp hend) (by decide)
  · exact hwhole

/-- The text of generated patterns with excluded patterns. -/
theorem renderChars_exclusion (hne : patterns' ≠ []) :
    renderChars (.intersection [unionOf patterns, .complement (unionOf patterns')]) =
      asOperand (unionOf patterns) (renderChars (unionOf patterns)) ++ exclusionMark ++
        (patternsText patterns' ++ [')']) := by
  have hcomplement : renderChars (.complement (unionOf patterns')) =
      '!' :: parenthesize ("file:".toList ++ patternsText patterns') := by
    rw [← renderChars_unionOf hne, unionOf, if_neg (by simpa using hne)]
    exact renderChars.eq_7 _ (by simp) (by simp)
  have hmark : exclusionMark = ['&', '&'] ++ '!' :: '(' :: "file:".toList := by decide
  rw [renderChars, renderJoined.eq_3 _ _ _ (by simp), renderJoined, asOperand_complement,
    hcomplement, hmark]
  simp only [parenthesize, List.append_assoc, List.cons_append, List.nil_append]

end Operands

end ScopeExpr

/-! ## Scopes of a classification -/

/-- Whether no pattern holds the text between two patterns and no generated pattern the text in
front of excluded patterns. -/
structure Classification.IsLegible (m : Classification) : Prop where
  union : ∀ generated, ∀ pattern ∈ m.patterns generated,
    ¬ ScopeExpr.unionMark <:+: pattern.toList
  exclusion : ∀ pattern ∈ m.patterns true, ¬ ScopeExpr.exclusionMark <:+: pattern.toList

instance (m : Classification) : Decidable m.IsLegible :=
  decidable_of_iff
    ((∀ generated, ∀ pattern ∈ m.patterns generated,
        ¬ ScopeExpr.unionMark <:+: pattern.toList) ∧
      ∀ pattern ∈ m.patterns true, ¬ ScopeExpr.exclusionMark <:+: pattern.toList)
    ⟨fun h => ⟨h.1, h.2⟩, fun h => ⟨h.union, h.exclusion⟩⟩

namespace Scopes

open ScopeExpr

variable {m m' : Classification}

theorem generatedScope_of_not_generated (h : m.patterns true = []) : generatedScope m = .empty := by
  rw [generatedScope, h]

theorem generatedScope_of_all_generated (hne : m.patterns true ≠ []) (h : m.patterns false = []) :
    generatedScope m = unionOf (m.patterns true) := by
  rw [generatedScope, h]
  cases hgenerated : m.patterns true with
  | nil => exact absurd hgenerated hne
  | cons pattern rest => rfl

theorem generatedScope_of_excluded (hne : m.patterns true ≠ []) (h : m.patterns false ≠ []) :
    generatedScope m =
      .intersection [unionOf (m.patterns true), .complement (unionOf (m.patterns false))] := by
  rw [generatedScope]
  cases hgenerated : m.patterns true with
  | nil => exact absurd hgenerated hne
  | cons pattern rest =>
    cases hother : m.patterns false with
    | nil => exact absurd hother h
    | cons other others => rfl

/-- The empty text is written only without a generated pattern. -/
theorem renderChars_generatedScope_eq_nil_iff :
    renderChars (generatedScope m) = [] ↔ m.patterns true = [] := by
  by_cases hne : m.patterns true = []
  · rw [generatedScope_of_not_generated hne]
    exact iff_of_true rfl hne
  · refine iff_of_false ?_ hne
    by_cases hother : m.patterns false = []
    · rw [generatedScope_of_all_generated hne hother, renderChars_unionOf hne]
      simp
    · rw [generatedScope_of_excluded hne hother, renderChars_exclusion hother]
      simp only [List.append_eq_nil_iff]
      rintro ⟨⟨-, hmark⟩, -⟩
      exact absurd hmark (by decide)

/-- The text of a legible classification has an exclusion if patterns are excluded. -/
theorem exclusionMark_infix_iff (h : m.IsLegible) (hne : m.patterns true ≠ []) :
    exclusionMark <:+: renderChars (generatedScope m) ↔ m.patterns false ≠ [] := by
  by_cases hother : m.patterns false = []
  · refine iff_of_false ?_ (not_not_intro hother)
    rw [generatedScope_of_all_generated hne hother]
    exact (not_exclusionMark_infix_asOperand hne h.exclusion).1
  · refine iff_of_true ?_ hother
    rw [generatedScope_of_excluded hne hother, renderChars_exclusion hother]
    exact List.infix_append _ exclusionMark _

/-- Legible scopes with the same text are the same. -/
theorem generatedScope_eq_of_renderChars_eq (h : m.IsLegible) (h' : m'.IsLegible)
    (heq : renderChars (generatedScope m) = renderChars (generatedScope m')) :
    generatedScope m = generatedScope m' := by
  have hempty : m.patterns true = [] ↔ m'.patterns true = [] := by
    rw [← renderChars_generatedScope_eq_nil_iff, heq, renderChars_generatedScope_eq_nil_iff]
  by_cases hne : m.patterns true = []
  · rw [generatedScope_of_not_generated hne, generatedScope_of_not_generated (hempty.mp hne)]
  have hne' : m'.patterns true ≠ [] := mt hempty.mpr hne
  have hexcluded : m.patterns false ≠ [] ↔ m'.patterns false ≠ [] := by
    rw [← exclusionMark_infix_iff h hne, heq, exclusionMark_infix_iff h' hne']
  by_cases hother : m.patterns false = []
  · have hother' : m'.patterns false = [] :=
      Decidable.not_not.mp (mt hexcluded.mpr (not_not_intro hother))
    rw [generatedScope_of_all_generated hne hother,
      generatedScope_of_all_generated hne' hother'] at heq ⊢
    rw [renderChars_unionOf hne, renderChars_unionOf hne'] at heq
    rw [patternsText_inj hne hne' (h.union true) (h'.union true) (List.append_cancel_left heq)]
  · have hother' : m'.patterns false ≠ [] := hexcluded.mp hother
    rw [generatedScope_of_excluded hne hother, generatedScope_of_excluded hne' hother'] at heq ⊢
    rw [renderChars_exclusion hother, renderChars_exclusion hother'] at heq
    rcases isMark_exclusionMark.eq_of_append_mark_eq
      (not_exclusionMark_infix_asOperand hne h.exclusion).2
      (not_exclusionMark_infix_asOperand hne' h'.exclusion).2 heq with ⟨hfront, hback⟩
    have hgenerated := renderChars_eq_of_asOperand_eq hne hne' hfront
    rw [renderChars_unionOf hne, renderChars_unionOf hne'] at hgenerated
    rw [patternsText_inj hne hne' (h.union true) (h'.union true)
        (List.append_cancel_left hgenerated),
      patternsText_inj hother hother' (h.union false) (h'.union false)
        (List.append_cancel_right hback)]

end Scopes

/-! ## Scopes of a project -/

namespace Outcome

open Pattern (ExpansionLimit)
open ScopeExpr (render)

/-- Attribute files whose directories and patterns have neither `|` nor `&` are legible. -/
theorem isLegible_classification (limit : ExpansionLimit) {sources : List Source}
    (h : ∀ source ∈ sources, ∀ line ∈ Directive.ofText source.text, ∀ c ∈ ['|', '&'],
      c ∉ source.directory.text.toList ∧ c ∉ line.2.path.toList) :
    (ofSources limit sources).classification.IsLegible := by
  have hkey : ∀ generated, ∀ pattern ∈ (ofSources limit sources).classification.patterns generated,
      ∀ c ∈ ['|', '&'], c ∉ pattern.toList := by
    intro generated pattern hpattern c hc hmem
    have hsays : Source.Says limit sources pattern generated := by
      have hpatterns := mem_patterns_ofSources limit sources pattern
      cases generated with
      | true => exact (hpatterns.1.mp hpattern).1
      | false => exact hpatterns.2.mp hpattern
    rcases hsays with ⟨source, hsource, line, hline, hresolved, -⟩
    have hplain := h source hsource line hline c hc
    have hstar : c ≠ '*' := fun heq => absurd (heq ▸ hc) (by decide)
    have hslash : c ≠ '/' := fun heq => absurd (heq ▸ hc) (by decide)
    exact (Resolution.mem_of_mem_patterns hstar hslash hresolved hmem).elim hplain.1 hplain.2
  constructor
  · intro generated pattern hpattern hmark
    exact hkey generated pattern hpattern '|' (by decide) (hmark.subset (by decide))
  · intro pattern hpattern hmark
    exact hkey true pattern hpattern '&' (by decide) (hmark.subset (by decide))

/-- The scope string of the generated files is read back: runs with the same string computed the
same expression, if no pattern holds the text between two patterns and no generated pattern the
text in front of excluded ones. -/
theorem generated_eq_of_render_eq (cap : Nat) {sources sources' : List Source}
    (h : (ofSources (.clamp cap) sources).classification.IsLegible)
    (h' : (ofSources (.clamp cap) sources').classification.IsLegible)
    (heq : render (ofSources (.clamp cap) sources).scopes.generated =
      render (ofSources (.clamp cap) sources').scopes.generated) :
    (ofSources (.clamp cap) sources).scopes.generated =
      (ofSources (.clamp cap) sources').scopes.generated :=
  Scopes.generatedScope_eq_of_renderChars_eq h h' (String.ofList_inj.mp heq)

/-- An attribute file of the project's own directory. -/
def rootSource (text : String) : Source := ⟨".gitattributes", text⟩

/-- Lines in two orders give the same string.  Operators alone do not make patterns illegible. -/
theorem generated_eq_of_render_eq_reordered :
    let first := ofSources (.clamp 10)
      [rootSource "a||b linguist-generated\n!(c) linguist-generated\nd&&e linguist-generated=false"]
    let second := ofSources (.clamp 10)
      [rootSource "d&&e linguist-generated=false\n!(c) linguist-generated\na||b linguist-generated"]
    first.classification.IsLegible ∧ second.classification.IsLegible ∧
      render first.scopes.generated = "file:a||b&&!(file:(c)||file:d&&e)" ∧
      first.scopes.generated = second.scopes.generated := by
  intro first second
  have hfirst : first.classification.IsLegible := by decide +kernel
  have hsecond : second.classification.IsLegible := by decide +kernel
  have htext : render first.scopes.generated = "file:a||b&&!(file:(c)||file:d&&e)" := by
    decide +kernel
  have htext' : render second.scopes.generated = "file:a||b&&!(file:(c)||file:d&&e)" := by
    decide +kernel
  refine ⟨hfirst, hsecond, htext, ?_⟩
  exact generated_eq_of_render_eq 10 hfirst hsecond (htext.trans htext'.symm)

/-- A pattern with `||file:` is written like two patterns, and one with `&&!(file:` like a generated
pattern and an excluded one. -/
theorem not_generated_eq_of_render_eq_of_marks :
    let joined := (ofSources (.clamp 10) [rootSource "a||file:b linguist-generated"]).scopes
    let apart := (ofSources (.clamp 10)
      [rootSource "a linguist-generated\nb linguist-generated"]).scopes
    let hidden := (ofSources (.clamp 10) [rootSource "a&&!(file:b) linguist-generated"]).scopes
    let excluded := (ofSources (.clamp 10)
      [rootSource "a linguist-generated\nb linguist-generated=false"]).scopes
    (render joined.generated = render apart.generated ∧ joined.generated ≠ apart.generated) ∧
      (render hidden.generated = render excluded.generated ∧
        hidden.generated ≠ excluded.generated) := by
  refine ⟨⟨by decide +kernel, fun heq => ?_⟩, ⟨by decide +kernel, fun heq => ?_⟩⟩
  · exact absurd (congrArg ScopeExpr.isCompound heq) (by decide +kernel)
  · exact absurd (congrArg ScopeExpr.isCompound heq) (by decide +kernel)

end Outcome
end AttributeScope
