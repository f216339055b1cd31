import AttributeScope.Proofs.AnchoredPatterns
import AttributeScope.Proofs.SegmentReadings

/-!
# Characters of anchored patterns

Translating a pattern and writing it below a directory takes characters away and puts stars and
slashes in.  Every other character of an anchored pattern comes from the pattern or from the
directory, also where runs of stars are left over that the translation cannot read.

Main results:

- Theorem `mem_of_mem_translate`: the characters of a translation.
- Theorem `mem_of_mem_patterns`: the characters of a directive's anchored patterns.
-/

namespace AttributeScope
namespace Pattern

variable {c : Char}

/-! ## Translations -/

theorem mem_of_mem_intercalate {sep : List Char} {parts : List (List Char)} (hsep : c ∉ sep)
    (h : c ∈ List.intercalate sep parts) : ∃ part ∈ parts, c ∈ part := by
  induction parts with
  | nil => simp at h
  | cons part rest ih =>
    by_cases hrest : rest = []
    · subst hrest
      exact ⟨part, List.mem_cons_self, by simpa using h⟩
    · rw [List.intercalate_cons_of_ne_nil hrest, List.mem_append, List.mem_append] at h
      rcases h with (hpart | habsurd) | hothers
      · exact ⟨part, List.mem_cons_self, hpart⟩
      · exact absurd habsurd hsep
      · rcases ih hothers with ⟨other, hother, hmem⟩
        exact ⟨other, List.mem_cons_of_mem part hother, hmem⟩

theorem mem_of_mem_canonicalize (hstar : c ≠ '*') (hslash : c ≠ '/') {pattern : List Char}
    (h : c ∈ canonicalize pattern) : c ∈ pattern := by
  have hsegments : ∀ seg ∈ canonicalSegments pattern, c ∈ seg → c ∈ pattern := by
    apply forall_mem_canonicalSegments
    · simp
    · simp [one, hstar]
    · intro seg hseg hmem
      have hcut := infix_of_mem_segments hseg
      exact (List.dropWhile_suffix _).subset (hcut.subset (mem_of_mem_degrade hmem))
  rcases mem_of_mem_intercalate (by simpa using hslash) h with ⟨seg, hseg, hmem⟩
  exact hsegments seg hseg hmem

theorem mem_of_mem_cutRecursive {text part : List Char} (hpart : part ∈ cutRecursive text)
    (h : c ∈ part) : c ∈ text := by
  fun_induction cutRecursive text generalizing part with
  | case1 rest ih =>
    rcases List.mem_cons.mp hpart with rfl | hpart
    · simp at h
    · simp [ih hpart h]
  | case2 first rest _ ih =>
    cases hcut : cutRecursive rest with
    | nil => exact absurd hcut (cutRecursive_ne_nil rest)
    | cons front others =>
      rw [hcut] at ih hpart
      rcases List.mem_cons.mp hpart with rfl | hpart
      · exact (List.mem_cons.mp h).elim (fun heq => heq ▸ List.mem_cons_self)
          fun hfront => List.mem_cons_of_mem first (ih List.mem_cons_self hfront)
      · exact List.mem_cons_of_mem first (ih (List.mem_cons_of_mem front hpart) h)
  | case3 =>
    rw [List.mem_singleton.mp hpart] at h
    exact h

theorem mem_of_mem_readings (hstar : c ≠ '*') (hslash : c ≠ '/') {parts : List String}
    {text : String} (htext : text ∈ readings parts) (h : c ∈ text.toList) :
    ∃ part ∈ parts, c ∈ part.toList := by
  induction parts generalizing text with
  | nil => simp [readings] at htext
  | cons part rest ih =>
    by_cases hrest : rest = []
    · subst hrest
      rw [readings, List.mem_singleton] at htext
      exact ⟨part, List.mem_cons_self, htext ▸ h⟩
    · rcases (mem_readings_cons hrest).mp htext with ⟨tail, htail, htext⟩
      have hmem : c ∈ part.toList ∨ c ∈ tail.toList := by
        rcases htext with rfl | rfl
        · simpa using h
        · simpa [hstar, hslash] using h
      rcases hmem with hpart | hrestMem
      · exact ⟨part, List.mem_cons_self, hpart⟩
      · rcases ih htail hrestMem with ⟨other, hother, hmem⟩
        exact ⟨other, List.mem_cons_of_mem part hother, hmem⟩

/-- A translation has no characters but stars, slashes and those of the pattern. -/
theorem mem_of_mem_translate (hstar : c ≠ '*') (hslash : c ≠ '/') {limit : ExpansionLimit}
    {pattern variant : String} (hvariant : variant ∈ translate limit pattern)
    (h : c ∈ variant.toList) : c ∈ pattern.toList := by
  unfold translate at hvariant
  dsimp only at hvariant
  split at hvariant
  · simp at hvariant
  · rcases mem_of_mem_readings hstar hslash hvariant h with ⟨part, hpart, hmem⟩
    rcases List.mem_map.mp hpart with ⟨piece, hpiece, rfl⟩
    rw [String.toList_ofList] at hmem
    exact mem_of_mem_canonicalize hstar hslash (mem_of_mem_cutRecursive hpiece hmem)

/-! ## Anchored patterns -/

theorem mem_of_mem_below {dir : SourceDir} {variant : List Char} (h : c ∈ below dir variant) :
    c ∈ dir.text.toList ∨ c ∈ variant := by
  unfold below at h
  rcases List.mem_append.mp h with hdir | hrest
  · exact Or.inl hdir
  · refine Or.inr ?_
    split at hrest
    · split at hrest
      next rest => exact List.mem_cons_of_mem _ hrest
      next => exact hrest
    · exact hrest

/-- An anchored pattern has no characters but stars and those of the directory and the
translation. -/
theorem mem_of_mem_anchor? (hstar : c ≠ '*') {dir : SourceDir} {variant pattern : String}
    (hanchor : anchor? dir variant = some pattern) (h : c ∈ pattern.toList) :
    c ∈ dir.text.toList ∨ c ∈ variant.toList := by
  rw [← (anchor?_eq_some_iff.mp hanchor).2, String.toList_ofList] at h
  rcases List.mem_map.mp h with ⟨d, hd, heq⟩
  split at heq
  · exact absurd heq.symm hstar
  · exact mem_of_mem_below (heq ▸ hd)

end Pattern

/-- The anchored patterns of a directive have no characters but stars, slashes and those of the
directory and the directive's path. -/
theorem Resolution.mem_of_mem_patterns {c : Char} (hstar : c ≠ '*') (hslash : c ≠ '/')
    {limit : Pattern.ExpansionLimit} {dir : SourceDir} {directive : Directive} {pattern : String}
    (hpattern : pattern ∈ (ofDirective limit dir directive).patterns) (h : c ∈ pattern.toList) :
    c ∈ dir.text.toList ∨ c ∈ directive.path.toList := by
  rcases mem_patterns_ofDirective.mp hpattern with ⟨variant, hvariant, hanchor⟩
  exact (Pattern.mem_of_mem_anchor? hstar hanchor h).imp_right
    (Pattern.mem_of_mem_translate hstar hslash hvariant)

end AttributeScope
