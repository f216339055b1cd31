import AttributeScope.Proofs.AtSigns
import AttributeScope.Proofs.ReadingCount

/-!
# Counting what becomes of translations

The translations of a directive are anchored and collected in a set.  The set could be smaller than
what went into it, since an anchored pattern has lost its `@` and perhaps a slash.  It is not:
translations of one pattern differ only in the number of stars in each block, and the segments
between the blocks are still there when they are anchored.

Main results:

- Theorem `IsReading.filter_ne_one`: all readings have the same segments other than `*`.
- Theorem `eq_of_anchor?_eq`: different translations of a pattern are anchored differently.
- Theorem `ofDirective_accounts`: every translation is anchored or counted.
-/

namespace AttributeScope

open Pattern (ExpansionLimit)

namespace Pattern

/-! ## Names in translations -/

section Names

variable {pattern : String} {limit : ExpansionLimit} {variant : String}

/-- A translation is the text of a reading, and has its segments. -/
theorem isReading_of_mem_translate (hstars : ¬ threeStars <:+: pattern.toList)
    (h : variant ∈ translate limit pattern) :
    IsReading (canonicalSegments pattern.toList) (segments variant.toList) := by
  rcases ((mem_translate_iff_isReading limit hstars).mp h).2 with ⟨read, hread, rfl⟩
  rwa [String.toList_ofList, segments_ofSegments_of_isReading hstars hread]

/-- A translation has a name `@` if the pattern has one. -/
theorem atSign_mem_translation_iff (hstars : ¬ threeStars <:+: pattern.toList)
    (h : variant ∈ translate limit pattern) :
    ['@'] ∈ segments variant.toList ↔ ['@'] ∈ segments pattern.toList := by
  have hread := isReading_of_mem_translate hstars h
  have hpattern : ['@'] ∈ canonicalSegments pattern.toList ↔ ['@'] ∈ segments pattern.toList :=
    singleton_mem_canonicalSegments_iff (by decide)
  rw [← hpattern]
  constructor
  · intro hname
    exact (hread.mem hname).resolve_left (by decide)
  · intro hname
    exact hread.mem_of_ne hname (by decide)

/-- All readings have the same segments other than `*`. -/
theorem IsReading.filter_ne_one {parts read : List Segment} (h : IsReading parts read) :
    read.filter (· ≠ one) = parts.filter (!isWildcard ·) := by
  induction h with
  | nil => rfl
  | @keep seg parts read hseg _ ih =>
    have hkept : decide (seg ≠ one) = !isWildcard seg := by simp [isWildcard, hseg]
    rw [List.filter_cons, List.filter_cons, hkept, ih]
  | leaveOut _ ih => exact ih
  | asOne _ ih => exact ih

end Names

/-! ## Rewritten segments -/

section Rewriting

variable {read other : List Segment}

/-- Only `*` and `@` are written as `*`. -/
theorem withoutAtSigns_eq_one_iff {seg : Segment} (hseg : seg ≠ ['@']) :
    withoutAtSigns seg = one ↔ seg = one := by
  constructor
  · intro h
    unfold withoutAtSigns one at h
    rcases List.map_eq_singleton_iff.mp h with ⟨c, rfl, hc⟩
    have hat : c ≠ '@' := fun heq => hseg (by rw [heq])
    rw [if_neg hat] at hc
    rw [hc]
    rfl
  · intro h
    rw [h]
    rfl

/-- Rewriting does not change how many segments are other than `*`. -/
theorem countP_ne_one_map_withoutAtSigns (h : ['@'] ∉ read) :
    (read.map withoutAtSigns).countP (· ≠ one) = read.countP (· ≠ one) := by
  rw [List.countP_map]
  apply List.countP_congr
  intro seg hseg
  have hne : seg ≠ ['@'] := fun heq => h (heq ▸ hseg)
  simp [withoutAtSigns_eq_one_iff hne]

/-- Segments with the same names and the same rewritten form are the same. -/
theorem eq_of_map_withoutAtSigns_eq (hread : ['@'] ∉ read) (hother : ['@'] ∉ other)
    (hnames : read.filter (· ≠ one) = other.filter (· ≠ one))
    (h : read.map withoutAtSigns = other.map withoutAtSigns) : read = other := by
  induction read generalizing other with
  | nil => exact (List.map_eq_nil_iff.mp h.symm).symm
  | cons seg rest ih =>
    cases other with
    | nil => exact absurd h (by simp)
    | cons seg' rest' =>
      rw [List.mem_cons, not_or] at hread hother
      rcases List.cons.inj h with ⟨hfirst, hrest⟩
      -- Both segments are stars or neither is, and then both are the next name.
      have hone : seg = one ↔ seg' = one := by
        rw [← withoutAtSigns_eq_one_iff (Ne.symm hread.1), hfirst,
          withoutAtSigns_eq_one_iff (Ne.symm hother.1)]
      by_cases hseg : seg = one
      · have hseg' := hone.mp hseg
        subst hseg hseg'
        rw [ih hread.2 hother.2 hnames hrest]
      · have hseg' : seg' ≠ one := mt hone.mpr hseg
        rw [List.filter_cons_of_pos (by simpa using hseg),
          List.filter_cons_of_pos (by simpa using hseg')] at hnames
        rcases List.cons.inj hnames with ⟨rfl, hothers⟩
        rw [ih hread.2 hother.2 hothers hrest]

/-- A leading slash cuts off an empty segment. -/
theorem segments_eq_cons_unslashed_or (text : List Char) :
    segments text = [] :: segments (unslashed text) ∨
      segments text = segments (unslashed text) := by
  rcases eq_slash_cons_or_unslashed text with hslash | hsame
  · left
    rw [← segments_slash_cons, ← hslash]
  · right
    rw [← hsame]

/-- Texts with the same names are the same if they are rewritten alike, apart from leading
slashes. -/
theorem segments_eq_of_unslashed_eq {text text' : List Char} (htext : ['@'] ∉ segments text)
    (htext' : ['@'] ∉ segments text')
    (hnames : (segments text).filter (· ≠ one) = (segments text').filter (· ≠ one))
    (h : withoutAtSigns (unslashed text) = withoutAtSigns (unslashed text')) :
    segments text = segments text' := by
  have hrewritten : (segments (unslashed text)).map withoutAtSigns =
      (segments (unslashed text')).map withoutAtSigns := by
    rw [← segments_withoutAtSigns, h, segments_withoutAtSigns]
  have hcount : (segments text).countP (· ≠ one) = (segments text').countP (· ≠ one) := by
    rw [List.countP_eq_length_filter, hnames, ← List.countP_eq_length_filter]
  -- A slash in front of one of them only would make its empty segment a name more.
  have hmore : ∀ {first second : List Segment}, ['@'] ∉ first → ['@'] ∉ second →
      first.map withoutAtSigns = second.map withoutAtSigns →
      ([] :: first).countP (· ≠ one) ≠ second.countP (· ≠ one) := by
    intro first second hfirst hsecond heq
    rw [List.countP_cons_of_pos (by decide), ← countP_ne_one_map_withoutAtSigns hfirst, heq,
      countP_ne_one_map_withoutAtSigns hsecond]
    omega
  rcases segments_eq_cons_unslashed_or text with hcut | hcut <;>
    rcases segments_eq_cons_unslashed_or text' with hcut' | hcut'
  · apply eq_of_map_withoutAtSigns_eq htext htext' hnames
    rw [hcut, hcut', List.map_cons, List.map_cons, hrewritten]
  · rw [hcut, hcut'] at hcount
    rw [hcut, List.mem_cons, not_or] at htext
    exact absurd hcount (hmore htext.2 (hcut' ▸ htext') hrewritten)
  · rw [hcut, hcut'] at hcount
    rw [hcut', List.mem_cons, not_or] at htext'
    exact absurd hcount.symm (hmore htext'.2 (hcut ▸ htext) hrewritten.symm)
  · apply eq_of_map_withoutAtSigns_eq htext htext' hnames
    rw [hcut, hcut', hrewritten]

end Rewriting

/-! ## Anchored translations -/

/-- What different texts with the same names become below a directory is different. -/
theorem segments_eq_of_below_eq {dir : SourceDir} (hdir : dir.IsClosed) {text text' : List Char}
    (htext : ['@'] ∉ segments text) (htext' : ['@'] ∉ segments text')
    (hnames : (segments text).filter (· ≠ one) = (segments text').filter (· ≠ one))
    (h : withoutAtSigns (below dir text) = withoutAtSigns (below dir text')) :
    segments text = segments text' := by
  rcases hdir with rfl | ⟨inner, hinner⟩
  · rw [below_root, below_root] at h
    apply eq_of_map_withoutAtSigns_eq htext htext' hnames
    rw [← segments_withoutAtSigns, h, segments_withoutAtSigns]
  · rw [below_eq_append_slash hinner, below_eq_append_slash hinner, withoutAtSigns_append,
      withoutAtSigns_append] at h
    apply segments_eq_of_unslashed_eq htext htext' hnames
    exact (List.cons.inj (List.append_cancel_left h)).2

/-- Different translations of a pattern are anchored differently. -/
theorem eq_of_anchor?_eq {dir : SourceDir} (hdir : dir.IsClosed) {limit : ExpansionLimit}
    {pattern variant variant' anchored : String} (hstars : ¬ threeStars <:+: pattern.toList)
    (hmem : variant ∈ translate limit pattern) (hmem' : variant' ∈ translate limit pattern)
    (hanchor : anchor? dir variant = some anchored)
    (hanchor' : anchor? dir variant' = some anchored) : variant = variant' := by
  rcases anchor?_eq_some_iff.mp hanchor with ⟨hname, hwritten⟩
  rcases anchor?_eq_some_iff.mp hanchor' with ⟨hname', hwritten'⟩
  rw [atSign_mem_segments_below_iff hdir, not_or] at hname hname'
  have hread := isReading_of_mem_translate hstars hmem
  have hread' := isReading_of_mem_translate hstars hmem'
  have hbelow := String.ofList_injective (hwritten.trans hwritten'.symm)
  have hsegments : segments variant.toList = segments variant'.toList := by
    apply segments_eq_of_below_eq hdir hname.2 hname'.2 _ hbelow
    rw [hread.filter_ne_one, hread'.filter_ne_one]
  apply String.toList_injective
  calc
    variant.toList = ofSegments (segments variant.toList) := (List.intercalate_splitOn '/').symm
    _ = ofSegments (segments variant'.toList) := by rw [hsegments]
    _ = variant'.toList := List.intercalate_splitOn '/'

end Pattern

/-! ## Sets and counters -/

theorem Text.length_sortedSet {texts : List String} (h : texts.Nodup) :
    (Text.sortedSet texts).length = texts.length := by
  have hperm : (Text.sortedSet texts).Perm texts := by
    rw [List.perm_ext_iff_of_nodup (Text.sortedSet_pairwise_lt texts).nodup h]
    intro text
    exact Text.mem_sortedSet
  exact hperm.length_eq

namespace Resolution

open Pattern

section Accounting

variable (limit : ExpansionLimit) {dir : SourceDir} {directive : Directive}

/-- A directive is skipped if its canonical form has too many `**` segments. -/
theorem overLimit_ofDirective_iff (hstars : ¬ threeStars <:+: directive.path.toList) :
    (ofDirective limit dir directive).overLimit = true ↔
      limit.count < (segments (canonicalize directive.path.toList)).count recursive := by
  unfold ofDirective
  dsimp only
  rw [List.isEmpty_iff, translate_eq_nil_iff, recursiveCount_canonicalize hstars,
    segments_canonicalize]

/-- Where nothing can be anchored, every translation is counted. -/
theorem ofDirective_of_atSign (hdir : dir.IsClosed)
    (hstars : ¬ threeStars <:+: directive.path.toList)
    (hname : ['@'] ∈ segments dir.text.toList ∨ ['@'] ∈ segments directive.path.toList) :
    (ofDirective limit dir directive).patterns = [] ∧
      (ofDirective limit dir directive).unencodable = (translate limit directive.path).length := by
  have hnone : ∀ variant ∈ translate limit directive.path, anchor? dir variant = none := by
    intro variant hvariant
    rw [anchor?_eq_none_iff hdir, atSign_mem_translation_iff hstars hvariant]
    exact hname
  unfold ofDirective
  dsimp only
  constructor
  · rw [List.filterMap_eq_nil_iff.mpr hnone]
    rfl
  · rw [List.filter_eq_self.mpr]
    intro variant hvariant
    rw [hnone variant hvariant]
    rfl

/-- Otherwise every translation is anchored, and no two of them alike. -/
theorem ofDirective_of_not_atSign (hdir : dir.IsClosed)
    (hstars : ¬ threeStars <:+: directive.path.toList)
    (hname : ¬ (['@'] ∈ segments dir.text.toList ∨ ['@'] ∈ segments directive.path.toList)) :
    (ofDirective limit dir directive).unencodable = 0 ∧
      (ofDirective limit dir directive).patterns.length =
        (translate limit directive.path).length := by
  have hsome : ∀ variant ∈ translate limit directive.path, anchor? dir variant ≠ none := by
    intro variant hvariant
    rw [Ne, anchor?_eq_none_iff hdir, atSign_mem_translation_iff hstars hvariant]
    exact hname
  unfold ofDirective
  dsimp only
  constructor
  · rw [List.length_eq_zero_iff, List.filter_eq_nil_iff]
    intro variant hvariant
    rw [Bool.not_eq_true, Option.isNone_eq_false_iff, Option.isSome_iff_ne_none]
    exact hsome variant hvariant
  · have hnodup : ((translate limit directive.path).filterMap (anchor? dir)).Nodup := by
      rw [List.Nodup, List.pairwise_filterMap]
      refine (translate_pairwise_lt limit directive.path).imp_of_mem ?_
      intro variant variant' hvariant hvariant' hlt anchored hanchor anchored' hanchor' heq
      subst heq
      have hsame := eq_of_anchor?_eq hdir hstars hvariant hvariant' hanchor hanchor'
      exact String.lt_irrefl variant (hsame ▸ hlt)
    rw [Text.length_sortedSet hnodup, List.length_filterMap_eq_countP, List.countP_eq_length]
    intro variant hvariant
    exact Option.isSome_iff_ne_none.mpr (hsome variant hvariant)

end Accounting

/-- Every translation of a directive below a directory is anchored or counted as one that cannot
be.  It is skipped exactly if its canonical form has more `**` segments than are expanded.  A name
`@` in the directory or in the pattern keeps all translations from being anchored, and nothing else
keeps any. -/
theorem ofDirective_accounts (limit : ExpansionLimit) (path : String) {directive : Directive}
    (hstars : ¬ threeStars <:+: directive.path.toList) :
    let dir := SourceDir.ofPath path
    let resolution := ofDirective limit dir directive
    let hasAtSign := ['@'] ∈ segments dir.text.toList ∨ ['@'] ∈ segments directive.path.toList
    resolution.patterns.length + resolution.unencodable =
      (translate limit directive.path).length ∧
    (resolution.overLimit = true ↔
      limit.count < (segments (canonicalize directive.path.toList)).count recursive) ∧
    (resolution.overLimit = false →
      (hasAtSign → resolution.patterns = []) ∧ (¬ hasAtSign → resolution.unencodable = 0)) := by
  intro dir resolution hasAtSign
  have hdir : dir.IsClosed := SourceDir.isClosed_ofPath path
  have hover : resolution.overLimit = true ↔ _ := overLimit_ofDirective_iff limit hstars
  by_cases hname : hasAtSign
  · rcases ofDirective_of_atSign limit hdir hstars hname with ⟨hpatterns, hcounted⟩
    refine ⟨?_, hover, fun _ => ⟨fun _ => hpatterns, fun h => absurd hname h⟩⟩
    rw [hpatterns, hcounted, List.length_nil, Nat.zero_add]
  · rcases ofDirective_of_not_atSign limit hdir hstars hname with ⟨hcounted, hlength⟩
    refine ⟨?_, hover, fun _ => ⟨fun h => absurd h hname, fun _ => hcounted⟩⟩
    rw [hcounted, hlength, Nat.add_zero]

/-- Below `web`, under a limit of one recursive segment: a skipped directive, one with a name `@`
and two translations, and one with two anchored patterns. -/
theorem ofDirective_accounts_web :
    let web := SourceDir.ofPath "web"
    let skipped : Directive := ⟨"**/a/**/b", true, false⟩
    let refused : Directive := ⟨"**/@/gen", true, false⟩
    let anchored : Directive := ⟨"@scope/**/out/**", true, false⟩
    (¬ threeStars <:+: skipped.path.toList ∧
      (ofDirective (.clamp 1) web skipped).overLimit = true) ∧
    (¬ threeStars <:+: refused.path.toList ∧ ['@'] ∈ segments refused.path.toList ∧
      (ofDirective (.clamp 1) web refused).overLimit = false ∧
      (ofDirective (.clamp 1) web refused).patterns = [] ∧
      (ofDirective (.clamp 1) web refused).patterns.length +
        (ofDirective (.clamp 1) web refused).unencodable = 2) ∧
    (¬ threeStars <:+: anchored.path.toList ∧
      ¬ (['@'] ∈ segments web.text.toList ∨ ['@'] ∈ segments anchored.path.toList) ∧
      (ofDirective (.clamp 1) web anchored).overLimit = false ∧
      (ofDirective (.clamp 1) web anchored).unencodable = 0 ∧
      (ofDirective (.clamp 1) web anchored).patterns.length +
        (ofDirective (.clamp 1) web anchored).unencodable = 2) := by
  intro web skipped refused anchored
  have hskipped : ¬ threeStars <:+: skipped.path.toList := by decide +kernel
  have hrefused : ¬ threeStars <:+: refused.path.toList := by decide +kernel
  have hanchored : ¬ threeStars <:+: anchored.path.toList := by decide +kernel
  have hname : ['@'] ∈ segments refused.path.toList := by decide +kernel
  have hnone : ¬ (['@'] ∈ segments web.text.toList ∨ ['@'] ∈ segments anchored.path.toList) := by
    decide +kernel
  have hwithin : (ofDirective (.clamp 1) web refused).overLimit = false := by decide +kernel
  have hwithin' : (ofDirective (.clamp 1) web anchored).overLimit = false := by decide +kernel
  rcases ofDirective_accounts (.clamp 1) "web" hskipped with ⟨-, hover, -⟩
  rcases ofDirective_accounts (.clamp 1) "web" hrefused with ⟨hcount, -, hatSign⟩
  rcases ofDirective_accounts (.clamp 1) "web" hanchored with ⟨hcount', -, hatSign'⟩
  refine ⟨⟨hskipped, hover.mpr ?_⟩,
    ⟨hrefused, hname, hwithin, (hatSign hwithin).1 (Or.inr hname), hcount.trans ?_⟩,
    hanchored, hnone, hwithin', (hatSign' hwithin').2 hnone, hcount'.trans ?_⟩
  · decide +kernel
  · decide +kernel
  · decide +kernel

end Resolution
end AttributeScope
