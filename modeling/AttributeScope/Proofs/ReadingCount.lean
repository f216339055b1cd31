import Mathlib.Algebra.Group.Nat.Defs
import Mathlib.Data.List.Nodup
import Mathlib.Data.List.ProdSigma
import AttributeScope.Proofs.SegmentReadings

/-!
# The number of translations

A pattern with `n` segments `**` has two choices for each of them, but not every two choices give
different translations: in a block of `*` and `**` segments only the number of stars that are left
can be seen.  Segments between the blocks keep them apart, so that the blocks can be counted
independently of each other.

Main results:

- Theorem `translate_pairwise_lt`: a translation lists every text once, in increasing order.
- Theorem `isReading_wildcards_iff`: a block of wildcards is read as a number of stars.
- Theorem `exists_nodup_readings`: the readings of segments, each listed once.
- Theorem `isSpread_iff`: recursive segments are separate if no block holds two of them.
- Theorem `length_translate`: the number of translations of a pattern.
-/

namespace AttributeScope
namespace Pattern

/-! ## Order of translations -/

/-- The readings of a text are listed in strictly increasing order. -/
theorem readings_pairwise_lt (parts : List String) : (readings parts).Pairwise (· < ·) := by
  have hfront : ∀ (front : String) {tails : List String}, tails.Pairwise (· < ·) →
      (tails.map (front ++ ·)).Pairwise (· < ·) := by
    intro front tails htails
    refine htails.map _ fun first second hlt => ?_
    rw [String.lt_iff, String.toList_append, String.toList_append]
    exact List.append_left_lt (String.lt_iff.mp hlt)
  fun_induction readings parts with
  | case1 => exact List.Pairwise.nil
  | case2 part => exact List.pairwise_singleton _ part
  | case3 part rest _ tails ih => exact Text.unite_pairwise_lt (hfront part ih) (hfront _ ih)

/-- The translations of a pattern are listed in strictly increasing order. -/
theorem translate_pairwise_lt (limit : ExpansionLimit) (pattern : String) :
    (translate limit pattern).Pairwise (· < ·) := by
  unfold translate
  dsimp only
  split
  · exact List.Pairwise.nil
  · exact readings_pairwise_lt _

/-! ## Blocks of wildcards -/

/-- Whether a segment is `*` or `**`. -/
def isWildcard (seg : Segment) : Bool := decide (seg = one ∨ seg = recursive)

/-- The maximal blocks of adjacent wildcards, of which some may be empty. -/
def wildcardBlocks (parts : List Segment) : List (List Segment) :=
  parts.splitOnP fun seg => !isWildcard seg

theorem isWildcard_iff {seg : Segment} : isWildcard seg = true ↔ seg = one ∨ seg = recursive := by
  simp [isWildcard]

section Blocks

variable {block rest : List Segment} {seg : Segment}

/-- Wildcards only are one block. -/
theorem wildcardBlocks_of_wildcards (hblock : ∀ seg ∈ block, isWildcard seg = true) :
    wildcardBlocks block = [block] := by
  apply List.splitOnP_eq_singleton
  intro seg hseg
  rw [hblock seg hseg]
  rfl

/-- Any other segment ends a block. -/
theorem wildcardBlocks_append_cons (hblock : ∀ seg ∈ block, isWildcard seg = true)
    (hseg : isWildcard seg = false) :
    wildcardBlocks (block ++ seg :: rest) = block :: wildcardBlocks rest := by
  have hsplit : wildcardBlocks (block ++ seg :: rest) =
      wildcardBlocks block ++ wildcardBlocks rest :=
    List.splitOnP_append_cons block rest (by rw [hseg]; rfl)
  rw [hsplit, wildcardBlocks_of_wildcards hblock]
  rfl

/-- Segments are taken apart block by block. -/
theorem block_induction {motive : List Segment → Prop}
    (last : ∀ block, (∀ seg ∈ block, isWildcard seg = true) → motive block)
    (next : ∀ block seg rest, (∀ seg ∈ block, isWildcard seg = true) → isWildcard seg = false →
      motive rest → motive (block ++ seg :: rest))
    (parts : List Segment) : motive parts := by
  -- The induction carries along the wildcards that were read since the last other segment.
  suffices hfront : ∀ front : List Segment, (∀ seg ∈ front, isWildcard seg = true) →
      motive (front ++ parts) from hfront [] (by simp)
  induction parts with
  | nil =>
    intro front hfront
    rw [List.append_nil]
    exact last front hfront
  | cons seg rest ih =>
    intro front hfront
    by_cases hseg : isWildcard seg = true
    · rw [List.append_cons]
      apply ih
      intro other hother
      rcases List.mem_append.mp hother with hother | hother
      · exact hfront other hother
      · rw [List.mem_singleton.mp hother]
        exact hseg
    · rw [Bool.not_eq_true] at hseg
      exact next front seg rest hfront hseg (ih [] (by simp))

/-- Adjacent wildcards stand in one block. -/
theorem exists_block_of_infix {run parts : List Segment}
    (hrun : ∀ seg ∈ run, isWildcard seg = true) (h : run <:+: parts) :
    ∃ block ∈ wildcardBlocks parts, run <:+: block := by
  induction parts using block_induction with
  | last block hblock =>
    rw [wildcardBlocks_of_wildcards hblock]
    exact ⟨block, List.mem_cons_self, h⟩
  | next block seg rest hblock hseg ih =>
    rw [wildcardBlocks_append_cons hblock hseg]
    have hnot : seg ∉ run := by
      intro hmem
      rw [hrun seg hmem] at hseg
      cases hseg
    rcases Text.infix_or_infix_of_not_mem hnot h with hinside | hbehind
    · exact ⟨block, List.mem_cons_self, hinside⟩
    · rcases ih hbehind with ⟨other, hother, hinside⟩
      exact ⟨other, List.mem_cons_of_mem block hother, hinside⟩

end Blocks

/-! ## Readings of blocks -/

section Readings

variable {block rest read : List Segment} {seg : Segment}

/-- A block of wildcards is read as a number of stars: one for each `*`, and at most one for each
`**`. -/
theorem isReading_wildcards_iff (hblock : ∀ seg ∈ block, isWildcard seg = true) :
    IsReading block read ↔
      ∃ more ≤ block.count recursive, read = List.replicate (block.count one + more) one := by
  induction block generalizing read with
  | nil =>
    rw [isReading_of_notMem List.not_mem_nil]
    simp
  | cons seg rest ih =>
    have hrest := fun read => @ih read fun other h => hblock other (List.mem_cons_of_mem seg h)
    rcases isWildcard_iff.mp (hblock seg List.mem_cons_self) with rfl | rfl
    · have hne : one ≠ recursive := by decide
      simp only [isReading_cons_of_ne hne, hrest, List.count_cons_self, List.count_cons_of_ne hne]
      constructor
      · intro h
        rcases h with ⟨_, rfl, more, hmore, rfl⟩
        exact ⟨more, hmore, by rw [Nat.add_right_comm, List.replicate_succ]⟩
      · intro h
        rcases h with ⟨more, hmore, rfl⟩
        exact ⟨_, by rw [Nat.add_right_comm, List.replicate_succ], more, hmore, rfl⟩
    · have hne : recursive ≠ one := by decide
      simp only [isReading_recursive_cons, hrest, List.count_cons_self, List.count_cons_of_ne hne]
      constructor
      · intro h
        rcases h with ⟨_, ⟨more, hmore, rfl⟩, rfl | rfl⟩
        · exact ⟨more, by omega, rfl⟩
        · exact ⟨more + 1, by omega, by rw [← Nat.add_assoc, List.replicate_succ]⟩
      · intro h
        rcases h with ⟨more, hmore, rfl⟩
        cases more with
        | zero => exact ⟨_, ⟨0, Nat.zero_le _, rfl⟩, Or.inl rfl⟩
        | succ less =>
          refine ⟨_, ⟨less, by omega, rfl⟩, Or.inr ?_⟩
          rw [← Nat.add_assoc, List.replicate_succ]

/-- A block with another segment behind it is read independently of what follows. -/
theorem isReading_block_cons_iff (hblock : ∀ seg ∈ block, isWildcard seg = true)
    (hseg : isWildcard seg = false) :
    IsReading (block ++ seg :: rest) read ↔
      ∃ more ≤ block.count recursive, ∃ tail, IsReading rest tail ∧
        read = List.replicate (block.count one + more) one ++ seg :: tail := by
  have hne : seg ≠ recursive := by
    rintro rfl
    exact absurd hseg (by decide)
  simp only [isReading_append, isReading_wildcards_iff hblock, isReading_cons_of_ne hne]
  constructor
  · intro h
    rcases h with ⟨_, _, rfl, ⟨more, hmore, rfl⟩, tail, rfl, htail⟩
    exact ⟨more, hmore, tail, htail, rfl⟩
  · intro h
    rcases h with ⟨more, hmore, tail, htail, rfl⟩
    exact ⟨_, _, rfl, ⟨more, hmore, rfl⟩, tail, rfl, htail⟩

/-- Stars in front of another segment can be counted. -/
theorem replicate_append_cons_inj (hseg : seg ≠ one) {number number' : Nat}
    {tail tail' : List Segment}
    (h : List.replicate number one ++ seg :: tail = List.replicate number' one ++ seg :: tail') :
    number = number' ∧ tail = tail' := by
  induction number generalizing number' with
  | zero =>
    cases number' with
    | zero => exact ⟨rfl, (List.cons.inj h).2⟩
    | succ _ => exact absurd (List.cons.inj h).1 hseg
  | succ less ih =>
    cases number' with
    | zero => exact absurd (List.cons.inj h).1.symm hseg
    | succ less' =>
      rcases ih (List.cons.inj h).2 with ⟨rfl, rfl⟩
      exact ⟨rfl, rfl⟩

/-- The readings of segments can be listed without repetition.  Their number is a product with one
factor for each block of wildcards. -/
theorem exists_nodup_readings (parts : List Segment) :
    ∃ reads : List (List Segment), reads.Nodup ∧ (∀ read, read ∈ reads ↔ IsReading parts read) ∧
      reads.length = ((wildcardBlocks parts).map (·.count recursive + 1)).prod := by
  induction parts using block_induction with
  | last block hblock =>
    refine ⟨(List.range (block.count recursive + 1)).map
      fun more => List.replicate (block.count one + more) one, ?_, ?_, ?_⟩
    · refine List.nodup_range.map fun more more' heq => ?_
      have hlength := congrArg List.length heq
      simpa using hlength
    · intro read
      simp only [isReading_wildcards_iff hblock, List.mem_map, List.mem_range, Nat.lt_succ_iff,
        eq_comm (a := read)]
    · simp [wildcardBlocks_of_wildcards hblock]
  | next block seg rest hblock hseg ih =>
    rcases ih with ⟨tails, hnodup, hmem, hlength⟩
    have hne : seg ≠ one := by
      rintro rfl
      exact absurd hseg (by decide)
    refine ⟨(List.range (block.count recursive + 1) ×ˢ tails).map
      fun choice => List.replicate (block.count one + choice.1) one ++ seg :: choice.2, ?_, ?_, ?_⟩
    · refine (List.nodup_range.product hnodup).map fun choice choice' heq => ?_
      rcases replicate_append_cons_inj hne heq with ⟨hmore, htail⟩
      exact Prod.ext (Nat.add_left_cancel hmore) htail
    · intro read
      simp only [isReading_block_cons_iff hblock hseg, List.mem_map, Prod.exists, List.mem_product,
        List.mem_range, Nat.lt_succ_iff, hmem]
      constructor
      · intro h
        rcases h with ⟨more, tail, ⟨hmore, htail⟩, rfl⟩
        exact ⟨more, hmore, tail, htail, rfl⟩
      · intro h
        rcases h with ⟨more, hmore, tail, htail, rfl⟩
        exact ⟨more, tail, ⟨hmore, htail⟩, rfl⟩
    · rw [List.length_map, List.length_product, List.length_range, hlength,
        wildcardBlocks_append_cons hblock hseg, List.map_cons, List.prod_cons]

end Readings

/-! ## Separate recursive segments -/

/-- Whether some segment other than `*` and `**` stands between every two consecutive `**`. -/
def IsSpread (parts : List Segment) : Prop :=
  ∀ before between after, parts = before ++ recursive :: (between ++ recursive :: after) →
    recursive ∉ between → ∃ seg ∈ between, seg ≠ one ∧ seg ≠ recursive

theorem IsSpread.of_append {front back : List Segment} (h : IsSpread (front ++ back)) :
    IsSpread back := by
  intro before between after heq hbetween
  refine h (front ++ before) between after ?_ hbetween
  rw [heq, List.append_assoc]

/-- A block of separate recursive segments holds at most one. -/
theorem IsSpread.count_le_one {block back : List Segment} (h : IsSpread (block ++ back))
    (hblock : ∀ seg ∈ block, isWildcard seg = true) : block.count recursive ≤ 1 := by
  by_contra hmany
  have hfirst : recursive ∈ block := List.count_pos_iff.mp (by omega)
  rcases List.eq_append_cons_of_mem hfirst with ⟨before, others, rfl, hbefore⟩
  rw [List.count_append, List.count_eq_zero_of_not_mem hbefore, List.count_cons_self] at hmany
  have hsecond : recursive ∈ others := List.count_pos_iff.mp (by omega)
  rcases List.eq_append_cons_of_mem hsecond with ⟨between, after, rfl, hbetween⟩
  rcases h before between (after ++ back) (by simp) hbetween with ⟨seg, hseg, hone, hrecursive⟩
  have hwildcard : isWildcard seg = true := hblock seg (by simp [hseg])
  rcases isWildcard_iff.mp hwildcard with heq | heq
  · exact hone heq
  · exact hrecursive heq

/-- Recursive segments are separate if no block holds two of them. -/
theorem isSpread_iff {parts : List Segment} :
    IsSpread parts ↔ ∀ block ∈ wildcardBlocks parts, block.count recursive ≤ 1 := by
  constructor
  · intro h
    induction parts using block_induction with
    | last block hblock =>
      rw [← List.append_nil block] at h
      rw [wildcardBlocks_of_wildcards hblock, List.forall_mem_singleton]
      exact h.count_le_one hblock
    | next block seg rest hblock hseg ih =>
      rw [wildcardBlocks_append_cons hblock hseg, List.forall_mem_cons]
      refine ⟨h.count_le_one hblock, ih ?_⟩
      rw [List.append_cons] at h
      exact h.of_append
  · intro hfew before between after heq hbetween
    by_contra hnone
    -- Two recursive segments with nothing but wildcards between them are in one block.
    have hrun : ∀ seg ∈ recursive :: (between ++ [recursive]), isWildcard seg = true := by
      simp only [List.mem_cons, List.mem_append, List.not_mem_nil, or_false]
      rintro seg (rfl | hseg | rfl)
      · decide
      · by_contra hother
        rw [isWildcard_iff, not_or] at hother
        exact hnone ⟨seg, hseg, hother⟩
      · decide
    have hinfix : recursive :: (between ++ [recursive]) <:+: parts := ⟨before, after, by simp [heq]⟩
    rcases exists_block_of_infix hrun hinfix with ⟨block, hblock, hinside⟩
    have htwo : 2 ≤ (recursive :: (between ++ [recursive])).count recursive := by simp
    have hcount := hinside.sublist.count_le recursive
    have hone := hfew block hblock
    omega

instance (parts : List Segment) : Decidable (IsSpread parts) :=
  decidable_of_iff _ isSpread_iff.symm

/-- Where all recursive segments are separate, each of them has two readings of its own. -/
theorem prod_wildcardBlocks_of_isSpread {parts : List Segment} (h : IsSpread parts) :
    ((wildcardBlocks parts).map (·.count recursive + 1)).prod = 2 ^ parts.count recursive := by
  have htwo : ∀ number ≤ 1, number + 1 = 2 ^ number := by decide
  rw [isSpread_iff] at h
  induction parts using block_induction with
  | last block hblock =>
    rw [wildcardBlocks_of_wildcards hblock] at h ⊢
    rw [List.map_singleton, List.prod_singleton, htwo _ (h block List.mem_cons_self)]
  | next block seg rest hblock hseg ih =>
    have hne : seg ≠ recursive := by
      rintro rfl
      exact absurd hseg (by decide)
    rw [wildcardBlocks_append_cons hblock hseg] at h ⊢
    rcases List.forall_mem_cons.mp h with ⟨hfew, hrest⟩
    rw [List.map_cons, List.prod_cons, ih hrest, htwo _ hfew, List.count_append,
      List.count_cons_of_ne hne, Nat.pow_add]

/-! ## Translations -/

/-- Up to the requested number of `**` segments, a pattern has as many translations as the product
of the numbers of readings of its blocks of wildcards.  That is a power of two if all `**` are
separate. -/
theorem length_translate {pattern : String} (hstars : ¬ threeStars <:+: pattern.toList) {cap : Nat}
    (hfew : (segments (canonicalize pattern.toList)).count recursive ≤ min cap 20) :
    let parts := segments (canonicalize pattern.toList)
    let translations := translate (.clamp cap) pattern
    translations.Nodup ∧
    translations.length = ((wildcardBlocks parts).map (·.count recursive + 1)).prod ∧
    (IsSpread parts → translations.length = 2 ^ parts.count recursive) := by
  intro parts translations
  have hparts : parts = canonicalSegments pattern.toList := segments_canonicalize pattern.toList
  have hnodup : translations.Nodup := (translate_pairwise_lt _ pattern).nodup
  rcases exists_nodup_readings parts with ⟨reads, hreads, hmem, hlength⟩
  -- Different readings are written differently, since their segments are found again.
  have hwritten : (reads.map fun read => String.ofList (ofSegments read)).Nodup := by
    refine hreads.map_on fun read hread other hother heq => ?_
    rw [hmem, hparts] at hread hother
    rw [← segments_ofSegments_of_isReading hstars hread, String.ofList_injective heq,
      segments_ofSegments_of_isReading hstars hother]
  have hperm : translations.Perm (reads.map fun read => String.ofList (ofSegments read)) := by
    rw [List.perm_ext_iff_of_nodup hnodup hwritten]
    intro text
    rw [mem_translate_iff_isReading _ hstars, and_iff_right (by rwa [← hparts]), ← hparts]
    simp only [List.mem_map, hmem, eq_comm (a := text)]
  have hcount : translations.length =
      ((wildcardBlocks parts).map (·.count recursive + 1)).prod := by
    rw [hperm.length_eq, List.length_map, hlength]
  refine ⟨hnodup, hcount, fun hspread => ?_⟩
  rw [hcount, prod_wildcardBlocks_of_isSpread hspread]

/-- Three `**` segments in two blocks have six readings, and two separate ones have four. -/
theorem length_translate_blocks :
    (¬ threeStars <:+: "**/**/*/x/**/**/y".toList ∧
      (segments (canonicalize "**/**/*/x/**/**/y".toList)).count recursive ≤ min 3 20 ∧
      wildcardBlocks (segments (canonicalize "**/**/*/x/**/**/y".toList)) =
        [[recursive, one], [recursive, recursive], []] ∧
      (translate (.clamp 3) "**/**/*/x/**/**/y").length = 6) ∧
    (¬ threeStars <:+: "**/x/**/y".toList ∧
      (segments (canonicalize "**/x/**/y".toList)).count recursive ≤ min 2 20 ∧
      IsSpread (segments (canonicalize "**/x/**/y".toList)) ∧
      (translate (.clamp 2) "**/x/**/y").length = 4) := by
  have hblocks : segments (canonicalize "**/**/*/x/**/**/y".toList) =
      [recursive, one, ['x'], recursive, recursive, ['y']] := by
    rw [segments_canonicalize]
    decide +kernel
  have hplain : segments (canonicalize "**/x/**/y".toList) =
      [recursive, ['x'], recursive, ['y']] := by
    rw [segments_canonicalize]
    decide +kernel
  have hstars : ¬ threeStars <:+: "**/**/*/x/**/**/y".toList := by decide +kernel
  have hstars' : ¬ threeStars <:+: "**/x/**/y".toList := by decide +kernel
  have hfew : (segments (canonicalize "**/**/*/x/**/**/y".toList)).count recursive ≤ min 3 20 := by
    rw [hblocks]
    decide
  have hfew' : (segments (canonicalize "**/x/**/y".toList)).count recursive ≤ min 2 20 := by
    rw [hplain]
    decide
  have hspread : IsSpread (segments (canonicalize "**/x/**/y".toList)) := by
    rw [hplain]
    decide
  refine ⟨⟨hstars, hfew, ?_, ?_⟩, hstars', hfew', hspread, ?_⟩
  · rw [hblocks]
    decide
  · rw [(length_translate hstars hfew).2.1, hblocks]
    decide
  · rw [(length_translate hstars' hfew').2.2 hspread, hplain]
    decide

end Pattern
end AttributeScope
