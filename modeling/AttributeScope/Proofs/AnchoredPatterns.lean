import AttributeScope.Pattern.Anchor
import AttributeScope.Proofs.CanonicalForm

/-!
# Directories and the patterns anchored there

An anchored pattern is the directory of its attribute file, a translation without a doubled slash
between the two, and `*` for every `@`.  This module says what can be read off such a pattern
without looking at the translation.

Main results:

- Theorem `containing_append_file`: the directory of a file in a directory is that directory.
- Theorem `prefix_of_anchor?`: an anchored pattern begins with its directory.
- Theorem `anchor?_eq_some_iff`: what can be anchored, and how it is written.
- Theorem `anchor?_eq_none_iff`: only a name `@`, of the directory or of the translation, keeps a
  translation from being anchored.
-/

namespace AttributeScope

/-! ## Directories -/

namespace SourceDir

/-- Whether the text of a directory is empty or ends with a slash. -/
def IsClosed (dir : SourceDir) : Prop :=
  dir = root ∨ ∃ inner, dir.text.toList = inner ++ ['/']

theorem isClosed_ofSlashed (path : List Char) : (ofSlashed path).IsClosed := by
  unfold ofSlashed
  split
  · exact Or.inl rfl
  · exact Or.inr ⟨_, String.toList_ofList⟩

theorem isClosed_ofPath (path : String) : (ofPath path).IsClosed :=
  isClosed_ofSlashed (slashed path.toList)

theorem isClosed_containing (file : String) : (containing file).IsClosed := by
  unfold containing
  split
  · exact Or.inl rfl
  · exact isClosed_ofSlashed _

theorem slashed_append (front back : List Char) :
    slashed (front ++ back) = slashed front ++ slashed back :=
  List.map_append

/-- A path without backslashes is written with slashes already. -/
theorem slashed_of_notMem {path : List Char} (h : '\\' ∉ path) : slashed path = path := by
  unfold slashed
  calc
    path.map (fun c => if c = '\\' then '/' else c) = path.map id := by
      apply List.map_congr_left
      intro c hc
      have hne : c ≠ '\\' := by
        rintro rfl
        exact h hc
      rw [if_neg hne]
      rfl
    _ = path := List.map_id path

/-- The directory of a file in a directory is that directory, however it is written. -/
theorem containing_append_file (dir name : String) (hslash : '/' ∉ name.toList)
    (hbackslash : '\\' ∉ name.toList) : containing (dir ++ "/" ++ name) = ofPath dir := by
  have hpath : slashed (dir ++ "/" ++ name).toList = slashed dir.toList ++ '/' :: name.toList := by
    rw [String.toList_append, String.toList_append, slashed_append, slashed_append,
      slashed_of_notMem hbackslash, List.append_assoc]
    rfl
  unfold containing ofPath
  rw [hpath, Text.beforeLast?_append hslash]

end SourceDir

/-! ## Anchored patterns -/

namespace Pattern

/-- A path as the scope dialect writes it, with `*` for every `@`. -/
def withoutAtSigns (path : List Char) : List Char :=
  path.map fun c => if c = '@' then '*' else c

theorem withoutAtSigns_append (front back : List Char) :
    withoutAtSigns (front ++ back) = withoutAtSigns front ++ withoutAtSigns back :=
  List.map_append

/-- Every path without a name `@` can be written. -/
theorem encodeAtSign?_eq_some_iff {path encoded : List Char} :
    encodeAtSign? path = some encoded ↔
      ['@'] ∉ segments path ∧ withoutAtSigns path = encoded := by
  unfold encodeAtSign? withoutAtSigns
  split
  next h => simp_all
  next h => simp_all

/-- A translation without the slash that would be doubled behind a directory. -/
def unslashed : List Char → List Char
  | '/' :: rest => rest
  | text => text

theorem eq_slash_cons_or_unslashed (text : List Char) :
    text = '/' :: unslashed text ∨ text = unslashed text := by
  fun_cases unslashed text with
  | case1 rest => exact Or.inl rfl
  | case2 text _ => exact Or.inr rfl

theorem below_root (variant : List Char) : below .root variant = variant := rfl

/-- Between a directory and a translation stands one slash. -/
theorem below_eq_append_slash {dir : SourceDir} {inner : List Char}
    (h : dir.text.toList = inner ++ ['/']) (variant : List Char) :
    below dir variant = inner ++ '/' :: unslashed variant := by
  have hlast : dir.text.toList.getLast? = some '/' := by rw [h, List.getLast?_concat]
  unfold below
  rw [if_pos hlast, h, List.append_assoc, List.singleton_append]
  split
  next rest => rfl
  next hslash => rw [unslashed.eq_2 _ hslash]

/-- An anchored pattern begins with its directory. -/
theorem prefix_of_anchor? {dir : SourceDir} {variant pattern : String}
    (h : anchor? dir variant = some pattern) :
    withoutAtSigns dir.text.toList <+: pattern.toList := by
  unfold anchor? at h
  rcases Option.map_eq_some_iff.mp h with ⟨encoded, hencoded, rfl⟩
  rcases encodeAtSign?_eq_some_iff.mp hencoded with ⟨-, rfl⟩
  unfold below
  rw [withoutAtSigns_append, String.toList_ofList]
  exact List.prefix_append _ _

/-- What can be anchored, and how it is written. -/
theorem anchor?_eq_some_iff {dir : SourceDir} {variant pattern : String} :
    anchor? dir variant = some pattern ↔
      ['@'] ∉ segments (below dir variant.toList) ∧
        String.ofList (withoutAtSigns (below dir variant.toList)) = pattern := by
  unfold anchor?
  rw [Option.map_eq_some_iff]
  constructor
  · intro h
    rcases h with ⟨encoded, hencoded, rfl⟩
    rcases encodeAtSign?_eq_some_iff.mp hencoded with ⟨hname, rfl⟩
    exact ⟨hname, rfl⟩
  · intro h
    exact ⟨_, encodeAtSign?_eq_some_iff.mpr ⟨h.1, rfl⟩, h.2⟩

/-- A path below a directory has a name `@` if the directory or the translation has one. -/
theorem atSign_mem_segments_below_iff {dir : SourceDir} (hdir : dir.IsClosed)
    (variant : List Char) :
    ['@'] ∈ segments (below dir variant) ↔
      ['@'] ∈ segments dir.text.toList ∨ ['@'] ∈ segments variant := by
  rcases hdir with rfl | ⟨inner, htext⟩
  · rw [below_root, or_iff_right (by decide)]
  · have hvariant : ['@'] ∈ segments (unslashed variant) ↔ ['@'] ∈ segments variant := by
      rcases eq_slash_cons_or_unslashed variant with hslash | hsame
      · conv_rhs => rw [hslash, segments_slash_cons]
        simp
      · rw [← hsame]
    have hinner : ['@'] ∈ segments (inner ++ ['/']) ↔ ['@'] ∈ segments inner := by
      rw [segments_append_slash, List.mem_append, or_iff_left (by decide)]
    rw [below_eq_append_slash htext, segments_append_slash, List.mem_append, hvariant, htext,
      hinner]

/-- Where the directory or the translation has a name `@`, nothing can be anchored. -/
theorem anchor?_eq_none_iff {dir : SourceDir} (hdir : dir.IsClosed) {variant : String} :
    anchor? dir variant = none ↔
      ['@'] ∈ segments dir.text.toList ∨ ['@'] ∈ segments variant.toList := by
  rw [← atSign_mem_segments_below_iff hdir, Option.eq_none_iff_forall_not_mem]
  simp only [Option.mem_def, anchor?_eq_some_iff, not_and]
  constructor
  · intro h
    by_contra hname
    exact h _ hname rfl
  · intro hname pattern habsent
    exact absurd hname habsent

end Pattern

/-! ## Patterns of a directive -/

namespace Resolution

open Pattern

/-- The patterns of a directive are its translations, anchored. -/
theorem mem_patterns_ofDirective {limit : ExpansionLimit} {dir : SourceDir} {directive : Directive}
    {pattern : String} :
    pattern ∈ (ofDirective limit dir directive).patterns ↔
      ∃ variant ∈ translate limit directive.path, anchor? dir variant = some pattern := by
  unfold ofDirective
  dsimp only
  rw [Text.mem_sortedSet, List.mem_filterMap]

/-- The patterns of a directive are listed in strictly increasing order. -/
theorem patterns_pairwise_lt (limit : ExpansionLimit) (dir : SourceDir) (directive : Directive) :
    (ofDirective limit dir directive).patterns.Pairwise (· < ·) := by
  unfold ofDirective
  dsimp only
  exact Text.sortedSet_pairwise_lt _

end Resolution
end AttributeScope
