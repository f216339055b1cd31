import Mathlib.Data.List.DropRight
import AttributeScope.Proofs.AnchoredPatterns

/-!
# The normal form of directories

The directory of an attribute file can be written with slashes or backslashes, and with any number
of them around it.  All these ways lead to one text, in front of which patterns are anchored.

Main results:

- Theorem `isNormal_ofPath`: every path is brought to normal form.
- Theorem `isNormal_iff`: the directories in normal form are those whose text leads back to them.
- Theorem `IsNormal.containing_append`: a file that is joined to a directory is found in it.
-/

namespace AttributeScope
namespace SourceDir

/-! ## Slashes around a path -/

/-- A path without the slashes around it. -/
def trimmed (path : List Char) : List Char :=
  Text.dropEndWhile (· == '/') (path.dropWhile (· == '/'))

/-- Whether no slash stands around a path. -/
def IsTrimmed (path : List Char) : Prop :=
  path.head? ≠ some '/' ∧ path.getLast? ≠ some '/'

theorem trimmed_prefix_dropWhile (path : List Char) : trimmed path <+: path.dropWhile (· == '/') :=
  List.rdropWhile_prefix _ _

theorem mem_of_mem_trimmed {path : List Char} {c : Char} (h : c ∈ trimmed path) : c ∈ path :=
  (List.dropWhile_suffix _).mem ((trimmed_prefix_dropWhile path).mem h)

theorem isTrimmed_trimmed (path : List Char) : IsTrimmed (trimmed path) := by
  constructor
  · intro hhead
    -- What is left after the slashes in front begins as the trimmed path does.
    have hrest : (path.dropWhile (· == '/')).head? = some '/' := by
      rcases trimmed_prefix_dropWhile path with ⟨back, hback⟩
      rw [← hback, List.head?_append, hhead, Option.some_or]
    have hnot := List.head?_dropWhile_not (· == '/') path
    rw [hrest] at hnot
    exact absurd hnot (by decide)
  · intro hlast
    have hne : trimmed path ≠ [] := by
      intro hnil
      rw [hnil] at hlast
      cases hlast
    rw [List.getLast?_eq_some_getLast hne] at hlast
    have hnot := List.rdropWhile_last_not (· == '/') (path.dropWhile (· == '/')) hne
    exact hnot (beq_iff_eq.mpr (Option.some.inj hlast))

/-- A path without slashes around it stays as it is. -/
theorem trimmed_of_isTrimmed {path : List Char} (h : IsTrimmed path) : trimmed path = path := by
  have hfront : path.dropWhile (· == '/') = path := by
    cases path with
    | nil => rfl
    | cons c rest =>
      have hc : c ≠ '/' := fun heq => h.1 (by rw [heq, List.head?_cons])
      rw [List.dropWhile_cons_of_neg (by simpa using hc)]
  have hback : path.rdropWhile (· == '/') = path := by
    rw [List.rdropWhile_eq_self_iff]
    intro hne hlast
    apply h.2
    rw [List.getLast?_eq_some_getLast hne, beq_iff_eq.mp hlast]
  unfold trimmed
  rw [hfront]
  exact hback

/-- A slash at the end does not matter. -/
theorem trimmed_append_slash (path : List Char) : trimmed (path ++ ['/']) = trimmed path := by
  unfold trimmed
  rw [List.dropWhile_append]
  split
  next hnil =>
    rw [List.isEmpty_iff.mp hnil]
    rfl
  next => exact List.rdropWhile_concat_pos _ _ _ (by decide)

/-! ## The normal form -/

/-- A directory in normal form: the project's own, or names without a backslash between them, with
no slash in front of the first one and one behind the last one. -/
inductive IsNormal : SourceDir → Prop
  | root : IsNormal root
  | below {inner : List Char} (hne : inner ≠ []) (htrimmed : IsTrimmed inner)
      (hslashed : '\\' ∉ inner) : IsNormal ⟨String.ofList (inner ++ ['/'])⟩

theorem ofSlashed_of_trimmed_eq_nil {path : List Char} (h : trimmed path = []) :
    ofSlashed path = root := by
  unfold ofSlashed
  unfold trimmed at h
  rw [h]

theorem ofSlashed_of_trimmed_ne_nil {path : List Char} (h : trimmed path ≠ []) :
    ofSlashed path = ⟨String.ofList (trimmed path ++ ['/'])⟩ := by
  unfold ofSlashed
  split
  next hnil => exact absurd hnil h
  next => rfl

/-- A path without slashes around it gets one behind it. -/
theorem ofSlashed_of_isTrimmed {path : List Char} (hne : path ≠ []) (h : IsTrimmed path) :
    ofSlashed path = ⟨String.ofList (path ++ ['/'])⟩ := by
  have htrimmed : trimmed path = path := trimmed_of_isTrimmed h
  rw [ofSlashed_of_trimmed_ne_nil (by rwa [htrimmed]), htrimmed]

theorem ofSlashed_append_slash (path : List Char) : ofSlashed (path ++ ['/']) = ofSlashed path := by
  have htrimmed := trimmed_append_slash path
  unfold trimmed at htrimmed
  unfold ofSlashed
  rw [htrimmed]

theorem isNormal_ofSlashed {path : List Char} (h : '\\' ∉ path) : (ofSlashed path).IsNormal := by
  by_cases hnil : trimmed path = []
  · rw [ofSlashed_of_trimmed_eq_nil hnil]
    exact .root
  · rw [ofSlashed_of_trimmed_ne_nil hnil]
    exact .below hnil (isTrimmed_trimmed path) fun hmem => h (mem_of_mem_trimmed hmem)

theorem notMem_slashed (path : List Char) : '\\' ∉ slashed path := by
  unfold slashed
  intro hmem
  rcases List.mem_map.mp hmem with ⟨c, -, hc⟩
  split at hc
  · exact absurd hc (by decide)
  · contradiction

/-- Every path is brought to normal form. -/
theorem isNormal_ofPath (path : String) : (ofPath path).IsNormal :=
  isNormal_ofSlashed (notMem_slashed path.toList)

/-- The directory that holds a file is in normal form. -/
theorem isNormal_containing (file : String) : (containing file).IsNormal := by
  unfold containing
  split
  next => exact .root
  next dir hdir =>
    apply isNormal_ofSlashed
    intro hmem
    exact notMem_slashed file.toList ((Text.prefix_of_beforeLast? hdir).mem hmem)

namespace IsNormal

variable {dir : SourceDir}

/-- The text of a directory in normal form leads back to it. -/
theorem ofPath_text (h : dir.IsNormal) : ofPath dir.text = dir := by
  cases h with
  | root => rfl
  | @below inner hne htrimmed hslashed =>
    have hbackslash : '\\' ∉ inner ++ ['/'] := by simpa using hslashed
    unfold ofPath
    rw [String.toList_ofList, slashed_of_notMem hbackslash, ofSlashed_append_slash,
      ofSlashed_of_isTrimmed hne htrimmed]

theorem text_closed (h : dir.IsNormal) : dir.text = "" ∨ ['/'] <:+ dir.text.toList := by
  cases h with
  | root => exact Or.inl rfl
  | below =>
    rw [String.toList_ofList]
    exact Or.inr (List.suffix_append _ _)

theorem not_slash_prefix_text (h : dir.IsNormal) : ¬ ['/'] <+: dir.text.toList := by
  cases h with
  | root => decide
  | @below inner hne htrimmed hslashed =>
    rw [String.toList_ofList]
    cases inner with
    | nil => exact absurd rfl hne
    | cons c rest =>
      intro hprefix
      rw [List.cons_append, List.cons_prefix_cons] at hprefix
      exact htrimmed.1 (by rw [← hprefix.1, List.head?_cons])

theorem backslash_notMem_text (h : dir.IsNormal) : '\\' ∉ dir.text.toList := by
  cases h with
  | root => decide
  | below hne htrimmed hslashed => simpa [String.toList_ofList] using hslashed

/-- A file that is joined to a directory is found in it. -/
theorem containing_append (h : dir.IsNormal) {name : String} (hslash : '/' ∉ name.toList)
    (hbackslash : '\\' ∉ name.toList) : containing (dir.text ++ name) = dir := by
  cases h with
  | root =>
    have hjoined : SourceDir.root.text ++ name = name := String.empty_append
    unfold containing
    rw [hjoined, slashed_of_notMem hbackslash, Text.beforeLast?_of_notMem hslash]
  | @below inner hne htrimmed hslashed =>
    have hjoined : String.ofList (inner ++ ['/']) ++ name = String.ofList inner ++ "/" ++ name := by
      rw [String.ofList_append]
    rw [hjoined, containing_append_file _ _ hslash hbackslash]
    unfold ofPath
    rw [String.toList_ofList, slashed_of_notMem hslashed, ofSlashed_of_isTrimmed hne htrimmed]

end IsNormal

/-- The directories in normal form are those whose text leads back to them. -/
theorem isNormal_iff {dir : SourceDir} : dir.IsNormal ↔ ofPath dir.text = dir := by
  constructor
  · exact IsNormal.ofPath_text
  · intro h
    rw [← h]
    exact isNormal_ofPath dir.text

/-- The text of a directory is empty or ends with a slash, does not begin with one and has no
backslash.  It leads to the same directory again, and so does every file that is joined to it. -/
theorem ofPath_normal_form (path : String) :
    (((ofPath path).text = "" ∨ ['/'] <:+ (ofPath path).text.toList) ∧
        ¬ ['/'] <+: (ofPath path).text.toList ∧ '\\' ∉ (ofPath path).text.toList) ∧
      ofPath (ofPath path).text = ofPath path ∧
      ∀ name : String, '/' ∉ name.toList → '\\' ∉ name.toList →
        containing ((ofPath path).text ++ name) = ofPath path := by
  have hnormal : (ofPath path).IsNormal := isNormal_ofPath path
  refine ⟨⟨hnormal.text_closed, hnormal.not_slash_prefix_text, hnormal.backslash_notMem_text⟩,
    hnormal.ofPath_text, ?_⟩
  intro name hslash hbackslash
  exact hnormal.containing_append hslash hbackslash

/-- Separators of both kinds around a path and inside it. -/
theorem ofPath_normal_form_backslashes :
    '/' ∉ ".gitattributes".toList ∧ '\\' ∉ ".gitattributes".toList ∧
      (ofPath "\\/pkg\\\\gen/\\").text = "pkg//gen/" ∧ ofPath "pkg//gen/" = ⟨"pkg//gen/"⟩ ∧
      containing "pkg//gen/.gitattributes" = ⟨"pkg//gen/"⟩ := by
  have hslash : '/' ∉ ".gitattributes".toList := by decide
  have hbackslash : '\\' ∉ ".gitattributes".toList := by decide
  have hdir : ofPath "\\/pkg\\\\gen/\\" = ⟨"pkg//gen/"⟩ := by decide +kernel
  rcases ofPath_normal_form "\\/pkg\\\\gen/\\" with ⟨-, hagain, hfile⟩
  rw [hdir] at hagain hfile
  exact ⟨hslash, hbackslash, congrArg text hdir, hagain, hfile ".gitattributes" hslash hbackslash⟩

end SourceDir
end AttributeScope
