import AttributeScope.Project.Discovery
import AttributeScope.Proofs.LossyDecoding
import AttributeScope.Proofs.PathLookup

/-!
# The paths of files in a project

A file below a root is looked up by the path of the root with the names behind it, and it is
reported by the names alone, as they are shown.  The path leads to the file, if it is not too long.
Files are reported alike if their names are shown alike, one by one.  So different files are
reported differently if all their names are UTF-8.

Main results:

- Theorem `relativeTo_pathOf`: how a file is reported.
- Theorem `intercalate_shown_eq_iff`: which files are reported alike.
- Theorem `eq_of_map_shown_eq`: different files whose names are UTF-8 are not.
- Theorem `position_of_trail_pathOf`: where the path of a file leads.
-/

namespace AttributeScope

open FileSystem (Trail)

/-! ## What is shown of names -/

namespace RawText

open Text.Utf8 (Decodes decode decodes_decode decodes_encode)

variable {name other : RawText}

/-- Names that are UTF-8. -/
def IsUtf8 (name : RawText) : Prop := ∃ text, name = ofText text

theorem decodes_shown (name : RawText) : ∃ lossy, Decodes name.bytes name.shown.toList lossy :=
  ⟨_, decodes_decode name.bytes.toArray⟩

/-- What is UTF-8 is shown as it is. -/
@[simp] theorem shown_ofText (text : String) : (ofText text).shown = text :=
  String.toList_injective (@Decodes.decode_eq (ofText text).bytes.toArray _ _
    (decodes_encode text.toList)).1

/-- Different names that are UTF-8 are shown differently. -/
theorem IsUtf8.eq_of_shown_eq (hname : name.IsUtf8) (hother : other.IsUtf8)
    (h : name.shown = other.shown) : name = other := by
  rcases hname with ⟨text, rfl⟩
  rcases hother with ⟨text', rfl⟩
  rw [shown_ofText, shown_ofText] at h
  rw [h]

/-- No slash is shown where there is none. -/
theorem slash_notMem_shown (h : slash ∉ name.bytes) : '/' ∉ name.shown.toList := by
  intro hmem
  rcases decodes_shown name with ⟨_, hshown⟩
  have hpart : [slash] <:+: name.bytes := hshown.infix_of_mem hmem (by decide)
  exact h (hpart.subset List.mem_cons_self)

/-- Of every name something is shown. -/
theorem shown_ne_nil (h : name.bytes ≠ []) : name.shown ≠ "" := by
  rcases decodes_shown name with ⟨_, hshown⟩
  exact fun hempty => hshown.ne_nil h (congrArg String.toList hempty)

end RawText

/-! ## Components -/

namespace Path

open RawText (dot slash)

variable {base name : RawText}

theorem ofPiece?_bytes (h : IsEntryName name) :
    Component.ofPiece? name.bytes = some (.entry name) := by
  rcases h.isName with ⟨hempty, hhere, habove⟩
  unfold Component.ofPiece?
  rw [if_neg (not_or.mpr ⟨hempty, hhere⟩), if_neg habove]

theorem components_of_isAbsolute (h : isAbsolute base = true) :
    components base =
      .top :: (FileSystem.pathPieces base).filterMap Component.ofPiece? := by
  have hsplit := FileSystem.splitOn_bytes base
  rw [h] at hsplit
  unfold components
  rw [hsplit, h]
  rfl

/-- The components of a relative path are that of its first piece and those of the others. -/
theorem components_of_relative {first : List UInt8} {rest : List (List UInt8)}
    (h : isAbsolute base = false) (hpieces : FileSystem.pathPieces base = first :: rest) :
    components base =
      (if first = [dot] then [Component.here] else (Component.ofPiece? first).toList) ++
        rest.filterMap Component.ofPiece? := by
  have hsplit := FileSystem.splitOn_bytes base
  rw [h, hpieces] at hsplit
  unfold components
  rw [hsplit, h]
  rfl

/-- A name behind a path is one more component. -/
theorem components_join (hbase : base ≠ "") (hname : IsEntryName name) :
    components (join base name) = components base ++ [.entry name] := by
  have hpiece : [name.bytes].filterMap Component.ofPiece? = [.entry name] := by
    rw [List.filterMap_cons_some (ofPiece?_bytes hname), List.filterMap_nil]
  have habsolute := isAbsolute_join hbase hname.slash_notMem
  have hpieces := FileSystem.pathPieces_join hbase hname.slash_notMem
  cases h : isAbsolute base with
  | true =>
    rw [h] at habsolute
    rw [components_of_isAbsolute habsolute, components_of_isAbsolute h]
    rcases hpieces with ⟨front, hfront, hjoin⟩ | hjoin
    · rw [hfront, hjoin, List.filterMap_append, List.filterMap_append, hpiece]
      simp [Component.ofPiece?]
    · rw [hjoin, List.filterMap_append, hpiece, List.cons_append]
  | false =>
    rw [h] at habsolute
    rcases hpieces with ⟨front, hfront, hjoin⟩ | hjoin
    · cases front with
      | nil =>
        have htext : List.intercalate [slash] (base.bytes.splitOn slash) = base.bytes :=
          List.intercalate_splitOn slash
        rw [FileSystem.splitOn_bytes, h, hfront] at htext
        exact absurd (RawText.ext htext.symm) hbase
      | cons first rest =>
        rw [List.cons_append] at hfront hjoin
        rw [components_of_relative habsolute hjoin, components_of_relative h hfront,
          List.filterMap_append, List.filterMap_append, hpiece, List.append_assoc]
        simp [Component.ofPiece?]
    · cases hpieces : FileSystem.pathPieces base with
      | nil => exact absurd hpieces (FileSystem.pathPieces_ne_nil base)
      | cons first rest =>
        rw [hpieces, List.cons_append] at hjoin
        rw [components_of_relative habsolute hjoin, components_of_relative h hpieces,
          List.filterMap_append, hpiece, List.append_assoc]

end Path

namespace Project

variable {fs : FileSystem} {root : RawText} {names others : List RawText} {trail found : Trail}

theorem pathOf_cons (root name : RawText) (names : List RawText) :
    pathOf root (name :: names) = pathOf (Path.join root name) names := rfl

theorem components_pathOf (hroot : root ≠ "") (hnames : ∀ name ∈ names, IsEntryName name) :
    Path.components (pathOf root names) =
      Path.components root ++ names.map Path.Component.entry := by
  induction names generalizing root with
  | nil => rw [List.map_nil, List.append_nil]; rfl
  | cons name rest ih =>
    rcases List.forall_mem_cons.mp hnames with ⟨hname, hrest⟩
    rw [pathOf_cons, ih (Path.join_ne_nil hroot hname.slash_notMem) hrest,
      Path.components_join hroot hname, List.append_assoc]
    rfl

/-- A file below a root is reported by the names that lead to it from there, as they are shown. -/
theorem relativeTo_pathOf (hroot : root ≠ "") (hnames : ∀ name ∈ names, IsEntryName name) :
    Path.relativeTo root (pathOf root names) = "/".intercalate (names.map RawText.shown) := by
  rw [Path.relativeTo_of_prefix (components_pathOf hroot hnames), List.map_map]
  rfl

/-! ## Files that are reported alike -/

theorem splitOn_shown (hnames : ∀ name ∈ names, IsEntryName name) (hne : names ≠ []) :
    (List.intercalate ['/'] ((names.map RawText.shown).map String.toList)).splitOn '/' =
      (names.map RawText.shown).map String.toList := by
  refine List.splitOn_intercalate '/' ?_ (by simpa using hne)
  intro piece hpiece
  rw [List.map_map] at hpiece
  rcases List.mem_map.mp hpiece with ⟨name, hname, rfl⟩
  exact RawText.slash_notMem_shown (hnames name hname).slash_notMem

/-- Only a file that no names lead to is reported by no text at all. -/
theorem eq_nil_of_intercalate_shown (hnames : ∀ name ∈ names, IsEntryName name)
    (h : "/".intercalate (names.map RawText.shown) = "") : names = [] := by
  by_contra hne
  have hsplit := splitOn_shown hnames hne
  rw [← String.toList_inj, String.toList_intercalate] at h
  have htext : List.intercalate ['/'] ((names.map RawText.shown).map String.toList) = [] := h
  rw [htext] at hsplit
  cases names with
  | nil => exact hne rfl
  | cons name rest =>
    have hempty : ("" : String).toList = name.shown.toList := (List.cons.inj hsplit).1
    exact RawText.shown_ne_nil (hnames name List.mem_cons_self).isName.1
      (String.toList_inj.mp hempty).symm

/-- Files are reported alike exactly if their names are shown alike, one by one. -/
theorem intercalate_shown_eq_iff (hnames : ∀ name ∈ names, IsEntryName name)
    (hothers : ∀ name ∈ others, IsEntryName name) :
    "/".intercalate (names.map RawText.shown) = "/".intercalate (others.map RawText.shown) ↔
      names.map RawText.shown = others.map RawText.shown := by
  refine ⟨fun h => ?_, congrArg _⟩
  by_cases hne : names = []
  · subst hne
    rw [eq_nil_of_intercalate_shown hothers h.symm]
  by_cases hother : others = []
  · subst hother
    rw [eq_nil_of_intercalate_shown hnames h]
  have htext := congrArg String.toList h
  rw [String.toList_intercalate, String.toList_intercalate] at htext
  have hsplit := congrArg (List.splitOn '/') htext
  have hlists := (splitOn_shown hnames hne).symm.trans (hsplit.trans (splitOn_shown hothers hother))
  exact List.map_injective_iff.mpr (fun _ _ => String.toList_inj.mp) hlists

/-- Names that are UTF-8 and shown alike, one by one, are the same. -/
theorem eq_of_map_shown_eq (hnames : ∀ name ∈ names, name.IsUtf8)
    (hothers : ∀ name ∈ others, name.IsUtf8)
    (h : names.map RawText.shown = others.map RawText.shown) : names = others := by
  induction names generalizing others with
  | nil => exact (List.map_eq_nil_iff.mp h.symm).symm
  | cons name rest ih =>
    rcases List.map_eq_cons_iff.mp h.symm with ⟨other, more, rfl, hother, hmore⟩
    rcases List.forall_mem_cons.mp hnames with ⟨hname, hrest⟩
    rcases List.forall_mem_cons.mp hothers with ⟨hotherUtf8, hmoreUtf8⟩
    rw [hname.eq_of_shown_eq hotherUtf8 hother.symm, ih hrest hmoreUtf8 hmore.symm]

/-! ## Where the path of a file leads -/

theorem follow_pathOf (hroot : root ≠ "") (hnames : ∀ name ∈ names, IsEntryName name)
    (links : Nat) (rest : List (List UInt8)) :
    fs.follow links [] (fs.piecesFromTop (pathOf root names) ++ rest) =
      fs.follow links [] (fs.piecesFromTop root ++ (names.map RawText.bytes ++ rest)) := by
  induction names generalizing root with
  | nil => rfl
  | cons name others ih =>
    rcases List.forall_mem_cons.mp hnames with ⟨hname, hothers⟩
    rw [pathOf_cons, ih (Path.join_ne_nil hroot hname.slash_notMem) hothers,
      FileSystem.follow_join hroot hname.slash_notMem]
    rfl

/-- The path of a file below a root leads to it, if it leads anywhere. -/
theorem position_of_trail_pathOf {content : FileContent} (hroot : fs.trail root = .ok trail)
    (hnames : ∀ name ∈ names, IsEntryName name)
    (hfile : (fs.nodeOn trail).descend? names = some (.file content))
    (hfound : fs.trail (pathOf root names) = .ok found) :
    Trail.position found = Trail.position trail ++ names ∧ fs.nodeOn found = .file content := by
  rcases FileSystem.trail_eq_ok_iff.mp hroot with ⟨hne, -, -, hfollow⟩
  rcases FileSystem.exists_follow_append hfollow with ⟨left, -, hback⟩
  have hend := (FileSystem.trail_eq_ok_iff.mp hfound).2.2.2
  rw [← List.append_nil (fs.piecesFromTop _), follow_pathOf hne hnames, List.append_nil] at hend
  have hnamesFollow := hback 0 (names.map RawText.bytes)
  rw [Nat.add_zero, Nat.add_zero, hend] at hnamesFollow
  rcases FileSystem.follow_names hnames hfile (fun target => by simp) left with
    ⟨below, hbelow, hposition, hnode⟩
  rw [hbelow, Except.ok.injEq] at hnamesFollow
  exact hnamesFollow ▸ ⟨hposition, hnode⟩

end Project
end AttributeScope
