import Mathlib.Data.List.Forall2
import AttributeScope.Config.Location
import AttributeScope.Proofs.PathLookup

/-!
# Where the settings of a directory are found

The search for settings shortens the text of a path, and each shortened path is looked up anew.  If
the path has no `..` and no link is followed on the way, the directories it comes to are those
above the one it begins at, and the file that is found governs that directory.  Behind a `..` the
shortened path leads down again, so that settings of a directory below are found.

Main results:

- Theorem `forall₂_ancestors`: the paths above one lead to the directories above the one it leads
  to.
- Theorem `find?_governs`: which directory the settings that are found come from.
- Theorem `not_find?_governs_above`: behind a `..` they come from elsewhere.
-/

namespace AttributeScope

/-- Whether something of a name can be looked up where a trail ends. -/
def FileSystem.holds (fs : FileSystem) (trail : FileSystem.Trail) (name : RawText) : Bool :=
  (fs.follow FileSystem.maxLinks trail [name.bytes]).isOk

namespace Config

open FileSystem (Trail maxLinks maxPathSize)
open RawText (dot slash)

/-- An answer is what governs the first of several directories, which trails lead to from the
inside out. -/
structure Governs (fs : FileSystem) (answer : Option RawText) (trails : List Trail) : Prop where
  /-- A file is in one of the directories, and neither settings nor the top of a repository are
  nearer. -/
  nearest : ∀ path, answer = some path →
    ∃ nearer found further directory, trails = nearer ++ found :: further ∧
      path = Path.join directory fileName ∧ fs.trail directory = .ok found ∧
      fs.holds found fileName = true ∧
      ∀ inner ∈ nearer, fs.holds inner fileName = false ∧ fs.holds inner repositoryName = false
  /-- If there is no file, no directory up to the top of the repository holds settings. -/
  lacking : answer = none → ∀ nearer directory further, trails = nearer ++ directory :: further →
    (∀ inner ∈ nearer, fs.holds inner repositoryName = false) →
      fs.holds directory fileName = false

/-! ## The paths above a path -/

theorem isPadding_iff {piece : List UInt8} :
    Path.isPadding piece = true ↔ piece = [] ∨ piece = [dot] := by
  simp [Path.isPadding]

section Above

variable {fs : FileSystem} {trail : Trail} {piece : List UInt8} {pieces rest : List (List UInt8)}

/-- An empty piece or a dot at the end of a path can be left out. -/
theorem follow_of_concat_padding (hpadding : Path.isPadding piece = true)
    (h : fs.follow 0 [] (pieces ++ [piece]) = .ok trail) : fs.follow 0 [] pieces = .ok trail := by
  rcases FileSystem.exists_of_follow_append h with ⟨between, left, -, hpieces, hpiece⟩
  have hdir := (FileSystem.follow_cons_eq_ok hpiece).1
  rw [FileSystem.follow_padding hdir (isPadding_iff.mp hpadding), FileSystem.follow_nil] at hpiece
  rw [hpieces, hpiece]

/-- A name at the end of a path is the last one of the trail. -/
theorem exists_of_concat_name (hpadding : ¬ Path.isPadding piece = true)
    (habove : piece ≠ [dot, dot])
    (h : fs.follow 0 [] (pieces ++ [piece]) = .ok trail) :
    ∃ node outer, trail = (⟨piece⟩, node) :: outer ∧
      fs.follow 0 [] pieces = .ok outer ∧ (fs.nodeOn outer).isDirectory = true := by
  rcases FileSystem.exists_of_follow_append h with ⟨outer, left, hleft, hpieces, hpiece⟩
  obtain rfl : left = 0 := Nat.le_zero.mp hleft
  rcases FileSystem.follow_cons_eq_ok hpiece with ⟨hdir, ⟨hpiece, -⟩ | ⟨rfl, -⟩ | ⟨-, hstep⟩⟩
  · exact absurd (isPadding_iff.mpr hpiece) hpadding
  · exact absurd rfl habove
  · rcases hstep with ⟨node, -, -, hend⟩ | ⟨target, less, hless, -⟩
    · rw [FileSystem.follow_nil, Except.ok.injEq] at hend
      exact ⟨node, outer, hend.symm, hpieces, hdir⟩
    · exact absurd hless (Nat.succ_ne_zero less).symm

/-- Empty pieces and dots at the end of a path can be left out. -/
theorem follow_dropWhile_isPadding (h : fs.follow 0 [] rest.reverse = .ok trail) :
    fs.follow 0 [] (rest.dropWhile Path.isPadding).reverse = .ok trail := by
  induction rest with
  | nil => exact h
  | cons piece rest ih =>
    by_cases hpadding : Path.isPadding piece = true
    · rw [List.dropWhile_cons_of_pos hpadding]
      rw [List.reverse_cons] at h
      exact ih (follow_of_concat_padding hpadding h)
    · rw [List.dropWhile_cons_of_neg hpadding]
      exact h

/-- The absolute path with given pieces leads where the pieces lead. -/
theorem follow_ofPieces (hslash : ∀ piece ∈ pieces, slash ∉ piece)
    (hdir : (fs.nodeOn trail).isDirectory = true) (h : fs.follow 0 [] pieces = .ok trail) :
    fs.follow 0 [] (fs.piecesFromTop (Path.ofPieces pieces)) = .ok trail := by
  have habsolute : Path.isAbsolute (Path.ofPieces pieces) = true := by
    simp [Path.isAbsolute, Path.ofPieces]
  have hpieces : fs.piecesFromTop (Path.ofPieces pieces) =
      (List.intercalate [slash] pieces).splitOn slash := by
    unfold FileSystem.piecesFromTop FileSystem.pathPieces
    rw [habsolute]
    simp [Path.ofPieces]
  rw [hpieces]
  by_cases hnil : pieces = []
  · subst hnil
    rw [FileSystem.follow_nil, Except.ok.injEq] at h
    subst h
    rw [List.intercalate_nil, List.splitOn_nil, FileSystem.follow_padding hdir (.inl rfl)]
    exact FileSystem.follow_nil
  · rw [List.splitOn_intercalate slash hslash hnil]
    exact h

/-- The paths above one lead to the directories above the one it leads to, if it has no `..` and no
link is followed on the way. -/
theorem forall₂_abovePieces (hslash : ∀ piece ∈ rest, slash ∉ piece)
    (habove : [dot, dot] ∉ rest) (h : fs.follow 0 [] rest.reverse = .ok trail) :
    List.Forall₂ (fun path outer => fs.follow 0 [] (fs.piecesFromTop path) = .ok outer)
      (Path.abovePieces Path.ofPieces rest) trail.tails.tail := by
  induction rest generalizing trail with
  | nil =>
    rw [List.reverse_nil, FileSystem.follow_nil, Except.ok.injEq] at h
    subst h
    exact .nil
  | cons piece rest ih =>
    rcases List.forall_mem_cons.mp hslash with ⟨-, hslash⟩
    have hpiece : piece ≠ [dot, dot] := fun e => habove (e ▸ List.mem_cons_self)
    have habove : [dot, dot] ∉ rest := fun hmem => habove (List.mem_cons_of_mem piece hmem)
    rw [List.reverse_cons] at h
    unfold Path.abovePieces
    by_cases hpadding : Path.isPadding piece = true
    · rw [if_pos hpadding]
      exact ih hslash habove (follow_of_concat_padding hpadding h)
    · rw [if_neg hpadding]
      rcases exists_of_concat_name hpadding hpiece h with ⟨node, outer, rfl, hrest, hdir⟩
      have htails : List.tails ((⟨piece⟩, node) :: outer) =
          ((⟨piece⟩, node) :: outer) :: outer :: outer.tails.tail := by
        cases outer <;> rfl
      rw [htails]
      refine .cons ?_ (ih hslash habove hrest)
      apply follow_ofPieces _ hdir (follow_dropWhile_isPadding hrest)
      intro other hother
      exact hslash other (List.dropWhile_suffix _ |>.subset (List.mem_reverse.mp hother))

/-- A path above one has pieces in front of the others. -/
theorem exists_prefix_of_mem_abovePieces {path : RawText}
    (h : path ∈ Path.abovePieces Path.ofPieces rest) :
    ∃ front, front <+: rest.reverse ∧ path = Path.ofPieces front := by
  induction rest with
  | nil => simp [Path.abovePieces] at h
  | cons piece rest ih =>
    have hrest : rest.reverse <+: (piece :: rest).reverse := by
      rw [List.reverse_cons]
      exact List.prefix_append _ _
    have hmem (hmem : path ∈ Path.abovePieces Path.ofPieces rest) :
        ∃ front, front <+: (piece :: rest).reverse ∧ path = Path.ofPieces front := by
      rcases ih hmem with ⟨front, hfront, hpath⟩
      exact ⟨front, hfront.trans hrest, hpath⟩
    unfold Path.abovePieces at h
    split at h
    · exact hmem h
    · rcases List.mem_cons.mp h with rfl | h
      · exact ⟨_, (List.reverse_prefix.mpr (List.dropWhile_suffix _)).trans hrest, rfl⟩
      · exact hmem h

/-- The pieces in front of others make a text that the text of all begins with. -/
theorem intercalate_prefix {front : List (List UInt8)} (h : front <+: pieces) :
    List.intercalate [slash] front <+: List.intercalate [slash] pieces := by
  induction front generalizing pieces with
  | nil => exact List.nil_prefix
  | cons first front ih =>
    rcases h with ⟨back, rfl⟩
    cases front with
    | nil =>
      cases back with
      | nil => exact List.prefix_rfl
      | cons next others =>
        rw [List.intercalate_singleton, List.cons_append, List.nil_append,
          List.intercalate_cons_cons, List.append_assoc]
        exact List.prefix_append _ _
    | cons next others =>
      have hnext : next :: others ++ back ≠ [] := by simp
      rw [List.cons_append, List.intercalate_cons_of_ne_nil hnext,
        List.intercalate_cons_of_ne_nil (List.cons_ne_nil next others)]
      exact (List.prefix_append_right_inj _).mpr (ih (List.prefix_append _ _))

end Above

/-! ## The directories that are searched -/

section Search

variable {fs : FileSystem} {start directory name : RawText} {trail outer : Trail}

/-- A path from which settings are searched: it leads to its end without links and has no `..`,
and a name behind it is short enough to be looked up. -/
structure LeadsPlainly (fs : FileSystem) (start : RawText) (trail : Trail) : Prop where
  isAbsolute : Path.isAbsolute start = true
  leads : fs.trail start = .ok trail
  /-- No link is followed. -/
  plain : (fs.follow 0 [] (FileSystem.pathPieces start)).isOk = true
  above_notMem : [dot, dot] ∉ FileSystem.pathPieces start
  short : start.size + 1 + fileName.size ≤ maxPathSize

/-- A path that the search looks at: it is a part of the one it begins with and leads somewhere
without links. -/
structure IsSearched (fs : FileSystem) (start directory : RawText) (outer : Trail) : Prop where
  isAbsolute : Path.isAbsolute directory = true
  bytes_prefix : directory.bytes <+: start.bytes
  follow_eq : fs.follow 0 [] (fs.piecesFromTop directory) = .ok outer

theorem IsSearched.ne_nil (h : IsSearched fs start directory outer) : directory ≠ "" := by
  rintro rfl
  exact absurd h.isAbsolute (by decide)

theorem piecesFromTop_of_isAbsolute (h : Path.isAbsolute directory = true) :
    fs.piecesFromTop directory = FileSystem.pathPieces directory := by
  simp [FileSystem.piecesFromTop, h]

/-- The way to the end of the path takes no links. -/
theorem LeadsPlainly.follow_zero (h : LeadsPlainly fs start trail) :
    fs.follow 0 [] (FileSystem.pathPieces start) = .ok trail := by
  have hleads := (FileSystem.trail_eq_ok_iff.mp h.leads).2.2.2
  rw [piecesFromTop_of_isAbsolute h.isAbsolute] at hleads
  cases hplain : fs.follow 0 [] (FileSystem.pathPieces start) with
  | error fault => simpa [hplain, Except.isOk, Except.toBool] using h.plain
  | ok found =>
    have hfollow := FileSystem.follow_append_of_follow_zero hplain maxLinks []
    rw [List.append_nil, FileSystem.follow_nil, hleads] at hfollow
    exact hfollow.symm

theorem splitOn_of_isAbsolute (h : Path.isAbsolute start = true) :
    start.bytes.splitOn slash = [] :: FileSystem.pathPieces start := by
  rw [FileSystem.splitOn_bytes, h]
  rfl

theorem ancestors_of_isAbsolute (h : Path.isAbsolute start = true) :
    Path.ancestors start =
      start :: Path.abovePieces Path.ofPieces (FileSystem.pathPieces start).reverse := by
  rw [Path.ancestors, Path.above, splitOn_of_isAbsolute h]
  simp [h]

/-- An absolute path is written with its pieces. -/
theorem bytes_of_isAbsolute (h : Path.isAbsolute start = true) :
    start.bytes = slash :: List.intercalate [slash] (FileSystem.pathPieces start) := by
  have hsplit := splitOn_of_isAbsolute h
  have htext : List.intercalate [slash] (start.bytes.splitOn slash) = start.bytes :=
    List.intercalate_splitOn slash
  rw [hsplit, List.intercalate_cons_of_ne_nil (FileSystem.pathPieces_ne_nil start)] at htext
  exact htext.symm

/-- The paths that are searched lead to the directory they begin at and those above it, one after
the other. -/
theorem forall₂_ancestors (h : LeadsPlainly fs start trail) :
    List.Forall₂ (IsSearched fs start) (Path.ancestors start) trail.tails := by
  have htop (directory : RawText) (habsolute : Path.isAbsolute directory = true) :
      fs.piecesFromTop directory = FileSystem.pathPieces directory :=
    piecesFromTop_of_isAbsolute habsolute
  have hslash : ∀ piece ∈ (FileSystem.pathPieces start).reverse, slash ∉ piece := by
    intro piece hpiece
    exact Text.not_mem_of_mem_splitOn (List.mem_reverse.mp hpiece)
  have habove : [dot, dot] ∉ (FileSystem.pathPieces start).reverse := by
    rw [List.mem_reverse]
    exact h.above_notMem
  have hfollow := h.follow_zero
  have htails : trail.tails = trail :: trail.tails.tail := by cases trail <;> rfl
  rw [ancestors_of_isAbsolute h.isAbsolute, htails]
  refine .cons ⟨h.isAbsolute, List.prefix_rfl, (htop start h.isAbsolute).symm ▸ hfollow⟩ ?_
  have hparts : ∀ path ∈ Path.abovePieces Path.ofPieces (FileSystem.pathPieces start).reverse,
      Path.isAbsolute path = true ∧ path.bytes <+: start.bytes := by
    intro path hpath
    rcases exists_prefix_of_mem_abovePieces hpath with ⟨front, hfront, rfl⟩
    rw [List.reverse_reverse] at hfront
    refine ⟨by simp [Path.isAbsolute, Path.ofPieces], ?_⟩
    rw [Path.ofPieces, bytes_of_isAbsolute h.isAbsolute]
    exact List.cons_prefix_cons.mpr ⟨rfl, intercalate_prefix hfront⟩
  have hplaces := forall₂_abovePieces hslash habove (by rwa [List.reverse_reverse])
  refine ((List.forall₂_and_left _ _).mpr ⟨hparts, hplaces⟩).imp ?_
  rintro path outer ⟨⟨habsolute, hprefix⟩, houter⟩
  exact ⟨habsolute, hprefix, houter⟩

/-! ## What is looked up -/

/-- A path that is searched is no longer than the one the search begins at. -/
theorem IsSearched.size_le (h : IsSearched fs start directory outer) :
    directory.size ≤ start.size :=
  h.bytes_prefix.length_le

/-- A path that is searched leads where the directory is. -/
theorem IsSearched.trail_eq (h : LeadsPlainly fs start trail)
    (hsearched : IsSearched fs start directory outer) : fs.trail directory = .ok outer := by
  rcases FileSystem.trail_eq_ok_iff.mp h.leads with ⟨-, hzero, hsize, -⟩
  have hfollow := FileSystem.follow_append_of_follow_zero hsearched.follow_eq maxLinks []
  rw [List.append_nil, FileSystem.follow_nil] at hfollow
  refine FileSystem.trail_eq_ok_iff.mpr ⟨hsearched.ne_nil, ?_, ?_, hfollow⟩
  · exact fun hmem => hzero (hsearched.bytes_prefix.subset hmem)
  · exact hsearched.size_le.trans hsize

/-- What is looked up behind a path that is searched is looked up in the directory that the path
leads to. -/
theorem IsSearched.exists?_join (h : LeadsPlainly fs start trail)
    (hsearched : IsSearched fs start directory outer) (hslash : slash ∉ name.bytes)
    (hzero : 0 ∉ name.bytes) (hsize : name.size ≤ fileName.size) :
    fs.exists? (Path.join directory name) = fs.holds outer name := by
  have hfollow : fs.follow maxLinks [] (fs.piecesFromTop (Path.join directory name)) =
      fs.follow maxLinks outer [name.bytes] := by
    rw [← List.append_nil (fs.piecesFromTop _),
      FileSystem.follow_join hsearched.ne_nil hslash,
      FileSystem.follow_append_of_follow_zero hsearched.follow_eq]
  have hne := Path.join_ne_nil hsearched.ne_nil hslash
  have hzeros : 0 ∉ (Path.join directory name).bytes := by
    rcases FileSystem.trail_eq_ok_iff.mp h.leads with ⟨-, hstart, -, -⟩
    have hdirectory : 0 ∉ directory.bytes :=
      fun hmem => hstart (hsearched.bytes_prefix.subset hmem)
    rw [Path.bytes_join hsearched.ne_nil hslash]
    split_ifs <;> simp [hdirectory, hzero, RawText.slash]
  have hshort : (Path.join directory name).size ≤ maxPathSize := by
    have hdirectory := hsearched.size_le
    have hjoin := Path.size_join_le directory name
    have hstart := h.short
    omega
  unfold FileSystem.exists? FileSystem.find FileSystem.holds
  rw [FileSystem.trail_eq_follow hne hzeros hshort, hfollow]
  cases fs.follow maxLinks outer [name.bytes] <;> rfl

/-- What governs the directory above one that has no settings and is no top of a repository governs
that one. -/
theorem Governs.cons {answer : Option RawText} {trails : List Trail} (h : Governs fs answer trails)
    (hfile : fs.holds outer fileName = false)
    (hrepository : fs.holds outer repositoryName = false) :
    Governs fs answer (outer :: trails) where
  nearest path hpath := by
    rcases h.nearest path hpath with
      ⟨nearer, found, further, directory, rfl, hjoin, hleads, hfound, hnearer⟩
    refine ⟨outer :: nearer, found, further, directory, rfl, hjoin, hleads, hfound, ?_⟩
    exact List.forall_mem_cons.mpr ⟨⟨hfile, hrepository⟩, hnearer⟩
  lacking hnone nearer directory further htrails hopen := by
    cases nearer with
    | nil => exact (List.cons.inj htrails).1 ▸ hfile
    | cons first others =>
      exact h.lacking hnone others directory further (List.cons.inj htrails).2
        fun inner hinner => hopen inner (List.mem_cons_of_mem first hinner)

/-- The top of a repository without settings is not governed by any. -/
theorem governs_none_of_top {trails : List Trail} (hfile : fs.holds outer fileName = false)
    (hrepository : fs.holds outer repositoryName = true) : Governs fs none (outer :: trails) where
  nearest path hpath := nomatch hpath
  lacking _ nearer directory further htrails hopen := by
    cases nearer with
    | nil => exact (List.cons.inj htrails).1 ▸ hfile
    | cons first others =>
      have hfirst : fs.holds first repositoryName = false := hopen first List.mem_cons_self
      rw [← (List.cons.inj htrails).1, hrepository] at hfirst
      cases hfirst

/-- The search among directories gives what governs the first one. -/
theorem governs_findAmong (h : LeadsPlainly fs start trail) {directories : List RawText}
    {trails : List Trail} (hplaces : List.Forall₂ (IsSearched fs start) directories trails) :
    Governs fs (findAmong fs directories) trails := by
  induction hplaces with
  | nil => exact ⟨by simp [findAmong], by simp⟩
  | @cons directory outer directories trails hsearched _ ih =>
    have hfile : fs.exists? (Path.join directory fileName) = fs.holds outer fileName :=
      hsearched.exists?_join h (by decide) (by decide) le_rfl
    have htop : fs.exists? (Path.join directory repositoryName) = fs.holds outer repositoryName :=
      hsearched.exists?_join h (by decide) (by decide) (by decide)
    unfold findAmong
    rw [hfile, htop]
    cases hfound : fs.holds outer fileName with
    | true =>
      refine ⟨fun path hpath => ?_, fun hnone => ?_⟩
      · obtain rfl : Path.join directory fileName = path := Option.some.inj hpath
        exact ⟨[], outer, trails, directory, rfl, rfl, hsearched.trail_eq h, hfound, by simp⟩
      · cases hnone
    | false =>
      cases hrepository : fs.holds outer repositoryName with
      | true => exact governs_none_of_top hfound hrepository
      | false => exact ih.cons hfound hrepository

end Search

/-- If a path has no `..` and no link is followed on its way, the settings that are found from it
are what governs the directory it leads to.  That no directory is closed to search is part of what
a file system is here: of settings in one that is, nothing would be found. -/
theorem find?_governs {fs : FileSystem} {start : RawText} {trail : Trail}
    (h : LeadsPlainly fs start trail) : Governs fs (find? fs start) trail.tails :=
  governs_findAmong h (forall₂_ancestors h)

/-- A repository with settings at its top and a package below. -/
def repositoryNode : Node :=
  .directory [(".git", .emptyDirectory), ("genscope.toml", .file (#[] : Array UInt8)),
    ("p", .directory [("q", .emptyDirectory)])]

/-- A file system with a repository. -/
def repositoryTree : FileSystem := { top := .directory [("w", repositoryNode)] }

/-- The way to the package. -/
def packageTrail : Trail :=
  [("q", .emptyDirectory), ("p", .directory [("q", .emptyDirectory)]), ("w", repositoryNode)]

theorem find?_governs_package :
    LeadsPlainly repositoryTree "/w/p/.//q/" packageTrail ∧
      find? repositoryTree "/w/p/.//q/" = some (.ofText "/w/genscope.toml") ∧
      Governs repositoryTree (find? repositoryTree "/w/p/.//q/") packageTrail.tails := by
  have h : LeadsPlainly repositoryTree "/w/p/.//q/" packageTrail :=
    { isAbsolute := by decide +kernel
      leads := by rfl
      plain := by decide +kernel
      above_notMem := by decide +kernel
      short := by decide +kernel }
  exact ⟨h, by decide +kernel, find?_governs h⟩

/-- A directory without settings, above one that has some. -/
def bareNode : Node :=
  .directory [("a", .directory [("genscope.toml", .file (#[] : Array UInt8))])]

/-- A file system with settings below a directory that has none. -/
def settingsBelow : FileSystem := { top := .directory [("w", bareNode)] }

/-- Behind a `..` the settings of a directory below are found: `/w/a/..` is the directory `/w`, and
the search from there takes the settings of `/w/a`. -/
theorem not_find?_governs_above :
    settingsBelow.trail "/w/a/.." = .ok [("w", bareNode)] ∧
      find? settingsBelow "/w/a/.." = some (.ofText "/w/a/genscope.toml") ∧
      ¬ Governs settingsBelow (find? settingsBelow "/w/a/..") (List.tails [("w", bareNode)]) := by
  have hfind : find? settingsBelow "/w/a/.." = some (.ofText "/w/a/genscope.toml") := by
    decide +kernel
  refine ⟨by rfl, hfind, ?_⟩
  intro hgoverns
  rcases hgoverns.nearest _ hfind with
    ⟨nearer, found, further, directory, htrails, -, -, hholds, -⟩
  have hfound : found ∈ List.tails ([("w", bareNode)] : Trail) := htrails ▸ by simp
  have hinner : settingsBelow.holds [("w", bareNode)] fileName = false := by decide +kernel
  have houter : settingsBelow.holds [] fileName = false := by decide +kernel
  simp only [List.tails, List.mem_cons, List.not_mem_nil, or_false] at hfound
  rcases hfound with rfl | rfl
  · rw [hinner] at hholds
    cases hholds
  · rw [houter] at hholds
    cases hholds

end Config
end AttributeScope
