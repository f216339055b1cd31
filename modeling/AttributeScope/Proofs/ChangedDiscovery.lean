import AttributeScope.Proofs.ChangedFiles
import AttributeScope.Proofs.FoundFiles

/-!
# What is found after files change

What is left out is said by files of a few names.  A change that is to none of them leaves all rules
as they are, and what is found then is what was found before, without the files that are gone.

Main results:

- Theorem `Layer.ofDirectory_eq`: directories have the rules they had.
- Theorem `Walker.visits_after`: what is visited after a change.
- Theorem `filesAt_after`: which files are found after a change.
-/

namespace AttributeScope

open FileSystem (Position Trail)

namespace Ignore

/-- The names of what is looked up to learn what is left out. -/
def consulted : List RawText := Layer.names ++ [Repository.commonName, Repository.excludeName]

/-- What is looked up to learn what is left out looks the same in two file systems. -/
def SameRules (fs other : FileSystem) : Prop :=
  ∀ base, ∀ name ∈ consulted, other.sight (Path.join base name) = fs.sight (Path.join base name)

variable {fs other : FileSystem} {directory path : RawText} {position : Position}

/-! ## Repositories -/

namespace Repository

theorem isTop_eq (h : SameRules fs other) : isTop other directory = isTop fs directory := by
  have hgit := FileSystem.exists?_of_sight_eq (h directory gitName (by decide))
  have hjj := FileSystem.exists?_of_sight_eq (h directory ".jj" (by decide))
  simp [isTop, markers, hgit, hjj]

theorem firstLine_eq (h : other.sight path = fs.sight path) (hexists : fs.exists? path = true) :
    firstLine other path = firstLine fs path := by
  unfold firstLine
  rw [FileSystem.read_of_sight_eq h hexists]

theorem commonDirectoryOf_eq (h : SameRules fs other) :
    commonDirectoryOf other directory = commonDirectoryOf fs directory := by
  have hsight := h directory commonName (by decide)
  unfold commonDirectoryOf
  dsimp only
  rw [FileSystem.canOpen_of_sight_eq hsight]
  split_ifs with hopen
  · rw [firstLine_eq hsight (FileSystem.exists?_of_canOpen hopen)]
  · rfl

theorem excludeFile_eq (h : SameRules fs other) :
    excludeFile other directory = excludeFile fs directory := by
  have hsight := h directory gitName (by decide)
  have hshared : sharedDirectory other = sharedDirectory fs := by
    funext line
    unfold sharedDirectory
    cases line.bind namedDirectory? with
    | none => rfl
    | some directory => exact commonDirectoryOf_eq h
  unfold excludeFile
  dsimp only
  rw [FileSystem.isFile_of_sight_eq hsight, hshared]
  split_ifs with hfile
  · rw [firstLine_eq hsight (FileSystem.exists?_of_isFile hfile)]
  · rfl

/-- An exclude file is looked up by its name behind some directory. -/
theorem exists_join_of_excludeFile (h : excludeFile fs directory = .ok (some path)) :
    ∃ base, path = Path.join base excludeName := by
  unfold excludeFile at h
  dsimp only at h
  split_ifs at h
  · cases hshared : (firstLine fs (Path.join directory gitName)).bind (sharedDirectory fs) with
    | error fault => simp [hshared, Except.map] at h
    | ok shared =>
      cases shared with
      | none => simp [hshared, Except.map] at h
      | some base =>
        simp only [hshared, Except.map, Option.map_some, Except.ok.injEq, Option.some.injEq] at h
        exact ⟨base, h.symm⟩
  · cases h
    exact ⟨_, rfl⟩

end Repository

/-! ## Rules -/

namespace Layer

theorem rulesAt_eq (h : other.sight path = fs.sight path) :
    rulesAt other path = rulesAt fs path := by
  unfold rulesAt FileSystem.read
  rcases FileSystem.find_of_sight_eq h with
    ⟨_, _, hfs, hother⟩ | ⟨_, hfs, hother⟩ | ⟨_, _, hfs, hother⟩
  · rw [hfs, hother]
    rfl
  · rw [hfs, hother]
  · rw [hfs, hother]
    rfl

/-- The exclude file of a repository is looked up below some directory. -/
theorem rulesAtExclude_eq (h : SameRules fs other) :
    rulesAtExclude other (Repository.excludeFile fs directory) =
      rulesAtExclude fs (Repository.excludeFile fs directory) := by
  unfold rulesAtExclude
  split
  · rename_i path hpath
    rcases Repository.exists_join_of_excludeFile hpath with ⟨base, rfl⟩
    exact rulesAt_eq (h base Repository.excludeName (by decide))
  · rfl

/-- Directories have the rules they had. -/
theorem ofDirectory_eq (h : SameRules fs other) (position : Position) (directory : RawText) :
    ofDirectory other position directory = ofDirectory fs position directory := by
  unfold ofDirectory
  dsimp only
  rw [rulesAt_eq (h directory ignoreName (by decide)),
    rulesAt_eq (h directory gitIgnoreName (by decide)), Repository.excludeFile_eq h,
    rulesAtExclude_eq h, Repository.isTop_eq h]

theorem above_eq (h : SameRules fs other) (position : Position) :
    above other position = above fs position := by
  unfold above
  simp only [ofDirectory_eq h]

section Entries

variable {change : FileChange} {entries : List (RawText × Node)}

/-- Entries keep the names that are of interest if no file with such a name is gone. -/
theorem any_entriesAfter {interest : List RawText}
    (h : ∀ position, change.removes position = true → ∀ name ∈ interest,
      position.getLast? ≠ some name) :
    ((Node.entriesAfter change position entries).any fun entry => interest.contains entry.1) =
      entries.any fun entry => interest.contains entry.1 := by
  induction entries with
  | nil => rfl
  | cons entry rest ih =>
    rcases entry with ⟨name, node⟩
    rw [Node.entriesAfter]
    split_ifs with hkeeps
    · rw [List.any_cons, List.any_cons, ih]
    · have hgone : change.removes (position ++ [name]) = true := by
        simp only [FileChange.keeps, Bool.not_eq_true', Bool.and_eq_false_iff, not_or,
          Bool.not_eq_false] at hkeeps
        exact hkeeps.2
      have hname : name ∉ interest := fun hmem => h _ hgone name hmem List.getLast?_concat
      rw [List.any_cons, ih]
      simp [hname]

/-- The directories of a tree have the rules they had. -/
theorem ofEntries_after (h : SameRules fs (fs.after change))
    (hnames : ∀ position, change.removes position = true → ∀ name ∈ names,
      position.getLast? ≠ some name) :
    ofEntries (fs.after change) position directory (Node.entriesAfter change position entries) =
      ofEntries fs position directory entries := by
  unfold ofEntries
  rw [any_entriesAfter hnames, ofDirectory_eq h]

end Entries

end Layer

/-! ## Visits -/

/-- A change that leaves the rules as they are: it is to no file that may say what is left out. -/
structure LeavesRules (fs : FileSystem) (change : FileChange) : Prop where
  same : SameRules fs (fs.after change)
  names : ∀ position, change.removes position = true → ∀ name ∈ Layer.names,
    position.getLast? ≠ some name

/-- Whether an entry below a root is still there after a change. -/
def Entry.isLeft (root : Position) (change : FileChange) (entry : Entry) : Bool :=
  !(entry.kind == .file && change.removes (root ++ entry.below))

/-- Whether what was visited below a root is still there after a change. -/
def Visit.isLeft (root : Position) (change : FileChange) : Visit → Bool
  | .entry found => found.isLeft root change
  | .fault _ => true

theorem kind_after {change : FileChange} {position : Position} {node : Node} :
    (node.after change position).kind = node.kind := by
  cases node <;> rfl

/-- A node is left exactly if the entry that stands for it is. -/
theorem isLeft_eq_keeps {change : FileChange} {root : Position} {below : List RawText}
    {name : RawText} {node : Node} :
    Entry.isLeft root change ⟨below, name, node.kind⟩ = change.keeps (root ++ below) node := by
  cases node <;> rfl

namespace Walker

variable {w : Walker} {change : FileChange} {layers : List Layer} {path name : RawText}
  {below : List RawText} {node : Node}

/-- A walk after a change. -/
def after (w : Walker) (change : FileChange) : Walker := { w with fs := w.fs.after change }

/-- A file that is gone is not among what is left. -/
theorem filter_isLeft_of_gone (hgone : change.keeps (w.root ++ below) node = false) :
    (w.visits layers path below name node).filter (Visit.isLeft w.root change) = [] := by
  cases node with
  | directory entries => simp [FileChange.keeps, Node.isFile] at hgone
  | symlink target => simp [FileChange.keeps, Node.isFile] at hgone
  | file content =>
    have hleft : Visit.isLeft w.root change (.entry ⟨below, name, .file⟩) = false :=
      isLeft_eq_keeps.trans hgone
    rw [visits, List.filter_singleton, hleft]
    rfl

/-- What is visited among entries after a change is what was visited at those that are left. -/
theorem visitsAmong_after {entries : List (RawText × Node)}
    (hentries : ∀ entry ∈ entries, ∀ layers path below name,
      change.keeps (w.root ++ below) entry.2 = true →
        (w.after change).visits layers path below name
            (entry.2.after change (w.root ++ below)) =
          (w.visits layers path below name entry.2).filter (Visit.isLeft w.root change)) :
    (w.after change).visitsAmong layers path below
        (Node.entriesAfter change (w.root ++ below) entries) =
      (w.visitsAmong layers path below entries).filter (Visit.isLeft w.root change) := by
  induction entries with
  | nil => rfl
  | cons entry rest ih =>
    rcases entry with ⟨name, node⟩
    rcases List.forall_mem_cons.mp hentries with ⟨hentry, hrest⟩
    have hposition : w.root ++ below ++ [name] = w.root ++ (below ++ [name]) :=
      List.append_assoc _ _ _
    have hover (entry : Entry) : (w.after change).passesOver layers entry =
        w.passesOver layers entry := rfl
    rw [Node.entriesAfter, visitsAmong, List.filter_append, ← ih hrest, hposition]
    cases hkeeps : change.keeps (w.root ++ (below ++ [name])) node with
    | true =>
      rw [if_pos rfl, visitsAmong, hover, kind_after]
      congr 1
      split_ifs
      · rfl
      · exact hentry layers _ _ _ hkeeps
    | false =>
      rw [if_neg Bool.false_ne_true]
      split_ifs
      · rfl
      · rw [filter_isLeft_of_gone hkeeps, List.nil_append]

/-- What is visited after a change is what was visited, without the files that are gone. -/
theorem visits_after (hrules : LeavesRules w.fs change)
    (hkept : change.keeps (w.root ++ below) node = true) :
    (w.after change).visits layers path below name (node.after change (w.root ++ below)) =
      (w.visits layers path below name node).filter (Visit.isLeft w.root change) := by
  induction node using Node.inductionOn generalizing layers path below name with
  | file content =>
    have hleft : Visit.isLeft w.root change (.entry ⟨below, name, .file⟩) = true :=
      isLeft_eq_keeps.trans hkept
    rw [Node.after, visits, visits, List.filter_singleton, hleft]
    rfl
  | symlink target => rfl
  | directory entries ih =>
    have hlayer : Layer.ofEntries (w.fs.after change) (w.root ++ below) path
        (Node.entriesAfter change (w.root ++ below) entries) =
          Layer.ofEntries w.fs (w.root ++ below) path entries :=
      Layer.ofEntries_after hrules.same hrules.names
    have hleft : Visit.isLeft w.root change (.entry ⟨below, name, .directory⟩) = true := rfl
    unfold Node.after visits
    rw [List.filter_cons_of_pos hleft]
    congr 1
    split_ifs
    · rfl
    · show (w.after change).visitsAmong
          (Layer.ofEntries (w.fs.after change) (w.root ++ below) path
            (Node.entriesAfter change (w.root ++ below) entries) :: layers) path below
          (Node.entriesAfter change (w.root ++ below) entries) = _
      rw [hlayer]
      exact visitsAmong_after fun entry hentry _ _ _ _ => ih entry hentry

end Walker

variable {change : FileChange} {root : RawText} {trail : Trail} {excludes : List Rule}
  {wants : Entry → Bool}

theorem faultsAbove_after (hrules : LeavesRules fs change) :
    faultsAbove (fs.after change) (trail.after change) = faultsAbove fs trail := by
  unfold faultsAbove
  rw [FileSystem.nodeOn_after, Node.isDirectory_after, FileSystem.position_after,
    Layer.above_eq hrules.same]

/-- At a root that is not gone, what is visited after a change is what was visited, without the
files that are gone. -/
theorem walk_after (hrules : LeavesRules fs change) (hroot : fs.trail root = .ok trail)
    (hafter : (fs.after change).trail root = .ok (trail.after change))
    (hkept : change.keeps (Trail.position trail) (fs.nodeOn trail) = true) :
    walk (fs.after change) root excludes wants =
      (walk fs root excludes wants).filter (Visit.isLeft (Trail.position trail) change) := by
  have hfaults : (faultsAbove fs trail).filter (Visit.isLeft (Trail.position trail) change) =
      faultsAbove fs trail := by
    refine List.filter_eq_self.mpr fun visit hvisit => ?_
    unfold faultsAbove at hvisit
    split_ifs at hvisit
    · split at hvisit
      · cases hvisit
      · obtain rfl := List.mem_singleton.mp hvisit
        rfl
    · cases hvisit
  have hvisits := @Walker.visits_after ⟨fs, Trail.position trail, excludes, wants⟩ change
    (Layer.above fs (Trail.position trail)) root (rootName root) [] (fs.nodeOn trail) hrules
  rw [List.append_nil] at hvisits
  unfold walk
  rw [hroot, hafter]
  simp only [FileSystem.position_after, Layer.above_eq hrules.same, faultsAbove_after hrules,
    FileSystem.nodeOn_after, List.filter_append, hfaults]
  rw [← hvisits hkept]
  rfl

end Ignore

/-! ## The files that are found -/

namespace Project

open Ignore (Entry LeavesRules Rule Visit Walker entriesOf rootName)

variable {fs : FileSystem} {change : FileChange} {root : RawText} {fileName : String}
  {trail : Trail} {excludes : List Rule} {visits : List Visit} {position : Position}

/-- The entries among what is left. -/
theorem entriesOf_filter_isLeft :
    entriesOf (visits.filter (Visit.isLeft position change)) =
      (entriesOf visits).filter (Entry.isLeft position change) := by
  unfold entriesOf
  rw [List.filterMap_filter, List.filter_filterMap]
  congr 1
  funext visit
  cases visit with
  | entry found =>
    cases hleft : found.isLeft position change <;>
      simp [Visit.isLeft, Visit.entry?, Option.filter_some, hleft]
  | fault message => rfl

/-- The files among what is left. -/
theorem filesAmong_filter_isLeft :
    filesAmong fileName (visits.filter (Visit.isLeft position change)) =
      (filesAmong fileName visits).filter fun below => !change.removes (position ++ below) := by
  unfold filesAmong
  rw [entriesOf_filter_isLeft, List.filter_map, List.filter_filter, List.filter_filter]
  congr 2
  funext entry
  cases hkind : entry.kind == .file <;>
    simp [isDirectiveFile, Entry.isLeft, hkind, Bool.and_comm]

/-- What is still on a trail is still there, unless it is the top of everything. -/
theorem keeps_of_isKept (hkept : trail.isKept change = true)
    (htop : change.removes [] = false) :
    change.keeps (Trail.position trail) (fs.nodeOn trail) = true := by
  cases trail with
  | nil => simp [FileChange.keeps, Trail.position, htop]
  | cons last outer =>
    rw [FileSystem.position_cons]
    exact hkept

/-- At a root that is gone, nothing was found that is left. -/
theorem filter_filesAt_of_gone (hroot : fs.trail root = .ok trail)
    (hgone : trail.isKept change = false) :
    (filesAt fs root fileName excludes).filter
      (fun below => !change.removes (Trail.position trail ++ below)) = [] := by
  have hkeeps : change.keeps (Trail.position trail ++ []) (fs.nodeOn trail) = false := by
    rcases @FileSystem.isFile_of_isKept_eq_false fs _ _ hgone with ⟨hfile, hremoved⟩
    simp [FileChange.keeps, hfile, hremoved]
  have hvisits := @Walker.filter_isLeft_of_gone ⟨fs, Trail.position trail, excludes, maySearch⟩
    change (Ignore.Layer.above fs (Trail.position trail)) root (rootName root) [] _ hkeeps
  unfold filesAt
  rw [← filesAmong_filter_isLeft]
  unfold filesAmong
  rw [entriesOf_filter_isLeft, Ignore.entriesOf_walk hroot, ← entriesOf_filter_isLeft, hvisits]
  rfl

/-- At a root, those files are found after a change that were found and are not gone. -/
theorem filesAt_after (hproper : fs.top.IsProper) (hrules : LeavesRules fs change)
    (hnamed : ∀ position, change.removes position = true →
      position.getLast? = some (.ofText fileName))
    (hroot : fs.trail root = .ok trail) :
    filesAt (fs.after change) root fileName excludes =
      (filesAt fs root fileName excludes).filter
        fun below => !change.removes (Trail.position trail ++ below) := by
  rcases FileSystem.trail_after_of_ok change hproper hroot with
    ⟨⟨fault, hafter⟩, hkept⟩ | ⟨hafter, hkept⟩
  · rw [filesAt_of_error hafter, filter_filesAt_of_gone hroot hkept]
  · have htop : change.removes [] = false :=
      Bool.eq_false_iff.mpr fun hremoved => nomatch hnamed [] hremoved
    unfold filesAt
    rw [Ignore.walk_after hrules hroot hafter (keeps_of_isKept hkept htop),
      filesAmong_filter_isLeft]

end Project
end AttributeScope
