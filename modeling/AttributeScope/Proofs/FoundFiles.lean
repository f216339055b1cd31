import Mathlib.Data.List.Lex
import Mathlib.Data.UInt
import AttributeScope.Proofs.Walks

/-!
# Which files are found

Whatever way to walk is taken, if it visits every entry once, the files that are found are all
regular files of the right name below the root but for those in directories that are never searched.
Each is found once, and they are in the order of their paths, name by name and byte by byte.

Main results:

- Theorem `exists_descend?_of_mem_filesAt`: what is found is a file below the root.
- Theorem `pairwise_sortBy_inOrder`: files that are found once are strictly in order.
- Theorem `directiveFiles_exact`: which files are found, in which order.
-/

namespace AttributeScope
namespace Project

open FileSystem (Trail)
open Ignore (Entry HasNoIgnoreFiles IsAround IsEntry IsOpenWay IsThorough Rule Visit VisitsOnce Walk
  Walker entriesOf mem_entriesOf_iff)

variable {fs : FileSystem} {root : RawText} {fileName : String} {trail : Trail} {walk : Walk}
  {visits : List Visit} {below : List RawText} {node : Node}

/-! ## The files at a root -/

/-- The files that are found at a root. -/
def filesAt (fs : FileSystem) (root : RawText) (fileName : String) (excludes : List Rule) :
    List (List RawText) :=
  filesAmong fileName (Ignore.walk fs root excludes maySearch)

/-- Nothing is found where there is no root. -/
theorem filesAt_of_error {excludes : List Rule} {fault : LookupFault}
    (hroot : fs.trail root = .error fault) : filesAt fs root fileName excludes = [] := by
  unfold filesAt Ignore.walk
  rw [hroot]
  rfl

/-- A file that is found is below the root. -/
theorem exists_descend?_of_mem_filesAt {excludes : List Rule} (hproper : fs.top.IsProper)
    (h : below ∈ filesAt fs root fileName excludes) :
    ∃ trail content, fs.trail root = .ok trail ∧
      (fs.nodeOn trail).descend? below = some (.file content) ∧
      ∀ name ∈ below, IsEntryName name := by
  cases hroot : fs.trail root with
  | error fault => simp [filesAt_of_error hroot] at h
  | ok trail =>
    have hnode := (FileSystem.isTrail_of_trail_eq hroot).isProper_nodeOn hproper
    unfold filesAt at h
    rw [mem_filesAmong_iff, Ignore.entriesOf_walk hroot, mem_entriesOf_iff] at h
    rcases Walker.exists_of_mem_visits hnode h with ⟨names, child, hentry, hdescend, -⟩
    obtain ⟨rfl, -, hkind⟩ := Entry.mk.inj hentry
    cases child with
    | file content => exact ⟨trail, content, rfl, hdescend, hnode.isEntryName_of_descend? hdescend⟩
    | directory entries => cases hkind
    | symlink target => cases hkind

/-! ## The order of files -/

theorem inOrder_iff (file other : List RawText) :
    inOrder file other = true ↔ ¬ other.map RawText.bytes < file.map RawText.bytes := by
  simp only [inOrder, Bool.not_eq_true', decide_eq_false_iff_not]

theorem inOrder_trans (a b c : List RawText) (hab : inOrder a b = true)
    (hbc : inOrder b c = true) : inOrder a c = true :=
  (inOrder_iff a c).mpr (List.le_trans ((inOrder_iff a b).mp hab) ((inOrder_iff b c).mp hbc))

theorem inOrder_total (a b : List RawText) : inOrder a b = true ∨ inOrder b a = true :=
  (List.le_total (a.map RawText.bytes) (b.map RawText.bytes)).imp (inOrder_iff a b).mpr
    (inOrder_iff b a).mpr

/-- Paths with the same bytes are the same. -/
theorem map_bytes_injective : Function.Injective (List.map RawText.bytes) :=
  List.map_injective_iff.mpr fun _ _ => RawText.ext

/-- Files that are found once are strictly in the order of their paths. -/
theorem pairwise_sortBy_inOrder {files : List (List RawText)} (hnodup : files.Nodup) :
    (Order.sortBy inOrder files).Pairwise fun file other =>
      file.map RawText.bytes < other.map RawText.bytes := by
  have hsorted := Order.sortBy_pairwise inOrder_trans inOrder_total files
  have hdifferent : (Order.sortBy inOrder files).Nodup :=
    (Order.sortBy_perm inOrder files).nodup_iff.mpr hnodup
  refine (hsorted.and hdifferent).imp fun {file other} h => ?_
  exact (List.le_iff_lt_or_eq.mp ((inOrder_iff file other).mp h.1)).resolve_right
    (map_bytes_injective.ne h.2)

/-! ## The files that are found -/

theorem notMem_skipped_iff (name : RawText) :
    name ∉ skippedDirectories ↔ name ≠ "node_modules" ∧ name ≠ ".git" := by
  simp [skippedDirectories]

/-- A way is open exactly if no directory on it is one of those that are never searched. -/
theorem isOpenWay_maySearch_iff :
    IsOpenWay maySearch [] below ↔
      ∀ directory ∈ below.dropLast, directory ≠ "node_modules" ∧ directory ≠ ".git" := by
  have hsearch : ∀ names name, maySearch ⟨names, name, .directory⟩ = true ↔
      name ≠ "node_modules" ∧ name ≠ ".git" := by
    intro names name
    rw [← notMem_skipped_iff]
    simp [maySearch]
  simp only [IsOpenWay, hsearch]
  constructor
  · intro h directory hdirectory
    rcases List.append_of_mem hdirectory with ⟨front, rest, hsplit⟩
    have hne : below ≠ [] := by
      rintro rfl
      simp at hdirectory
    have hbelow : below = front ++ directory :: (rest ++ [below.getLast hne]) := by
      conv_lhs => rw [← List.dropLast_append_getLast hne, hsplit]
      simp
    exact h front directory _ hbelow (by simp)
  · rintro h front name rest rfl hrest
    refine h name ?_
    rw [List.dropLast_append_of_ne_nil (List.cons_ne_nil name rest),
      List.dropLast_cons_of_ne_nil hrest]
    simp

/-- What is found among the visits of a directory, if each entry is visited once. -/
theorem mem_filesAmong_iff_of_visitsOnce (h : VisitsOnce visits node maySearch)
    (hdir : node.isDirectory = true) :
    below ∈ filesAmong fileName visits ↔ below.getLast? = some (.ofText fileName) ∧
      (∃ content, node.descend? below = some (.file content)) ∧
      ∀ directory ∈ below.dropLast, directory ≠ "node_modules" ∧ directory ≠ ".git" := by
  rw [mem_filesAmong_iff, ← isOpenWay_maySearch_iff]
  constructor
  · intro hentry
    rcases h.sound _ hentry with ⟨⟨⟨child, hdescend, hkind⟩, hname⟩, hopen⟩
    have hdescend : node.descend? below = some child := hdescend
    cases child with
    | directory entries => cases hkind
    | symlink target => cases hkind
    | file content =>
      refine ⟨?_, ⟨content, hdescend⟩, hopen⟩
      cases hlast : below.getLast? with
      | none =>
        obtain rfl := List.getLast?_eq_none_iff.mp hlast
        rw [Option.some.inj hdescend] at hdir
        cases hdir
      | some name => exact congrArg some (hname name hlast).symm
  · rintro ⟨hlast, ⟨content, hdescend⟩, hopen⟩
    have hentry : IsEntry node ⟨below, .ofText fileName, .file⟩ :=
      ⟨⟨.file content, hdescend, rfl⟩, fun name hname => Option.some.inj (hlast.symm.trans hname)⟩
    refine h.complete _ hentry ?_ hopen rfl
    rintro rfl
    cases hlast

/-- If no entry is visited twice, no file is found twice. -/
theorem nodup_filesAmong (h : (entriesOf visits).Nodup) : (filesAmong fileName visits).Nodup := by
  refine List.Nodup.map_on ?_ (h.filter _)
  rintro ⟨names, name, kind⟩ hentry ⟨others, next, other⟩ hother (rfl : names = others)
  have hentry := (List.mem_filter.mp hentry).2
  have hother := (List.mem_filter.mp hother).2
  simp only [isDirectiveFile, Bool.and_eq_true, beq_iff_eq] at hentry hother
  rw [hentry.1, hentry.2, hother.1, hother.2]

/-- If every entry below a root is visited once, provided that there are no ignore files around and
no exclude patterns, then without those the files that are found are the regular files of the name
below the root such that no directory on the way is one of those that are never searched.  They are
in the order of their paths, each once. -/
theorem directiveFiles_exact (hwalk : IsThorough walk fs root)
    (hroot : fs.trail root = .ok trail) (hdir : (fs.nodeOn trail).isDirectory = true)
    (hplain : ∀ directory, IsAround fs root trail directory → HasNoIgnoreFiles fs directory) :
    ∃ files, directiveFilesBy walk fs root fileName [] = .ok files ∧
      (∀ below, below ∈ files ↔ below.getLast? = some (.ofText fileName) ∧
        (∃ content, (fs.nodeOn trail).descend? below = some (.file content)) ∧
        ∀ directory ∈ below.dropLast, directory ≠ "node_modules" ∧ directory ≠ ".git") ∧
      files.Pairwise fun file other => file.map RawText.bytes < other.map RawText.bytes := by
  have hvisits := hwalk trail hroot hplain maySearch
  refine ⟨Order.sortBy inOrder (filesAmong fileName (walk fs root [] maySearch)), rfl,
    fun below => ?_, pairwise_sortBy_inOrder (nodup_filesAmong hvisits.nodup)⟩
  rw [(Order.sortBy_perm inOrder _).mem_iff]
  exact mem_filesAmong_iff_of_visitsOnce hvisits hdir

/-- A project with directories that are not searched. -/
def projectNode : Node :=
  .directory
    [(".git", .directory [(".gitattributes", .file (#[] : Array UInt8))]),
      ("a", .directory
        [("node_modules", .directory [(".gitattributes", .file (#[] : Array UInt8))]),
          (".gitattributes", .file (#[] : Array UInt8))]),
      (".gitattributes", .file (#[] : Array UInt8))]

/-- A file system with a project. -/
def projectTree : FileSystem := { top := .directory [("w", projectNode)] }

/-- The way to the project. -/
def projectTrail : Trail := [("w", projectNode)]

theorem directiveFiles_exact_project :
    IsThorough Ignore.walk projectTree "/w" ∧
      ∃ files, directiveFilesBy Ignore.walk projectTree "/w" ".gitattributes" [] = .ok files ∧
        (∀ below, below ∈ files ↔ below.getLast? = some (.ofText ".gitattributes") ∧
          (∃ content, projectNode.descend? below = some (.file content)) ∧
          ∀ directory ∈ below.dropLast, directory ≠ "node_modules" ∧ directory ≠ ".git") ∧
        files.Pairwise fun file other => file.map RawText.bytes < other.map RawText.bytes := by
  have hplain : ∀ directory, IsAround projectTree "/w" projectTrail directory →
      HasNoIgnoreFiles projectTree directory ∧
        projectTree.isFile (Path.join directory Ignore.Repository.gitName) = false :=
    Ignore.forall_isAround (by decide +kernel) (by decide +kernel)
  have hroot : projectTree.trail "/w" = .ok projectTrail := by rfl
  have hshort : ∀ entry ∈ projectNode.nodes,
      (pathOf "/w" entry.1).size ≤ FileSystem.maxPathSize := by decide +kernel
  have hwalk : IsThorough Ignore.walk projectTree "/w" := by
    refine Ignore.isThorough_walk (by decide +kernel) hroot (fun directory h hgit => ?_)
      fun names entries h => hshort _ (Node.mem_nodes_of_descend? h)
    rw [(hplain directory h).2] at hgit
    cases hgit
  exact ⟨hwalk, directiveFiles_exact hwalk hroot (by rfl) fun directory h => (hplain directory h).1⟩

end Project
end AttributeScope
