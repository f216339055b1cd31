import Mathlib.Data.List.Nodup
import AttributeScope.Project.Discovery
import AttributeScope.Proofs.PathLookup

/-!
# What a walk visits

Every entry that is visited is there, it is visited once, and all directories on the way to it are
wanted.  If there are no ignore files around a root and no exclude patterns, these are all entries
but for those that are not wanted.

Main results:

- Theorem `Walker.exists_of_mem_visits`: what is visited is there.
- Theorem `Walker.nodup_visits`: nothing is visited twice.
- Theorem `Walker.mem_visits_of_descend?`: without rules, whatever is wanted is visited.
- Theorem `isThorough_walk`: both for a whole walk, without ignore files and exclude patterns.
-/

namespace AttributeScope
namespace Ignore

open FileSystem (Position Trail)

/-! ## Entries below a node -/

/-- An entry at or below a node: its names lead to what it is, and it has the last of them. -/
structure IsEntry (node : Node) (entry : Entry) : Prop where
  exists_descend? : ∃ child, node.descend? entry.below = some child ∧ entry.kind = child.kind
  name_eq : ∀ name, entry.below.getLast? = some name → entry.name = name

/-- All directories that are passed on the way to an entry are wanted.  The first names lead to
where the way begins, the others from there to the entry. -/
def IsOpenWay (wants : Entry → Bool) (below names : List RawText) : Prop :=
  ∀ front name rest, names = front ++ name :: rest → rest ≠ [] →
    wants ⟨below ++ (front ++ [name]), name, .directory⟩ = true

section IsOpenWay

variable {wants : Entry → Bool} {below names : List RawText} {name : RawText}

theorem isOpenWay_nil : IsOpenWay wants below [] := by
  intro front name rest h
  simp at h

/-- A way is open if it is open behind its first directory, and that is wanted. -/
theorem IsOpenWay.cons (hname : names ≠ [] → wants ⟨below ++ [name], name, .directory⟩ = true)
    (h : IsOpenWay wants (below ++ [name]) names) : IsOpenWay wants below (name :: names) := by
  intro front last rest hnames hrest
  cases front with
  | nil =>
    obtain ⟨rfl, rfl⟩ := List.cons.inj hnames
    exact hname hrest
  | cons first front =>
    rw [List.cons_append] at hnames
    obtain ⟨rfl, rfl⟩ := List.cons.inj hnames
    have hlast := h front last rest rfl hrest
    rwa [List.append_assoc, List.singleton_append] at hlast

/-- On an open way the first directory is wanted. -/
theorem IsOpenWay.head (h : IsOpenWay wants below (name :: names)) (hnames : names ≠ []) :
    wants ⟨below ++ [name], name, .directory⟩ = true := h [] name names rfl hnames

/-- An open way is open behind its first directory. -/
theorem IsOpenWay.tail (h : IsOpenWay wants below (name :: names)) :
    IsOpenWay wants (below ++ [name]) names := by
  intro front last rest hnames hrest
  rw [List.append_assoc, List.singleton_append]
  exact h (name :: front) last rest (congrArg (List.cons name) hnames) hrest

end IsOpenWay

namespace Walker

variable {w : Walker} {layers : List Layer} {path name : RawText}
  {below names : List RawText} {node found : Node} {entry : Entry}

/-! ## What is visited is there -/

/-- What is visited at a directory is the directory or visited at an entry that is not passed
over. -/
theorem mem_visits_directory {entries : List (RawText × Node)}
    (h : .entry entry ∈ w.visits layers path below name (.directory entries)) :
    entry = ⟨below, name, .directory⟩ ∨
      ∃ inner ∈ entries, ∃ layers,
        w.passesOver layers ⟨below ++ [inner.1], inner.1, inner.2.kind⟩ = false ∧
          .entry entry ∈ w.visits layers (Path.join path inner.1) (below ++ [inner.1]) inner.1
            inner.2 := by
  unfold visits at h
  rcases List.mem_cons.mp h with h | h
  · exact .inl (Visit.entry.inj h)
  · right
    split_ifs at h
    · cases List.mem_singleton.mp h
    · rw [visitsAmong_eq_flatMap, List.mem_flatMap] at h
      rcases h with ⟨inner, hinner, h⟩
      split_ifs at h with hover
      · simp at h
      · exact ⟨inner, hinner, _, by simpa using hover, h⟩

/-- What is not passed over is wanted. -/
theorem wants_of_passesOver_eq_false (h : w.passesOver layers entry = false) :
    w.wants entry = true := by
  unfold passesOver at h
  simpa using (Bool.or_eq_false_iff.mp h).2

/-- What is visited is there, and the way to it is open. -/
theorem exists_of_mem_visits (hproper : node.IsProper)
    (h : .entry entry ∈ w.visits layers path below name node) :
    ∃ names child, entry = ⟨below ++ names, names.getLastD name, child.kind⟩ ∧
      node.descend? names = some child ∧ IsOpenWay w.wants below names := by
  induction node using Node.inductionOn generalizing layers path below name with
  | file content =>
    obtain rfl := Visit.entry.inj (List.mem_singleton.mp h)
    exact ⟨[], .file content, by rw [List.append_nil]; rfl, rfl, isOpenWay_nil⟩
  | symlink target =>
    obtain rfl := Visit.entry.inj (List.mem_singleton.mp h)
    exact ⟨[], .symlink target, by rw [List.append_nil]; rfl, rfl, isOpenWay_nil⟩
  | directory entries ih =>
    rcases mem_visits_directory h with rfl | ⟨⟨next, inner⟩, hinner, layers, hover, h⟩
    · exact ⟨[], .directory entries, by rw [List.append_nil]; rfl, rfl, isOpenWay_nil⟩
    · rcases Node.isProper_directory_iff.mp hproper with ⟨hentries, hnodup⟩
      rcases ih _ hinner (hentries _ hinner).2 h with ⟨names, child, rfl, hdescend, hopen⟩
      refine ⟨next :: names, child, ?_, ?_, .cons (fun hnames => ?_) hopen⟩
      · rw [List.append_cons below next names, List.getLastD_cons]
      · rw [Node.descend?, Node.child?, (Node.lookup_eq_some_iff hnodup).mpr hinner]
        exact hdescend
      · have hwants := wants_of_passesOver_eq_false hover
        cases names with
        | nil => exact absurd rfl hnames
        | cons first others =>
          rcases Node.descend?_cons_eq_some_iff.mp hdescend with ⟨between, hbetween, -⟩
          cases inner with
          | directory entries => exact hwants
          | file content => simp [Node.child?] at hbetween
          | symlink target => simp [Node.child?] at hbetween

/-! ## Nothing is visited twice -/

/-- What is visited at two entries is not the same, since their names differ. -/
theorem disjoint_entriesOf {other : List Layer} {next : RawText} {sibling : Node}
    (hnode : node.IsProper) (hsibling : sibling.IsProper) (hne : name ≠ next) :
    (entriesOf (w.visits layers (Path.join path name) (below ++ [name]) name node)).Disjoint
      (entriesOf (w.visits other (Path.join path next) (below ++ [next]) next sibling)) := by
  intro entry hentry hother
  rcases exists_of_mem_visits hnode (mem_entriesOf_iff.mp hentry) with ⟨names, _, rfl, -, -⟩
  rcases exists_of_mem_visits hsibling (mem_entriesOf_iff.mp hother) with ⟨others, _, heq, -, -⟩
  have hbelow : below ++ [name] ++ names = below ++ [next] ++ others := congrArg Entry.below heq
  rw [List.append_assoc, List.append_assoc] at hbelow
  exact hne (List.cons.inj (List.append_cancel_left hbelow)).1

/-- A directory is not visited again below it. -/
theorem notMem_entriesOf_below {inner : RawText × Node} (hinner : inner.2.IsProper) :
    ⟨below, name, .directory⟩ ∉
      entriesOf
        (w.visits layers (Path.join path inner.1) (below ++ [inner.1]) inner.1 inner.2) := by
  intro h
  rcases exists_of_mem_visits hinner (mem_entriesOf_iff.mp h) with ⟨names, _, heq, -, -⟩
  have hbelow : below = below ++ [inner.1] ++ names := congrArg Entry.below heq
  rw [List.append_assoc, List.self_eq_append_right] at hbelow
  cases hbelow

/-- Nothing is visited twice. -/
theorem nodup_visits (hproper : node.IsProper) :
    (entriesOf (w.visits layers path below name node)).Nodup := by
  induction node using Node.inductionOn generalizing layers path below name with
  | file content => exact List.nodup_singleton _
  | symlink target => exact List.nodup_singleton _
  | directory inside ih =>
    rcases Node.isProper_directory_iff.mp hproper with ⟨hentries, hnodup⟩
    unfold visits
    split_ifs
    · exact List.nodup_singleton _
    · rw [visitsAmong_eq_flatMap]
      show (⟨below, name, .directory⟩ :: entriesOf (inside.flatMap _)).Nodup
      unfold entriesOf
      rw [List.filterMap_flatMap, List.nodup_cons, List.nodup_flatMap]
      refine ⟨fun h => ?_, fun inner hinner => ?_, ?_⟩
      · rcases List.mem_flatMap.mp h with ⟨inner, hinner, h⟩
        split_ifs at h
        · simp at h
        · exact notMem_entriesOf_below (hentries inner hinner).2 h
      · split_ifs
        · simp
        · exact ih inner hinner (hentries inner hinner).2
      · refine (List.pairwise_map.mp hnodup).imp_of_mem fun {first second} hfirst hsecond hne => ?_
        dsimp only [Function.onFun]
        split_ifs
        · simp
        · simp
        · simp
        · exact disjoint_entriesOf (hentries first hfirst).2 (hentries second hsecond).2 hne

/-! ## Whatever is wanted is visited -/

/-- Nothing hinders a walk at and below a node: no rule leaves anything out, and every directory can
be opened. -/
structure Unhindered (w : Walker) (layers : List Layer) (path : RawText) (below : List RawText)
    (node : Node) : Prop where
  excludes : w.excludes = []
  outer : ∀ layer ∈ layers, layer.HasNoRules
  inner : ∀ names entries, node.descend? names = some (.directory entries) →
    (Layer.ofEntries w.fs (w.root ++ (below ++ names)) (Project.pathOf path names)
      entries).HasNoRules
  short : ∀ names entries, node.descend? names = some (.directory entries) →
    (Project.pathOf path names).size ≤ FileSystem.maxPathSize

/-- Nothing hinders a walk at an entry of a directory. -/
theorem Unhindered.child {entries : List (RawText × Node)}
    (h : w.Unhindered layers path below (.directory entries))
    (hchild : entries.lookup name = some node) :
    w.Unhindered (Layer.ofEntries w.fs (w.root ++ below) path entries :: layers)
      (Path.join path name) (below ++ [name]) node where
  excludes := h.excludes
  outer := by
    have hlayer := h.inner [] entries rfl
    rw [List.append_nil] at hlayer
    exact List.forall_mem_cons.mpr ⟨hlayer, h.outer⟩
  inner names others hdescend := by
    have hlayer := h.inner (name :: names) others
      (Node.descend?_cons_eq_some_iff.mpr ⟨node, hchild, hdescend⟩)
    rwa [List.append_assoc, List.singleton_append]
  short names others hdescend :=
    h.short (name :: names) others
      (Node.descend?_cons_eq_some_iff.mpr ⟨node, hchild, hdescend⟩)

/-- If nothing hinders a walk, whatever is wanted is visited, if the way to it is open. -/
theorem mem_visits_of_descend? (hfree : w.Unhindered layers path below node)
    (hdescend : node.descend? names = some found) (hopen : IsOpenWay w.wants below names)
    (hwanted : names ≠ [] →
      w.wants ⟨below ++ names, names.getLastD name, found.kind⟩ = true) :
    .entry ⟨below ++ names, names.getLastD name, found.kind⟩ ∈
      w.visits layers path below name node := by
  induction names generalizing layers path below name node with
  | nil =>
    obtain rfl : node = found := Option.some.inj hdescend
    rw [List.append_nil]
    cases node <;> exact List.mem_cons_self
  | cons next rest ih =>
    cases node with
    | file other => simp [Node.descend?, Node.child?] at hdescend
    | symlink target => simp [Node.descend?, Node.child?] at hdescend
    | directory entries =>
      rcases Node.descend?_cons_eq_some_iff.mp hdescend with ⟨inner, hinner, hrest⟩
      have hshort : ¬ FileSystem.maxPathSize < path.size :=
        Nat.not_lt.mpr (hfree.short [] entries rfl)
      have hchild := hfree.child hinner
      have hwanted := hwanted (List.cons_ne_nil next rest)
      rw [List.getLastD_cons, List.append_cons] at hwanted ⊢
      have hkept : w.wants ⟨below ++ [next], next, inner.kind⟩ = true := by
        cases rest with
        | nil =>
          obtain rfl : inner = found := Option.some.inj hrest
          rwa [List.append_nil] at hwanted
        | cons first others =>
          rcases Node.descend?_cons_eq_some_iff.mp hrest with ⟨between, hbetween, -⟩
          cases inner with
          | directory _ => exact hopen.head (List.cons_ne_nil first others)
          | file content => simp [Node.child?] at hbetween
          | symlink target => simp [Node.child?] at hbetween
      unfold visits
      rw [if_neg hshort, visitsAmong_eq_flatMap]
      refine List.mem_cons_of_mem _ (List.mem_flatMap.mpr ⟨_, Node.mem_of_lookup hinner, ?_⟩)
      rw [passesOver_of_no_rules hfree.excludes hchild.outer, hkept]
      exact ih hchild hrest hopen.tail fun _ => hwanted

end Walker

/-! ## Directories without ignore files -/

/-- A directory has no ignore file, and no exclude file is kept below its `.git`. -/
structure HasNoIgnoreFiles (fs : FileSystem) (directory : RawText) : Prop where
  ignore : fs.isFile (Path.join directory Layer.ignoreName) = false
  gitIgnore : fs.isFile (Path.join directory Layer.gitIgnoreName) = false
  exclude : fs.isFile
    (Path.join (Path.join directory Repository.gitName) Repository.excludeName) = false

instance (fs : FileSystem) (directory : RawText) : Decidable (HasNoIgnoreFiles fs directory) :=
  decidable_of_iff
    (fs.isFile (Path.join directory Layer.ignoreName) = false ∧
      fs.isFile (Path.join directory Layer.gitIgnoreName) = false ∧
      fs.isFile
        (Path.join (Path.join directory Repository.gitName) Repository.excludeName) = false)
    ⟨fun ⟨hignore, hgitIgnore, hexclude⟩ => ⟨hignore, hgitIgnore, hexclude⟩,
      fun h => ⟨h.ignore, h.gitIgnore, h.exclude⟩⟩

/-- If the `.git` of a directory is a file, it does not lead to an exclude file kept elsewhere. -/
def HasNoLinkedExcludes (fs : FileSystem) (directory : RawText) : Prop :=
  fs.isFile (Path.join directory Repository.gitName) = true →
    ∀ path, Repository.excludeFile fs directory = .ok (some path) → fs.isFile path = false

section Plain

variable {fs : FileSystem} {root path directory : RawText} {trail : Trail} {position : Position}

/-- What is no file has no rules. -/
theorem rulesAt_of_not_isFile (h : fs.isFile path = false) : Layer.rulesAt fs path = .empty := by
  unfold Layer.rulesAt FileSystem.read
  unfold FileSystem.isFile at h
  cases hfind : fs.find path with
  | error fault => rfl
  | ok node =>
    rw [hfind] at h
    cases node with
    | file content => simp [Node.isFile] at h
    | directory entries => rfl
    | symlink target => rfl

/-- A directory without ignore files has no rules. -/
theorem hasNoRules_ofDirectory (hplain : HasNoIgnoreFiles fs directory)
    (hlinked : HasNoLinkedExcludes fs directory) :
    (Layer.ofDirectory fs position directory).HasNoRules := by
  refine ⟨?_, ?_, ?_⟩
  · simp [Layer.ofDirectory, rulesAt_of_not_isFile hplain.ignore, RuleFile.empty]
  · simp [Layer.ofDirectory, rulesAt_of_not_isFile hplain.gitIgnore, RuleFile.empty]
  · have hpath (path : RawText) (h : Repository.excludeFile fs directory = .ok (some path)) :
        fs.isFile path = false := by
      cases hgit : fs.isFile (Path.join directory Repository.gitName) with
      | true => exact hlinked hgit path h
      | false =>
        rw [Repository.excludeFile_of_not_isFile hgit] at h
        cases h
        exact hplain.exclude
    show (Layer.rulesAtExclude fs (Repository.excludeFile fs directory)).rules = []
    unfold Layer.rulesAtExclude
    split
    · rename_i path hexclude
      rw [rulesAt_of_not_isFile (hpath path hexclude)]
      rfl
    · rfl

theorem hasNoRules_ofEntries {entries : List (RawText × Node)}
    (hplain : HasNoIgnoreFiles fs directory) (hlinked : HasNoLinkedExcludes fs directory) :
    (Layer.ofEntries fs position directory entries).HasNoRules := by
  unfold Layer.ofEntries
  split_ifs
  · exact hasNoRules_ofDirectory hplain hlinked
  · exact Layer.hasNoRules_bare position directory

/-- The directories whose ignore files count: those at and below a root, and those above it. -/
def IsAround (fs : FileSystem) (root : RawText) (trail : Trail) (directory : RawText) : Prop :=
  (∃ names entries, (fs.nodeOn trail).descend? names = some (.directory entries) ∧
      directory = Project.pathOf root names) ∨
    ∃ depth < trail.length, directory = FileSystem.pathAt ((Trail.position trail).take depth)

/-- What holds of finitely many directories holds around a root. -/
theorem forall_isAround {P : RawText → Prop}
    (hbelow : ∀ entry ∈ (fs.nodeOn trail).nodes, entry.2.isDirectory = true →
      P (Project.pathOf root entry.1))
    (habove : ∀ depth < trail.length, P (FileSystem.pathAt ((Trail.position trail).take depth))) :
    ∀ directory, IsAround fs root trail directory → P directory := by
  rintro directory (⟨names, entries, hdescend, rfl⟩ | ⟨depth, hdepth, rfl⟩)
  · exact hbelow _ (Node.mem_nodes_of_descend? hdescend) rfl
  · exact habove depth hdepth

/-- Without ignore files around a root, the directories above it have no rules. -/
theorem hasNoRules_of_mem_above
    (hplain : ∀ directory, IsAround fs root trail directory → HasNoIgnoreFiles fs directory)
    (hlinked : ∀ directory, IsAround fs root trail directory → HasNoLinkedExcludes fs directory) :
    ∀ layer ∈ Layer.above fs (Trail.position trail), layer.HasNoRules := by
  intro layer hlayer
  unfold Layer.above at hlayer
  split_ifs at hlayer
  · simp at hlayer
  · rcases List.mem_map.mp hlayer with ⟨depth, hdepth, rfl⟩
    have hlt : depth < trail.length := by
      simpa [Trail.position] using List.mem_range.mp (List.mem_reverse.mp hdepth)
    have haround : IsAround fs root trail
        (FileSystem.pathAt ((Trail.position trail).take depth)) :=
      .inr ⟨depth, hlt, rfl⟩
    exact hasNoRules_ofDirectory (hplain _ haround) (hlinked _ haround)

/-- Without ignore files around a root, nothing hinders a walk there. -/
theorem unhindered_root {wants : Entry → Bool}
    (hplain : ∀ directory, IsAround fs root trail directory → HasNoIgnoreFiles fs directory)
    (hlinked : ∀ directory, IsAround fs root trail directory → HasNoLinkedExcludes fs directory)
    (hshort : ∀ names entries, (fs.nodeOn trail).descend? names = some (.directory entries) →
      (Project.pathOf root names).size ≤ FileSystem.maxPathSize) :
    Walker.Unhindered ⟨fs, Trail.position trail, [], wants⟩
      (Layer.above fs (Trail.position trail)) root [] (fs.nodeOn trail) where
  excludes := rfl
  outer := hasNoRules_of_mem_above hplain hlinked
  inner names others hdescend := by
    have haround : IsAround fs root trail (Project.pathOf root names) :=
      .inl ⟨names, others, hdescend, rfl⟩
    exact hasNoRules_ofEntries (hplain _ haround) (hlinked _ haround)
  short := hshort

/-! ## Whole walks -/

/-- A walk visits each entry below a node once, unless a directory on the way to it is not wanted.
What is not wanted itself may be visited or not, and so may the node. -/
structure VisitsOnce (visits : List Visit) (node : Node) (wants : Entry → Bool) : Prop where
  nodup : (entriesOf visits).Nodup
  sound : ∀ entry ∈ entriesOf visits, IsEntry node entry ∧ IsOpenWay wants [] entry.below
  complete : ∀ entry, IsEntry node entry → entry.below ≠ [] → IsOpenWay wants [] entry.below →
    wants entry = true → entry ∈ entriesOf visits

/-- A way to walk is thorough at a root if it visits all entries below it, provided that there are
no ignore files around the root and no exclude patterns. -/
def IsThorough (walk : Walk) (fs : FileSystem) (root : RawText) : Prop :=
  ∀ trail, fs.trail root = .ok trail →
    (∀ directory, IsAround fs root trail directory → HasNoIgnoreFiles fs directory) →
      ∀ wants, VisitsOnce (walk fs root [] wants) (fs.nodeOn trail) wants

/-- The entries of a walk are those that are visited at and below its root. -/
theorem entriesOf_walk {excludes : List Rule} {wants : Entry → Bool}
    (hroot : fs.trail root = .ok trail) :
    entriesOf (walk fs root excludes wants) =
      entriesOf (Walker.visits ⟨fs, Trail.position trail, excludes, wants⟩
        (Layer.above fs (Trail.position trail)) root [] (rootName root) (fs.nodeOn trail)) := by
  have habove : entriesOf (faultsAbove fs trail) = [] := by
    unfold faultsAbove
    split_ifs
    · split <;> rfl
    · rfl
  unfold walk
  rw [hroot]
  show entriesOf (faultsAbove fs trail ++ _) = _
  unfold entriesOf at habove ⊢
  rw [List.filterMap_append, habove, List.nil_append]

/-- Walks are thorough where all exclude files are kept below a `.git` and all directories can be
opened. -/
theorem isThorough_walk (hproper : fs.top.IsProper) (hroot : fs.trail root = .ok trail)
    (hlinked : ∀ directory, IsAround fs root trail directory → HasNoLinkedExcludes fs directory)
    (hshort : ∀ names entries, (fs.nodeOn trail).descend? names = some (.directory entries) →
      (Project.pathOf root names).size ≤ FileSystem.maxPathSize) :
    IsThorough walk fs root := by
  intro found hfound hplain wants
  obtain rfl : trail = found := Except.ok.inj (hroot.symm.trans hfound)
  have hnode := (FileSystem.isTrail_of_trail_eq hroot).isProper_nodeOn hproper
  have hfree := @unhindered_root fs root trail wants hplain hlinked hshort
  refine ⟨?_, fun entry hentry => ?_, fun entry hentry hbelow hopen hwanted => ?_⟩
  · rw [entriesOf_walk hroot]
    exact Walker.nodup_visits hnode
  · rw [entriesOf_walk hroot] at hentry
    rcases Walker.exists_of_mem_visits hnode (mem_entriesOf_iff.mp hentry) with
      ⟨names, child, rfl, hdescend, hopen⟩
    refine ⟨⟨⟨child, hdescend, rfl⟩, fun name hname => ?_⟩, hopen⟩
    have hlast : names.getLast? = some name := hname
    rw [List.getLastD_eq_getLast?, hlast]
    rfl
  · rcases hentry with ⟨⟨child, hdescend, hkind⟩, hname⟩
    have hlast : entry.name = entry.below.getLastD (rootName root) := by
      rw [List.getLastD_eq_getLast?]
      cases hend : entry.below.getLast? with
      | none => exact absurd (List.getLast?_eq_none_iff.mp hend) hbelow
      | some name => exact hname name hend
    have hentry : entry =
        ⟨[] ++ entry.below, entry.below.getLastD (rootName root), child.kind⟩ := by
      rw [← hlast, ← hkind]
      rfl
    rw [hentry] at hwanted
    have hvisited := Walker.mem_visits_of_descend? hfree hdescend hopen fun _ => hwanted
    rw [entriesOf_walk hroot, mem_entriesOf_iff, hentry]
    exact hvisited

end Plain
end Ignore
end AttributeScope
