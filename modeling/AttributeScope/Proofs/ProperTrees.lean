import AttributeScope.FileTree.Lookup

/-!
# Proper trees

A tree can stand for what is on a disk if each of its directories has at most one entry of a name,
and only names that an entry can have.  In such a tree an entry is found by its name.

Main results:

- Theorem `Node.inductionOn`: what holds of a directory if it holds of all its entries holds of
  every node.
- Theorem `Node.lookup_eq_some_iff`: the entry of a name is the only one of that name.
- Theorems `IsProper.of_descend?` and `IsProper.isEntryName_of_descend?`: what is below a proper
  node is proper, and the names on the way to it are names of entries.
-/

namespace AttributeScope

/-- A name that an entry of a directory can have. -/
structure IsEntryName (name : RawText) : Prop where
  isName : FileSystem.IsName name.bytes
  slash_notMem : RawText.slash ∉ name.bytes
  zero_notMem : 0 ∉ name.bytes

instance (name : RawText) : Decidable (IsEntryName name) :=
  decidable_of_iff
    (FileSystem.IsName name.bytes ∧ RawText.slash ∉ name.bytes ∧ 0 ∉ name.bytes)
    ⟨fun ⟨hname, hslash, hzero⟩ => ⟨hname, hslash, hzero⟩,
      fun h => ⟨h.isName, h.slash_notMem, h.zero_notMem⟩⟩

namespace Node

mutual

/-- The names in a tree are names of entries, and those in one directory are different. -/
def IsProper : Node → Prop
  | .directory entries => AreProper entries
  | .file _ => True
  | .symlink _ => True

/-- Entries of one directory have different names, and what they stand for is proper. -/
def AreProper : List (RawText × Node) → Prop
  | [] => True
  | (name, node) :: rest =>
    IsEntryName name ∧ node.IsProper ∧ (∀ entry ∈ rest, entry.1 ≠ name) ∧ AreProper rest

end

mutual

/-- Whether a node is proper can be decided. -/
def decidableIsProper : (node : Node) → Decidable node.IsProper
  | .directory entries => decidableAreProper entries
  | .file _ => .isTrue True.intro
  | .symlink _ => .isTrue True.intro

def decidableAreProper : (entries : List (RawText × Node)) → Decidable (AreProper entries)
  | [] => .isTrue True.intro
  | (name, node) :: rest =>
    have := node.decidableIsProper
    have := decidableAreProper rest
    inferInstanceAs (Decidable
      (IsEntryName name ∧ node.IsProper ∧ (∀ entry ∈ rest, entry.1 ≠ name) ∧ AreProper rest))

end

instance (node : Node) : Decidable node.IsProper := node.decidableIsProper

/-! ## Induction over a tree -/

mutual

/-- What holds of a directory if it holds of all its entries holds of every node. -/
theorem inductionOn {motive : Node → Prop} (file : ∀ content, motive (.file content))
    (directory : ∀ entries : List (RawText × Node), (∀ entry ∈ entries, motive entry.2) →
      motive (.directory entries))
    (symlink : ∀ target, motive (.symlink target)) : ∀ node, motive node
  | .file content => file content
  | .directory entries => directory entries (inductionOn_entries file directory symlink entries)
  | .symlink target => symlink target

theorem inductionOn_entries {motive : Node → Prop} (file : ∀ content, motive (.file content))
    (directory : ∀ entries : List (RawText × Node), (∀ entry ∈ entries, motive entry.2) →
      motive (.directory entries))
    (symlink : ∀ target, motive (.symlink target)) :
    ∀ entries : List (RawText × Node), ∀ entry ∈ entries, motive entry.2
  | [] => by simp
  | (name, node) :: rest => by
    intro entry hentry
    rcases List.mem_cons.mp hentry with rfl | hrest
    · exact inductionOn file directory symlink node
    · exact inductionOn_entries file directory symlink rest entry hrest

end

/-! ## Entries by name -/

variable {node child : Node} {entries : List (RawText × Node)} {name : RawText}
  {names more : List RawText}

theorem areProper_iff :
    AreProper entries ↔
      (∀ entry ∈ entries, IsEntryName entry.1 ∧ entry.2.IsProper) ∧
        (entries.map Prod.fst).Nodup := by
  induction entries with
  | nil => simp [AreProper]
  | cons entry rest ih =>
    rcases entry with ⟨name, node⟩
    have hfresh : name ∉ rest.map Prod.fst ↔ ∀ entry ∈ rest, entry.1 ≠ name := by
      rw [List.mem_map, not_exists]
      exact forall_congr' fun entry => by rw [not_and]
    rw [AreProper, ih, List.forall_mem_cons, List.map_cons, List.nodup_cons, hfresh]
    constructor
    · rintro ⟨hname, hnode, hne, hrest, hnodup⟩
      exact ⟨⟨⟨hname, hnode⟩, hrest⟩, hne, hnodup⟩
    · rintro ⟨⟨⟨hname, hnode⟩, hrest⟩, hne, hnodup⟩
      exact ⟨hname, hnode, hne, hrest, hnodup⟩

theorem isProper_directory_iff :
    (Node.directory entries).IsProper ↔
      (∀ entry ∈ entries, IsEntryName entry.1 ∧ entry.2.IsProper) ∧
        (entries.map Prod.fst).Nodup := by
  rw [IsProper, areProper_iff]

/-- If names are different, the entry of a name is the only one of that name. -/
theorem lookup_eq_some_iff (h : (entries.map Prod.fst).Nodup) :
    entries.lookup name = some node ↔ (name, node) ∈ entries := by
  induction entries with
  | nil => simp
  | cons entry rest ih =>
    rcases entry with ⟨first, other⟩
    rw [List.map_cons, List.nodup_cons] at h
    rw [List.lookup_cons, List.mem_cons]
    by_cases hfirst : name = first
    · subst hfirst
      have hfresh : (name, node) ∉ rest := by
        intro hmem
        exact h.1 (List.mem_map.mpr ⟨(name, node), hmem, rfl⟩)
      simp [hfresh, eq_comm]
    · have hne : (name == first) = false := by simpa using hfirst
      rw [hne, ih h.2]
      simp [hfirst]

theorem mem_of_lookup (h : entries.lookup name = some node) : (name, node) ∈ entries := by
  rcases List.lookup_eq_some_iff.mp h with ⟨before, after, rfl, -⟩
  exact List.mem_append_right before List.mem_cons_self

/-- What an entry of a proper node stands for is proper, and its name is one of an entry. -/
theorem IsProper.of_child? (hproper : node.IsProper) (h : node.child? name = some child) :
    IsEntryName name ∧ child.IsProper := by
  cases node with
  | directory entries => exact (isProper_directory_iff.mp hproper).1 _ (mem_of_lookup h)
  | file content => simp [child?] at h
  | symlink target => simp [child?] at h

/-- Only a directory has entries. -/
theorem isDirectory_of_child? (h : node.child? name = some child) : node.isDirectory = true := by
  cases node with
  | directory entries => rfl
  | file content => simp [child?] at h
  | symlink target => simp [child?] at h

/-! ## What is below a node -/

theorem descend?_cons_eq_some_iff :
    node.descend? (name :: names) = some child ↔
      ∃ between, node.child? name = some between ∧ between.descend? names = some child := by
  rw [descend?, Option.bind_eq_some_iff]

theorem descend?_append :
    node.descend? (names ++ more) =
      (node.descend? names).bind fun inner => inner.descend? more := by
  induction names generalizing node with
  | nil => rfl
  | cons name rest ih =>
    rw [List.cons_append, descend?, descend?, Option.bind_assoc]
    exact Option.bind_congr fun inner _ => ih

/-- What is below a proper node is proper. -/
theorem IsProper.of_descend? (hproper : node.IsProper) (h : node.descend? names = some child) :
    child.IsProper := by
  induction names generalizing node with
  | nil => exact Option.some.inj h ▸ hproper
  | cons name rest ih =>
    rcases descend?_cons_eq_some_iff.mp h with ⟨between, hentry, hrest⟩
    exact ih (hproper.of_child? hentry).2 hrest

/-- The names on the way to what is below a proper node are names of entries. -/
theorem IsProper.isEntryName_of_descend? (hproper : node.IsProper)
    (h : node.descend? names = some child) : ∀ name ∈ names, IsEntryName name := by
  induction names generalizing node with
  | nil => simp
  | cons name rest ih =>
    rcases descend?_cons_eq_some_iff.mp h with ⟨between, hentry, hrest⟩
    rcases hproper.of_child? hentry with ⟨hname, hbetween⟩
    exact List.forall_mem_cons.mpr ⟨hname, ih hbetween hrest⟩

/-! ## All nodes of a tree -/

mutual

/-- The nodes at and below a node, with the names that lead to them. -/
def nodes : Node → List (List RawText × Node)
  | .directory entries => ([], .directory entries) :: nodesAmong entries
  | .file content => [([], .file content)]
  | .symlink target => [([], .symlink target)]

/-- The nodes among and below entries. -/
def nodesAmong : List (RawText × Node) → List (List RawText × Node)
  | [] => []
  | (name, node) :: rest =>
    (node.nodes.map fun entry => (name :: entry.1, entry.2)) ++ nodesAmong rest

end

theorem mem_nodesAmong (hentry : (name, node) ∈ entries) (h : (names, child) ∈ node.nodes) :
    (name :: names, child) ∈ nodesAmong entries := by
  induction entries with
  | nil => simp at hentry
  | cons entry rest ih =>
    rw [nodesAmong, List.mem_append]
    rcases List.mem_cons.mp hentry with rfl | hrest
    · exact .inl (List.mem_map.mpr ⟨(names, child), h, rfl⟩)
    · exact .inr (ih hrest)

theorem mem_nodes_of_descend? (h : node.descend? names = some child) :
    (names, child) ∈ node.nodes := by
  induction names generalizing node with
  | nil =>
    obtain rfl : node = child := Option.some.inj h
    cases node <;> exact List.mem_cons_self
  | cons name rest ih =>
    rcases descend?_cons_eq_some_iff.mp h with ⟨between, hbetween, hrest⟩
    cases node with
    | file content => simp [child?] at hbetween
    | symlink target => simp [child?] at hbetween
    | directory others =>
      exact List.mem_cons_of_mem _ (mem_nodesAmong (mem_of_lookup hbetween) (ih hrest))

end Node
end AttributeScope
