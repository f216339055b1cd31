import AttributeScope.FileTree.Reader
import AttributeScope.Proofs.PathLookup

/-!
# Trees whose files change

Some files of a tree are taken away, others get other contents; directories and links stay.  A path
leads where it led before, unless it led to a file that is gone.

Main results:

- Theorem `Node.child?_after`: what the entry of a name is after a change.
- Theorem `FileSystem.follow_after`: where a path leads after a change.
- Theorem `FileSystem.sight_after`: what is seen of where a path leads does not change unless the
  change is to what it leads to.
-/

namespace AttributeScope

open FileSystem (Position Trail)

/-- A change of files: which are taken away, and what the others hold. -/
structure FileChange where
  removes : Position → Bool
  content : Position → FileContent → FileContent

namespace FileChange

/-- Take away the files at chosen positions. -/
def removing (chosen : Position → Bool) : FileChange where
  removes := chosen
  content _ old := old

/-- Put other contents into the files at chosen positions. -/
def rewriting (chosen : Position → Bool) (contents : Position → FileContent) : FileChange where
  removes _ := false
  content position old := if chosen position then contents position else old

/-- Whether a node at a position is still there after a change. -/
def keeps (change : FileChange) (position : Position) (node : Node) : Bool :=
  !(node.isFile && change.removes position)

end FileChange

namespace Node

mutual

/-- A node at a position after a change. -/
def after (change : FileChange) (position : Position) : Node → Node
  | .file content => .file (change.content position content)
  | .directory entries => .directory (entriesAfter change position entries)
  | .symlink target => .symlink target

/-- The entries of the directory at a position after a change. -/
def entriesAfter (change : FileChange) (position : Position) :
    List (RawText × Node) → List (RawText × Node)
  | [] => []
  | (name, node) :: rest =>
    if change.keeps (position ++ [name]) node then
      (name, node.after change (position ++ [name])) :: entriesAfter change position rest
    else entriesAfter change position rest

end

variable {change : FileChange} {position : Position} {node child : Node} {name : RawText}
  {entries : List (RawText × Node)}

theorem isFile_eq_false (h : node.isDirectory = true) : node.isFile = false := by
  cases node with
  | directory entries => rfl
  | file content => simp [isDirectory] at h
  | symlink target => simp [isDirectory] at h

@[simp] theorem isDirectory_after :
    (node.after change position).isDirectory = node.isDirectory := by
  cases node <;> rfl

/-- If names are different, the entry of a name is what is left of the one before. -/
theorem lookup_entriesAfter (hnodup : (entries.map Prod.fst).Nodup) :
    (entriesAfter change position entries).lookup name =
      ((entries.lookup name).filter (change.keeps (position ++ [name]))).map
        (after change (position ++ [name])) := by
  induction entries with
  | nil => rfl
  | cons entry rest ih =>
    rcases entry with ⟨first, node⟩
    rw [List.map_cons, List.nodup_cons] at hnodup
    rw [entriesAfter, List.lookup_cons]
    by_cases hname : name = first
    · subst hname
      have hrest : rest.lookup name = none := by
        rw [List.lookup_eq_none_iff]
        rintro ⟨other, sibling⟩ hentry
        rw [bne_iff_ne]
        rintro rfl
        exact hnodup.1 (List.mem_map.mpr ⟨(name, sibling), hentry, rfl⟩)
      cases hkeeps : change.keeps (position ++ [name]) node with
      | true => simp [hkeeps, Option.filter_some]
      | false => simp [hkeeps, Option.filter_some, ih hnodup.2, hrest]
    · have hne : (name == first) = false := by simpa using hname
      rw [hne]
      split_ifs
      · rw [List.lookup_cons, hne]
        exact ih hnodup.2
      · exact ih hnodup.2

/-- The entry of a name in a proper node is what is left of the one before. -/
theorem child?_after (hproper : node.IsProper) :
    (node.after change position).child? name =
      ((node.child? name).filter (change.keeps (position ++ [name]))).map
        (after change (position ++ [name])) := by
  cases node with
  | file content => rfl
  | symlink target => rfl
  | directory entries => exact lookup_entriesAfter (isProper_directory_iff.mp hproper).2

/-- What is seen of a node without looking into directories. -/
def outline : Node → Node
  | .directory _ => .emptyDirectory
  | node => node

/-- Nodes that look the same are the same or both directories. -/
theorem eq_or_directories {other : Node} (h : other.outline = node.outline) :
    other = node ∨ ∃ entries others, node = .directory entries ∧ other = .directory others := by
  cases node with
  | directory entries =>
    cases other with
    | directory others => exact .inr ⟨entries, others, rfl, rfl⟩
    | file content => simp [outline, emptyDirectory] at h
    | symlink target => simp [outline, emptyDirectory] at h
  | file content => cases other <;> simp_all [outline, emptyDirectory]
  | symlink target => cases other <;> simp_all [outline, emptyDirectory]

end Node

/-! ## Where paths lead after a change -/

namespace FileSystem

/-- A file system after a change. -/
def after (fs : FileSystem) (change : FileChange) : FileSystem :=
  { fs with top := fs.top.after change [] }

namespace Trail

/-- A trail after a change. -/
def after (change : FileChange) : Trail → Trail
  | [] => []
  | (name, node) :: outer =>
    (name, node.after change (Trail.position outer ++ [name])) :: after change outer

/-- Whether what a trail leads to is still there after a change. -/
def isKept (change : FileChange) : Trail → Bool
  | [] => true
  | (name, node) :: outer => change.keeps (Trail.position outer ++ [name]) node

end Trail

variable {fs : FileSystem} {change : FileChange} {trail : Trail} {pieces : List (List UInt8)}
  {links : Nat} {path : RawText}

@[simp] theorem position_cons (name : RawText) (node : Node) (outer : Trail) :
    Trail.position ((name, node) :: outer) = Trail.position outer ++ [name] := by
  simp [Trail.position]

@[simp] theorem position_after : Trail.position (trail.after change) = Trail.position trail := by
  induction trail with
  | nil => rfl
  | cons last outer ih => rw [Trail.after, position_cons, position_cons, ih]

@[simp] theorem tail_after : (trail.after change).tail = Trail.after change trail.tail := by
  cases trail <;> rfl

theorem linkBase_after (target : RawText) :
    linkBase (trail.after change) target = Trail.after change (linkBase trail target) := by
  unfold linkBase
  split_ifs <;> rfl

theorem nodeOn_after :
    (fs.after change).nodeOn (trail.after change) =
      (fs.nodeOn trail).after change (Trail.position trail) := by
  cases trail with
  | nil => rfl
  | cons last outer =>
    rw [position_cons]
    rfl

theorem isKept_of_nodeOn
    (h : (fs.nodeOn trail).isFile = false ∨ change.removes (Trail.position trail) = false) :
    trail.isKept change = true := by
  cases trail with
  | nil => rfl
  | cons last outer =>
    rcases last with ⟨name, node⟩
    rw [position_cons] at h
    rcases h with h | h
    · have hfile : node.isFile = false := h
      simp [Trail.isKept, FileChange.keeps, hfile]
    · simp [Trail.isKept, FileChange.keeps, h]

/-- Only a file can be gone. -/
theorem isFile_of_isKept_eq_false (h : trail.isKept change = false) :
    (fs.nodeOn trail).isFile = true ∧ change.removes (Trail.position trail) = true := by
  by_contra hnot
  rw [not_and_or, Bool.not_eq_true, Bool.not_eq_true] at hnot
  rw [isKept_of_nodeOn hnot] at h
  cases h

/-- What is outside of what a trail leads to is still there. -/
theorem IsTrail.isKept_tail (h : fs.IsTrail trail) : Trail.isKept change trail.tail = true := by
  cases trail with
  | nil => rfl
  | cons last outer =>
    have hfile : (fs.nodeOn outer).isFile = false :=
      Node.isFile_eq_false (Node.isDirectory_of_child? h.2)
    exact isKept_of_nodeOn (.inl hfile)

theorem isKept_linkBase (h : trail.isKept change = true) (target : RawText) :
    Trail.isKept change (linkBase trail target) = true := by
  unfold linkBase
  split_ifs
  · rfl
  · exact h

/-- Where a way leads after a change: to what is left of where it led. -/
def LeadsAfter (change : FileChange) (found foundAfter : Except LookupFault Trail) : Prop :=
  foundAfter.toOption =
    (found.toOption.filter (Trail.isKept change)).map (Trail.after change)

/-- Nothing is left where a file is gone, and nothing leads on from it. -/
theorem walk_of_gone {atLink : Trail → List (List UInt8) → Except LookupFault Trail}
    {name : RawText} {content : FileContent} {fault : LookupFault}
    (hgone : change.keeps (Trail.position trail ++ [name]) (.file content) = false) :
    LeadsAfter change (fs.walk atLink ((name, .file content) :: trail) pieces) (.error fault) := by
  cases pieces with
  | nil => simp [LeadsAfter, walk, Except.toOption, Option.filter_some, Trail.isKept, hgone]
  | cons piece rest => simp [LeadsAfter, walk, Except.toOption, nodeOn, Node.isDirectory]

/-- Pieces of a path lead to what is left of where they led, if links do. -/
theorem walk_after {atLink atLinkAfter : Trail → List (List UInt8) → Except LookupFault Trail}
    (hproper : fs.top.IsProper)
    (hlink : ∀ trail pieces, fs.IsTrail trail → trail.isKept change = true →
      LeadsAfter change (atLink trail pieces) (atLinkAfter (trail.after change) pieces))
    (htrail : fs.IsTrail trail) (hkept : trail.isKept change = true) :
    LeadsAfter change (fs.walk atLink trail pieces)
      ((fs.after change).walk atLinkAfter (trail.after change) pieces) := by
  induction pieces generalizing trail with
  | nil => simp [LeadsAfter, walk, Except.toOption, Option.filter_some, hkept]
  | cons piece rest ih =>
    simp only [walk, nodeOn_after, Node.isDirectory_after, tail_after]
    by_cases hdir : (fs.nodeOn trail).isDirectory = true
    · by_cases hpadding : piece = [] ∨ piece = [RawText.dot]
      · simpa [hdir, hpadding] using ih htrail hkept
      by_cases habove : piece = [RawText.dot, RawText.dot]
      · simpa [hdir, hpadding, habove] using ih htrail.tail htrail.isKept_tail
      simp only [hdir, hpadding, habove, Bool.not_true, Bool.false_eq_true, if_false]
      rw [Node.child?_after (htrail.isProper_nodeOn hproper)]
      cases hchild : Node.child? (fs.nodeOn trail) ⟨piece⟩ with
      | none => simp [LeadsAfter, Except.toOption]
      | some child =>
        cases hkeeps : change.keeps (Trail.position trail ++ [⟨piece⟩]) child with
        | true =>
          rw [Option.filter_some, hkeeps, if_pos rfl, Option.map_some]
          cases child with
          | symlink target =>
            have hstep := hlink _ (pathPieces target ++ rest) (htrail.linkBase target)
              (isKept_linkBase hkept target)
            rw [← linkBase_after] at hstep
            exact hstep
          | file content =>
            exact @ih ((⟨piece⟩, .file content) :: trail) ⟨htrail, hchild⟩ hkeeps
          | directory entries =>
            exact @ih ((⟨piece⟩, .directory entries) :: trail) ⟨htrail, hchild⟩ hkeeps
        | false =>
          rw [Option.filter_some, hkeeps, if_neg Bool.false_ne_true, Option.map_none]
          cases child with
          | symlink target => simp [FileChange.keeps, Node.isFile] at hkeeps
          | directory entries => simp [FileChange.keeps, Node.isFile] at hkeeps
          | file content => exact walk_of_gone hkeeps
    · simp [hdir, LeadsAfter, Except.toOption]

/-- Pieces of a path lead to what is left of where they led. -/
theorem follow_after (hproper : fs.top.IsProper) (htrail : fs.IsTrail trail)
    (hkept : trail.isKept change = true) :
    LeadsAfter change (fs.follow links trail pieces)
      ((fs.after change).follow links (trail.after change) pieces) := by
  induction links generalizing trail pieces with
  | zero => exact walk_after hproper (fun _ _ _ _ => rfl) htrail hkept
  | succ links ih => exact walk_after hproper (fun _ _ => ih) htrail hkept

/-- A path leads to what is left of where it led. -/
theorem trail_after (change : FileChange) (hproper : fs.top.IsProper) (path : RawText) :
    LeadsAfter change (fs.trail path) ((fs.after change).trail path) := by
  unfold FileSystem.trail
  split_ifs
  · rfl
  · rfl
  · rfl
  · exact follow_after hproper True.intro rfl

/-- A path that led nowhere leads nowhere after a change. -/
theorem trail_after_of_error {fault : LookupFault} (change : FileChange)
    (hproper : fs.top.IsProper) (h : fs.trail path = .error fault) :
    ∃ other, (fs.after change).trail path = .error other := by
  have hleads : LeadsAfter change (fs.trail path) ((fs.after change).trail path) :=
    trail_after change hproper path
  cases hafter : (fs.after change).trail path with
  | error other => exact ⟨other, rfl⟩
  | ok found =>
    rw [h, hafter] at hleads
    cases hleads

/-- A path that led somewhere leads there after a change, unless what it led to is gone. -/
theorem trail_after_of_ok (change : FileChange) (hproper : fs.top.IsProper)
    (h : fs.trail path = .ok trail) :
    (∃ fault, (fs.after change).trail path = .error fault) ∧ trail.isKept change = false ∨
      (fs.after change).trail path = .ok (trail.after change) ∧ trail.isKept change = true := by
  have hleads : LeadsAfter change (fs.trail path) ((fs.after change).trail path) :=
    trail_after change hproper path
  unfold LeadsAfter at hleads
  rw [h, Except.toOption, Option.filter_some] at hleads
  cases hafter : (fs.after change).trail path with
  | error fault =>
    rw [hafter] at hleads
    split_ifs at hleads with hkept
    · cases hleads
    · exact .inl ⟨⟨fault, rfl⟩, by simpa using hkept⟩
  | ok found =>
    rw [hafter] at hleads
    split_ifs at hleads with hkept
    · exact .inr ⟨congrArg Except.ok (Option.some.inj hleads), hkept⟩
    · cases hleads

/-- If nothing is taken away, a path leads where it led. -/
theorem find_after (hproper : fs.top.IsProper)
    (hremoves : ∀ position, change.removes position = false) (path : RawText) :
    (∃ fault other, fs.find path = .error fault ∧ (fs.after change).find path = .error other) ∨
      ∃ node position, fs.find path = .ok node ∧
        (fs.after change).find path = .ok (node.after change position) := by
  unfold find
  cases htrail : fs.trail path with
  | error fault =>
    rcases trail_after_of_error change hproper htrail with ⟨other, hafter⟩
    exact .inl ⟨fault, other, rfl, by rw [hafter]; rfl⟩
  | ok trail =>
    have hkept : trail.isKept change = true := @isKept_of_nodeOn fs _ _ (.inr (hremoves _))
    rcases trail_after_of_ok change hproper htrail with ⟨-, hgone⟩ | ⟨hafter, -⟩
    · rw [hkept] at hgone
      cases hgone
    · refine .inr ⟨fs.nodeOn trail, Trail.position trail, rfl, ?_⟩
      rw [hafter, Except.map, nodeOn_after]

/-- If nothing is taken away, the same paths lead somewhere. -/
theorem exists?_after (hproper : fs.top.IsProper)
    (hremoves : ∀ position, change.removes position = false) (path : RawText) :
    (fs.after change).exists? path = fs.exists? path := by
  unfold exists?
  rcases find_after hproper hremoves path with ⟨_, _, hfs, hafter⟩ | ⟨_, _, hfs, hafter⟩ <;>
    simp [hfs, hafter, Except.isOk, Except.toBool]

/-- If nothing is taken away, the same paths lead to directories. -/
theorem isDirectory_after (hproper : fs.top.IsProper)
    (hremoves : ∀ position, change.removes position = false) (path : RawText) :
    (fs.after change).isDirectory path = fs.isDirectory path := by
  unfold isDirectory
  rcases find_after hproper hremoves path with ⟨_, _, hfs, hafter⟩ | ⟨_, _, hfs, hafter⟩ <;>
    simp [hfs, hafter]

/-! ## What is seen of where a path leads -/

/-- What is seen of where a path leads, if it leads anywhere. -/
def sight (fs : FileSystem) (path : RawText) : Option Node :=
  (fs.find path).toOption.map Node.outline

theorem sight_eq (fs : FileSystem) (path : RawText) :
    fs.sight path = (fs.trail path).toOption.map fun trail => (fs.nodeOn trail).outline := by
  unfold sight find
  cases fs.trail path <;> rfl

/-- A change is to none of the files that a path leads to. -/
def Spares (fs : FileSystem) (change : FileChange) (path : RawText) : Prop :=
  ∀ trail content, fs.trail path = .ok trail → fs.nodeOn trail = .file content →
    change.removes (Trail.position trail) = false ∧
      change.content (Trail.position trail) content = content

/-- Files that are taken away are none that a path leads to. -/
theorem spares_removing {chosen : Position → Bool}
    (h : ∀ trail, fs.trail path = .ok trail → chosen (Trail.position trail) = false) :
    fs.Spares (.removing chosen) path :=
  fun trail _ htrail _ => ⟨h trail htrail, rfl⟩

/-- Files whose content changes are none that a path leads to. -/
theorem spares_rewriting {chosen : Position → Bool} {contents : Position → FileContent}
    (h : ∀ trail, fs.trail path = .ok trail → chosen (Trail.position trail) = false) :
    fs.Spares (.rewriting chosen contents) path := by
  intro trail content htrail _
  refine ⟨rfl, ?_⟩
  show (if chosen (Trail.position trail) then _ else content) = content
  rw [h trail htrail]
  rfl

/-- What is seen does not change if the change is not to what the path leads to. -/
theorem sight_after (hproper : fs.top.IsProper) (hspares : fs.Spares change path) :
    (fs.after change).sight path = fs.sight path := by
  have hleads : LeadsAfter change (fs.trail path) ((fs.after change).trail path) :=
    trail_after change hproper path
  unfold LeadsAfter at hleads
  rw [sight_eq, sight_eq, hleads, Option.map_map]
  cases htrail : fs.trail path with
  | error fault => rfl
  | ok trail =>
    have hend :
        (fs.nodeOn trail).isFile = false ∨ change.removes (Trail.position trail) = false := by
      cases hnode : fs.nodeOn trail with
      | file content => exact .inr (hspares trail content htrail hnode).1
      | directory entries => exact .inl rfl
      | symlink target => exact .inl rfl
    have hkept : ((Except.ok trail : Except LookupFault Trail).toOption.filter
        (Trail.isKept change)) = some trail := by
      simp [Except.toOption, Option.filter_some, isKept_of_nodeOn hend]
    rw [hkept, Option.map_some]
    simp only [Function.comp_apply, nodeOn_after, Except.toOption, Option.map_some,
      Option.some.injEq]
    cases hnode : fs.nodeOn trail with
    | file content => rw [Node.after, (hspares trail content htrail hnode).2]
    | directory entries => rfl
    | symlink target => rfl

/-! ## What only depends on what is seen -/

section Sight

variable {other : FileSystem} {limit : Nat}

/-- If a path looks the same in two file systems, it leads nowhere in both, to the same node, or to
directories. -/
theorem find_of_sight_eq (h : other.sight path = fs.sight path) :
    (∃ fault otherFault, fs.find path = .error fault ∧ other.find path = .error otherFault) ∨
      (∃ node, fs.find path = .ok node ∧ other.find path = .ok node) ∨
        ∃ entries others, fs.find path = .ok (.directory entries) ∧
          other.find path = .ok (.directory others) := by
  unfold sight at h
  cases hfind : fs.find path with
  | error fault =>
    cases hother : other.find path with
    | error otherFault => exact .inl ⟨fault, otherFault, rfl, rfl⟩
    | ok otherNode => simp [hfind, hother, Except.toOption] at h
  | ok node =>
    cases hother : other.find path with
    | error otherFault => simp [hfind, hother, Except.toOption] at h
    | ok otherNode =>
      rw [hfind, hother] at h
      rcases Node.eq_or_directories (Option.some.inj h) with rfl | ⟨entries, others, rfl, rfl⟩
      · exact .inr (.inl ⟨otherNode, rfl, rfl⟩)
      · exact .inr (.inr ⟨entries, others, rfl, rfl⟩)

theorem exists?_of_sight_eq (h : other.sight path = fs.sight path) :
    other.exists? path = fs.exists? path := by
  rcases find_of_sight_eq h with ⟨_, _, hfs, hother⟩ | ⟨_, hfs, hother⟩ | ⟨_, _, hfs, hother⟩ <;>
    simp [exists?, hfs, hother, Except.isOk, Except.toBool]

theorem isFile_of_sight_eq (h : other.sight path = fs.sight path) :
    other.isFile path = fs.isFile path := by
  rcases find_of_sight_eq h with ⟨_, _, hfs, hother⟩ | ⟨_, hfs, hother⟩ | ⟨_, _, hfs, hother⟩ <;>
    simp [isFile, hfs, hother, Node.isFile]

theorem canOpen_of_sight_eq (h : other.sight path = fs.sight path) :
    other.canOpen path = fs.canOpen path := by
  rcases find_of_sight_eq h with ⟨_, _, hfs, hother⟩ | ⟨_, hfs, hother⟩ | ⟨_, _, hfs, hother⟩ <;>
    simp [canOpen, hfs, hother]

theorem exists?_of_isFile (h : fs.isFile path = true) : fs.exists? path = true := by
  unfold isFile at h
  cases hfind : fs.find path with
  | error fault => simp [hfind] at h
  | ok node => simp [exists?, hfind, Except.isOk, Except.toBool]

theorem exists?_of_canOpen (h : fs.canOpen path = true) : fs.exists? path = true := by
  unfold canOpen at h
  cases hfind : fs.find path with
  | error fault => simp [hfind] at h
  | ok node => simp [exists?, hfind, Except.isOk, Except.toBool]

/-- What a path leads to is read alike. -/
theorem read_of_sight_eq (h : other.sight path = fs.sight path) (hexists : fs.exists? path = true) :
    other.read path = fs.read path := by
  unfold read
  rcases find_of_sight_eq h with ⟨_, _, hfs, -⟩ | ⟨_, hfs, hother⟩ | ⟨_, _, hfs, hother⟩
  · simp [exists?, hfs, Except.isOk, Except.toBool] at hexists
  · rw [hfs, hother]
  · rw [hfs, hother]
    rfl

theorem readText_of_sight_eq (h : other.sight path = fs.sight path) :
    (other.readText limit path).toOption = (fs.readText limit path).toOption := by
  unfold readText readWithin findWithin
  rcases find_of_sight_eq h with ⟨_, _, hfs, hother⟩ | ⟨_, hfs, hother⟩ | ⟨_, _, hfs, hother⟩
  · simp only [hfs, hother]
    rfl
  · rw [hfs, hother]
  · simp only [hfs, hother, nodeSize]
    by_cases hsize : limit < directorySize <;>
      simp [hsize, Except.bind, Except.map, Except.toOption]

end Sight

end FileSystem
end AttributeScope
