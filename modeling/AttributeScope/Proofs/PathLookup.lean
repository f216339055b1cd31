import Mathlib.Data.List.Infix
import AttributeScope.Proofs.ProperTrees

/-!
# Looking up paths part by part

A path is looked up piece by piece, and what lies behind a part of it depends only on where that
part leads.  A path with a name behind it leads to the entry of that name, however the path in
front is written.

Main results:

- Theorem `exists_follow_append`: what follows a part of a path is looked up from where that part
  leads.
- Theorem `follow_append_congr`: parts that lead to the same places can be exchanged.
- Theorem `follow_join`: a name behind a path is looked up from where the path leads.
- Theorem `follow_names`: names lead down a tree.
-/

namespace AttributeScope

/-! ## Pieces of a joined path -/

namespace Path

open RawText (slash)

variable {base name : RawText}

theorem isAbsolute_eq_false (hname : slash ∉ name.bytes) : isAbsolute name = false := by
  cases hbytes : name.bytes with
  | nil => simp [isAbsolute, hbytes]
  | cons b rest =>
    have hb : b ≠ slash := fun e => hname (by simp [hbytes, e])
    simp [isAbsolute, hbytes, hb]

/-- A name is put behind a path, and behind a slash unless there is one. -/
theorem bytes_join (hbase : base ≠ "") (hname : slash ∉ name.bytes) :
    (join base name).bytes =
      base.bytes ++ ((if base.bytes.getLast? = some slash then [] else [slash]) ++ name.bytes) := by
  have hempty : base.isEmpty = false :=
    Bool.eq_false_iff.mpr fun h => hbase (RawText.isEmpty_iff.mp h)
  unfold join
  rw [isAbsolute_eq_false hname, hempty]
  by_cases hslash : base.bytes.getLast? = some slash <;> simp [hslash]

theorem join_ne_nil (hbase : base ≠ "") (hname : slash ∉ name.bytes) : join base name ≠ "" := by
  intro hempty
  have hbytes := bytes_join hbase hname
  rw [hempty] at hbytes
  have hnil : base.bytes = [] := (List.append_eq_nil_iff.mp hbytes.symm).1
  exact hbase (RawText.ext hnil)

/-- A path behind another one takes no more than both and a slash. -/
theorem size_join_le (base path : RawText) :
    (join base path).size ≤ base.size + 1 + path.size := by
  unfold join
  split_ifs
  · omega
  · rw [RawText.size_append]
    omega
  · simp only [RawText.size, List.length_append, List.length_cons]
    omega

theorem isAbsolute_join (hbase : base ≠ "") (hname : slash ∉ name.bytes) :
    isAbsolute (join base name) = isAbsolute base := by
  unfold isAbsolute
  rw [bytes_join hbase hname]
  cases hbytes : base.bytes with
  | nil => exact absurd (RawText.ext hbytes) hbase
  | cons b rest => rfl

end Path

namespace FileSystem

open RawText (dot slash)

variable {fs : FileSystem} {links : Nat} {trail found : Trail} {front back : List (List UInt8)}
  {base name path : RawText}

/-- The pieces of a path are what lies between its slashes, but for what is in front of a slash
at its beginning. -/
theorem splitOn_bytes (path : RawText) :
    path.bytes.splitOn slash = (if Path.isAbsolute path then [[]] else []) ++ pathPieces path := by
  unfold pathPieces
  cases hbytes : path.bytes with
  | nil => simp [Path.isAbsolute, hbytes]
  | cons b rest =>
    by_cases hb : b = slash
    · have habsolute : Path.isAbsolute path = true := by simp [Path.isAbsolute, hbytes, hb]
      rw [habsolute, hb]
      exact List.splitOn_append_cons_self [] rest
    · have habsolute : Path.isAbsolute path = false := by simp [Path.isAbsolute, hbytes, hb]
      rw [habsolute]
      rfl

theorem pathPieces_ne_nil (path : RawText) : pathPieces path ≠ [] := by
  unfold pathPieces
  exact List.splitOn_ne_nil _ _

/-- The pieces of a path with a name behind it are those of the path and the name, which takes the
place of an empty piece at the end. -/
theorem pathPieces_join (hbase : base ≠ "") (hname : slash ∉ name.bytes) :
    (∃ front, pathPieces base = front ++ [[]] ∧
        pathPieces (Path.join base name) = front ++ [name.bytes]) ∨
      pathPieces (Path.join base name) = pathPieces base ++ [name.bytes] := by
  have hbaseSplit := splitOn_bytes base
  have hsplit := splitOn_bytes (Path.join base name)
  rw [Path.isAbsolute_join hbase hname, Path.bytes_join hbase hname] at hsplit
  have hnameSplit : name.bytes.splitOn slash = [name.bytes] := List.splitOn_eq_singleton hname
  by_cases hslash : base.bytes.getLast? = some slash
  · left
    rcases List.getLast?_eq_some_iff.mp hslash with ⟨init, hinit⟩
    rw [hinit, List.splitOn_append_cons_self] at hbaseSplit
    rw [if_pos hslash, hinit, List.nil_append, List.append_assoc, List.singleton_append,
      List.splitOn_append_cons_self, hnameSplit] at hsplit
    rw [show ([] : List UInt8).splitOn slash = [[]] from rfl] at hbaseSplit
    cases habsolute : Path.isAbsolute base with
    | false =>
      rw [habsolute] at hbaseSplit hsplit
      exact ⟨init.splitOn slash, hbaseSplit.symm, hsplit.symm⟩
    | true =>
      rw [habsolute] at hbaseSplit hsplit
      cases hfront : init.splitOn slash with
      | nil => exact absurd hfront (List.splitOn_ne_nil slash init)
      | cons first front =>
        rw [hfront] at hbaseSplit hsplit
        exact ⟨front, (List.cons.inj hbaseSplit).2.symm, (List.cons.inj hsplit).2.symm⟩
  · right
    rw [if_neg hslash, List.singleton_append, List.splitOn_append_cons_self, hnameSplit,
      hbaseSplit, List.append_assoc] at hsplit
    exact (List.append_cancel_left hsplit).symm

/-- What is behind the last slash of a path. -/
theorem getLast?_pathPieces (path : RawText) :
    (pathPieces path).getLast? = (path.bytes.splitOn slash).getLast? := by
  rw [splitOn_bytes, List.getLast?_append_of_ne_nil _ (pathPieces_ne_nil path)]

/-- A path with a relative one behind it ends as that one does. -/
theorem getLast?_pathPieces_join (base : RawText) (h : Path.isAbsolute path = false) :
    (pathPieces (Path.join base path)).getLast? = (path.bytes.splitOn slash).getLast? := by
  have hbehind (front : List UInt8) :
      ((front ++ slash :: path.bytes).splitOn slash).getLast? =
        (path.bytes.splitOn slash).getLast? := by
    rw [List.splitOn_append_cons_self,
      List.getLast?_append_of_ne_nil _ (List.splitOn_ne_nil slash path.bytes)]
  rw [getLast?_pathPieces]
  unfold Path.join
  rw [h, Bool.false_or]
  split_ifs with hempty hslash
  · rfl
  · rcases List.getLast?_eq_some_iff.mp hslash with ⟨front, hfront⟩
    rw [RawText.bytes_append, hfront, List.append_assoc, List.singleton_append, hbehind]
  · exact hbehind base.bytes

/-! ## Parts of a path -/

/-- What is behind a part of a path is looked up from where that part leads.  Links that are not
used up on the way to it are left for what follows. -/
theorem exists_follow_append (h : fs.follow links trail front = .ok found) :
    ∃ left ≤ links, ∀ extra back,
      fs.follow (links + extra) trail (front ++ back) = fs.follow (left + extra) found back := by
  induction links using Nat.strong_induction_on generalizing trail front with
  | _ links ihLinks =>
    induction front generalizing trail with
    | nil =>
      rw [follow_nil, Except.ok.injEq] at h
      exact ⟨links, le_rfl, fun extra back => by rw [h, List.nil_append]⟩
    | cons piece rest ih =>
      rcases follow_cons_eq_ok h with ⟨hdir, ⟨hpadding, hrest⟩ | ⟨rfl, hrest⟩ | ⟨hname, hstep⟩⟩
      · rcases ih hrest with ⟨left, hleft, hback⟩
        refine ⟨left, hleft, fun extra back => ?_⟩
        rw [List.cons_append, follow_padding hdir hpadding, hback]
      · rcases ih hrest with ⟨left, hleft, hback⟩
        refine ⟨left, hleft, fun extra back => ?_⟩
        rw [List.cons_append, follow_above hdir, hback]
      · rcases hstep with ⟨child, hchild, hlink, hrest⟩ | ⟨target, less, rfl, hchild, hrest⟩
        · rcases ih hrest with ⟨left, hleft, hback⟩
          refine ⟨left, hleft, fun extra back => ?_⟩
          rw [List.cons_append, follow_entry hdir hname hchild hlink, hback]
        · rcases ihLinks less (Nat.lt_succ_self less) hrest with ⟨left, hleft, hback⟩
          refine ⟨left, hleft.trans (Nat.le_succ less), fun extra back => ?_⟩
          rw [List.cons_append, Nat.add_right_comm, follow_link hdir hname hchild,
            ← List.append_assoc, hback]

/-- What is behind a part of a path leads on from where that part leads. -/
theorem exists_of_follow_append (h : fs.follow links trail (front ++ back) = .ok found) :
    ∃ between, ∃ left ≤ links, fs.follow links trail front = .ok between ∧
      fs.follow left between back = .ok found := by
  induction links using Nat.strong_induction_on generalizing trail front with
  | _ links ihLinks =>
    induction front generalizing trail with
    | nil => exact ⟨trail, links, le_rfl, follow_nil, h⟩
    | cons piece rest ih =>
      rw [List.cons_append] at h
      rcases follow_cons_eq_ok h with ⟨hdir, ⟨hpadding, hrest⟩ | ⟨rfl, hrest⟩ | ⟨hname, hstep⟩⟩
      · rcases ih hrest with ⟨between, left, hleft, hfront, hback⟩
        exact ⟨between, left, hleft, by rw [follow_padding hdir hpadding, hfront], hback⟩
      · rcases ih hrest with ⟨between, left, hleft, hfront, hback⟩
        exact ⟨between, left, hleft, by rw [follow_above hdir, hfront], hback⟩
      · rcases hstep with ⟨child, hchild, hlink, hrest⟩ | ⟨target, less, rfl, hchild, hrest⟩
        · rcases ih hrest with ⟨between, left, hleft, hfront, hback⟩
          refine ⟨between, left, hleft, ?_, hback⟩
          rw [follow_entry hdir hname hchild hlink, hfront]
        · rw [← List.append_assoc] at hrest
          rcases ihLinks less (Nat.lt_succ_self less) hrest with
            ⟨between, left, hleft, hfront, hback⟩
          refine ⟨between, left, hleft.trans (Nat.le_succ less), ?_, hback⟩
          rw [follow_link hdir hname hchild, hfront]

/-- A part that leads to its end without links leaves all links for what follows. -/
theorem follow_append_of_follow_zero (h : fs.follow 0 trail front = .ok found)
    (links : Nat) (back : List (List UInt8)) :
    fs.follow links trail (front ++ back) = fs.follow links found back := by
  rcases exists_follow_append h with ⟨left, hleft, hback⟩
  obtain rfl : left = 0 := Nat.le_zero.mp hleft
  simpa using hback links back

/-- Two ends of a path that lead to the same places can be exchanged. -/
theorem follow_append_congr {back other : List (List UInt8)}
    (h : ∀ links trail, fs.follow links trail back = fs.follow links trail other)
    (links : Nat) (trail : Trail) (front : List (List UInt8)) :
    fs.follow links trail (front ++ back) = fs.follow links trail (front ++ other) := by
  induction links generalizing trail front with
  | zero =>
    induction front generalizing trail with
    | nil => exact h 0 trail
    | cons piece rest ih =>
      simp only [List.cons_append, follow, walk] at ih ⊢
      simp only [ih]
  | succ links ihLinks =>
    induction front generalizing trail with
    | nil => exact h (links + 1) trail
    | cons piece rest ih =>
      simp only [List.cons_append, follow, walk] at ih ⊢
      simp only [ih, ← List.append_assoc, ihLinks]

/-- An empty piece in front of another one makes no difference. -/
theorem follow_nil_cons (links : Nat) (trail : Trail) (piece : List UInt8)
    (rest : List (List UInt8)) :
    fs.follow links trail ([] :: piece :: rest) = fs.follow links trail (piece :: rest) := by
  cases hdir : (fs.nodeOn trail).isDirectory with
  | true => rw [follow_padding hdir (.inl rfl)]
  | false => rw [follow_of_not_isDirectory hdir, follow_of_not_isDirectory hdir]

/-- A name behind a path is looked up from where the path leads. -/
theorem follow_join (hbase : base ≠ "") (hname : slash ∉ name.bytes) (links : Nat)
    (rest : List (List UInt8)) :
    fs.follow links [] (fs.piecesFromTop (Path.join base name) ++ rest) =
      fs.follow links [] (fs.piecesFromTop base ++ name.bytes :: rest) := by
  unfold piecesFromTop
  rw [Path.isAbsolute_join hbase hname]
  rcases pathPieces_join hbase hname with ⟨front, hpieces, hjoined⟩ | hjoined
  · rw [hpieces, hjoined]
    simp only [List.append_assoc, List.singleton_append]
    rw [← List.append_assoc, ← List.append_assoc]
    exact (follow_append_congr (fun links trail => follow_nil_cons links trail _ _) _ _ _).symm
  · rw [hjoined]
    simp only [List.append_assoc, List.singleton_append]

/-! ## Names that lead down -/

/-- Names lead down a tree, unless they end at a link. -/
theorem follow_names {names : List RawText} {node : Node}
    (hnames : ∀ name ∈ names, IsEntryName name)
    (hnode : (fs.nodeOn trail).descend? names = some node)
    (hlink : ∀ target, node ≠ .symlink target) (links : Nat) :
    ∃ below, fs.follow links trail (names.map RawText.bytes) = .ok below ∧
      Trail.position below = Trail.position trail ++ names ∧ fs.nodeOn below = node := by
  induction names generalizing trail with
  | nil => exact ⟨trail, follow_nil, by simp, Option.some.inj hnode⟩
  | cons name rest ih =>
    rcases Node.descend?_cons_eq_some_iff.mp hnode with ⟨child, hchild, hrest⟩
    rcases List.forall_mem_cons.mp hnames with ⟨hname, hnames⟩
    have hplain : ∀ target, child ≠ .symlink target := by
      rintro target rfl
      cases rest with
      | nil => exact hlink target (Option.some.inj hrest).symm
      | cons next others => simp [Node.descend?, Node.child?] at hrest
    have hstep : fs.follow links trail (name.bytes :: rest.map RawText.bytes) =
        fs.follow links ((name, child) :: trail) (rest.map RawText.bytes) :=
      follow_entry (Node.isDirectory_of_child? hchild) hname.isName hchild hplain
    rcases @ih ((name, child) :: trail) hnames hrest with ⟨below, hfollow, hposition, hend⟩
    refine ⟨below, ?_, ?_, hend⟩
    · rw [List.map_cons, hstep, hfollow]
    · rw [hposition]
      simp [Trail.position]

/-! ## Trails in a tree -/

/-- Each name of a trail leads from one node to the next one. -/
def IsTrail (fs : FileSystem) : Trail → Prop
  | [] => True
  | (name, node) :: outer => fs.IsTrail outer ∧ Node.child? (fs.nodeOn outer) name = some node

theorem IsTrail.tail (h : fs.IsTrail trail) : fs.IsTrail trail.tail := by
  cases trail with
  | nil => exact h
  | cons last outer => exact h.1

theorem IsTrail.linkBase (h : fs.IsTrail trail) (target : RawText) :
    fs.IsTrail (linkBase trail target) := by
  unfold FileSystem.linkBase
  split_ifs
  · exact True.intro
  · exact h

/-- A path leads from one trail to another. -/
theorem IsTrail.of_follow (htrail : fs.IsTrail trail)
    (h : fs.follow links trail front = .ok found) :
    fs.IsTrail found := by
  induction links using Nat.strong_induction_on generalizing trail front with
  | _ links ihLinks =>
    induction front generalizing trail with
    | nil =>
      rw [follow_nil, Except.ok.injEq] at h
      exact h ▸ htrail
    | cons piece rest ih =>
      rcases follow_cons_eq_ok h with ⟨-, ⟨-, hrest⟩ | ⟨-, hrest⟩ | ⟨-, hstep⟩⟩
      · exact ih htrail hrest
      · exact ih htrail.tail hrest
      · rcases hstep with ⟨child, hchild, -, hrest⟩ | ⟨target, less, rfl, -, hrest⟩
        · exact @ih ((⟨piece⟩, child) :: trail) ⟨htrail, hchild⟩ hrest
        · exact ihLinks less (Nat.lt_succ_self less) (htrail.linkBase target) hrest

/-- The names on a trail lead down the tree to its end. -/
theorem IsTrail.descend?_position (h : fs.IsTrail trail) :
    fs.top.descend? (Trail.position trail) = some (fs.nodeOn trail) := by
  induction trail with
  | nil => rfl
  | cons last outer ih =>
    rcases last with ⟨name, node⟩
    rw [Trail.position, List.map_cons, List.reverse_cons, Node.descend?_append]
    have houter := ih h.1
    rw [Trail.position] at houter
    rw [houter, Option.bind_some, Node.descend?, h.2]
    rfl

/-- In a proper tree, trails lead to proper nodes. -/
theorem IsTrail.isProper_nodeOn (hproper : fs.top.IsProper) (h : fs.IsTrail trail) :
    (fs.nodeOn trail).IsProper :=
  hproper.of_descend? h.descend?_position

/-! ## Whole paths -/

/-- A path that is not too long leads where its pieces lead. -/
theorem trail_eq_follow (hne : path ≠ "") (hzero : 0 ∉ path.bytes)
    (hsize : path.size ≤ maxPathSize) :
    fs.trail path = fs.follow maxLinks [] (fs.piecesFromTop path) := by
  have hempty : path.isEmpty = false := by
    rw [← Bool.not_eq_true, RawText.isEmpty_iff]
    exact hne
  simp [trail, hempty, hzero, Nat.not_lt.mpr hsize]

theorem trail_eq_ok_iff :
    fs.trail path = .ok found ↔
      path ≠ "" ∧ 0 ∉ path.bytes ∧ path.size ≤ maxPathSize ∧
        fs.follow maxLinks [] (fs.piecesFromTop path) = .ok found := by
  unfold trail
  split_ifs with hempty hzero hlong
  · simp [RawText.isEmpty_iff.mp hempty]
  · simp [hzero]
  · simp [Nat.not_le.mpr hlong]
  · have hne : path ≠ "" := fun h => hempty (RawText.isEmpty_iff.mpr h)
    simp [hne, hzero, Nat.not_lt.mp hlong]

theorem isTrail_of_trail_eq (h : fs.trail path = .ok found) : fs.IsTrail found := by
  have hfollow := (trail_eq_ok_iff.mp h).2.2.2
  exact @IsTrail.of_follow fs maxLinks [] found _ True.intro hfollow

/-- In a tree without links, a path that ends with a name leads to an entry of that name. -/
theorem getLast?_position_of_trail {piece : List UInt8}
    (hlinks : ∀ names target, fs.top.descend? names ≠ some (.symlink target))
    (hlast : (pathPieces path).getLast? = some piece) (hname : IsName piece)
    (h : fs.trail path = .ok found) :
    (Trail.position found).getLast? = some (⟨piece⟩) := by
  rcases List.getLast?_eq_some_iff.mp hlast with ⟨front, hfront⟩
  have hfollow := (trail_eq_ok_iff.mp h).2.2.2
  unfold piecesFromTop at hfollow
  rw [hfront, ← List.append_assoc] at hfollow
  rcases exists_of_follow_append hfollow with ⟨between, left, -, hbetween, hpiece⟩
  have htrail := @IsTrail.of_follow fs maxLinks [] between _ True.intro hbetween
  rcases follow_cons_eq_ok hpiece with ⟨-, ⟨hpadding, -⟩ | ⟨habove, -⟩ | ⟨-, hstep⟩⟩
  · exact absurd hpadding (not_or.mpr ⟨hname.1, hname.2.1⟩)
  · exact absurd habove hname.2.2
  · rcases hstep with ⟨child, -, -, hend⟩ | ⟨target, less, -, hchild, -⟩
    · rw [follow_nil, Except.ok.injEq] at hend
      simp [← hend, Trail.position]
    · refine absurd ?_ (hlinks (Trail.position between ++ [⟨piece⟩]) target)
      rw [Node.descend?_append, htrail.descend?_position, Option.bind_some, Node.descend?, hchild]
      rfl

end FileSystem
end AttributeScope
