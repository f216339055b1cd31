import AttributeScope.Project.Scan
import AttributeScope.Proofs.ChangedDiscovery
import AttributeScope.Proofs.ProjectPaths

/-!
# Files that cannot be read

A scan reports each file that is found once, as read or as unreadable, and what it amounts to only
depends on the files that were read.  So it makes no difference for a report whether files cannot
be read or are not there, unless the files say what is left out or which directory is the top of a
repository.

Main results:

- Theorem `AreFound.accountsFor_reportOf`: each file that is found is reported once.
- Theorem `sources_after`: files that cannot be read are no sources.
- Theorem `scan_contains_unreadable`: what a report says of files that cannot be read.
- Theorem `not_scan_contains_unreadable`: files that are reported alike, and files that mark the top
  of a repository.
-/

namespace AttributeScope

open FileSystem (Position Trail)

/-- What cannot be read as a directive file: it may not be opened or is too large. -/
def FileContent.IsUnreadable : FileContent → Prop
  | .bytes data => FileSystem.defaultSizeLimit < data.size
  | .locked _ => True

namespace Project

open Ignore (LeavesRules)

variable {fs : FileSystem} {root : RawText} {timestamp : String} {config : Config}
  {below : List RawText} {files : List (List RawText)} {trail : Trail} {chosen : Position → Bool}
  {contents : Position → FileContent}

/-! ## What a report says -/

/-- The text of a file that was found, if it can be read. -/
def textOf (fs : FileSystem) (root : RawText) (below : List RawText) : Option String :=
  (fs.readText FileSystem.defaultSizeLimit (pathOf root below)).toOption

/-- A file that was found as a report names it. -/
def reportedPath (root : RawText) (below : List RawText) : String :=
  Path.relativeTo root (pathOf root below)

/-- A file that no other one of some files is reported alike. -/
def IsReportedApart (root : RawText) (files : List (List RawText)) (below : List RawText) : Prop :=
  ∀ other ∈ files, reportedPath root other = reportedPath root below → other = below

/-- The files that can be read, with their texts. -/
def readableSources (fs : FileSystem) (root : RawText) (files : List (List RawText)) :
    List Source :=
  files.filterMap fun below =>
    (textOf fs root below).map fun text => ⟨reportedPath root below, text⟩

/-- A report accounts for the files that were found: each is reported once, as read or as
unreadable, in the order of discovery, and the rest is what those amount to that were read.  A file
is reported by its names, in which what is no UTF-8 is replaced, so that files may be reported
alike. -/
structure AccountsFor (fs : FileSystem) (root : RawText) (config : Config)
    (files : List (List RawText)) (report : Report) : Prop where
  files_eq : report.files =
    (files.filter fun below => (textOf fs root below).isSome).map (reportedPath root)
  unreadable_eq : report.unreadable =
    (files.filter fun below => (textOf fs root below).isNone).map (reportedPath root)
  reportedPath_eq : ∀ below ∈ files,
    reportedPath root below = "/".intercalate (below.map RawText.shown)
  mem_files_iff : ∀ below ∈ files, IsReportedApart root files below →
    (reportedPath root below ∈ report.files ↔ (textOf fs root below).isSome)
  mem_unreadable_iff : ∀ below ∈ files, IsReportedApart root files below →
    (reportedPath root below ∈ report.unreadable ↔ (textOf fs root below).isNone)
  reportedApart_of_isUtf8 : (∀ below ∈ files, ∀ name ∈ below, name.IsUtf8) →
    ∀ below ∈ files, IsReportedApart root files below
  outcome_eq :
    let outcome := Outcome.ofSources (.clamp config.scan.maxRecursiveSegments)
      (readableSources fs root files)
    report.stats = outcome.stats ∧ report.classification = outcome.classification ∧
      report.generated.expression = outcome.scopes.generated ∧
      report.nonGenerated.expression = outcome.scopes.nonGenerated

theorem source?_ofFile (fs : FileSystem) (root : RawText) (below : List RawText) :
    (Reading.ofFile fs root below).source? =
      (textOf fs root below).map fun text => ⟨reportedPath root below, text⟩ := by
  unfold Reading.source? Reading.ofFile textOf
  cases fs.readText FileSystem.defaultSizeLimit (pathOf root below) <;> rfl

theorem unreadable?_ofFile (fs : FileSystem) (root : RawText) (below : List RawText) :
    (Reading.ofFile fs root below).unreadable? =
      if (textOf fs root below).isNone then some (reportedPath root below) else none := by
  unfold Reading.unreadable? Reading.ofFile textOf
  cases fs.readText FileSystem.defaultSizeLimit (pathOf root below) <;> rfl

/-- The sources of a report are the files that can be read. -/
theorem sources_eq (fs : FileSystem) (root : RawText) (files : List (List RawText)) :
    (files.map (Reading.ofFile fs root)).filterMap Reading.source? =
      readableSources fs root files := by
  unfold readableSources
  rw [List.filterMap_map]
  exact List.filterMap_congr fun below _ => source?_ofFile fs root below

/-- The sources are reported in the order of discovery. -/
theorem map_path_readableSources (fs : FileSystem) (root : RawText)
    (files : List (List RawText)) :
    (readableSources fs root files).map Source.path =
      (files.filter fun below => (textOf fs root below).isSome).map (reportedPath root) := by
  induction files with
  | nil => rfl
  | cons below rest ih =>
    unfold readableSources at ih ⊢
    rw [List.filterMap_cons, List.filter_cons]
    cases textOf fs root below with
    | none => exact ih
    | some text => exact congrArg (reportedPath root below :: ·) ih

/-- All other files are reported as unreadable, in the order of discovery. -/
theorem filterMap_unreadable? (fs : FileSystem) (root : RawText) (files : List (List RawText)) :
    (files.map (Reading.ofFile fs root)).filterMap Reading.unreadable? =
      (files.filter fun below => (textOf fs root below).isNone).map (reportedPath root) := by
  induction files with
  | nil => rfl
  | cons below rest ih =>
    rw [List.map_cons, List.filterMap_cons, unreadable?_ofFile, List.filter_cons, ih]
    cases textOf fs root below <;> rfl

/-- Of files, those are reported that have a property, unless others are reported alike. -/
theorem IsReportedApart.mem_map_filter_iff {keep : List RawText → Bool}
    (h : IsReportedApart root files below) (hbelow : below ∈ files) :
    reportedPath root below ∈ (files.filter keep).map (reportedPath root) ↔ keep below = true := by
  constructor
  · intro hmem
    rcases List.mem_map.mp hmem with ⟨other, hother, heq⟩
    rcases List.mem_filter.mp hother with ⟨hother, hkeep⟩
    rwa [← h other hother heq]
  · exact fun hkeep => List.mem_map_of_mem (List.mem_filter.mpr ⟨hbelow, hkeep⟩)

/-- Files that are found are reported by the names that lead to them from the root. -/
def AreFound (root : RawText) (files : List (List RawText)) : Prop :=
  ∀ below ∈ files, root ≠ "" ∧ ∀ name ∈ below, IsEntryName name

/-- A file that was found is reported by its names as they are shown. -/
theorem AreFound.reportedPath_eq (h : AreFound root files) (hbelow : below ∈ files) :
    reportedPath root below = "/".intercalate (below.map RawText.shown) :=
  relativeTo_pathOf (h below hbelow).1 (h below hbelow).2

/-- Files whose names are UTF-8 are reported differently. -/
theorem AreFound.isReportedApart (h : AreFound root files)
    (hutf8 : ∀ below ∈ files, ∀ name ∈ below, name.IsUtf8) (hbelow : below ∈ files) :
    IsReportedApart root files below := by
  intro other hother heq
  rw [h.reportedPath_eq hbelow, h.reportedPath_eq hother,
    intercalate_shown_eq_iff (h other hother).2 (h below hbelow).2] at heq
  exact eq_of_map_shown_eq (hutf8 other hother) (hutf8 below hbelow) heq

/-- Each file that is found is reported once. -/
theorem AreFound.accountsFor_reportOf (h : AreFound root files) :
    AccountsFor fs root config files
      (reportOf config timestamp (files.map (Reading.ofFile fs root))) where
  files_eq := (congrArg (List.map Source.path) (sources_eq fs root files)).trans
    (map_path_readableSources fs root files)
  unreadable_eq := filterMap_unreadable? fs root files
  reportedPath_eq _ := h.reportedPath_eq
  mem_files_iff below hbelow hapart := by
    show _ ∈ List.map _ _ ↔ _
    rw [sources_eq, map_path_readableSources]
    exact hapart.mem_map_filter_iff hbelow
  mem_unreadable_iff below hbelow hapart := by
    show _ ∈ List.filterMap _ _ ↔ _
    rw [filterMap_unreadable?]
    exact hapart.mem_map_filter_iff hbelow
  reportedApart_of_isUtf8 hutf8 _ hbelow := h.isReportedApart hutf8 hbelow
  outcome_eq := by
    rw [← sources_eq]
    exact ⟨rfl, rfl, rfl, rfl⟩

/-! ## Files that cannot be read and files that are gone -/

/-- Positions of directive files, none of which says what is left out or which directory is the top
of a repository. -/
structure AreDirectiveFiles (fs : FileSystem) (config : Config) (chosen : Position → Bool) :
    Prop where
  named : ∀ position, chosen position = true →
    position.getLast? = some (.ofText config.scan.directiveFile)
  name_notMem : .ofText config.scan.directiveFile ∉ Ignore.Layer.names
  /-- No path with a name behind which rules are looked up leads to one of the files. -/
  notConsulted : ∀ base, ∀ name ∈ Ignore.consulted, ∀ trail,
    fs.trail (Path.join base name) = .ok trail → chosen (Trail.position trail) = false

/-- The names of files that say what is left out or which directory is the top of a repository. -/
def reservedNames : List RawText := Ignore.Layer.names ++ ["commondir", "exclude"]

theorem exists_reservedName : ∀ name ∈ Ignore.consulted, Path.isAbsolute name = false ∧
    ∃ last ∈ reservedNames,
      (name.bytes.splitOn RawText.slash).getLast? = some last.bytes ∧ IsEntryName last := by
  decide

/-- In a tree without links, files are directive files by their name alone. -/
theorem areDirectiveFiles_of_no_links
    (hlinks : ∀ names target, fs.top.descend? names ≠ some (.symlink target))
    (hnamed : ∀ position, chosen position = true →
      position.getLast? = some (.ofText config.scan.directiveFile))
    (hname : .ofText config.scan.directiveFile ∉ reservedNames) :
    AreDirectiveFiles fs config chosen where
  named := hnamed
  name_notMem hmem := hname (List.mem_append_left _ hmem)
  notConsulted base name hconsulted trail htrail := by
    rcases exists_reservedName name hconsulted with ⟨hrelative, last, hlast, hpiece, hentry⟩
    rw [← FileSystem.getLast?_pathPieces_join base hrelative] at hpiece
    have hend := FileSystem.getLast?_position_of_trail hlinks hpiece hentry.isName htrail
    rw [← Bool.not_eq_true]
    intro hchosen
    rw [hnamed _ hchosen, Option.some.injEq] at hend
    exact hname (hend ▸ hlast)

theorem AreDirectiveFiles.leavesRules_removing (h : AreDirectiveFiles fs config chosen)
    (hproper : fs.top.IsProper) : LeavesRules fs (.removing chosen) where
  same base name hname :=
    FileSystem.sight_after hproper (FileSystem.spares_removing (h.notConsulted base name hname))
  names position hchosen name hname hlast := by
    rw [h.named position hchosen] at hlast
    exact h.name_notMem (Option.some.inj hlast ▸ hname)

theorem AreDirectiveFiles.leavesRules_rewriting (h : AreDirectiveFiles fs config chosen)
    (hproper : fs.top.IsProper) : LeavesRules fs (.rewriting chosen contents) where
  same base name hname :=
    FileSystem.sight_after hproper (FileSystem.spares_rewriting (h.notConsulted base name hname))
  names _ hchosen := nomatch hchosen

/-- A file that cannot be read has no text. -/
theorem readText_of_isUnreadable {path : RawText} {content : FileContent}
    (hfind : fs.find path = .ok (.file content)) (h : content.IsUnreadable) :
    (fs.readText FileSystem.defaultSizeLimit path).toOption = none := by
  unfold FileSystem.readText FileSystem.readWithin FileSystem.findWithin
  rw [hfind]
  cases content with
  | locked size =>
    by_cases hsize :
        FileSystem.defaultSizeLimit < FileSystem.nodeSize (.file (.locked size)) <;>
      simp [hsize, Except.bind, Except.map, Except.toOption]
  | bytes data =>
    have hsize : FileSystem.defaultSizeLimit < FileSystem.nodeSize (.file (.bytes data)) := h
    simp only [hsize, if_true]
    rfl

theorem textOf_of_error {fault : LookupFault} (h : fs.trail (pathOf root below) = .error fault) :
    textOf fs root below = none := by
  unfold textOf FileSystem.readText FileSystem.readWithin FileSystem.findWithin FileSystem.find
  rw [h]
  rfl

/-- A file whose content has become unreadable has no text. -/
theorem textOf_rewriting (hproper : fs.top.IsProper)
    (hunreadable : ∀ position, (contents position).IsUnreadable) {content : FileContent}
    (hroot : fs.trail root = .ok trail) (hnames : ∀ name ∈ below, IsEntryName name)
    (hfile : (fs.nodeOn trail).descend? below = some (.file content))
    (hchosen : chosen (Trail.position trail ++ below) = true) :
    textOf (fs.after (.rewriting chosen contents)) root below = none := by
  cases hfound : fs.trail (pathOf root below) with
  | error fault =>
    rcases FileSystem.trail_after_of_error (.rewriting chosen contents) hproper hfound with
      ⟨other, hafter⟩
    exact textOf_of_error hafter
  | ok found =>
    rcases position_of_trail_pathOf hroot hnames hfile hfound with ⟨hposition, hnode⟩
    rcases FileSystem.trail_after_of_ok (.rewriting chosen contents) hproper hfound with
      ⟨⟨fault, hafter⟩, -⟩ | ⟨hafter, -⟩
    · exact textOf_of_error hafter
    · have hfind : (fs.after (.rewriting chosen contents)).find (pathOf root below) =
          .ok (.file (contents (Trail.position trail ++ below))) := by
        unfold FileSystem.find
        rw [hafter, Except.map, FileSystem.nodeOn_after, hnode, hposition, Node.after]
        simp [FileChange.rewriting, hchosen]
      exact readText_of_isUnreadable hfind (hunreadable _)

/-- A file that does not change has the text it had. -/
theorem textOf_after {change : FileChange} (hproper : fs.top.IsProper)
    (hspares : fs.Spares change (pathOf root below)) :
    textOf (fs.after change) root below = textOf fs root below :=
  FileSystem.readText_of_sight_eq (FileSystem.sight_after hproper hspares)

/-! ## Scans -/

theorem configuredFiles_eq_ok_iff :
    configuredFiles fs root config = .ok files ↔
      ∃ rules, Ignore.excludeRules config.scan.exclude = .ok rules ∧
        files = Order.sortBy inOrder (filesAt fs root config.scan.directiveFile rules) := by
  unfold configuredFiles directiveFiles directiveFilesBy
  cases Ignore.excludeRules config.scan.exclude with
  | error failure => simp [Except.map]
  | ok rules =>
    simp only [Except.map, Except.ok.injEq, exists_eq_left']
    exact eq_comm

theorem areFound_of_configuredFiles (hproper : fs.top.IsProper)
    (h : configuredFiles fs root config = .ok files) : AreFound root files := by
  rcases configuredFiles_eq_ok_iff.mp h with ⟨rules, -, rfl⟩
  intro below hbelow
  rw [(Order.sortBy_perm inOrder _).mem_iff] at hbelow
  rcases exists_descend?_of_mem_filesAt hproper hbelow with ⟨trail, content, hroot, -, hnames⟩
  exact ⟨(FileSystem.trail_eq_ok_iff.mp hroot).1, hnames⟩

/-- Files whose content changes are found as before. -/
theorem configuredFiles_rewriting (hproper : fs.top.IsProper)
    (hchosen : AreDirectiveFiles fs config chosen)
    (h : configuredFiles fs root config = .ok files) :
    configuredFiles (fs.after (.rewriting chosen contents)) root config = .ok files := by
  rcases configuredFiles_eq_ok_iff.mp h with ⟨rules, hrules, rfl⟩
  refine configuredFiles_eq_ok_iff.mpr ⟨rules, hrules, congrArg (Order.sortBy inOrder) ?_⟩
  cases hroot : fs.trail root with
  | error fault =>
    rcases FileSystem.trail_after_of_error (.rewriting chosen contents) hproper hroot with
      ⟨other, hafter⟩
    rw [filesAt_of_error hroot, filesAt_of_error hafter]
  | ok trail =>
    rw [filesAt_after hproper (hchosen.leavesRules_rewriting hproper) (fun _ hgone => nomatch hgone)
      hroot]
    exact (List.filter_eq_self.mpr fun _ _ => rfl).symm

/-- Files that are gone are no longer found. -/
theorem configuredFiles_removing (hproper : fs.top.IsProper)
    (hchosen : AreDirectiveFiles fs config chosen) (hroot : fs.trail root = .ok trail)
    (h : configuredFiles fs root config = .ok files) :
    configuredFiles (fs.after (.removing chosen)) root config =
      .ok (files.filter fun below => !chosen (Trail.position trail ++ below)) := by
  rcases configuredFiles_eq_ok_iff.mp h with ⟨rules, hrules, rfl⟩
  refine configuredFiles_eq_ok_iff.mpr ⟨rules, hrules, ?_⟩
  rw [filesAt_after hproper (hchosen.leavesRules_removing hproper) hchosen.named hroot,
    Order.filter_sortBy inOrder_trans inOrder_total]
  rfl

/-- A file is as readable as it was unless it is one of those that change. -/
theorem textOf_of_not_chosen {content : FileContent} (hproper : fs.top.IsProper)
    (hroot : fs.trail root = .ok trail) (hnames : ∀ name ∈ below, IsEntryName name)
    (hfile : (fs.nodeOn trail).descend? below = some (.file content))
    (hkept : chosen (Trail.position trail ++ below) = false) :
    textOf (fs.after (.rewriting chosen contents)) root below =
      textOf (fs.after (.removing chosen)) root below := by
  have hposition : ∀ found, fs.trail (pathOf root below) = .ok found →
      chosen (Trail.position found) = false := by
    intro found hfound
    rw [(position_of_trail_pathOf hroot hnames hfile hfound).1]
    exact hkept
  rw [textOf_after hproper (FileSystem.spares_rewriting hposition),
    textOf_after hproper (FileSystem.spares_removing hposition)]

/-- Files that cannot be read are no sources, as if they were gone. -/
theorem sources_after (hproper : fs.top.IsProper) (hroot : fs.trail root = .ok trail)
    (hunreadable : ∀ position, (contents position).IsUnreadable)
    (h : configuredFiles fs root config = .ok files) :
    (files.map (Reading.ofFile (fs.after (.rewriting chosen contents)) root)).filterMap
        Reading.source? =
      ((files.filter fun below => !chosen (Trail.position trail ++ below)).map
        (Reading.ofFile (fs.after (.removing chosen)) root)).filterMap Reading.source? := by
  rcases configuredFiles_eq_ok_iff.mp h with ⟨rules, -, rfl⟩
  rw [List.filterMap_map, List.filterMap_map, List.filterMap_filter]
  refine List.filterMap_congr fun below hbelow => ?_
  rw [(Order.sortBy_perm inOrder _).mem_iff] at hbelow
  rcases exists_descend?_of_mem_filesAt hproper hbelow with
    ⟨other, content, hother, hfile, hnames⟩
  obtain rfl : trail = other := Except.ok.inj (hroot.symm.trans hother)
  rw [Function.comp_apply, Function.comp_apply, source?_ofFile, source?_ofFile]
  cases hkept : chosen (Trail.position trail ++ below) with
  | true => rw [textOf_rewriting hproper hunreadable hroot hnames hfile hkept]; rfl
  | false => rw [textOf_of_not_chosen hproper hroot hnames hfile hkept]; rfl

/-- What is read if files cannot be read is what is read if they are gone. -/
theorem exists_configuredFiles_removing (hproper : fs.top.IsProper)
    (hchosen : AreDirectiveFiles fs config chosen)
    (hunreadable : ∀ position, (contents position).IsUnreadable)
    (h : configuredFiles fs root config = .ok files) :
    ∃ left, configuredFiles (fs.after (.removing chosen)) root config = .ok left ∧
      (files.map (Reading.ofFile (fs.after (.rewriting chosen contents)) root)).filterMap
          Reading.source? =
        (left.map (Reading.ofFile (fs.after (.removing chosen)) root)).filterMap
          Reading.source? := by
  cases hroot : fs.trail root with
  | ok trail =>
    exact ⟨_, configuredFiles_removing hproper hchosen hroot h,
      sources_after hproper hroot hunreadable h⟩
  | error fault =>
    rcases configuredFiles_eq_ok_iff.mp h with ⟨rules, hrules, rfl⟩
    rcases FileSystem.trail_after_of_error (.removing chosen) hproper hroot with ⟨other, hafter⟩
    have hnone : Order.sortBy inOrder [] = [] := rfl
    refine ⟨[], configuredFiles_eq_ok_iff.mpr ⟨rules, hrules, ?_⟩, ?_⟩
    · rw [filesAt_of_error hafter, hnone]
    · rw [filesAt_of_error hroot, hnone, List.map_nil, List.map_nil]

/-- Reports about the same sources are the same but for the unreadable files and the time. -/
theorem reportOf_congr {later : String} {readings others : List Reading}
    (h : readings.filterMap Reading.source? = others.filterMap Reading.source?) :
    { reportOf config timestamp readings with
      unreadable := (reportOf config later others).unreadable
      timestamp := later } = reportOf config later others := by
  simp only [reportOf, h]

/-- A report accounts for all files that are found, and it makes no difference whether some of them
cannot be read or are not there. -/
theorem scan_contains_unreadable (hproper : fs.top.IsProper)
    (hfiles : configuredFiles fs root config = .ok files) :
    (∃ report, scan fs root config timestamp = .ok report ∧
      AccountsFor fs root config files report) ∧
    ∀ chosen contents later, AreDirectiveFiles fs config chosen →
      (∀ position, (contents position).IsUnreadable) →
        ∃ locked removed,
          scan (fs.after (.rewriting chosen contents)) root config timestamp = .ok locked ∧
          scan (fs.after (.removing chosen)) root config later = .ok removed ∧
          { locked with unreadable := removed.unreadable, timestamp := removed.timestamp } =
            removed := by
  constructor
  · refine ⟨_, by rw [scan, hfiles]; rfl, ?_⟩
    exact (areFound_of_configuredFiles hproper hfiles).accountsFor_reportOf
  · intro chosen contents later hchosen hunreadable
    have hlocked : scan (fs.after (.rewriting chosen contents)) root config timestamp =
        .ok (reportOf config timestamp
          (files.map (Reading.ofFile (fs.after (.rewriting chosen contents)) root))) := by
      rw [scan, configuredFiles_rewriting hproper hchosen hfiles]
      rfl
    rcases exists_configuredFiles_removing hproper hchosen hunreadable hfiles with
      ⟨left, hleft, hsources⟩
    refine ⟨_, _, hlocked, by rw [scan, hleft]; rfl, ?_⟩
    exact reportOf_congr hsources

/-- A project with two directive files, one of which is in a directory. -/
def twoFilesTree : FileSystem :=
  { top := .directory
      [("a", .directory [(".gitattributes", .file "x linguist-generated\n".toUTF8.data)]),
        (".gitattributes", .file "y linguist-generated\n".toUTF8.data)] }

theorem scan_contains_unreadable_inner :
    (∃ report, scan twoFilesTree "/" {} "now" = .ok report ∧
      AccountsFor twoFilesTree "/" {} [[".gitattributes"], ["a", ".gitattributes"]] report) ∧
    ∃ locked removed,
      scan (twoFilesTree.after
        (.rewriting (· == ["a", ".gitattributes"]) fun _ => .locked 21)) "/" {} "now" = .ok locked ∧
      scan (twoFilesTree.after (.removing (· == ["a", ".gitattributes"]))) "/" {} "later" =
        .ok removed ∧
      { locked with unreadable := removed.unreadable, timestamp := removed.timestamp } =
        removed := by
  have hfiles : configuredFiles twoFilesTree "/" {} =
      .ok [[".gitattributes"], ["a", ".gitattributes"]] := by decide +kernel
  have hlinks : ∀ entry ∈ twoFilesTree.top.nodes, entry.2.isFile || entry.2.isDirectory := by
    decide +kernel
  have hchosen : AreDirectiveFiles twoFilesTree {} (· == ["a", ".gitattributes"]) := by
    refine areDirectiveFiles_of_no_links (fun names target hlink => ?_) (fun position h => ?_)
      (by decide +kernel)
    · exact nomatch hlinks _ (Node.mem_nodes_of_descend? hlink)
    · rw [eq_of_beq h]
      rfl
  have hproper : twoFilesTree.top.IsProper := by decide +kernel
  exact ⟨(scan_contains_unreadable hproper hfiles).1,
    (scan_contains_unreadable hproper hfiles).2 _ _ _ hchosen fun _ => True.intro⟩

/-- A project with two directories whose names are not UTF-8. -/
def alikeTree : FileSystem :=
  { top := .directory
      [(⟨[0x61, 0xFE]⟩, .directory [(".gitattributes", .file (.locked 0))]),
        (⟨[0x61, 0xFF]⟩, .directory [(".gitattributes", .file (#[] : Array UInt8))])] }

/-- A project whose directive files are named like the mark of a repository. -/
def markerTree : FileSystem :=
  { top := .directory
      [(".gitignore", .file "x/\n".toUTF8.data), (".jj", .file (#[] : Array UInt8)),
        ("x", .directory [(".jj", .file "a linguist-generated\n".toUTF8.data)])] }

/-- A project with a link to a directive file that is named like the mark of a repository. -/
def linkedMarkerTree : FileSystem :=
  { top := .directory
      [(".gitignore", .file "x/\n".toUTF8.data), (".jj", .symlink "d"),
        ("d", .file (#[] : Array UInt8)),
        ("x", .directory [("d", .file "a linguist-generated\n".toUTF8.data)])] }

/-- Settings with a name for directive files. -/
def configFor (directiveFile : String) : Config := { scan := { directiveFile } }

/-- The files that a scan reports, as read and as unreadable. -/
def listed (result : Except Failure Report) : Except Failure (List String × List String) :=
  result.map fun report => (report.files, report.unreadable)

/-- Different files can be reported alike, the one as read and the other as unreadable.  And it
makes a difference if a directive file is gone that marks the top of a repository, by its own name
or by a link: the `.gitignore` beside it does not count any more, and another directive file is
found. -/
theorem not_scan_contains_unreadable :
    listed (scan alikeTree "/" {} "now") =
        .ok (["a\uFFFD/.gitattributes"], ["a\uFFFD/.gitattributes"]) ∧
      (listed (scan (markerTree.after (.rewriting (· == [".jj"]) fun _ => .locked 0)) "/"
          (configFor ".jj") "now") = .ok ([], [".jj"]) ∧
        listed (scan (markerTree.after (.removing (· == [".jj"]))) "/" (configFor ".jj") "now") =
          .ok (["x/.jj"], [])) ∧
      listed (scan (linkedMarkerTree.after (.rewriting (· == ["d"]) fun _ => .locked 0)) "/"
          (configFor "d") "now") = .ok ([], ["d"]) ∧
        listed (scan (linkedMarkerTree.after (.removing (· == ["d"]))) "/" (configFor "d") "now") =
          .ok (["x/d"], []) := by
  decide +kernel

end Project
end AttributeScope
