import AttributeScope.CommandLine.Session
import AttributeScope.Proofs.ChangedFiles
import AttributeScope.Proofs.CompleteReports

/-!
# How scans end

A scan writes one whole report or nothing.  It writes nothing if something is wrong with it; which
of the things that are wrong decides how it ends does not depend on the directive files, so
neither does the exit code.  Settings that are given explicitly are missing if they are not found
under their path, for whatever reason.

Main results:

- Theorem `Decides.unique`: one fault decides how a scan ends.
- Theorem `endsProperly_runScan`: a scan ends by the first of its faults or with a report.
- Theorem `exitCode_runScan_after`: files that are not the settings make no difference.
- Theorem `run_all_or_nothing`: both for the whole program.
- Theorem `not_run_all_or_nothing`: settings that are there and count as missing.
-/

namespace AttributeScope

open FileSystem (Position Trail)

namespace CommandLine

/-- What can be wrong with a scan. -/
inductive ScanFault where
  /-- Colors are wanted and not wanted. -/
  | colors
  /-- It cannot be told where the current directory is. -/
  | noCurrentDirectory (fault : LookupFault)
  | noDirectory (root : RawText)
  /-- The given file with the settings is not found under its path. -/
  | missingConfig (path : RawText)
  | unreadableConfig (path : RawText) (fault : LookupFault)
  | invalidConfig (fault : ConfigFault)
  /-- The exclude patterns cannot be used, so that the project cannot be walked. -/
  | unusableExcludes (message : String)
deriving DecidableEq, Repr

namespace ScanFault

/-- The place of a fault in the order of precedence.  A file with settings that is missing cannot be
read either, so the order makes a difference for the exit code. -/
def rank : ScanFault → Nat
  | colors => 0
  | noCurrentDirectory _ => 1
  | noDirectory _ => 2
  | missingConfig _ => 3
  | unreadableConfig _ _ => 4
  | invalidConfig _ => 5
  | unusableExcludes _ => 6

/-- The exit code that a fault leads to. -/
def exitCode : ScanFault → ExitCode
  | colors | noDirectory _ | missingConfig _ | invalidConfig _ => .usage
  | noCurrentDirectory _ | unreadableConfig _ _ | unusableExcludes _ => .internal

/-- What is written about a fault. -/
def message : ScanFault → String
  | colors => "--color and --no-color cannot be used together\n"
  | noCurrentDirectory fault => s!"{programName}: {fault.message}\n"
  | noDirectory root => line (.argument s!"not a directory: {root}")
  | missingConfig path => line (.config s!"config file not found: {path}")
  | unreadableConfig path fault => line (.io path fault.message)
  | invalidConfig fault => line (.config fault.message)
  | unusableExcludes message => line (.walk message)
where
  /-- The line that tells a failure. -/
  line (failure : Failure) : String := s!"{programName}: {failure.message}\n"

/-- A scan that ends by a fault, after warnings. -/
def transcript (warnings : List String) (fault : ScanFault) : Transcript where
  exitCode := fault.exitCode
  output := ""
  messages := String.join (warnings.map (· ++ "\n")) ++ fault.message

end ScanFault

variable {surroundings : Surroundings} {config : Option RawText} {request : ScanRequest}
  {fault : ScanFault} {path root : RawText} {chosen : Position → Bool}
  {contents : Position → FileContent}

/-- The root of a scan: the path that is asked for, as it is seen from the current directory unless
it is absolute. -/
def IsRoot (surroundings : Surroundings) (request : ScanRequest) (root : RawText) : Prop :=
  (∃ path : String, request.path = some path ∧ root = .ofText path ∧ Path.isAbsolute root = true) ∨
    ∃ here, currentDirectory surroundings = .ok here ∧ root = rootOf here request

/-- The file with the settings of a scan: the one that is given, or the one that is found. -/
def UsesConfig (fs : FileSystem) (config : Option RawText) (root path : RawText) : Prop :=
  config = some path ∨ config = none ∧ Config.find? fs root = some path

/-- What is wrong with a scan, whatever else is wrong with it. -/
inductive Occurs (surroundings : Surroundings) (config : Option RawText) (request : ScanRequest) :
    ScanFault → Prop
  | colors (hcolor : request.color = true) (hnoColor : request.noColor = true) :
    Occurs surroundings config request .colors
  | noCurrentDirectory {fault : LookupFault} (h : currentDirectory surroundings = .error fault) :
    Occurs surroundings config request (.noCurrentDirectory fault)
  | noDirectory {root : RawText} (hroot : IsRoot surroundings request root)
    (h : surroundings.fs.isDirectory root = false) :
    Occurs surroundings config request (.noDirectory root)
  | missingConfig {path : RawText} (hgiven : config = some path)
    (h : surroundings.fs.exists? path = false) :
    Occurs surroundings config request (.missingConfig path)
  | unreadableConfig {root path : RawText} {fault : LookupFault}
    (hroot : IsRoot surroundings request root)
    (huses : UsesConfig surroundings.fs config root path)
    (h : surroundings.fs.readString path = .error fault) :
    Occurs surroundings config request (.unreadableConfig path fault)
  | invalidConfig {root path : RawText} {text : String} {fault : ConfigFault}
    (hroot : IsRoot surroundings request root)
    (huses : UsesConfig surroundings.fs config root path)
    (htext : surroundings.fs.readString path = .ok text)
    (h : Config.ofText text = .error fault) :
    Occurs surroundings config request (.invalidConfig fault)
  | unusableExcludes {root : RawText} {found : Config} {warnings : List String} {message : String}
    (hroot : IsRoot surroundings request root)
    (hfound : settings surroundings config root = .ok (found, warnings))
    (h : Ignore.excludeRules found.scan.exclude = .error (.walk message)) :
    Occurs surroundings config request (.unusableExcludes message)

/-- All faults of a scan have a rank from some one on. -/
def FaultsFrom (surroundings : Surroundings) (config : Option RawText) (request : ScanRequest)
    (rank : Nat) : Prop :=
  ∀ fault, Occurs surroundings config request fault → rank ≤ fault.rank

/-- The first of the faults of a scan. -/
def Decides (surroundings : Surroundings) (config : Option RawText) (request : ScanRequest)
    (fault : ScanFault) : Prop :=
  Occurs surroundings config request fault ∧ FaultsFrom surroundings config request fault.rank

/-- A scan ends with one whole report if nothing is wrong with it, and otherwise writes nothing and
ends by the first of its faults. -/
structure EndsProperly (surroundings : Surroundings) (config : Option RawText)
    (request : ScanRequest) (transcript : Transcript) : Prop where
  all_or_nothing :
    (transcript.exitCode.toNat = 0 ∧ transcript.output ≠ "" ∧ ∃ root found warnings report,
        IsRoot surroundings request root ∧
        settings surroundings config root = .ok (found, warnings) ∧
        Project.scan surroundings.fs root (withLimit request found) surroundings.timestamp =
          .ok report ∧
        report.IsComplete (isColored surroundings request) transcript.output request.output) ∨
      (transcript.exitCode.toNat = 2 ∨ transcript.exitCode.toNat = 3) ∧ transcript.output = ""
  success_iff :
    transcript.exitCode = .success ↔ ∀ fault, ¬ Occurs surroundings config request fault
  exists_decides :
    transcript.exitCode ≠ .success → ∃ fault, Decides surroundings config request fault
  decided : ∀ fault, Decides surroundings config request fault →
    transcript.exitCode = fault.exitCode ∧
      ∃ warnings, transcript.messages = warnings ++ fault.message

/-! ## One fault decides -/

/-- Every fault ends a scan with one of two codes. -/
theorem ScanFault.exitCode_toNat (fault : ScanFault) :
    fault.exitCode.toNat = 2 ∨ fault.exitCode.toNat = 3 := by
  cases fault <;> simp [ScanFault.exitCode, ExitCode.toNat]

/-- A scan has one file of settings at most. -/
theorem UsesConfig.unique {fs : FileSystem} {other : RawText} (h : UsesConfig fs config root path)
    (hother : UsesConfig fs config root other) : path = other := by
  rcases h with rfl | ⟨rfl, hfind⟩
  · rcases hother with heq | ⟨heq, -⟩
    · exact Option.some.inj heq
    · cases heq
  · rcases hother with heq | ⟨-, hfound⟩
    · cases heq
    · exact Option.some.inj (hfind.symm.trans hfound)

/-- A scan has one root. -/
theorem IsRoot.unique {other : RawText} (h : IsRoot surroundings request root)
    (hother : IsRoot surroundings request other) : root = other := by
  have habsolute : ∀ {path : String} {here : RawText}, request.path = some path →
      Path.isAbsolute (.ofText path) = true → rootOf here request = .ofText path := by
    intro path here hpath hpathAbsolute
    simp [rootOf, hpath, Path.join, hpathAbsolute]
  rcases h with ⟨path, hpath, rfl, hleading⟩ | ⟨here, hhere, rfl⟩
  · rcases hother with ⟨path', hpath', rfl, -⟩ | ⟨here, -, rfl⟩
    · rw [Option.some.inj (hpath.symm.trans hpath')]
    · exact (habsolute hpath hleading).symm
  · rcases hother with ⟨path, hpath, rfl, hleading⟩ | ⟨here', hhere', rfl⟩
    · exact habsolute hpath hleading
    · rw [Except.ok.inj (hhere.symm.trans hhere')]

/-- There is one fault of each rank at most. -/
theorem Occurs.eq_of_rank_eq {other : ScanFault} (h : Occurs surroundings config request fault)
    (hother : Occurs surroundings config request other) (hrank : fault.rank = other.rank) :
    fault = other := by
  cases h with
  | colors => cases hother <;> first | rfl | cases hrank
  | noCurrentDirectory hhere =>
    cases hother with
    | noCurrentDirectory hhere' =>
      exact congrArg ScanFault.noCurrentDirectory (Except.error.inj (hhere.symm.trans hhere'))
    | _ => cases hrank
  | noDirectory hroot =>
    cases hother with
    | noDirectory hroot' => exact congrArg ScanFault.noDirectory (hroot.unique hroot')
    | _ => cases hrank
  | missingConfig hgiven =>
    cases hother with
    | missingConfig hgiven' =>
      exact congrArg ScanFault.missingConfig (Option.some.inj (hgiven.symm.trans hgiven'))
    | _ => cases hrank
  | unreadableConfig hroot huses hread =>
    cases hother with
    | unreadableConfig hroot' huses' hread' =>
      obtain rfl := hroot.unique hroot'
      obtain rfl := huses.unique huses'
      obtain rfl := Except.error.inj (hread.symm.trans hread')
      rfl
    | _ => cases hrank
  | invalidConfig hroot huses htext hinvalid =>
    cases hother with
    | invalidConfig hroot' huses' htext' hinvalid' =>
      obtain rfl := hroot.unique hroot'
      obtain rfl := huses.unique huses'
      obtain rfl := Except.ok.inj (htext.symm.trans htext')
      exact congrArg ScanFault.invalidConfig (Except.error.inj (hinvalid.symm.trans hinvalid'))
    | _ => cases hrank
  | unusableExcludes hroot hfound hexcludes =>
    cases hother with
    | unusableExcludes hroot' hfound' hexcludes' =>
      obtain rfl := hroot.unique hroot'
      obtain ⟨rfl, -⟩ := Prod.mk.inj (Except.ok.inj (hfound.symm.trans hfound'))
      obtain rfl := Failure.walk.inj (Except.error.inj (hexcludes.symm.trans hexcludes'))
      rfl
    | _ => cases hrank

/-- One fault decides how a scan ends. -/
theorem Decides.unique {other : ScanFault} (h : Decides surroundings config request fault)
    (hother : Decides surroundings config request other) : fault = other :=
  h.1.eq_of_rank_eq hother.1 (Nat.le_antisymm (h.2 other hother.1) (hother.2 fault h.1))

/-! ## The settings of a scan -/

/-- All ways in which settings can be looked for. -/
theorem locate_cases (fs : FileSystem) (config : Option RawText) (root : RawText) :
    (∃ path, config = some path ∧ fs.exists? path = false ∧
        Config.locate fs config root = .error (.config s!"config file not found: {path}")) ∨
      (∃ path, UsesConfig fs config root path ∧ fs.exists? path = true ∧
        Config.locate fs config root = .ok (some path)) ∨
      (∀ path, ¬ UsesConfig fs config root path) ∧ Config.locate fs config root = .ok none := by
  cases config with
  | some path =>
    cases hexists : fs.exists? path with
    | false => exact .inl ⟨path, rfl, hexists, by simp [Config.locate, hexists]⟩
    | true => exact .inr (.inl ⟨path, .inl rfl, hexists, by simp [Config.locate, hexists]⟩)
  | none =>
    cases hfind : Config.find? fs root with
    | none =>
      refine .inr (.inr ⟨?_, congrArg Except.ok hfind⟩)
      rintro path (heq | ⟨-, heq⟩)
      · cases heq
      · cases hfind.symm.trans heq
    | some path =>
      rcases Config.findAmong_eq_some hfind with ⟨_, _, _, -, -, hexists, -⟩
      exact .inr (.inl ⟨path, .inr ⟨rfl, hfind⟩, hexists, congrArg Except.ok hfind⟩)

/-- All ways in which settings can be read. -/
theorem settings_cases (surroundings : Surroundings) (config : Option RawText) (root : RawText) :
    (∃ path, config = some path ∧ surroundings.fs.exists? path = false ∧
        settings surroundings config root = .error (.config s!"config file not found: {path}")) ∨
      (∀ path, config = some path → surroundings.fs.exists? path = true) ∧
        ((∃ path fault, UsesConfig surroundings.fs config root path ∧
            surroundings.fs.readString path = .error fault ∧
            settings surroundings config root = .error (.io path fault.message)) ∨
          (∃ path text fault, UsesConfig surroundings.fs config root path ∧
            surroundings.fs.readString path = .ok text ∧ Config.ofText text = .error fault ∧
            settings surroundings config root = .error (.config fault.message)) ∨
          ∃ found warnings, settings surroundings config root = .ok (found, warnings) ∧
            ∀ path, UsesConfig surroundings.fs config root path →
              ∃ text, surroundings.fs.readString path = .ok text ∧
                Config.ofText text = .ok found) := by
  rcases locate_cases surroundings.fs config root with
    ⟨path, hgiven, hexists, hlocate⟩ | ⟨path, huses, hexists, hlocate⟩ | ⟨hnone, hlocate⟩
  · exact .inl ⟨path, hgiven, hexists, by simp [settings, hlocate]⟩
  · have hgiven : ∀ given, config = some given → surroundings.fs.exists? given = true := by
      intro given hgiven
      rwa [← huses.unique (.inl hgiven)]
    refine .inr ⟨hgiven, ?_⟩
    cases hread : surroundings.fs.readString path with
    | error fault =>
      refine .inl ⟨path, fault, huses, hread, ?_⟩
      simp [settings, hlocate, Config.load, hread, Except.map]
    | ok text =>
      cases htext : Config.ofText text with
      | error fault =>
        refine .inr (.inl ⟨path, text, fault, huses, hread, htext, ?_⟩)
        simp [settings, hlocate, Config.load, hread, htext, Except.map]
      | ok found =>
        refine .inr (.inr ⟨found, Config.loadWarnings surroundings.fs path, ?_, ?_⟩)
        · simp [settings, hlocate, Config.load, hread, htext, Except.map]
        · intro other hother
          obtain rfl := huses.unique hother
          exact ⟨text, hread, htext⟩
  · refine .inr ⟨fun given hgiven => absurd (.inl hgiven) (hnone given), .inr (.inr ?_)⟩
    refine ⟨{}, [], ?_, fun path huses => absurd huses (hnone path)⟩
    simp [settings, hlocate]

/-! ## How a scan ends -/

/-- If there is no fault of the first rank that faults may have, they are of later ranks. -/
theorem FaultsFrom.succ {rank : Nat} (h : FaultsFrom surroundings config request rank)
    (hnone : ∀ fault, Occurs surroundings config request fault → fault.rank ≠ rank) :
    FaultsFrom surroundings config request (rank + 1) := by
  intro fault hoccurs
  exact Nat.lt_of_le_of_ne (h fault hoccurs) (hnone fault hoccurs).symm

theorem FaultsFrom.past_colors (h : FaultsFrom surroundings config request 0)
    (hcolors : (request.color && request.noColor) = false) :
    FaultsFrom surroundings config request 1 := by
  refine h.succ fun fault hoccurs => ?_
  cases hoccurs with
  | colors hcolor hnoColor => simp [hcolor, hnoColor] at hcolors
  | _ => exact nofun

theorem FaultsFrom.past_noCurrentDirectory {here : RawText}
    (h : FaultsFrom surroundings config request 1)
    (hhere : currentDirectory surroundings = .ok here) :
    FaultsFrom surroundings config request 2 := by
  refine h.succ fun fault hoccurs => ?_
  cases hoccurs with
  | noCurrentDirectory hfault => cases hhere.symm.trans hfault
  | _ => exact nofun

section Root

variable (hroot : IsRoot surroundings request root)
include hroot

theorem FaultsFrom.past_noDirectory (h : FaultsFrom surroundings config request 2)
    (hdirectory : surroundings.fs.isDirectory root = true) :
    FaultsFrom surroundings config request 3 := by
  refine h.succ fun fault hoccurs => ?_
  cases hoccurs with
  | noDirectory hroot' hnot =>
    obtain rfl := hroot.unique hroot'
    cases hdirectory.symm.trans hnot
  | _ => exact nofun

omit hroot in
theorem FaultsFrom.past_missingConfig (h : FaultsFrom surroundings config request 3)
    (hexists : ∀ path, config = some path → surroundings.fs.exists? path = true) :
    FaultsFrom surroundings config request 4 := by
  refine h.succ fun fault hoccurs => ?_
  cases hoccurs with
  | missingConfig hgiven hmissing => cases (hexists _ hgiven).symm.trans hmissing
  | _ => exact nofun

theorem FaultsFrom.past_unreadableConfig (h : FaultsFrom surroundings config request 4)
    (hread : ∀ path, UsesConfig surroundings.fs config root path →
      ∃ text, surroundings.fs.readString path = .ok text) :
    FaultsFrom surroundings config request 5 := by
  refine h.succ fun fault hoccurs => ?_
  cases hoccurs with
  | unreadableConfig hroot' huses hfault =>
    obtain rfl := hroot.unique hroot'
    rcases hread _ huses with ⟨text, htext⟩
    cases htext.symm.trans hfault
  | _ => exact nofun

theorem FaultsFrom.past_invalidConfig {found : Config}
    (h : FaultsFrom surroundings config request 5)
    (hread : ∀ path, UsesConfig surroundings.fs config root path →
      ∃ text, surroundings.fs.readString path = .ok text ∧ Config.ofText text = .ok found) :
    FaultsFrom surroundings config request 6 := by
  refine h.succ fun fault hoccurs => ?_
  cases hoccurs with
  | invalidConfig hroot' huses htext hfault =>
    obtain rfl := hroot.unique hroot'
    rcases hread _ huses with ⟨text, htext', hfound⟩
    obtain rfl := Except.ok.inj (htext.symm.trans htext')
    cases hfound.symm.trans hfault
  | _ => exact nofun

theorem FaultsFrom.not_occurs {found : Config} {warnings : List String} {rules : List Ignore.Rule}
    (h : FaultsFrom surroundings config request 6)
    (hfound : settings surroundings config root = .ok (found, warnings))
    (hexcludes : Ignore.excludeRules found.scan.exclude = .ok rules) (fault : ScanFault) :
    ¬ Occurs surroundings config request fault := by
  intro hoccurs
  have hrank : 6 ≤ fault.rank := h fault hoccurs
  cases hoccurs with
  | unusableExcludes hroot' hfound' hexcludes' =>
    obtain rfl := hroot.unique hroot'
    obtain ⟨rfl, -⟩ := Prod.mk.inj (Except.ok.inj (hfound.symm.trans hfound'))
    cases hexcludes.symm.trans hexcludes'
  | _ => simp [ScanFault.rank] at hrank

end Root

/-- A scan ends by the first of its faults, or with the report of a scan that has none. -/
def EndsByFaultOrReport (surroundings : Surroundings) (config : Option RawText)
    (request : ScanRequest) (transcript : Transcript) : Prop :=
  (∃ fault warnings, Decides surroundings config request fault ∧
      transcript = fault.transcript warnings) ∨
    (∀ fault, ¬ Occurs surroundings config request fault) ∧ ∃ root found warnings report,
      IsRoot surroundings request root ∧
      settings surroundings config root = .ok (found, warnings) ∧
      Project.scan surroundings.fs root (withLimit request found) surroundings.timestamp =
        .ok report ∧
      transcript = .answered warnings (writeReport surroundings request report)

/-- A limit on recursive segments changes nothing about what is left out. -/
theorem exclude_withLimit (request : ScanRequest) (found : Config) :
    (withLimit request found).scan.exclude = found.scan.exclude := by
  unfold withLimit
  split <;> rfl

section Root

variable (hroot : IsRoot surroundings request root)
include hroot

/-- A scan with settings that can be used can only end by a fault of its exclude patterns, or with
a report. -/
theorem endsByFaultOrReport_of_settings {found : Config} {warnings : List String}
    (hfaults : FaultsFrom surroundings config request 6)
    (hfound : settings surroundings config root = .ok (found, warnings)) :
    EndsByFaultOrReport surroundings config request
      (scanRoot surroundings config request root) := by
  unfold scanRoot
  simp only [hfound]
  cases hexcludes : Ignore.excludeRules found.scan.exclude with
  | error failure =>
    obtain ⟨message, rfl⟩ := Ignore.exists_walk_of_excludeRules hexcludes
    have hdecides : Decides surroundings config request (.unusableExcludes message) :=
      ⟨.unusableExcludes hroot hfound hexcludes, hfaults⟩
    have hscan : Project.scan surroundings.fs root (withLimit request found)
        surroundings.timestamp = .error (.walk message) := by
      unfold Project.scan Project.configuredFiles Project.directiveFiles Project.directiveFilesBy
      rw [exclude_withLimit, hexcludes]
      rfl
    refine .inl ⟨.unusableExcludes message, warnings, hdecides, ?_⟩
    simp only [hscan]
    rfl
  | ok rules =>
    rcases Project.scan_eq_ok_iff.mpr ⟨rules, (exclude_withLimit request found).symm ▸ hexcludes⟩
      with ⟨report, hreport⟩
    refine .inr ⟨hfaults.not_occurs hroot hfound hexcludes, root, found, warnings, report, hroot,
      hfound, hreport, ?_⟩
    simp only [hreport]

/-- A scan of a directory can only end by a fault of its settings, or with a report. -/
theorem endsByFaultOrReport_scanRoot (hfaults : FaultsFrom surroundings config request 3) :
    EndsByFaultOrReport surroundings config request
      (scanRoot surroundings config request root) := by
  rcases settings_cases surroundings config root with
    ⟨path, hgiven, hmissing, hsettings⟩ | ⟨hexists, hcases⟩
  · refine .inl ⟨.missingConfig path, [], ⟨.missingConfig hgiven hmissing, hfaults⟩, ?_⟩
    simp only [scanRoot, hsettings]
    rfl
  have hfaults : FaultsFrom surroundings config request 4 := hfaults.past_missingConfig hexists
  rcases hcases with ⟨path, fault, huses, hread, hsettings⟩ |
    ⟨path, text, fault, huses, hread, htext, hsettings⟩ | ⟨found, warnings, hsettings, hused⟩
  · refine .inl ⟨.unreadableConfig path fault, [],
      ⟨.unreadableConfig hroot huses hread, hfaults⟩, ?_⟩
    simp only [scanRoot, hsettings]
    rfl
  · have hfaults : FaultsFrom surroundings config request 5 :=
      hfaults.past_unreadableConfig hroot fun other hother => ⟨text, huses.unique hother ▸ hread⟩
    refine .inl ⟨.invalidConfig fault, [], ⟨.invalidConfig hroot huses hread htext, hfaults⟩, ?_⟩
    simp only [scanRoot, hsettings]
    rfl
  · have hfaults : FaultsFrom surroundings config request 5 :=
      hfaults.past_unreadableConfig hroot fun path huses => (hused path huses).imp fun _ h => h.1
    exact endsByFaultOrReport_of_settings hroot (hfaults.past_invalidConfig hroot hused) hsettings

end Root

/-- Every scan ends by the first of its faults, or with a report. -/
theorem endsByFaultOrReport_runScan (surroundings : Surroundings) (config : Option RawText)
    (request : ScanRequest) :
    EndsByFaultOrReport surroundings config request (runScan surroundings config request) := by
  have hfaults : FaultsFrom surroundings config request 0 := fun _ _ => Nat.zero_le _
  unfold runScan
  cases hcolors : request.color && request.noColor with
  | true =>
    have hboth : request.color = true ∧ request.noColor = true := by simpa using hcolors
    exact .inl ⟨.colors, [], ⟨.colors hboth.1 hboth.2, hfaults⟩, rfl⟩
  | false =>
    have hfaults : FaultsFrom surroundings config request 1 := hfaults.past_colors hcolors
    cases hhere : currentDirectory surroundings with
    | error fault =>
      exact .inl ⟨.noCurrentDirectory fault, [], ⟨.noCurrentDirectory hhere, hfaults⟩, rfl⟩
    | ok here =>
      have hroot : IsRoot surroundings request (rootOf here request) := .inr ⟨here, hhere, rfl⟩
      have hfaults : FaultsFrom surroundings config request 2 :=
        hfaults.past_noCurrentDirectory hhere
      cases hdirectory : surroundings.fs.isDirectory (rootOf here request) with
      | false =>
        refine .inl ⟨.noDirectory _, [], ⟨.noDirectory hroot hdirectory, hfaults⟩, ?_⟩
        simp only [hdirectory]
        rfl
      | true =>
        simpa [hdirectory] using
          endsByFaultOrReport_scanRoot hroot (hfaults.past_noDirectory hroot hdirectory)

/-- Reports are written as a whole. -/
theorem isComplete_writeReport (surroundings : Surroundings) (request : ScanRequest)
    (report : Report) :
    report.IsComplete (isColored surroundings request) (writeReport surroundings request report)
      request.output := by
  unfold writeReport
  cases request.output with
  | text => exact report.isComplete_toText _
  | json => exact report.isComplete_toDocument _

/-- Every scan writes one whole report, or nothing if it has a fault, the first of which decides. -/
theorem endsProperly_runScan (surroundings : Surroundings) (config : Option RawText)
    (request : ScanRequest) :
    EndsProperly surroundings config request (runScan surroundings config request) := by
  rcases endsByFaultOrReport_runScan surroundings config request with
    ⟨fault, warnings, hdecides, hrun⟩ |
    ⟨hnone, root, found, warnings, report, hroot, hfound, hreport, hrun⟩
  · have hfailed : (runScan surroundings config request).exitCode ≠ .success := by
      rw [hrun]
      cases fault <;> exact nofun
    refine ⟨.inr ?_, ?_, fun _ => ⟨fault, hdecides⟩, ?_⟩
    · rw [hrun]
      exact ⟨fault.exitCode_toNat, rfl⟩
    · exact ⟨fun h => absurd h hfailed, fun hnone => absurd hdecides.1 (hnone fault)⟩
    · intro other hother
      obtain rfl := hdecides.unique hother
      rw [hrun]
      exact ⟨rfl, _, rfl⟩
  · have hcomplete := isComplete_writeReport surroundings request report
    refine ⟨.inl ⟨?_, ?_, root, found, warnings, report, hroot, hfound, hreport, ?_⟩, ?_, ?_, ?_⟩
    · rw [hrun]
      rfl
    · rw [hrun]
      exact hcomplete.ne_empty
    · rw [hrun]
      exact hcomplete
    · rw [hrun]
      exact ⟨fun _ => hnone, fun _ => rfl⟩
    · intro hfailed
      rw [hrun] at hfailed
      exact absurd rfl hfailed
    · exact fun fault hdecides => absurd hdecides.1 (hnone fault)

/-! ## Files that are not the settings -/

/-- The same surroundings after a change of files. -/
def Surroundings.after (surroundings : Surroundings) (change : FileChange) : Surroundings :=
  { surroundings with fs := surroundings.fs.after change }

/-- The file with the settings of a scan is at none of some positions. -/
def SparesConfig (fs : FileSystem) (config : Option RawText) (root : RawText)
    (chosen : Position → Bool) : Prop :=
  ∀ path, UsesConfig fs config root path →
    ∀ trail, fs.trail path = .ok trail → chosen (Trail.position trail) = false

theorem findAmong_congr {fs other : FileSystem} {directories : List RawText}
    (h : ∀ path, other.exists? path = fs.exists? path) :
    Config.findAmong other directories = Config.findAmong fs directories := by
  induction directories with
  | nil => rfl
  | cons directory rest ih => rw [Config.findAmong, Config.findAmong, h, h, ih]

theorem locate_congr {fs other : FileSystem} (h : ∀ path, other.exists? path = fs.exists? path) :
    Config.locate other config root = Config.locate fs config root := by
  cases config with
  | none => exact congrArg Except.ok (findAmong_congr h)
  | some path => simp only [Config.locate, h]

/-- Settings stay the same if other files change. -/
theorem settings_after (hproper : surroundings.fs.top.IsProper)
    (hspares : SparesConfig surroundings.fs config root chosen) :
    settings (surroundings.after (.rewriting chosen contents)) config root =
      settings surroundings config root := by
  have hlocate : Config.locate (surroundings.fs.after (.rewriting chosen contents)) config root =
      Config.locate surroundings.fs config root :=
    locate_congr (FileSystem.exists?_after hproper fun _ => rfl)
  rcases locate_cases surroundings.fs config root with
    ⟨path, -, -, hfound⟩ | ⟨path, huses, hexists, hfound⟩ | ⟨-, hfound⟩
  · simp only [settings, Surroundings.after, hlocate, hfound]
  · have hsight : (surroundings.fs.after (.rewriting chosen contents)).sight path =
        surroundings.fs.sight path :=
      FileSystem.sight_after hproper (FileSystem.spares_rewriting (hspares path huses))
    have hread : (surroundings.fs.after (.rewriting chosen contents)).readString path =
        surroundings.fs.readString path := by
      unfold FileSystem.readString
      rw [FileSystem.read_of_sight_eq hsight hexists]
    simp only [settings, Surroundings.after, hlocate, hfound, Config.load, Config.loadWarnings,
      hread]
  · simp only [settings, Surroundings.after, hlocate, hfound]

/-- The exit code of a scan only depends on its settings. -/
theorem exitCode_scanRoot (surroundings : Surroundings) (config : Option RawText)
    (request : ScanRequest) (root : RawText) :
    (scanRoot surroundings config request root).exitCode =
      match (settings surroundings config root).bind fun found =>
        Ignore.excludeRules found.1.scan.exclude with
      | .error failure => failure.exitCode
      | .ok _ => .success := by
  unfold scanRoot
  cases hfound : settings surroundings config root with
  | error failure => rfl
  | ok found =>
    rcases found with ⟨found, warnings⟩
    cases hexcludes : Ignore.excludeRules found.scan.exclude with
    | error failure =>
      simp [Project.scan, Project.configuredFiles, Project.directiveFiles, Project.directiveFilesBy,
        exclude_withLimit, hexcludes, Except.map, Except.bind, Transcript.failed]
    | ok rules =>
      simp [Project.scan, Project.configuredFiles, Project.directiveFiles, Project.directiveFilesBy,
        exclude_withLimit, hexcludes, Except.map, Except.bind, Transcript.answered]

/-- A scan ends with the same exit code if files change that are not its settings. -/
theorem exitCode_runScan_after (hproper : surroundings.fs.top.IsProper)
    (hspares : ∀ root, IsRoot surroundings request root →
      SparesConfig surroundings.fs config root chosen) :
    (runScan (surroundings.after (.rewriting chosen contents)) config request).exitCode =
      (runScan surroundings config request).exitCode := by
  have hcurrent : currentDirectory (surroundings.after (.rewriting chosen contents)) =
      currentDirectory surroundings := rfl
  unfold runScan
  rw [hcurrent]
  cases hhere : currentDirectory surroundings with
  | error fault => rfl
  | ok here =>
    have hspared := hspares (rootOf here request) (.inr ⟨here, hhere, rfl⟩)
    have hdirectory : (surroundings.after (.rewriting chosen contents)).fs.isDirectory
        (rootOf here request) = surroundings.fs.isDirectory (rootOf here request) :=
      FileSystem.isDirectory_after hproper (fun _ => rfl) _
    simp only [hdirectory]
    split_ifs
    · rfl
    · rw [exitCode_scanRoot, exitCode_scanRoot, settings_after hproper hspared]
    · rfl

/-! ## Whole sessions -/

/-- A session that is asked for a scan runs it. -/
theorem run_of_parse {arguments : List String} {given : Option String}
    (h : parse surroundings.config arguments = .ok ⟨given, some (.scan request)⟩) :
    run surroundings arguments = .ran (runScan surroundings (given.map .ofText) request) := by
  unfold run
  rw [h]
  rfl

/-- A scan writes one whole report or ends by the first of its faults, and only the file with its
settings makes a difference for how. -/
theorem run_all_or_nothing {arguments : List String} {given : Option String}
    (h : parse surroundings.config arguments = .ok ⟨given, some (.scan request)⟩) :
    (∃ transcript, run surroundings arguments = .ran transcript ∧
      EndsProperly surroundings (given.map .ofText) request transcript) ∧
    ∀ chosen contents, surroundings.fs.top.IsProper →
      (∀ root, IsRoot surroundings request root →
        SparesConfig surroundings.fs (given.map .ofText) root chosen) →
        ∃ before after, run surroundings arguments = .ran before ∧
          run (surroundings.after (.rewriting chosen contents)) arguments = .ran after ∧
          after.exitCode = before.exitCode := by
  constructor
  · exact ⟨_, run_of_parse h, endsProperly_runScan surroundings _ request⟩
  · intro chosen contents hproper hspares
    have hafter : parse (surroundings.after (.rewriting chosen contents)).config arguments =
        .ok ⟨given, some (.scan request)⟩ := h
    exact ⟨_, _, run_of_parse h, run_of_parse hafter, exitCode_runScan_after hproper hspares⟩

/-- A project with settings and a directive file. -/
def configuredProject : Surroundings where
  fs :=
    { top := .directory
        [("genscope.toml", .file "version = 1\n".toUTF8.data),
          (".gitattributes", .file "a linguist-generated\n".toUTF8.data)] }
  config := none
  hints := {}
  timestamp := "now"

/-- The request for a scan as text, of the current directory or of a path. -/
def plainRequest (path : Option String) : ScanRequest := ⟨path, .text, false, false, none⟩

/-- What a scan of the project writes. -/
def scanned : Transcript where
  exitCode := .success
  output := "1 directive file, 1 directive, 1 pattern\n" ++
    "linguist-generated-true (#630330)\n  file:a\n" ++
    "linguist-generated-false\n  !(file:a)\n"
  messages := ""

/-- What a scan of a directory that is not there writes. -/
def refused : Transcript where
  exitCode := .usage
  output := ""
  messages := "genscope: argument error: not a directory: /nowhere\n"

/-- A scan that is answered, one that is not, and one of a file that has become unreadable. -/
theorem run_all_or_nothing_locked :
    (run configuredProject ["scan"] = .ran scanned ∧
      EndsProperly configuredProject none (plainRequest none) scanned) ∧
    (run configuredProject ["scan", "nowhere"] = .ran refused ∧
      EndsProperly configuredProject none (plainRequest (some "nowhere")) refused) ∧
    ∃ before after, run configuredProject ["scan"] = .ran before ∧
      run (configuredProject.after (.rewriting (· == [".gitattributes"]) fun _ => .locked 21))
        ["scan"] = .ran after ∧
      after.exitCode = before.exitCode := by
  have hscan : parse configuredProject.config ["scan"] =
      .ok ⟨none, some (.scan (plainRequest none))⟩ := by decide +kernel
  have hnowhere : parse configuredProject.config ["scan", "nowhere"] =
      .ok ⟨none, some (.scan (plainRequest (some "nowhere")))⟩ := by decide +kernel
  have hscanned : run configuredProject ["scan"] = .ran scanned := by decide +kernel
  have hrefused : run configuredProject ["scan", "nowhere"] = .ran refused := by decide +kernel
  refine ⟨⟨hscanned, ?_⟩, ⟨hrefused, ?_⟩, ?_⟩
  · rcases (run_all_or_nothing hscan).1 with ⟨transcript, hrun, hends⟩
    obtain rfl := Ending.ran.inj (hrun.symm.trans hscanned)
    exact hends
  · rcases (run_all_or_nothing hnowhere).1 with ⟨transcript, hrun, hends⟩
    obtain rfl := Ending.ran.inj (hrun.symm.trans hrefused)
    exact hends
  · refine (run_all_or_nothing hscan).2 (· == [".gitattributes"]) _ (by decide +kernel) ?_
    rintro root hroot path (huses | ⟨-, hfind⟩) trail htrail
    · cases huses
    · obtain rfl : root = "/" := hroot.unique (.inr ⟨"/", rfl, rfl⟩)
      have hpath : Config.find? configuredProject.fs "/" = some (.ofText "/genscope.toml") := by
        decide +kernel
      obtain rfl := Option.some.inj (hpath.symm.trans hfind)
      have hposition : (configuredProject.fs.trail "/genscope.toml").map Trail.position =
          .ok ["genscope.toml"] := by
        decide +kernel
      rw [htrail] at hposition
      rw [Except.ok.inj hposition]
      rfl

/-- The name of a link that leads to the settings by way of some number of others. -/
def linkName (count : Nat) : RawText := s!"c{count}"

/-- A project with settings that more links in a row lead to than are followed. -/
def linkedProject : Surroundings :=
  { configuredProject with
    fs :=
      { top := .directory
          (("genscope.toml", .file "version = 1\n".toUTF8.data) ::
            (linkName 0, .symlink "genscope.toml") ::
            (List.range 59).map fun count => (linkName (count + 1), .symlink (linkName count))) } }

/-- A session whose current directory is gone. -/
def lostProject : Surroundings := { configuredProject with hereFault := some .notFound }

/-- Settings that are there but cannot be read count as missing if they are not found under their
path.  And if the current directory is gone, it does not matter what is wrong with the root. -/
theorem not_run_all_or_nothing :
    ((linkedProject.fs.follow 60 [] (linkedProject.fs.piecesFromTop "c59")).map Trail.position =
        .ok ["genscope.toml"] ∧
      linkedProject.fs.readString "c59" = .error .tooManyLinks ∧
      run linkedProject ["-C", "c59", "scan"] =
        .ran ⟨.usage, "", "genscope: config error: config file not found: c59\n"⟩) ∧
    lostProject.fs.isDirectory "/nowhere" = false ∧
      run lostProject ["scan", "/nowhere"] =
        .ran ⟨.internal, "", "genscope: No such file or directory (os error 2)\n"⟩ := by
  decide +kernel

end CommandLine
end AttributeScope
