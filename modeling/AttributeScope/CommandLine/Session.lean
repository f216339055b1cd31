import AttributeScope.CommandLine.Arguments
import AttributeScope.Config.Location
import AttributeScope.Config.Reading
import AttributeScope.Project.Scan
import AttributeScope.Report.Document
import AttributeScope.Report.Text

/-!
# Sessions

What the program writes and how it ends, for given arguments, surroundings and files.  An answer is
written only if it is complete: a session that fails writes nothing but messages.

Main results:

- `runScan_output_eq_empty`: a scan that fails has no output.
- `runTranslate_exitCode`: a translation succeeds.
-/

namespace AttributeScope
namespace CommandLine

/-- The name of the program. -/
def programName : String := "genscope"

/-- The version of the program. -/
def programVersion : String := "0.1.0"

/-- Where and when a session runs. -/
structure Surroundings where
  /-- The files, and the current directory. -/
  fs : FileSystem
  /-- Why the path of the current directory cannot be told, if it cannot. -/
  hereFault : Option LookupFault := none
  /-- The file with the settings that is named outside of the arguments. -/
  config : Option String
  /-- What is known about colors. -/
  hints : Terminal.ColorHints
  timestamp : String

/-- What a command did. -/
structure Transcript where
  exitCode : ExitCode
  output : String
  /-- What it had to tell besides. -/
  messages : String
deriving DecidableEq, Repr

/-- How a session ends. -/
inductive Ending where
  | ran (transcript : Transcript)
  | help
  | version (subcommand : Option Subcommand)
  | usage (fault : UsageFault)
  | script (shell : Shell)
deriving DecidableEq, Repr

/-- The line that tells a version. -/
def versionText (subcommand : Option Subcommand) : String :=
  match subcommand with
  | none => s!"{programName} {programVersion}\n"
  | some command => s!"{programName}-{command.name} {programVersion}\n"

namespace Transcript

/-- An answer, after warnings. -/
def answered (warnings : List String) (output : String) : Transcript :=
  { exitCode := .success, output, messages := String.join (warnings.map (· ++ "\n")) }

/-- A failure, after warnings. -/
def failed (warnings : List String) (failure : Failure) : Transcript :=
  { exitCode := failure.exitCode
    output := ""
    messages :=
      String.join (warnings.map (· ++ "\n")) ++ s!"{programName}: {failure.message}\n" }

end Transcript

/-! ## Scans -/

/-- The settings of a scan, and the warnings about them. -/
def settings (surroundings : Surroundings) (config : Option RawText) (root : RawText) :
    Except Failure (Config × List String) :=
  let fs := surroundings.fs
  match Config.locate fs config root with
  | .error failure => .error failure
  | .ok none => .ok ({}, [])
  | .ok (some path) =>
    (Config.load fs path).map fun settings => (settings, Config.loadWarnings fs path)

/-- Settings with the limit of a request. -/
def withLimit (request : ScanRequest) (config : Config) : Config :=
  match request.maxRecursiveSegments with
  | none => config
  | some limit => { config with scan := { config.scan with maxRecursiveSegments := limit } }

/-- Whether the output of a scan is colored. -/
def isColored (surroundings : Surroundings) (request : ScanRequest) : Bool :=
  (Terminal.ColorChoice.resolve request.color request.noColor surroundings.hints).isColored
    surroundings.hints

/-- A report as a request wants it. -/
def writeReport (surroundings : Surroundings) (request : ScanRequest) (report : Report) : String :=
  match request.output with
  | .text => report.toText (isColored surroundings request)
  | .json => report.toDocument

/-- The path of the current directory. -/
def currentDirectory (surroundings : Surroundings) : Except LookupFault RawText :=
  match surroundings.hereFault with
  | none => .ok (FileSystem.pathAt surroundings.fs.here)
  | some fault => .error fault

/-- The root of the project that a request is about, seen from the current directory. -/
def rootOf (here : RawText) (request : ScanRequest) : RawText :=
  match request.path with
  | none => here
  | some path => Path.join here path

/-- Scan a root that is a directory. -/
def scanRoot (surroundings : Surroundings) (config : Option RawText) (request : ScanRequest)
    (root : RawText) : Transcript :=
  match settings surroundings config root with
  | .error failure => .failed [] failure
  | .ok (settings, warnings) =>
    match Project.scan surroundings.fs root (withLimit request settings) surroundings.timestamp with
    | .error failure => .failed warnings failure
    | .ok report => .answered warnings (writeReport surroundings request report)

/-- Scan a project. -/
def runScan (surroundings : Surroundings) (config : Option RawText) (request : ScanRequest) :
    Transcript :=
  if request.color && request.noColor then
    { exitCode := .usage
      output := ""
      messages := "--color and --no-color cannot be used together\n" }
  else
    match currentDirectory surroundings with
    | .error fault =>
      { exitCode := .internal
        output := ""
        messages := s!"{programName}: {fault.message}\n" }
    | .ok here =>
      let root := rootOf here request
      if surroundings.fs.isDirectory root then scanRoot surroundings config request root
      else .failed [] (.argument s!"not a directory: {root}")

/-! ## Translations -/

/-- The scope patterns of a pattern that is meant below a directory, or anywhere. -/
def variantsOf (limit : Pattern.ExpansionLimit) (dir : Option String) (pattern : String) :
    List String :=
  match dir with
  | none => Pattern.translate limit pattern
  | some dir =>
    (Resolution.ofDirective limit (.ofPath dir)
      { path := pattern, generated := true, negated := false }).patterns

/-- The translations of a request. -/
def translationsOf (request : TranslateRequest) : List Translation :=
  request.patterns.map fun pattern =>
    ⟨pattern, variantsOf (.clamp request.maxRecursiveSegments) request.dir pattern⟩

/-- Translate patterns. -/
def runTranslate (surroundings : Surroundings) (request : TranslateRequest) : Transcript :=
  .answered []
    (match request.output with
    | .text =>
      Translation.listToText
        ((Terminal.ColorChoice.resolve false false surroundings.hints).isColored
          surroundings.hints)
        (translationsOf request)
    | .json => Translation.listToDocument (translationsOf request))

/-! ## Whole sessions -/

/-- Run what an invocation asks for.  Without a command, help is shown. -/
def runInvocation (surroundings : Surroundings) (invocation : Invocation) : Ending :=
  match invocation.command with
  | none => .help
  | some (.scan request) => .ran (runScan surroundings (invocation.config.map .ofText) request)
  | some (.translate request) => .ran (runTranslate surroundings request)
  | some (.completions shell) => .script shell

/-- The root of the scan that arguments ask for, with the file of settings they give. -/
def scanned? (surroundings : Surroundings) (arguments : List String) :
    Option (Option RawText × RawText) :=
  match parse surroundings.config arguments, currentDirectory surroundings with
  | .ok ⟨config, some (.scan request)⟩, .ok here => some (config.map .ofText, rootOf here request)
  | _, _ => none

/-- The paths that a session begins at: the root of its scan, and the file of settings. -/
def startingPaths (surroundings : Surroundings) (arguments : List String) : List RawText :=
  match scanned? surroundings arguments with
  | none => []
  | some (config, root) =>
    root :: (config.map (Path.join (FileSystem.pathAt surroundings.fs.here))).toList

/-- The root that a session searches, and the name of the directive files there. -/
def searched? (surroundings : Surroundings) (arguments : List String) : Option (RawText × String) :=
  (scanned? surroundings arguments).bind fun (config, root) =>
    match settings surroundings config root with
    | .ok (settings, _) => some (root, settings.scan.directiveFile)
    | .error _ => none

/-- Run the program with arguments. -/
def run (surroundings : Surroundings) (arguments : List String) : Ending :=
  match parse surroundings.config arguments with
  | .ok invocation => runInvocation surroundings invocation
  | .error .help => .help
  | .error (.version subcommand) => .version subcommand
  | .error (.fault fault) => .usage fault

/-- A scan of a directory that fails has no output. -/
theorem scanRoot_output_eq_empty {surroundings : Surroundings} {config : Option RawText}
    {request : ScanRequest} {root : RawText}
    (h : (scanRoot surroundings config request root).exitCode ≠ .success) :
    (scanRoot surroundings config request root).output = "" := by
  unfold scanRoot at h ⊢
  split
  · rfl
  · rename_i found hfound
    simp only [hfound] at h
    split
    · rfl
    · rename_i report hreport
      simp [hreport, Transcript.answered] at h

/-- A scan that fails has no output. -/
theorem runScan_output_eq_empty {surroundings : Surroundings} {config : Option RawText}
    {request : ScanRequest} (h : (runScan surroundings config request).exitCode ≠ .success) :
    (runScan surroundings config request).output = "" := by
  unfold runScan at h ⊢
  split
  · rfl
  · rename_i hcolor
    rw [if_neg hcolor] at h
    cases hhere : currentDirectory surroundings with
    | error fault => rfl
    | ok here =>
      simp only [hhere] at h ⊢
      split
      · rename_i hdirectory
        rw [if_pos hdirectory] at h
        exact scanRoot_output_eq_empty h
      · rfl

/-- A translation succeeds. -/
theorem runTranslate_exitCode (surroundings : Surroundings) (request : TranslateRequest) :
    (runTranslate surroundings request).exitCode = .success := rfl

end CommandLine
end AttributeScope
