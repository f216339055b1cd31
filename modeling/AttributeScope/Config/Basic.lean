import AttributeScope.Glob.Syntax
import AttributeScope.Pattern.Expansion

/-!
# Settings

What a project may set: which files hold directives, which of them are left out, how far patterns
are expanded, and how the two scopes are named.

Main results:

- `fault?_eq_none_iff`: settings are without fault exactly when they are usable.
-/

namespace AttributeScope

/-- Settings of the search for directive files. -/
structure ScanConfig where
  directiveFile : String := ".gitattributes"
  /-- Patterns for what the search leaves out. -/
  exclude : List String := []
  /-- How many recursive segments of one pattern are expanded. -/
  maxRecursiveSegments : Nat := Pattern.ExpansionLimit.defaultCount
deriving DecidableEq, Repr

/-- Settings of the scopes. -/
structure ScopesConfig where
  generated : String := "linguist-generated-true"
  nonGenerated : String := "linguist-generated-false"
  /-- The color of the generated files, as hexadecimal digits. -/
  color : Option String := some "630330"
deriving DecidableEq, Repr

/-- The version of settings that is supported. -/
def supportedVersion : Int := 1

/-- Settings. -/
structure Config where
  /-- The version that the settings are written for. -/
  version : Int := supportedVersion
  scan : ScanConfig := {}
  scopes : ScopesConfig := {}
deriving DecidableEq, Repr

/-- Why settings cannot be used. -/
inductive ConfigFault where
  /-- The text is no TOML document. -/
  | noDocument
  /-- The version has a wrong type. -/
  | versionType
  | missingVersion
  | unsupportedVersion (version : Int)
  /-- A field other than the version has a wrong type. -/
  | fieldType
  | invalidFileName (name : String)
  | equalScopeNames (name : String)
  | malformedExclude (pattern : String) (fault : GlobFault)
deriving DecidableEq, Repr

namespace ConfigFault

/-- The message of a fault.  What a TOML reader says about a text or a type is left out. -/
def message : ConfigFault → String
  | noDocument | versionType | fieldType => "<toml>"
  | missingVersion => "missing required field: version"
  | unsupportedVersion version =>
    s!"unsupported config version {version} (supported: {supportedVersion})\n" ++
      "  Upgrade genscope to use this config."
  | invalidFileName name => s!"scan.directive_file must be a file name, got '{name}'"
  | equalScopeNames name =>
    s!"scopes.generated and scopes.non_generated must differ (both '{name}')"
  | malformedExclude pattern fault =>
    s!"invalid scan.exclude pattern '{pattern}': error parsing glob '{pattern}': {fault.message}"

end ConfigFault

namespace Config

/-- Whether a text can be the name of a file. -/
def isFileName (name : String) : Bool := !name.isEmpty && !name.toList.contains '/'

/-- The first malformed pattern. -/
def firstMalformed? : List String → Option ConfigFault
  | [] => none
  | pattern :: rest =>
    match Glob.fault? pattern with
    | some fault => some (.malformedExclude pattern fault)
    | none => firstMalformed? rest

/-- The first fault of settings that are complete: in the name of directive files, in the names of
the scopes, or in the exclude patterns. -/
def fault? (config : Config) : Option ConfigFault :=
  if !isFileName config.scan.directiveFile then some (.invalidFileName config.scan.directiveFile)
  else if config.scopes.generated = config.scopes.nonGenerated then
    some (.equalScopeNames config.scopes.generated)
  else firstMalformed? config.scan.exclude

/-- Settings that can be used. -/
structure Usable (config : Config) : Prop where
  name_ne_nil : config.scan.directiveFile ≠ ""
  slash_not_mem : '/' ∉ config.scan.directiveFile.toList
  names_ne : config.scopes.generated ≠ config.scopes.nonGenerated
  globs : ∀ pattern ∈ config.scan.exclude, Glob.fault? pattern = none

theorem firstMalformed?_eq_none_iff {patterns : List String} :
    firstMalformed? patterns = none ↔ ∀ pattern ∈ patterns, Glob.fault? pattern = none := by
  induction patterns with
  | nil => simp [firstMalformed?]
  | cons pattern rest ih =>
    cases h : Glob.fault? pattern with
    | none => simp [firstMalformed?, h, ih]
    | some fault => simp [firstMalformed?, h]

/-- Settings are without fault exactly when they are usable. -/
theorem fault?_eq_none_iff {config : Config} : config.fault? = none ↔ config.Usable := by
  have hname : isFileName config.scan.directiveFile = true ↔
      config.scan.directiveFile ≠ "" ∧ '/' ∉ config.scan.directiveFile.toList := by
    simp [isFileName]
  unfold fault?
  split
  · rename_i h
    refine ⟨by simp, fun usable => absurd (hname.mpr ⟨usable.1, usable.2⟩) (by simpa using h)⟩
  · rename_i h
    have h := hname.mp (by simpa using h)
    split
    · rename_i heq
      exact ⟨by simp, fun usable => absurd heq usable.3⟩
    · rename_i hne
      rw [firstMalformed?_eq_none_iff]
      exact ⟨fun globs => ⟨h.1, h.2, hne, globs⟩, fun usable => usable.4⟩

end Config
end AttributeScope
