import AttributeScope.Config.Basic
import AttributeScope.Failure
import AttributeScope.FileTree.Lookup
import AttributeScope.Text.SortedSet
import AttributeScope.Toml.DateTable
import AttributeScope.Toml.Document

/-!
# Reading settings

Settings are a TOML document with the tables `scan` and `scopes`.  What is not set has its default,
and what is not known is ignored, but can be listed.  The version is looked at before anything
else in a document.

Main results:

- `ofText_usable`: settings that are read can be used, and their version is supported.
-/

namespace AttributeScope
namespace Config

open Toml (Entries Value)

/-! ## Fields -/

/-- A field of a section.  A section may also be an array of its fields in their order, and a date
counts as a section without fields. -/
def field? (name : String) (place : Nat) : Option Value → Except ConfigFault (Option Value)
  | none => .ok none
  | some (.table entries) => .ok (entries.lookup name)
  | some (.array items) => .ok items[place]?
  | some .dateTime => .ok none
  | some _ => .error .fieldType

/-- A text, with its default. -/
def text (fallback : String) : Option Value → Except ConfigFault String
  | none => .ok fallback
  | some (.string text) => .ok text
  | some _ => .error .fieldType

/-- The texts of an array. -/
def texts : List Value → Except ConfigFault (List String)
  | [] => .ok []
  | .string text :: rest => (texts rest).map (text :: ·)
  | _ :: _ => .error .fieldType

/-- A list of texts; none by default. -/
def textList : Option Value → Except ConfigFault (List String)
  | none => .ok []
  | some (.array items) => texts items
  | some _ => .error .fieldType

/-- A number that is not negative, with its default. -/
def count (fallback : Nat) : Option Value → Except ConfigFault Nat
  | none => .ok fallback
  | some (.integer n) => if 0 ≤ n then .ok n.toNat else .error .fieldType
  | some _ => .error .fieldType

/-- A text that may be missing, with its default. -/
def optionalText (fallback : Option String) : Option Value → Except ConfigFault (Option String)
  | none => .ok fallback
  | some (.string text) => .ok (some text)
  | some _ => .error .fieldType

/-! ## Sections -/

/-- The settings of the search in a section. -/
def scanOfSection (part : Option Value) : Except ConfigFault ScanConfig := do
  let defaults : ScanConfig := {}
  let directiveFile ← text defaults.directiveFile (← field? "directive_file" 0 part)
  let exclude ← textList (← field? "exclude" 1 part)
  let maxRecursiveSegments ←
    count defaults.maxRecursiveSegments (← field? "max_recursive_segments" 2 part)
  return { directiveFile, exclude, maxRecursiveSegments }

/-- The settings of the scopes in a section. -/
def scopesOfSection (part : Option Value) : Except ConfigFault ScopesConfig := do
  let defaults : ScopesConfig := {}
  let generated ← text defaults.generated (← field? "generated" 0 part)
  let nonGenerated ← text defaults.nonGenerated (← field? "non_generated" 1 part)
  let color ← optionalText defaults.color (← field? "color" 2 part)
  return { generated, nonGenerated, color }

/-- The version of a document. -/
def versionOf (entries : Entries Value) : Except ConfigFault Int :=
  match entries.lookup "version" with
  | none => .error .missingVersion
  | some (.integer version) =>
    if version = supportedVersion then .ok version else .error (.unsupportedVersion version)
  | some _ => .error .versionType

/-- The settings in the entries of a document, whether they can be used or not. -/
def ofEntries (entries : Entries Value) : Except ConfigFault Config := do
  let version ← versionOf entries
  let scan ← scanOfSection (entries.lookup "scan")
  let scopes ← scopesOfSection (entries.lookup "scopes")
  return { version, scan, scopes }

/-- Settings that can be used. -/
def check (config : Config) : Except ConfigFault Config :=
  match config.fault? with
  | none => .ok config
  | some fault => .error fault

/-- The settings in a text. -/
def ofText (text : String) : Except ConfigFault Config :=
  match Toml.ofText? text with
  | none => .error .noDocument
  | some entries => (ofEntries entries).bind check

/-! ## Keys that are not known -/

/-- The keys of entries that are not known, in order. -/
def unknownAmong (known : List String) (entries : Entries Value) : List String :=
  Text.sortedSet ((entries.map Prod.fst).filter fun key => !known.contains key)

/-- The keys of a section that are not known, behind the name of the section. -/
def unknownInSection (name : String) (known : List String) (entries : Entries Value) :
    List String :=
  match entries.lookup name with
  | some (.table inner) => (unknownAmong known inner).map fun key => s!"{name}.{key}"
  | _ => []

/-- The keys of a document that are not known: those at the top, then those of the sections. -/
def unknownKeys (entries : Entries Value) : List String :=
  unknownAmong ["version", "scan", "scopes"] entries ++
    unknownInSection "scan" ["directive_file", "exclude", "max_recursive_segments"] entries ++
    unknownInSection "scopes" ["generated", "non_generated", "color"] entries

/-- The keys of a document that are not known, once the tables that stand for dates are dates.
There are none if a table stands for a date but is none, or if the document itself is a date. -/
def unknownKeysOf (entries : Entries Value) : List String :=
  match (Value.table entries).withDates? with
  | some (.table entries) => unknownKeys entries
  | _ => []

/-! ## Files -/

/-- The settings in a file. -/
def load (fs : FileSystem) (path : RawText) : Except Failure Config :=
  match fs.readString path with
  | .error fault => .error (.io path fault.message)
  | .ok text =>
    match ofText text with
    | .ok config => .ok config
    | .error fault => .error (.config fault.message)

/-- What is said about a key that is not known. -/
def unknownKeyWarning (path : RawText) (key : String) : String :=
  "genscope: warning: " ++ path.shown ++ ": unrecognized field `" ++ key ++ "` (ignored)"

/-- The warnings about the settings in a file; none if they cannot be used. -/
def loadWarnings (fs : FileSystem) (path : RawText) : List String :=
  match fs.readString path with
  | .error _ => []
  | .ok text =>
    match ofText text, Toml.ofText? text with
    | .ok _, some entries => (unknownKeysOf entries).map (unknownKeyWarning path)
    | _, _ => []

/-! ## What is read can be used -/

theorem check_eq_ok {config checked : Config} (h : check config = .ok checked) :
    checked = config ∧ checked.Usable := by
  unfold check at h
  split at h
  · rename_i hnone
    cases h
    exact ⟨rfl, fault?_eq_none_iff.mp hnone⟩
  · simp at h

theorem version_of_ofEntries {entries : Entries Value} {config : Config}
    (h : ofEntries entries = .ok config) : config.version = supportedVersion := by
  have hv : ∀ {version : Int}, versionOf entries = .ok version → version = supportedVersion := by
    intro version hversion
    unfold versionOf at hversion
    split at hversion
    · simp at hversion
    · split at hversion
      · rename_i heq
        cases hversion
        exact heq
      · simp at hversion
    · simp at hversion
  simp only [ofEntries, bind, Except.bind] at h
  cases hversion : versionOf entries with
  | error fault => simp [hversion] at h
  | ok version =>
    simp only [hversion] at h
    cases hscan : scanOfSection (entries.lookup "scan") with
    | error fault => simp [hscan] at h
    | ok scan =>
      simp only [hscan] at h
      cases hscopes : scopesOfSection (entries.lookup "scopes") with
      | error fault => simp [hscopes] at h
      | ok scopes =>
        simp only [hscopes, pure, Except.pure, Except.ok.injEq] at h
        subst h
        exact hv hversion

/-- Settings that are read can be used, and their version is supported. -/
theorem ofText_usable {text : String} {config : Config} (h : ofText text = .ok config) :
    config.Usable ∧ config.version = supportedVersion := by
  unfold ofText at h
  split at h
  · simp at h
  · rename_i entries _
    cases he : ofEntries entries with
    | error fault => simp [he, Except.bind] at h
    | ok read =>
      simp only [he, Except.bind] at h
      obtain ⟨rfl, husable⟩ := check_eq_ok h
      exact ⟨husable, version_of_ofEntries he⟩

end Config
end AttributeScope
