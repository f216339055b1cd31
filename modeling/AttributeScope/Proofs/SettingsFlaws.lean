import AttributeScope.Proofs.SettingsFields

/-!
# What is wrong with settings

A text can fail to be settings in several ways at once.  Each of them is stated for itself, whatever
else is wrong with the text, and the first one in a fixed order decides what is reported: a version
that is not supported is told before any field with a wrong type, and a field with a wrong type
before any value that cannot be used.

Main results:

- Theorem `Flaw.Occurs.eq_of_rank_eq`: a text has one flaw of each rank at most.
- Theorem `ofText_cases`: a text holds usable settings, or its first flaw is reported.
- Theorem `ofText_decided`: which settings are read, and which flaw is reported.
-/

namespace AttributeScope
namespace Config

open Toml (Entries Value)

/-- What can be wrong with the text of settings. -/
inductive Flaw where
  | noDocument
  | versionType
  | missingVersion
  | unsupportedVersion (version : Int)
  | fieldType
  | directiveFile (name : String)
  | scopeNames (name : String)
  /-- The first exclude pattern that is no glob. -/
  | exclude (pattern : String) (fault : GlobFault)
deriving DecidableEq, Repr

namespace Flaw

/-- The place of a flaw in the order of precedence. -/
def rank : Flaw → Nat
  | noDocument => 0
  | versionType => 1
  | missingVersion => 2
  | unsupportedVersion _ => 3
  | fieldType => 4
  | directiveFile _ => 5
  | scopeNames _ => 6
  | exclude _ _ => 7

/-- What is reported about a flaw. -/
def fault : Flaw → ConfigFault
  | noDocument => .noDocument
  | versionType => .versionType
  | missingVersion => .missingVersion
  | unsupportedVersion version => .unsupportedVersion version
  | fieldType => .fieldType
  | directiveFile name => .invalidFileName name
  | scopeNames name => .equalScopeNames name
  | exclude pattern fault => .malformedExclude pattern fault

/-- Which flaws the entries of a document have, each whatever the others are. -/
inductive IsIn (entries : Entries Value) : Flaw → Prop where
  | versionType {value : Value} (hgiven : entries.lookup "version" = some value)
      (htype : ∀ version, value ≠ .integer version) : IsIn entries versionType
  | missingVersion (hmissing : entries.lookup "version" = none) : IsIn entries missingVersion
  | unsupportedVersion {version : Int}
      (hgiven : entries.lookup "version" = some (.integer version)) (hversion : version ≠ 1) :
      IsIn entries (unsupportedVersion version)
  | fieldType (htype : ¬ IsTyped entries) : IsIn entries fieldType
  | directiveFile {name : String} (hfield : Field.directiveFile.Says entries name)
      (hname : name = "" ∨ '/' ∈ name.toList) : IsIn entries (directiveFile name)
  | scopeNames {name : String} (hgenerated : Field.generated.Says entries name)
      (hnonGenerated : Field.nonGenerated.Says entries name) : IsIn entries (scopeNames name)
  | exclude {before after : List String} {pattern : String} {fault : GlobFault}
      (hfield : Field.exclude.Says entries (before ++ pattern :: after))
      (hbefore : ∀ other ∈ before, Glob.fault? other = none)
      (hpattern : Glob.fault? pattern = some fault) : IsIn entries (exclude pattern fault)

/-- Which flaws a text has. -/
inductive Occurs (text : String) : Flaw → Prop where
  | noDocument (hdocument : Toml.ofText? text = none) : Occurs text noDocument
  | ofDocument {entries : Entries Value} {flaw : Flaw}
      (hdocument : Toml.ofText? text = some entries)
      (hflaw : IsIn entries flaw) : Occurs text flaw

/-- Whether a flaw is the first one of a text. -/
def IsFirst (text : String) (flaw : Flaw) : Prop :=
  flaw.Occurs text ∧ ∀ other : Flaw, other.Occurs text → flaw.rank ≤ other.rank

end Flaw

/-! ## One flaw of each rank -/

/-- The first malformed pattern is the one that only globs stand in front of. -/
theorem firstMalformed?_eq_some_iff {patterns : List String} {fault : ConfigFault} :
    firstMalformed? patterns = some fault ↔
      ∃ before pattern after globFault, patterns = before ++ pattern :: after ∧
        (∀ other ∈ before, Glob.fault? other = none) ∧ Glob.fault? pattern = some globFault ∧
        fault = .malformedExclude pattern globFault := by
  constructor
  · intro h
    induction patterns with
    | nil => cases h
    | cons first rest ih =>
      unfold firstMalformed? at h
      split at h
      · rename_i globFault hfirst
        obtain rfl := Option.some.inj h
        exact ⟨[], first, rest, globFault, rfl, by simp, hfirst, rfl⟩
      · rename_i hfirst
        rcases ih h with ⟨before, pattern, after, globFault, rfl, hbefore, hpattern, rfl⟩
        refine ⟨first :: before, pattern, after, globFault, rfl, ?_, hpattern, rfl⟩
        exact List.forall_mem_cons.mpr ⟨hfirst, hbefore⟩
  · rintro ⟨before, pattern, after, globFault, rfl, hbefore, hpattern, rfl⟩
    induction before with
    | nil => simp [firstMalformed?, hpattern]
    | cons first rest ih =>
      rcases List.forall_mem_cons.mp hbefore with ⟨hfirst, hrest⟩
      simp [firstMalformed?, hfirst, ih hrest]

namespace Flaw

/-- A pattern that is no glob is a flaw exactly if it is the first one. -/
theorem isIn_exclude_iff {entries : Entries Value} {pattern : String} {globFault : GlobFault} :
    IsIn entries (exclude pattern globFault) ↔
      ∃ patterns, Field.exclude.Says entries patterns ∧
        firstMalformed? patterns = some (.malformedExclude pattern globFault) := by
  constructor
  · intro h
    cases h with
    | exclude hfield hbefore hpattern =>
      exact ⟨_, hfield, firstMalformed?_eq_some_iff.mpr ⟨_, _, _, _, rfl, hbefore, hpattern, rfl⟩⟩
  · rintro ⟨patterns, hfield, hfirst⟩
    rcases firstMalformed?_eq_some_iff.mp hfirst with
      ⟨before, _, after, _, rfl, hbefore, hpattern, hfault⟩
    cases hfault
    exact .exclude hfield hbefore hpattern

theorem text_injective : Function.Injective Value.string := fun _ _ => Value.string.inj

/-- Different lists of texts are written differently. -/
theorem writeTexts_injective : Function.Injective writeTexts := fun _ _ h =>
  (List.map_inj_right fun _ _ => Value.string.inj).mp (Value.array.inj h)

/-- A document has one flaw of each rank at most. -/
theorem IsIn.eq_of_rank_eq {entries : Entries Value} {flaw other : Flaw} (h : IsIn entries flaw)
    (hother : IsIn entries other) (hrank : flaw.rank = other.rank) : flaw = other := by
  cases h with
  | versionType => cases hother <;> first | rfl | cases hrank
  | missingVersion => cases hother <;> first | rfl | cases hrank
  | unsupportedVersion hgiven =>
    cases hother with
    | unsupportedVersion hgiven' =>
      cases hgiven.symm.trans hgiven'
      rfl
    | _ => cases hrank
  | fieldType => cases hother <;> first | rfl | cases hrank
  | directiveFile hfield =>
    cases hother with
    | directiveFile hfield' =>
      exact congrArg Flaw.directiveFile (hfield.unique text_injective hfield')
    | _ => cases hrank
  | scopeNames hgenerated =>
    cases hother with
    | scopeNames hgenerated' =>
      exact congrArg Flaw.scopeNames (hgenerated.unique text_injective hgenerated')
    | _ => cases hrank
  | exclude hfield hbefore hpattern =>
    cases hother with
    | exclude hfield' hbefore' hpattern' =>
      rcases isIn_exclude_iff.mp (.exclude hfield hbefore hpattern) with ⟨patterns, hfield, hfirst⟩
      rcases isIn_exclude_iff.mp (.exclude hfield' hbefore' hpattern') with ⟨_, hfield', hfirst'⟩
      obtain rfl := hfield.unique writeTexts_injective hfield'
      cases hfirst.symm.trans hfirst'
      rfl
    | _ => cases hrank

/-- A text has one first flaw at most. -/
theorem IsFirst.unique {text : String} {flaw other : Flaw} (h : IsFirst text flaw)
    (hother : IsFirst text other) : flaw = other := by
  have hrank : flaw.rank = other.rank := Nat.le_antisymm (h.2 other hother.1) (hother.2 flaw h.1)
  rcases h.1 with hdocument | ⟨hdocument, hflaw⟩
  · rcases hother.1 with _ | ⟨hdocument', _⟩
    · rfl
    · cases hdocument.symm.trans hdocument'
  · rcases hother.1 with hdocument' | ⟨hdocument', hflaw'⟩
    · cases hdocument.symm.trans hdocument'
    · cases hdocument.symm.trans hdocument'
      exact hflaw.eq_of_rank_eq hflaw' hrank

/-! ## The first flaw -/

/-- Whether all flaws of a document have a rank or a later one. -/
def AllFrom (entries : Entries Value) (rank : Nat) : Prop :=
  ∀ flaw, IsIn entries flaw → rank ≤ flaw.rank

section AllFrom

variable {entries : Entries Value}

/-- If no flaw has the first rank that flaws may have, they are of later ranks. -/
theorem AllFrom.succ {rank : Nat} (h : AllFrom entries rank)
    (hnone : ∀ flaw, IsIn entries flaw → flaw.rank ≠ rank) : AllFrom entries (rank + 1) :=
  fun flaw hflaw => Nat.lt_of_le_of_ne (h flaw hflaw) (hnone flaw hflaw).symm

/-- What is a document has no flaw of the first rank. -/
theorem allFrom_one : AllFrom entries 1 := by
  intro flaw hflaw
  cases hflaw <;> simp [rank]

/-- A version that is a number has its type. -/
theorem AllFrom.past_versionType (h : AllFrom entries 1)
    (hversion : ∀ value, entries.lookup "version" = some value →
      ∃ version, value = .integer version) :
    AllFrom entries 2 := by
  refine h.succ fun flaw hflaw => ?_
  cases hflaw with
  | versionType hgiven htype =>
    rcases hversion _ hgiven with ⟨version, hvalue⟩
    exact absurd hvalue (htype version)
  | _ => exact nofun

theorem AllFrom.past_missingVersion (h : AllFrom entries 2)
    (hversion : entries.lookup "version" ≠ none) : AllFrom entries 3 := by
  refine h.succ fun flaw hflaw => ?_
  cases hflaw with
  | missingVersion hmissing => exact absurd hmissing hversion
  | _ => exact nofun

/-- A version that is supported is no flaw. -/
theorem AllFrom.past_unsupportedVersion (h : AllFrom entries 3)
    (hversion : entries.lookup "version" = some (.integer 1)) : AllFrom entries 4 := by
  refine h.succ fun flaw hflaw => ?_
  cases hflaw with
  | unsupportedVersion hgiven hother =>
    cases hversion.symm.trans hgiven
    exact absurd rfl hother
  | _ => exact nofun

/-- A document of the supported version has no flaw that is about its version. -/
theorem allFrom_four (hversion : entries.lookup "version" = some (.integer 1)) :
    AllFrom entries 4 := by
  have htype : AllFrom entries 2 := allFrom_one.past_versionType fun value hvalue =>
    ⟨1, Option.some.inj (hvalue.symm.trans hversion)⟩
  exact (htype.past_missingVersion (by simp [hversion])).past_unsupportedVersion hversion

/-- In a document in which all fields have their types, only what they say can be wrong. -/
theorem AllFrom.past_fieldType (h : AllFrom entries 4) (htyped : IsTyped entries) :
    AllFrom entries 5 := by
  refine h.succ fun flaw hflaw => ?_
  cases hflaw with
  | fieldType htype => exact absurd htyped htype
  | _ => exact nofun

theorem AllFrom.past_directiveFile (h : AllFrom entries 5) {name : String}
    (hfield : Field.directiveFile.Says entries name) (hname : ¬ (name = "" ∨ '/' ∈ name.toList)) :
    AllFrom entries 6 := by
  refine h.succ fun flaw hflaw => ?_
  cases hflaw with
  | directiveFile hfield' hname' =>
    rw [← hfield.unique text_injective hfield'] at hname'
    exact absurd hname' hname
  | _ => exact nofun

/-- Each scope has one name, so that different ones are not equal after all. -/
theorem AllFrom.past_scopeNames (h : AllFrom entries 6) {name other : String}
    (hgenerated : Field.generated.Says entries name)
    (hnonGenerated : Field.nonGenerated.Says entries other) (hne : name ≠ other) :
    AllFrom entries 7 := by
  refine h.succ fun flaw hflaw => ?_
  cases hflaw with
  | scopeNames hgenerated' hnonGenerated' =>
    have hname := hgenerated.unique text_injective hgenerated'
    have hother := hnonGenerated.unique text_injective hnonGenerated'
    exact absurd (hname.trans hother.symm) hne
  | _ => exact nofun

/-- If all exclude patterns are globs, nothing is left that could be wrong. -/
theorem AllFrom.not_isIn (h : AllFrom entries 7) {patterns : List String}
    (hfield : Field.exclude.Says entries patterns)
    (hglobs : ∀ pattern ∈ patterns, Glob.fault? pattern = none) (flaw : Flaw) :
    ¬ IsIn entries flaw := by
  intro hflaw
  have hrank : 7 ≤ flaw.rank := h flaw hflaw
  cases hflaw with
  | exclude hfield' hbefore hpattern =>
    obtain rfl := hfield.unique writeTexts_injective hfield'
    cases (hglobs _ (List.mem_append_right _ List.mem_cons_self)).symm.trans hpattern
  | _ => simp [rank] at hrank

end AllFrom

end Flaw

/-! ## Texts -/

/-- Settings are read exactly from a document that holds them, if they can be used. -/
theorem ofText_eq_ok_iff {text : String} {config : Config} :
    ofText text = .ok config ↔
      ∃ entries, Toml.ofText? text = some entries ∧ IsFilled entries config ∧
        config.version = supportedVersion ∧ config.Usable := by
  unfold ofText
  cases Toml.ofText? text with
  | none => simp
  | some entries =>
    have hcheck : ∀ read, check read = .ok config ↔ read = config ∧ config.Usable := by
      intro read
      refine ⟨fun h => ?_, fun h => ?_⟩
      · rcases check_eq_ok h with ⟨rfl, husable⟩
        exact ⟨rfl, husable⟩
      · rcases h with ⟨rfl, husable⟩
        unfold check
        rw [fault?_eq_none_iff.mpr husable]
    constructor
    · intro h
      rcases bind_eq_ok_iff.mp h with ⟨read, hread, hchecked⟩
      rcases (hcheck read).mp hchecked with ⟨rfl, husable⟩
      rcases ofEntries_eq_ok_iff.mp hread with ⟨hfilled, hversion⟩
      exact ⟨entries, rfl, hfilled, hversion, husable⟩
    · rintro ⟨_, hentries, hfilled, hversion, husable⟩
      cases hentries
      exact bind_eq_ok_iff.mpr ⟨config, ofEntries_eq_ok_iff.mpr ⟨hfilled, hversion⟩,
        (hcheck config).mpr ⟨rfl, husable⟩⟩

theorem isFileName_iff {name : String} :
    isFileName name = true ↔ ¬ (name = "" ∨ '/' ∈ name.toList) := by
  simp [isFileName]

/-- Settings without a flaw are read, and the first flaw of any others is reported. -/
theorem check_cases {entries : Entries Value} {config : Config} (hfilled : IsFilled entries config)
    (hfirst : Flaw.AllFrom entries 5) :
    (check config = .ok config ∧ ∀ flaw, ¬ Flaw.IsIn entries flaw) ∨
      ∃ flaw, Flaw.IsIn entries flaw ∧ Flaw.AllFrom entries flaw.rank ∧
        check config = .error flaw.fault := by
  unfold check fault?
  by_cases hname : config.scan.directiveFile = "" ∨ '/' ∈ config.scan.directiveFile.toList
  · refine .inr ⟨_, .directiveFile hfilled.directiveFile hname, hfirst, ?_⟩
    have hinvalid : isFileName config.scan.directiveFile = false :=
      Bool.eq_false_iff.mpr fun h => isFileName_iff.mp h hname
    simp [hinvalid, Flaw.fault]
  · have hvalid : isFileName config.scan.directiveFile = true := by
      simpa [isFileName] using hname
    have hfirst := hfirst.past_directiveFile hfilled.directiveFile hname
    by_cases hnames : config.scopes.generated = config.scopes.nonGenerated
    · refine .inr ⟨_, .scopeNames hfilled.generated (hnames ▸ hfilled.nonGenerated), hfirst, ?_⟩
      simp [hvalid, hnames, Flaw.fault]
    · have hfirst := hfirst.past_scopeNames hfilled.generated hfilled.nonGenerated hnames
      cases hexclude : firstMalformed? config.scan.exclude with
      | none =>
        refine .inl ⟨by simp [hvalid, hnames], ?_⟩
        exact hfirst.not_isIn hfilled.exclude (firstMalformed?_eq_none_iff.mp hexclude)
      | some fault =>
        rcases firstMalformed?_eq_some_iff.mp hexclude with
          ⟨_, pattern, _, globFault, -, -, -, rfl⟩
        refine .inr ⟨_, Flaw.isIn_exclude_iff.mpr ⟨_, hfilled.exclude, hexclude⟩, hfirst, ?_⟩
        simp [hvalid, hnames, Flaw.fault]

/-- A document holds settings without a flaw, or its first flaw is reported. -/
theorem ofEntries_cases (entries : Entries Value) :
    (∃ config, (ofEntries entries).bind check = .ok config ∧ ∀ flaw, ¬ Flaw.IsIn entries flaw) ∨
      ∃ flaw, Flaw.IsIn entries flaw ∧ Flaw.AllFrom entries flaw.rank ∧
        (ofEntries entries).bind check = .error flaw.fault := by
  cases hgiven : entries.lookup "version" with
  | none =>
    refine .inr ⟨.missingVersion, .missingVersion hgiven, ?_, ?_⟩
    · exact Flaw.allFrom_one.past_versionType (by simp [hgiven])
    · simp [ofEntries, versionOf, hgiven, bind, Except.bind, Flaw.fault]
  | some value =>
    by_cases htype : ∃ version, value = .integer version
    · rcases htype with ⟨version, rfl⟩
      by_cases hversion : version = 1
      · subst hversion
        have hfirst : Flaw.AllFrom entries 4 := Flaw.allFrom_four hgiven
        cases hread : ofEntries entries with
        | ok config =>
          have hfilled := (ofEntries_eq_ok_iff.mp hread).1
          have htyped : IsTyped entries := (exists_ofEntries_iff hgiven).mp ⟨config, hread⟩
          rcases check_cases hfilled (hfirst.past_fieldType htyped) with ⟨hok, hnone⟩ | hflaw
          · exact .inl ⟨config, hok, hnone⟩
          · exact .inr hflaw
        | error fault =>
          refine .inr ⟨.fieldType, .fieldType fun htyped => ?_, hfirst, ?_⟩
          · rcases (exists_ofEntries_iff hgiven).mpr htyped with ⟨config, hconfig⟩
            cases hread.symm.trans hconfig
          · rw [failsByType_ofEntries hgiven fault hread]
            rfl
      · refine .inr ⟨_, .unsupportedVersion hgiven hversion, ?_, ?_⟩
        · refine (Flaw.allFrom_one.past_versionType ?_).past_missingVersion (by simp [hgiven])
          exact fun other hother => ⟨version, Option.some.inj (hother.symm.trans hgiven)⟩
        · simp [ofEntries, versionOf, hgiven, supportedVersion, hversion, bind, Except.bind,
            Flaw.fault]
    · refine .inr ⟨.versionType, .versionType hgiven fun version h => htype ⟨version, h⟩,
        Flaw.allFrom_one, ?_⟩
      have hread : versionOf entries = .error .versionType := by
        unfold versionOf
        rw [hgiven]
        cases value with
        | integer version => exact absurd ⟨version, rfl⟩ htype
        | _ => rfl
      simp [ofEntries, hread, bind, Except.bind, Flaw.fault]

/-- A text holds settings without a flaw, or its first flaw is reported. -/
theorem ofText_cases (text : String) :
    (∃ config, ofText text = .ok config ∧ ∀ flaw : Flaw, ¬ flaw.Occurs text) ∨
      ∃ flaw, Flaw.IsFirst text flaw ∧ ofText text = .error flaw.fault := by
  unfold ofText
  cases hdocument : Toml.ofText? text with
  | none => exact .inr ⟨.noDocument, ⟨.noDocument hdocument, fun _ _ => Nat.zero_le _⟩, rfl⟩
  | some entries =>
    have hflaw : ∀ flaw : Flaw, flaw.Occurs text → Flaw.IsIn entries flaw := by
      intro flaw hoccurs
      cases hoccurs with
      | noDocument hnone => cases hdocument.symm.trans hnone
      | ofDocument hdocument' hflaw =>
        cases hdocument.symm.trans hdocument'
        exact hflaw
    rcases ofEntries_cases entries with ⟨config, hok, hnone⟩ | ⟨flaw, hisIn, hfirst, herror⟩
    · exact .inl ⟨config, hok, fun flaw hoccurs => hnone flaw (hflaw flaw hoccurs)⟩
    · exact .inr ⟨flaw, ⟨.ofDocument hdocument hisIn, fun other hoccurs =>
        hfirst other (hflaw other hoccurs)⟩, herror⟩

/-- A text is read as settings exactly if it is a document of version 1 in which all fields have
their types and which, with defaults for what it leaves out, can be used: the settings are then
those that its fields say.  Otherwise the first flaw of the text is reported, in the order of ranks:
no document, the type of the version, no version, another version, the type of another field, the
name of directive files, equal names of scopes, and the first exclude pattern that is no glob. -/
theorem ofText_decided (text : String) :
    (∀ config, ofText text = .ok config ↔
      ∃ entries, Toml.ofText? text = some entries ∧
        entries.lookup "version" = some (.integer 1) ∧ IsFilled entries config ∧
        config.Usable) ∧
    ∀ fault, ofText text = .error fault ↔ ∃ flaw, Flaw.IsFirst text flaw ∧ flaw.fault = fault := by
  constructor
  · intro config
    rw [ofText_eq_ok_iff]
    constructor
    · rintro ⟨entries, hdocument, hfilled, hversion, husable⟩
      refine ⟨entries, hdocument, ?_, hfilled, husable⟩
      rw [hfilled.version, hversion]
      rfl
    · rintro ⟨entries, hdocument, hversion, hfilled, husable⟩
      refine ⟨entries, hdocument, hfilled, ?_, husable⟩
      exact Value.integer.inj (Option.some.inj (hfilled.version.symm.trans hversion))
  · intro fault
    rcases ofText_cases text with ⟨config, hok, hnone⟩ | ⟨flaw, hfirst, herror⟩
    · rw [hok]
      refine iff_of_false nofun ?_
      rintro ⟨flaw, hfirst, -⟩
      exact hnone flaw hfirst.1
    · rw [herror, Except.error.injEq]
      refine ⟨fun h => ⟨flaw, hfirst, h⟩, ?_⟩
      rintro ⟨other, hother, rfl⟩
      rw [hfirst.unique hother]

end Config
end AttributeScope
