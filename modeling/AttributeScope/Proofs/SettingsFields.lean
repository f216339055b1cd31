import AttributeScope.Config.Reading

/-!
# The fields of settings

What a document says about each setting, field by field: a field has the value that its section
gives for it, or its default if the section gives none.  Reading the settings of a document gives
exactly what its fields say.

Main results:

- Theorems `text_eq_ok_iff`, `textList_eq_ok_iff`, `count_eq_ok_iff` and `optionalText_eq_ok_iff`:
  the values of each kind.
- Theorems `scanOfSection_eq_ok_iff` and `scopesOfSection_eq_ok_iff`: the sections.
- Theorem `ofEntries_eq_ok_iff`: which settings a document holds.
- Theorem `exists_ofEntries_iff`: a document of the supported version holds settings exactly if all
  its fields have their types.
- Theorem `failsByType_ofEntries`: a document of the supported version that holds no settings fails
  by the type of a field.
-/

namespace AttributeScope
namespace Config

open Toml (Entries Value)

/-- One step after another succeeds exactly if both do. -/
theorem bind_eq_ok_iff {α β : Type} {x : Except ConfigFault α} {f : α → Except ConfigFault β}
    {b : β} : x >>= f = .ok b ↔ ∃ a, x = .ok a ∧ f a = .ok b := by
  cases x <;> simp [bind, Except.bind]

theorem map_eq_ok_iff {α β : Type} {x : Except ConfigFault α} {f : α → β} {b : β} :
    x.map f = .ok b ↔ ∃ a, x = .ok a ∧ f a = b := by
  cases x <;> simp [Except.map]

/-! ## Values -/

/-- Whether a value that may be missing is `x`, which is then the default. -/
def Holds {α : Type} (write : α → Value) (fallback : α) (value : Option Value) (x : α) : Prop :=
  value.elim (x = fallback) fun value => value = write x

/-- A value says one thing, if different things are written differently. -/
theorem Holds.unique {α : Type} {write : α → Value} (hwrite : Function.Injective write)
    {fallback x y : α} {value : Option Value} (hx : Holds write fallback value x)
    (hy : Holds write fallback value y) : x = y := by
  cases value with
  | none => exact hx.trans hy.symm
  | some value => exact hwrite (hx.symm.trans hy)

/-- A list of texts as a value. -/
def writeTexts (texts : List String) : Value := .array (texts.map .string)

/-- A number that is not negative as a value. -/
def writeCount (n : Nat) : Value := .integer n

/-- A text is read exactly as what the value says. -/
theorem text_eq_ok_iff {fallback : String} {value : Option Value} {x : String} :
    text fallback value = .ok x ↔ Holds .string fallback value x := by
  unfold Holds
  fun_cases text fallback value <;> simp_all [eq_comm]

/-- Texts are read exactly from an array of them. -/
theorem texts_eq_ok_iff {items : List Value} {x : List String} :
    texts items = .ok x ↔ items = x.map .string := by
  induction items generalizing x with
  | nil => simp [texts, eq_comm]
  | cons item rest ih =>
    cases item with
    | string text =>
      simp only [texts, map_eq_ok_iff, ih]
      cases x with
      | nil => simp
      | cons first others =>
        rw [List.map_cons, List.cons.injEq, Value.string.injEq]
        constructor
        · rintro ⟨_, rfl, h⟩
          cases h
          exact ⟨rfl, rfl⟩
        · rintro ⟨rfl, rfl⟩
          exact ⟨others, rfl, rfl⟩
    | _ => cases x <;> simp [texts]

/-- A list of texts is read exactly as what the value says, and is empty by default. -/
theorem textList_eq_ok_iff {value : Option Value} {x : List String} :
    textList value = .ok x ↔ Holds writeTexts [] value x := by
  unfold Holds writeTexts
  fun_cases textList value with
  | case1 => simp [eq_comm]
  | case2 items => simpa using texts_eq_ok_iff
  | case3 value hvalue => simp_all

/-- A number that is not negative is read exactly as what the value says. -/
theorem count_eq_ok_iff {fallback : Nat} {value : Option Value} {x : Nat} :
    count fallback value = .ok x ↔ Holds writeCount fallback value x := by
  unfold Holds writeCount
  fun_cases count fallback value with
  | case1 => simp [eq_comm]
  | case2 n hn =>
    have hvalue : n.toNat = x ↔ n = (x : Int) := by omega
    simpa using hvalue
  | case3 n hn =>
    have hvalue : n ≠ (x : Int) := by omega
    simpa using hvalue
  | case4 value hvalue => simp_all

/-- A text that may be left out is read as what the value says, or as its default: with a default,
it is never left out. -/
theorem optionalText_eq_ok_iff {fallback : String} {value : Option Value} {x : Option String} :
    optionalText (some fallback) value = .ok x ↔
      ∃ text, Holds .string fallback value text ∧ x = some text := by
  unfold Holds
  fun_cases optionalText (some fallback) value <;> simp_all [eq_comm]

/-! ## Fields -/

/-- What can be a section: a table, the values of its fields in their order, or a date, which has
no fields.  A section may also be missing. -/
inductive IsSection : Option Value → Prop where
  | missing : IsSection none
  | table (entries : Entries Value) : IsSection (some (.table entries))
  | array (items : List Value) : IsSection (some (.array items))
  | dateTime : IsSection (some .dateTime)

/-- What a section gives for a field, by name or by place. -/
def given? (name : String) (place : Nat) : Option Value → Option Value
  | some (.table entries) => entries.lookup name
  | some (.array items) => items[place]?
  | _ => none

/-- A field is looked up exactly if its section can be one, whatever it gives for the field. -/
theorem field?_eq_ok_iff {name : String} {place : Nat} {part value : Option Value} :
    field? name place part = .ok value ↔ IsSection part ∧ given? name place part = value := by
  fun_cases field? name place part with
  | case1 => simp [given?, IsSection.missing]
  | case2 entries => simp [given?, IsSection.table]
  | case3 items => simp [given?, IsSection.array]
  | case4 => simp [given?, IsSection.dateTime]
  | case5 part htable harray hdate =>
    refine iff_of_false (by simp) fun h => ?_
    cases h.1 with
    | table entries => exact htable entries rfl
    | array items => exact harray items rfl
    | dateTime => exact hdate rfl

/-- A field of settings. -/
structure Field (α : Type) where
  /-- The section that the field is in. -/
  part : String
  name : String
  /-- The place of the field in its section. -/
  place : Nat
  fallback : α
  write : α → Value

namespace Field

/-- The name of directive files. -/
def directiveFile : Field String := ⟨"scan", "directive_file", 0, ".gitattributes", .string⟩

/-- The patterns for what the search leaves out. -/
def exclude : Field (List String) := ⟨"scan", "exclude", 1, [], writeTexts⟩

/-- How many recursive segments of one pattern are expanded. -/
def maxRecursiveSegments : Field Nat := ⟨"scan", "max_recursive_segments", 2, 10, writeCount⟩

/-- The name of the scope of generated files. -/
def generated : Field String := ⟨"scopes", "generated", 0, "linguist-generated-true", .string⟩

/-- The name of the scope of all other files. -/
def nonGenerated : Field String :=
  ⟨"scopes", "non_generated", 1, "linguist-generated-false", .string⟩

/-- The color of the generated files. -/
def color : Field String := ⟨"scopes", "color", 2, "630330", .string⟩

variable {α : Type} (field : Field α) (entries : Entries Value)

/-- What a document gives for a field. -/
def given? : Option Value := Config.given? field.name field.place (entries.lookup field.part)

/-- Whether a document says that a field is `x`: its section can be one, and gives `x` for the
field or nothing, if `x` is the default. -/
def Says (x : α) : Prop :=
  IsSection (entries.lookup field.part) ∧ Holds field.write field.fallback (field.given? entries) x

variable {field entries}

/-- A document says one thing about a field. -/
theorem Says.unique (hwrite : Function.Injective field.write) {x y : α}
    (hx : field.Says entries x) (hy : field.Says entries y) : x = y :=
  hx.2.unique hwrite hy.2

end Field

/-! ## Sections -/

/-- The search of a document is exactly what its fields say. -/
theorem scanOfSection_eq_ok_iff {entries : Entries Value} {scan : ScanConfig} :
    scanOfSection (entries.lookup "scan") = .ok scan ↔
      Field.directiveFile.Says entries scan.directiveFile ∧
      Field.exclude.Says entries scan.exclude ∧
      Field.maxRecursiveSegments.Says entries scan.maxRecursiveSegments := by
  unfold scanOfSection
  simp only [bind_eq_ok_iff, field?_eq_ok_iff, text_eq_ok_iff, textList_eq_ok_iff,
    count_eq_ok_iff]
  constructor
  · rintro ⟨_, ⟨hsection, rfl⟩, directiveFile, hdirectiveFile, _, ⟨-, rfl⟩, exclude, hexclude, _,
      ⟨-, rfl⟩, count, hcount, hscan⟩
    cases hscan
    exact ⟨⟨hsection, hdirectiveFile⟩, ⟨hsection, hexclude⟩, ⟨hsection, hcount⟩⟩
  · rintro ⟨⟨hsection, hdirectiveFile⟩, ⟨-, hexclude⟩, -, hcount⟩
    exact ⟨_, ⟨hsection, rfl⟩, _, hdirectiveFile, _, ⟨hsection, rfl⟩, _, hexclude, _,
      ⟨hsection, rfl⟩, _, hcount, rfl⟩

/-- The scopes of a document are exactly what their fields say. -/
theorem scopesOfSection_eq_ok_iff {entries : Entries Value} {scopes : ScopesConfig} :
    scopesOfSection (entries.lookup "scopes") = .ok scopes ↔
      Field.generated.Says entries scopes.generated ∧
      Field.nonGenerated.Says entries scopes.nonGenerated ∧
      ∃ color, Field.color.Says entries color ∧ scopes.color = some color := by
  unfold scopesOfSection
  simp only [bind_eq_ok_iff, field?_eq_ok_iff, text_eq_ok_iff, optionalText_eq_ok_iff]
  constructor
  · rintro ⟨_, ⟨hsection, rfl⟩, generated, hgenerated, _, ⟨-, rfl⟩, nonGenerated, hnonGenerated, _,
      ⟨-, rfl⟩, _, ⟨color, hcolor, rfl⟩, hscopes⟩
    cases hscopes
    exact ⟨⟨hsection, hgenerated⟩, ⟨hsection, hnonGenerated⟩, color, ⟨hsection, hcolor⟩, rfl⟩
  · rintro ⟨⟨hsection, hgenerated⟩, ⟨-, hnonGenerated⟩, color, ⟨-, hcolor⟩, hsome⟩
    refine ⟨_, ⟨hsection, rfl⟩, _, hgenerated, _, ⟨hsection, rfl⟩, _, hnonGenerated, _,
      ⟨hsection, rfl⟩, _, ⟨color, hcolor, rfl⟩, ?_⟩
    rw [← hsome]
    rfl

/-! ## Documents -/

/-- The settings that a document holds: each field is what the document says. -/
structure IsFilled (entries : Entries Value) (config : Config) : Prop where
  version : entries.lookup "version" = some (.integer config.version)
  directiveFile : Field.directiveFile.Says entries config.scan.directiveFile
  exclude : Field.exclude.Says entries config.scan.exclude
  maxRecursiveSegments :
    Field.maxRecursiveSegments.Says entries config.scan.maxRecursiveSegments
  generated : Field.generated.Says entries config.scopes.generated
  nonGenerated : Field.nonGenerated.Says entries config.scopes.nonGenerated
  color : ∃ color, Field.color.Says entries color ∧ config.scopes.color = some color

/-- Every field but the version has its type. -/
structure IsTyped (entries : Entries Value) : Prop where
  directiveFile : ∃ name, Field.directiveFile.Says entries name
  exclude : ∃ patterns, Field.exclude.Says entries patterns
  maxRecursiveSegments : ∃ n, Field.maxRecursiveSegments.Says entries n
  generated : ∃ name, Field.generated.Says entries name
  nonGenerated : ∃ name, Field.nonGenerated.Says entries name
  color : ∃ color, Field.color.Says entries color

/-- Only the supported version is read. -/
theorem versionOf_eq_ok_iff {entries : Entries Value} {version : Int} :
    versionOf entries = .ok version ↔
      entries.lookup "version" = some (.integer version) ∧ version = supportedVersion := by
  unfold versionOf
  split
  · rename_i hnone
    simp [hnone]
  · rename_i found hfound
    split
    · rename_i hsupported
      simp only [hfound, Except.ok.injEq, Option.some.injEq, Value.integer.injEq]
      exact ⟨fun h => ⟨h, h ▸ hsupported⟩, fun h => h.1⟩
    · rename_i hsupported
      simp only [hfound, reduceCtorEq, Option.some.injEq, Value.integer.injEq, false_iff]
      rintro ⟨rfl, h⟩
      exact hsupported h
  · rename_i value hvalue hfound
    simp only [hfound, reduceCtorEq, Option.some.injEq, false_iff]
    rintro ⟨rfl, -⟩
    exact hvalue version rfl

/-- A document holds settings exactly if it has the supported version, and then those that its
fields say. -/
theorem ofEntries_eq_ok_iff {entries : Entries Value} {config : Config} :
    ofEntries entries = .ok config ↔
      IsFilled entries config ∧ config.version = supportedVersion := by
  unfold ofEntries
  simp only [bind_eq_ok_iff, versionOf_eq_ok_iff, scanOfSection_eq_ok_iff,
    scopesOfSection_eq_ok_iff]
  constructor
  · rintro ⟨version, ⟨hversion, hsupported⟩, scan, ⟨hfile, hexclude, hcount⟩, scopes,
      ⟨hgenerated, hnonGenerated, hcolor⟩, hconfig⟩
    cases hconfig
    exact ⟨⟨hversion, hfile, hexclude, hcount, hgenerated, hnonGenerated, hcolor⟩, hsupported⟩
  · rintro ⟨⟨hversion, hfile, hexclude, hcount, hgenerated, hnonGenerated, hcolor⟩, hsupported⟩
    exact ⟨_, ⟨hversion, hsupported⟩, _, ⟨hfile, hexclude, hcount⟩, _,
      ⟨hgenerated, hnonGenerated, hcolor⟩, rfl⟩

/-- A document of the supported version holds settings exactly if all fields have their types. -/
theorem exists_ofEntries_iff {entries : Entries Value}
    (hversion : entries.lookup "version" = some (.integer supportedVersion)) :
    (∃ config, ofEntries entries = .ok config) ↔ IsTyped entries := by
  constructor
  · rintro ⟨config, h⟩
    rcases (ofEntries_eq_ok_iff.mp h).1 with
      ⟨-, hfile, hexclude, hcount, hgenerated, hnonGenerated, color, hcolor, -⟩
    exact ⟨⟨_, hfile⟩, ⟨_, hexclude⟩, ⟨_, hcount⟩, ⟨_, hgenerated⟩, ⟨_, hnonGenerated⟩,
      ⟨color, hcolor⟩⟩
  · rintro ⟨⟨file, hfile⟩, ⟨exclude, hexclude⟩, ⟨count, hcount⟩, ⟨generated, hgenerated⟩,
      ⟨nonGenerated, hnonGenerated⟩, color, hcolor⟩
    refine ⟨⟨supportedVersion, ⟨file, exclude, count⟩, generated, nonGenerated, some color⟩, ?_⟩
    exact ofEntries_eq_ok_iff.mpr
      ⟨⟨hversion, hfile, hexclude, hcount, hgenerated, hnonGenerated, color, hcolor, rfl⟩, rfl⟩

/-! ## Wrong types -/

/-- Reading fails for no other reason than a value of a wrong type. -/
def FailsByType {α : Type} (x : Except ConfigFault α) : Prop :=
  ∀ fault, x = .error fault → fault = .fieldType

section FailsByType

variable {α β : Type}

theorem failsByType_pure (a : α) : FailsByType (pure a) := fun _ h => by cases h

/-- If neither of two steps fails for another reason, both in a row do not. -/
theorem FailsByType.bind {x : Except ConfigFault α} {f : α → Except ConfigFault β}
    (hx : FailsByType x) (hf : ∀ a, FailsByType (f a)) : FailsByType (x >>= f) := by
  cases x with
  | error fault => exact fun other h => hx other (congrArg Except.error (Except.error.inj h))
  | ok a => exact hf a

/-- What is no section has the wrong type. -/
theorem failsByType_field? (name : String) (place : Nat) (part : Option Value) :
    FailsByType (field? name place part) := by
  intro fault
  fun_cases field? name place part <;> simp_all [eq_comm]

theorem failsByType_text (fallback : String) (value : Option Value) :
    FailsByType (text fallback value) := by
  intro fault
  fun_cases text fallback value <;> simp_all [eq_comm]

/-- The first item that is no text decides, and it has the wrong type. -/
theorem failsByType_texts (items : List Value) : FailsByType (texts items) := by
  induction items with
  | nil => exact failsByType_pure []
  | cons item rest ih =>
    cases item with
    | string text => exact ih.bind fun others => failsByType_pure (text :: others)
    | _ => exact fun fault h => (Except.error.inj h).symm

theorem failsByType_textList (value : Option Value) : FailsByType (textList value) := by
  fun_cases textList value with
  | case1 => exact failsByType_pure []
  | case2 items => exact failsByType_texts items
  | case3 => exact fun fault h => (Except.error.inj h).symm

/-- A negative number counts as one of the wrong type. -/
theorem failsByType_count (fallback : Nat) (value : Option Value) :
    FailsByType (count fallback value) := by
  intro fault
  fun_cases count fallback value <;> simp_all [eq_comm]

theorem failsByType_optionalText (fallback : Option String) (value : Option Value) :
    FailsByType (optionalText fallback value) := by
  intro fault
  fun_cases optionalText fallback value <;> simp_all [eq_comm]

end FailsByType

/-- All fields of the search fail by their types only, one after the other. -/
theorem failsByType_scanOfSection (part : Option Value) : FailsByType (scanOfSection part) :=
  (failsByType_field? _ _ _).bind fun _ => (failsByType_text _ _).bind fun _ =>
    (failsByType_field? _ _ _).bind fun _ => (failsByType_textList _).bind fun _ =>
      (failsByType_field? _ _ _).bind fun _ => (failsByType_count _ _).bind fun _ =>
        failsByType_pure _

/-- So do all fields of the scopes. -/
theorem failsByType_scopesOfSection (part : Option Value) : FailsByType (scopesOfSection part) :=
  (failsByType_field? _ _ _).bind fun _ => (failsByType_text _ _).bind fun _ =>
    (failsByType_field? _ _ _).bind fun _ => (failsByType_text _ _).bind fun _ =>
      (failsByType_field? _ _ _).bind fun _ => (failsByType_optionalText _ _).bind fun _ =>
        failsByType_pure _

/-- A document of the supported version fails by the type of a field. -/
theorem failsByType_ofEntries {entries : Entries Value}
    (hversion : entries.lookup "version" = some (.integer supportedVersion)) :
    FailsByType (ofEntries entries) := by
  have hread : versionOf entries = .ok supportedVersion := versionOf_eq_ok_iff.mpr ⟨hversion, rfl⟩
  unfold ofEntries
  rw [hread]
  exact (failsByType_scanOfSection _).bind fun _ => (failsByType_scopesOfSection _).bind fun _ =>
    failsByType_pure _

end Config
end AttributeScope
