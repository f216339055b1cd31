import AttributeScope.Proofs.JsonTexts
import AttributeScope.Report.Document

/-!
# What JSON reports tell

A reader for the documents of reports.  It finds what it needs by the names of members, wherever
they stand; a scope without a color has no member for it, and neither has a report without
unreadable files for these.

Main results:

- Theorem `ScopeExpr.ofJson?_toJson`: expressions of any depth are found again.
- Theorem `Report.ofJson?_toJson`: so are reports.
- Theorem `Report.hasDistinctNames_toJson`: no name is used twice in one object of a report.
- Theorem `Report.toDocument_lossless`: the document of a report is a JSON text, and tells the
  report.
-/

namespace AttributeScope

/-! ## Parts of values -/

namespace Json

/-- The text of a string. -/
def string? : Json → Option String
  | string text => some text
  | _ => none

/-- What a number is. -/
def number? : Json → Option Nat
  | number value => some value
  | _ => none

/-- What a truth value is. -/
def bool? : Json → Option Bool
  | bool value => some value
  | _ => none

/-- The texts in an array of strings. -/
def strings? : Json → Option (List String)
  | array items => items.mapM string?
  | _ => none

/-- The value of the member with a name. -/
def member? (value : Json) (name : String) : Option Json :=
  match value with
  | object members => members.lookup name
  | _ => none

@[simp] theorem member?_nil (name : String) : (object []).member? name = none := rfl

/-- The first member of a name is found. -/
@[simp] theorem member?_self (name : String) (value : Json) (rest : List (String × Json)) :
    (object ((name, value) :: rest)).member? name = some value :=
  List.lookup_cons_self

/-- Members of other names are passed over. -/
@[simp] theorem member?_of_ne {name other : String} (h : name ≠ other) (value : Json)
    (rest : List (String × Json)) :
    (object ((other, value) :: rest)).member? name = (object rest).member? name := by
  have hne : (name == other) = false := beq_eq_false_iff_ne.mpr h
  simp [member?, List.lookup_cons, hne]

/-- Texts are found again in their array. -/
@[simp] theorem strings?_strings (texts : List String) : (strings texts).strings? = some texts := by
  unfold strings strings?
  dsimp only
  induction texts with
  | nil => rfl
  | cons text rest ih => simp [List.mapM_cons, ih, string?]

/-- The document of a value is one of its texts. -/
theorem isTextOf_document (value : Json) : value.IsTextOf value.document.toList := by
  have htext := isSpelled value 0 (.blank (c := '\n') rfl .nil) (endsWord_cons (by decide) [])
  rw [List.append_nil] at htext
  unfold IsTextOf document indented
  rw [String.toList_append, String.toList_ofList]
  exact htext

/-- No object in a value has two members with one name. -/
inductive HasDistinctNames : Json → Prop where
  | bool (value : Bool) : HasDistinctNames (.bool value)
  | number (value : Nat) : HasDistinctNames (.number value)
  | string (text : String) : HasDistinctNames (.string text)
  | array {items : List Json} (h : ∀ item ∈ items, HasDistinctNames item) :
      HasDistinctNames (.array items)
  | object {members : List (String × Json)} (hnames : (members.map Prod.fst).Nodup)
      (h : ∀ member ∈ members, HasDistinctNames member.2) : HasDistinctNames (.object members)

theorem hasDistinctNames_strings (texts : List String) : (strings texts).HasDistinctNames := by
  refine .array fun item hitem => ?_
  rcases List.mem_map.mp hitem with ⟨text, -, rfl⟩
  exact .string text

end Json

/-! ## Expressions -/

namespace ScopeExpr

/-- What holds of an operator if it holds of its operands holds of all expressions if it holds of
the empty one and of patterns. -/
@[elab_as_elim]
theorem inductionOn {motive : ScopeExpr → Prop} (empty : motive .empty)
    (literal : ∀ pattern, motive (.literal pattern))
    (union : ∀ operands, (∀ operand ∈ operands, motive operand) → motive (.union operands))
    (complement : ∀ operand, motive operand → motive (.complement operand))
    (intersection : ∀ operands, (∀ operand ∈ operands, motive operand) →
      motive (.intersection operands)) (expression : ScopeExpr) : motive expression :=
  ScopeExpr.rec empty literal union complement intersection (fun _ h => nomatch h)
    (fun _ _ hoperand hrest => List.forall_mem_cons.mpr ⟨hoperand, hrest⟩) expression

mutual
/-- The expression that a value stands for. -/
def ofJson? : Json → Option ScopeExpr
  | .object members =>
    match members.lookup "kind" with
    | some (.string kind) => ofKind? kind members
    | _ => none
  | _ => none

/-- The expression of a kind, with the value among the members of an object. -/
def ofKind? (kind : String) : List (String × Json) → Option ScopeExpr
  | [] => if kind = "empty" then some empty else none
  | (name, value) :: rest =>
    if name = "value" then
      match kind, value with
      | "literal", .string pattern => some (literal pattern)
      | "union", .array operands => (ofJsonList? operands).map union
      | "complement", operand => (ofJson? operand).map complement
      | "intersection", .array operands => (ofJsonList? operands).map intersection
      | _, _ => none
    else ofKind? kind rest

/-- The expressions that values stand for. -/
def ofJsonList? : List Json → Option (List ScopeExpr)
  | [] => some []
  | value :: rest => do
    let operand ← ofJson? value
    let operands ← ofJsonList? rest
    return operand :: operands
end

/-- The operands of an expression are written one by one. -/
theorem toJsonList_eq_map (operands : List ScopeExpr) :
    toJsonList operands = operands.map toJson := by
  induction operands with
  | nil => rfl
  | cons operand rest ih => rw [toJsonList, ih, List.map_cons]

/-- Operands are found again if each of them is. -/
theorem ofJsonList?_toJsonList {operands : List ScopeExpr}
    (h : ∀ operand ∈ operands, ofJson? operand.toJson = some operand) :
    ofJsonList? (toJsonList operands) = some operands := by
  induction operands with
  | nil => rfl
  | cons operand rest ih =>
    rw [List.forall_mem_cons] at h
    rw [toJsonList, ofJsonList?, h.1, ih h.2]
    rfl

/-- Expressions of any depth are found again. -/
@[simp] theorem ofJson?_toJson (expression : ScopeExpr) :
    ofJson? expression.toJson = some expression := by
  induction expression using inductionOn with
  | empty => simp [toJson, ofJson?, ofKind?]
  | literal pattern => simp [toJson, ofJson?, ofKind?]
  | union operands ih => simp [toJson, ofJson?, ofKind?, ofJsonList?_toJsonList ih]
  | complement operand ih => simp [toJson, ofJson?, ofKind?, ih]
  | intersection operands ih => simp [toJson, ofJson?, ofKind?, ofJsonList?_toJsonList ih]

/-- An expression has one `kind` and at most one `value`, and so have its operands. -/
theorem hasDistinctNames_toJson (expression : ScopeExpr) : expression.toJson.HasDistinctNames := by
  have hoperands : ∀ {operands : List ScopeExpr},
      (∀ operand ∈ operands, operand.toJson.HasDistinctNames) →
        (Json.array (toJsonList operands)).HasDistinctNames := by
    intro operands h
    refine .array fun item hitem => ?_
    rw [toJsonList_eq_map, List.mem_map] at hitem
    rcases hitem with ⟨operand, hoperand, rfl⟩
    exact h operand hoperand
  induction expression using inductionOn with
  | empty => exact .object (by simp) (by simpa using .string "empty")
  | literal pattern =>
    exact .object (by simp) (by simpa using ⟨.string "literal", .string pattern⟩)
  | union operands ih =>
    exact .object (by simp) (by simpa using ⟨.string "union", hoperands ih⟩)
  | complement operand ih =>
    exact .object (by simp) (by simpa using ⟨.string "complement", ih⟩)
  | intersection operands ih =>
    exact .object (by simp) (by simpa using ⟨.string "intersection", hoperands ih⟩)

end ScopeExpr

/-! ## Classifications, counters and scopes -/

namespace Classification

/-- The entry that a member with a truth value stands for. -/
def verdict? (member : String × Json) : Option (String × Bool) :=
  member.2.bool?.map fun generated => (member.1, generated)

/-- The classification that a value stands for. -/
def ofJson? : Json → Option Classification
  | .object members => (members.mapM verdict?).map Classification.mk
  | _ => none

/-- The entries of a classification are found again, in their order. -/
theorem mapM_verdict? (entries : List (String × Bool)) :
    (entries.map fun (pattern, generated) => (pattern, Json.bool generated)).mapM verdict? =
      some entries := by
  induction entries with
  | nil => rfl
  | cons entry rest ih =>
    rw [List.map_cons, List.mapM_cons, ih]
    rfl

@[simp] theorem ofJson?_toJson (m : Classification) : ofJson? m.toJson = some m := by
  unfold toJson ofJson?
  dsimp only
  rw [mapM_verdict?]
  rfl

/-- The patterns of a classification are the names of its members, so that they have to be
different. -/
theorem hasDistinctNames_toJson {m : Classification} (h : Ordered m.toList) :
    m.toJson.HasDistinctNames := by
  refine .object ?_ fun member hmember => ?_
  · rw [List.map_map]
    exact List.Pairwise.map Prod.fst (fun _ _ hlt heq => String.lt_irrefl _ (heq ▸ hlt)) h
  · rcases List.mem_map.mp hmember with ⟨entry, -, rfl⟩
    exact .bool entry.2

end Classification

namespace Stats

/-- The counters that a value stands for. -/
def ofJson? (value : Json) : Option Stats := do
  let files ← value.member? "files" >>= Json.number?
  let directives ← value.member? "directives" >>= Json.number?
  let unencodable ← value.member? "unencodable" >>= Json.number?
  let overLimit ← value.member? "over_limit" >>= Json.number?
  return { files, directives, unencodable, overLimit }

/-- Counters are found again by their names. -/
@[simp] theorem ofJson?_toJson (stats : Stats) : ofJson? stats.toJson = some stats := by
  simp [ofJson?, toJson, Json.number?]

theorem hasDistinctNames_toJson (stats : Stats) : stats.toJson.HasDistinctNames :=
  .object (by simp) (by simpa using ⟨.number _, .number _, .number _, .number _⟩)

end Stats

namespace NamedScope

/-- The scope that a value stands for. -/
def ofJson? (value : Json) : Option NamedScope := do
  let name ← value.member? "name" >>= Json.string?
  let color ← match value.member? "color" with
    | none => some none
    | some color => color.string?.map some
  let pattern ← value.member? "pattern" >>= Json.string?
  let expression ← value.member? "expression" >>= ScopeExpr.ofJson?
  return { name, color, pattern, expression }

/-- Scopes are found again, with a color or without one. -/
@[simp] theorem ofJson?_toJson (scope : NamedScope) : ofJson? scope.toJson = some scope := by
  rcases scope with ⟨name, color, pattern, expression⟩
  cases color <;> simp [ofJson?, toJson, optionalMember, Json.string?]

theorem hasDistinctNames_toJson (scope : NamedScope) : scope.toJson.HasDistinctNames := by
  rcases scope with ⟨name, color, pattern, expression⟩
  have hexpression := expression.hasDistinctNames_toJson
  cases color with
  | none =>
    refine .object (by simp [optionalMember]) ?_
    simpa [optionalMember] using ⟨.string name, .string pattern, hexpression⟩
  | some color =>
    refine .object (by simp [optionalMember]) ?_
    simpa [optionalMember] using ⟨.string name, .string color, .string pattern, hexpression⟩

end NamedScope

/-! ## Reports -/

namespace Report

/-- The report that a value stands for. -/
def ofJson? (value : Json) : Option Report := do
  let timestamp ← value.member? "timestamp" >>= Json.string?
  let files ← value.member? "files" >>= Json.strings?
  let unreadable ← match value.member? "unreadable" with
    | none => some []
    | some paths => paths.strings?
  let stats ← value.member? "stats" >>= Stats.ofJson?
  let classification ← value.member? "classification" >>= Classification.ofJson?
  let generated ← value.member? "generated" >>= NamedScope.ofJson?
  let nonGenerated ← value.member? "non_generated" >>= NamedScope.ofJson?
  return { timestamp, files, unreadable, stats, classification, generated, nonGenerated }

/-- The report that a JSON text tells. -/
def ofText? (text : String) : Option Report := (Json.ofText? text).bind ofJson?

/-- Reports are found again, with unreadable files or without any. -/
theorem ofJson?_toJson (report : Report) : ofJson? report.toJson = some report := by
  rcases report with ⟨timestamp, files, unreadable, stats, classification, generated, nonGenerated⟩
  by_cases hunreadable : unreadable = []
  · subst hunreadable
    simp [ofJson?, toJson, Json.string?]
  · simp [ofJson?, toJson, hunreadable, Json.string?]

/-- No name is used twice in one object of a report. -/
theorem hasDistinctNames_toJson {report : Report}
    (h : Classification.Ordered report.classification.toList) :
    report.toJson.HasDistinctNames := by
  have hstats := report.stats.hasDistinctNames_toJson
  have hclassification := Classification.hasDistinctNames_toJson h
  have hgenerated := report.generated.hasDistinctNames_toJson
  have hnonGenerated := report.nonGenerated.hasDistinctNames_toJson
  have hfiles := Json.hasDistinctNames_strings report.files
  have hunreadable := Json.hasDistinctNames_strings report.unreadable
  have htimestamp := Json.HasDistinctNames.string report.timestamp
  unfold toJson
  split_ifs
  · exact .object (by simp) (by simpa using
      ⟨htimestamp, hfiles, hstats, hclassification, hgenerated, hnonGenerated⟩)
  · exact .object (by simp) (by simpa using
      ⟨htimestamp, hfiles, hunreadable, hstats, hclassification, hgenerated, hnonGenerated⟩)

/-- The document of a report is a JSON text and a line break.  From either the report is read again,
whatever it holds: no two reports have one document.  No object in it uses a name twice, so it does
not matter what a reader does with such names. -/
theorem toDocument_lossless :
    (∀ report : Report,
      ∃ text, report.toDocument = text ++ "\n" ∧ report.toJson.IsTextOf text.toList ∧
        ofText? text = some report ∧ ofText? report.toDocument = some report ∧
        (Classification.Ordered report.classification.toList →
          report.toJson.HasDistinctNames)) ∧
      Function.Injective toDocument := by
  have hread : ∀ report : Report, ofText? report.toDocument = some report := by
    intro report
    have hdocument := Json.ofText?_eq_some_iff.mpr report.toJson.isTextOf_document
    unfold ofText? toDocument
    rw [hdocument, Option.bind_some, ofJson?_toJson]
  constructor
  · intro report
    have hindented := report.toJson.isTextOf_indented
    refine ⟨report.toJson.indented, rfl, hindented, ?_, hread report, hasDistinctNames_toJson⟩
    unfold ofText?
    rw [Json.ofText?_eq_some_iff.mpr hindented, Option.bind_some, ofJson?_toJson]
  · intro report other heq
    have hother := hread other
    rw [← heq, hread report] at hother
    exact Option.some.inj hother

/-- A report with names that are escaped in a string, an empty color and nested expressions. -/
def escapedReport : Report :=
  { timestamp := "\x01\x7f"
    files := ["a \"b\"", "c\\d"]
    unreadable := ["\t"]
    stats := { files := 2, directives := 10, unencodable := 0, overLimit := 1 }
    classification := ⟨[("", true), ("kind", false)]⟩
    generated := .ofExpr "generated\n" none (.union [.literal "", .complement .empty])
    nonGenerated :=
      { name := "other", color := some "", pattern := "é",
        expression := .complement (.intersection [.union [], .literal "/"]) } }

/-- Texts with quotation marks, backslashes and control characters are read again. -/
theorem toDocument_lossless_escaped :
    Classification.Ordered escapedReport.classification.toList ∧
      escapedReport.toJson.HasDistinctNames ∧
      ∃ text, escapedReport.toDocument = text ++ "\n" ∧ ofText? text = some escapedReport := by
  have hordered : Classification.Ordered escapedReport.classification.toList := by
    unfold Classification.Ordered
    decide +kernel
  rcases toDocument_lossless.1 escapedReport with ⟨text, htext, -, hread, -, hnames⟩
  exact ⟨hordered, hnames hordered, text, htext, hread⟩

end Report
end AttributeScope
