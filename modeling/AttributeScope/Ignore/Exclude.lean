import AttributeScope.Failure
import AttributeScope.Glob.Compilation
import AttributeScope.Ignore.Rule

/-!
# Exclude patterns

Patterns for what a search leaves out.  Each has the meaning of a line of an ignore file in the
directory where the search begins, except that no first character is special, and a path that
any of them matches is left out.

Main results:

- `readExcludes_eq_ok_iff`: the patterns can be read exactly when each of them can.
- `excludeRules_eq_ok_iff`: they can be used exactly when they can be read and compiled together.
- `exists_walk_of_excludeRules`: if they cannot be used, the project cannot be walked.
-/

namespace AttributeScope
namespace Ignore

/-- The rule of an exclude pattern in words.  Behind the `!` of a line no character is special. -/
def excludeText? (pattern : String) : Option RuleText :=
  RuleText.ofLine? ('!' :: pattern.toList)

/-- The rule of an exclude pattern. -/
def excludeRule (pattern : String) : Except Failure (Option Rule) :=
  match excludeText? pattern with
  | none => .ok none
  | some text =>
    match text.rule false with
    | .ok rule => .ok (some rule)
    | .error fault =>
      .error (.walk s!"invalid exclude pattern '{pattern}': {text.faultMessage fault}")

/-- The rules of exclude patterns; the first malformed one is a failure. -/
def readExcludes : List String → Except Failure (List Rule)
  | [] => .ok []
  | pattern :: rest =>
    match excludeRule pattern, readExcludes rest with
    | .error failure, _ => .error failure
    | .ok _, .error failure => .error failure
    | .ok rule, .ok rules => .ok (rule.toList ++ rules)

/-- The rules of exclude patterns that are used together. -/
def excludeRules (patterns : List String) : Except Failure (List Rule) :=
  match readExcludes patterns with
  | .error failure => .error failure
  | .ok rules =>
    match Glob.compileFault? (rules.map Rule.glob) with
    | none => .ok rules
    | some fault => .error (.walk fault.message)

/-- Whether exclude patterns leave a path out. -/
def excludes (rules : List Rule) (path : RawText) (isDirectory : Bool) : Bool :=
  (verdict? rules path isDirectory).isSome

/-- The patterns can be read exactly when each of them can. -/
theorem readExcludes_eq_ok_iff {patterns : List String} :
    (∃ rules, readExcludes patterns = .ok rules) ↔
      ∀ pattern ∈ patterns, ∃ rule, excludeRule pattern = .ok rule := by
  induction patterns with
  | nil => simp [readExcludes]
  | cons pattern rest ih =>
    simp only [readExcludes, List.forall_mem_cons, ← ih]
    cases excludeRule pattern with
    | error failure => simp
    | ok rule => cases readExcludes rest <;> simp

/-- The patterns can be used exactly when they can be read and compiled together. -/
theorem excludeRules_eq_ok_iff {patterns : List String} {rules : List Rule} :
    excludeRules patterns = .ok rules ↔
      readExcludes patterns = .ok rules ∧ Glob.compileFault? (rules.map Rule.glob) = none := by
  unfold excludeRules
  cases readExcludes patterns with
  | error failure => simp
  | ok read =>
    simp only [Except.ok.injEq]
    split
    · rename_i h
      simp only [Except.ok.injEq]
      exact ⟨fun e => ⟨e, e ▸ h⟩, And.left⟩
    · rename_i h
      simp only [reduceCtorEq, false_iff, not_and]
      rintro rfl hnone
      simp [hnone] at h

/-- Without patterns nothing is left out. -/
@[simp] theorem excludes_nil (path : RawText) (isDirectory : Bool) :
    excludes [] path isDirectory = false := rfl

/-! ## What is wrong with exclude patterns -/

theorem exists_walk_of_excludeRule {pattern : String} {failure : Failure}
    (h : excludeRule pattern = .error failure) : ∃ message, failure = .walk message := by
  unfold excludeRule at h
  split at h
  · cases h
  · split at h
    · cases h
    · exact ⟨_, (Except.error.inj h).symm⟩

theorem exists_walk_of_readExcludes {patterns : List String} {failure : Failure}
    (h : readExcludes patterns = .error failure) : ∃ message, failure = .walk message := by
  induction patterns with
  | nil => cases h
  | cons pattern rest ih =>
    unfold readExcludes at h
    split at h
    · rename_i first hrule
      obtain rfl := Except.error.inj h
      exact exists_walk_of_excludeRule hrule
    · rename_i later hrest
      obtain rfl := Except.error.inj h
      exact ih hrest
    · cases h

/-- If exclude patterns cannot be used, the project cannot be walked. -/
theorem exists_walk_of_excludeRules {patterns : List String} {failure : Failure}
    (h : excludeRules patterns = .error failure) : ∃ message, failure = .walk message := by
  unfold excludeRules at h
  split at h
  · rename_i first hread
    obtain rfl := Except.error.inj h
    exact exists_walk_of_readExcludes hread
  · split at h
    · cases h
    · exact ⟨_, (Except.error.inj h).symm⟩

end Ignore
end AttributeScope
