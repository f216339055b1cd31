import AttributeScope.Glob.Measure
import AttributeScope.Glob.Rendering

/-!
# Compiling globs together

The globs of one file, or of one list of patterns, are compiled together.  Globs that are plain
texts around at most one run need no automaton.  Those that end in an extension are compiled each
by itself, those that look at nothing but a name make up one set, and all others make up another.
None may be nested too deeply, and no automaton may be too large.

Main results:

- `compileFault?_of_comparison`: globs that need no automaton can always be compiled.
-/

namespace AttributeScope
namespace Glob

/-- How a glob is matched. -/
inductive Strategy where
  /-- By comparing texts. -/
  | comparison
  /-- By an automaton of its own, after its extension. -/
  | extension
  /-- By the automaton for names. -/
  | name
  /-- By the automaton for paths. -/
  | path
deriving DecidableEq, Repr

/-- Whether a token is a character that stands for itself, and none of some others. -/
def Token.isLiteralOutside (others : List Char) : Token → Bool
  | .literal c => !others.contains c
  | _ => false

/-- Whether a token is a character that stands for itself. -/
def Token.isLiteral (token : Token) : Bool := token.isLiteralOutside []

/-- Whether a token is a given character. -/
def Token.isExactly (c : Char) : Token → Bool
  | .literal d => d == c
  | _ => false

/-- Whether a token stays within a name. -/
def Token.isInName : Token → Bool
  | .literal c => c != '/'
  | .anyOne => true
  | .anyRun => true
  | .oneOf _ _ => true
  | _ => false

/-- Whether tokens are a text, possibly with all that is below it. -/
def isPath : List Token → Bool
  | [.contents] => true
  | [token] => token.isLiteral
  | token :: rest => token.isLiteral && isPath rest
  | [] => false

/-- Whether tokens are a text, everywhere or not, or everything with an extension. -/
def needsNoAutomaton : List Token → Bool
  | .descend :: .anyRun :: .literal '.' :: rest => rest.all (·.isLiteralOutside ['.', '/'])
  | .descend :: first :: rest => first.isLiteral && rest.all (·.isLiteral)
  | tokens => isPath tokens

/-- Whether tokens end in an extension: a dot and, after it, characters of a name. -/
def endsInExtension (tokens : List Token) : Bool :=
  (tokens.reverse.dropWhile (·.isLiteralOutside ['.', '/'])).head?.any (·.isExactly '.')

/-- Whether tokens match in every directory, and look at nothing but a name there. -/
def isNameOnly : List Token → Bool
  | .descend :: first :: rest => first.isInName && rest.all (·.isInName)
  | _ => false

/-- How tokens are matched. -/
def strategy (tokens : List Token) : Strategy :=
  if needsNoAutomaton tokens then .comparison
  else if endsInExtension tokens then .extension
  else if isNameOnly tokens then .name
  else .path

/-- How deeply an expression may be nested. -/
def maxHeight : Nat := 250

/-- How large an automaton may be, in bytes. -/
def maxAutomatonSize : Nat := 10 * 1024 * 1024

/-- Why there is no automaton for a set of globs. -/
inductive AutomatonFault where
  /-- The glob with that number in the set is nested too deeply. -/
  | nestedTooDeeply (index : Nat)
  | tooLarge
deriving DecidableEq, Repr

/-- The message of a fault. -/
def AutomatonFault.message : AutomatonFault → String
  | nestedTooDeeply index => s!"error parsing pattern {index}"
  | tooLarge => "error building NFA"

/-- Why globs cannot be compiled together. -/
inductive CompileFault where
  /-- There is no automaton for several of them. -/
  | together (fault : AutomatonFault)
  /-- There is no automaton for the one with that expression. -/
  | alone (expression : String) (fault : AutomatonFault)
deriving DecidableEq, Repr

/-- The message of a fault. -/
def CompileFault.message : CompileFault → String
  | together fault => fault.message
  | alone expression fault => s!"error parsing glob '{expression}': {fault.message}"

/-- Why there is no automaton for a set of globs, if there is none. -/
def automatonFault? (globs : List (List Token)) : Option AutomatonFault :=
  match globs.findIdx? fun tokens => maxHeight < height tokens with
  | some index => some (.nestedTooDeeply index)
  | none => if maxAutomatonSize < automatonSize globs then some .tooLarge else none

/-- Why there is no automaton for one glob, if there is none. -/
def aloneFault? (tokens : List Token) : Option CompileFault :=
  (automatonFault? [tokens]).map fun fault => .alone (expressionText tokens) fault

/-- The globs that are matched in a given way. -/
def matchedBy (way : Strategy) (globs : List (List Token)) : List (List Token) :=
  globs.filter fun tokens => strategy tokens = way

/-- Why globs cannot be compiled together, if they cannot.  Those with an extension come first. -/
def compileFault? (globs : List (List Token)) : Option CompileFault :=
  ((matchedBy .extension globs).findSome? aloneFault?).or
    (((automatonFault? (matchedBy .name globs)).or (automatonFault? (matchedBy .path globs))).map
      .together)

/-- Globs that need no automaton can always be compiled. -/
theorem compileFault?_of_comparison {globs : List (List Token)}
    (h : ∀ tokens ∈ globs, strategy tokens = .comparison) : compileFault? globs = none := by
  have key : ∀ way, way ≠ .comparison → matchedBy way globs = [] := by
    intro way hway
    simp only [matchedBy, List.filter_eq_nil_iff, decide_eq_true_eq]
    exact fun tokens ht hs => hway (hs.symm.trans (h tokens ht))
  have hnil : automatonFault? [] = none := by decide
  simp [compileFault?, key .extension (by decide), key .name (by decide), key .path (by decide),
    hnil]

example : ([[.descend, .anyRun, .literal '.', .literal 'o'],
    [.descend, .literal 'a', .anyRun, .literal '.', .literal 'o'],
    [.descend, .literal 'a', .anyRun],
    [.descend, .literal 'a', .alternatives [[.literal 'b']]]].map strategy) =
    [.comparison, .extension, .name, .path] := by decide +kernel

end Glob
end AttributeScope
