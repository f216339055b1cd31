/-!
# Failures

Why a run ends without an answer, the message that says so, and the exit code of the program.
-/

namespace AttributeScope

/-- Why a run ends without an answer. -/
inductive Failure where
  | config (message : String)
  | argument (message : String)
  | io (path reason : String)
  | fileTooLarge (path : String) (size limit : Nat)
  /-- The project cannot be walked. -/
  | walk (message : String)
deriving DecidableEq, Repr

/-- How a run ends. -/
inductive ExitCode where
  /-- The answer was written. -/
  | success
  /-- The settings or the arguments are wrong. -/
  | usage
  /-- Something else failed. -/
  | internal
deriving DecidableEq, Repr

namespace ExitCode

/-- The number that a process ends with. -/
def toNat : ExitCode → Nat
  | success => 0
  | usage => 2
  | internal => 3

end ExitCode

namespace Failure

/-- The message of a failure. -/
def message : Failure → String
  | config message => s!"config error: {message}"
  | argument message => s!"argument error: {message}"
  | io path reason => s!"io error: {path}: {reason}"
  | fileTooLarge path size limit =>
    s!"file too large: {path} ({size} bytes, max: {limit} bytes)"
  | walk message => s!"walk error: {message}"

/-- The exit code that a failure leads to. -/
def exitCode : Failure → ExitCode
  | config _ => .usage
  | argument _ => .usage
  | io _ _ => .internal
  | fileTooLarge _ _ _ => .internal
  | walk _ => .internal

end Failure
end AttributeScope
