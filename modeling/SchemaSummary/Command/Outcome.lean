import SchemaSummary.Error
import SchemaSummary.Wire.Writer

/-! # Outcomes

  What a run leaves behind on its standard streams, and its exit status.

  A failure is reported as the outermost thing that went wrong, followed by what caused it, if
  there is more to say.
-/

namespace SchemaSummary

/-- An error, possibly with what was being tried when it arose. -/
structure Failure where
  attempt : Option String := none
  error : Error
  deriving Repr, BEq, DecidableEq, Inhabited

namespace Failure

/-- What went wrong, from the outermost to the innermost. -/
def messages (f : Failure) : List String :=
  f.attempt.toList ++ f.error.message :: f.error.source?.toList

/-- The causes below the outermost message; several of them are numbered. -/
def causeText : List String → String
  | [] => ""
  | [cause] => "\nCaused by:\n    " ++ cause ++ "\n"
  | causes =>
    "\nCaused by:\n" ++
      String.join (causes.mapIdx fun i cause => "    " ++ toString i ++ ": " ++ cause ++ "\n")

/-- The report of a failure. -/
def report (f : Failure) : String :=
  match f.messages with
  | [] => ""
  | message :: causes => "Error: " ++ message ++ "\n" ++ causeText causes

end Failure

/-- What a run leaves behind. -/
structure Outcome where
  exitCode : Nat := 0
  stdout : List UInt8 := []
  stderr : String := ""
  deriving Repr, BEq, DecidableEq, Inhabited

namespace Outcome

/-- The outcome of a run that says the given text and the given log. -/
def success (text log : String) : Outcome where
  stdout := Wire.utf8Bytes text
  stderr := log

/-- The outcome of a run that fails after saying the given text and log. -/
def failure (text log : String) (f : Failure) : Outcome where
  exitCode := 1
  stdout := Wire.utf8Bytes text
  stderr := log ++ f.report

end Outcome

end SchemaSummary
