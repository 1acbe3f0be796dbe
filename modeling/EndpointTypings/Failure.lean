import EndpointTypings.Error

/-!
# Failures

A run that fails does so for one cause, to which the steps on the way out add what they were doing.
The exit code depends on the cause alone, however much is added. The exit codes of section 13 of the
specification are 0, 1 and 2; a program that is stopped has one more.
-/

namespace EndpointTypings

/-- The exit code of a process. -/
structure ExitCode where
  /-- The code, a number of 32 bits with a sign. -/
  value : Int
  deriving DecidableEq, Repr

namespace ExitCode

/-- All went well. -/
def success : ExitCode := ⟨0⟩

/-- Something failed. -/
def failure : ExitCode := ⟨1⟩

/-- What the user gave was not acceptable. -/
def invalidInput : ExitCode := ⟨2⟩

/-- The program stopped at once. -/
def stopped : ExitCode := ⟨101⟩

/-- The exit code of a run of which nothing else is known. -/
def standard : ExitCode := success

/-- Whether all went well. -/
def isSuccess (code : ExitCode) : Bool := code = success

end ExitCode

/-- What a run fails for. -/
inductive Cause where
  /-- An error of the program. -/
  | error (error : Error)
  /-- Anything else, of which only the words are known. -/
  | message (text : String)
  deriving DecidableEq, Repr

/-- A failed run. -/
structure Failure where
  /-- What the steps on the way out were doing, the outermost first. -/
  contexts : List String
  /-- What it failed for. -/
  cause : Cause
  deriving DecidableEq, Repr

namespace Failure

/-- The failure of an error to which nothing is added. -/
def ofError (error : Error) : Failure := ⟨[], .error error⟩

/-- The failure with what one more step was doing. -/
def within (context : String) (failure : Failure) : Failure :=
  { failure with contexts := context :: failure.contexts }

/-- The words of a failure, from what the outermost step was doing to the source of the cause. -/
def chain (failure : Failure) : List String :=
  failure.contexts ++
    match failure.cause with
    | .message text => [text]
    | .error error => error.message :: error.source?.toList

/-- The words of a failure on one line. -/
def message (failure : Failure) : String :=
  String.intercalate ": " failure.chain

/-- The exit code of a failed run. -/
def exitCode (failure : Failure) : ExitCode :=
  match failure.cause with
  | .error error => if error.isUserError then .invalidInput else .failure
  | .message _ => .failure

end Failure

end EndpointTypings
