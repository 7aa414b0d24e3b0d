import LoxLang.Machine.Evaluation
import LoxLang.Program

/-!
# Sessions

A session runs one source text after another on one machine, so globals persist. A text that any
static stage refuses is not run and leaves the machine as it was; only identities are used up.
-/

namespace LoxLang

/-- What running one source text came to. -/
structure Outcome where
  diagnostics : List Diagnostic
  /-- Whether the program was started at all. -/
  ran : Bool
deriving DecidableEq, Repr

namespace Outcome

/-- The exit status for a text that was not run. -/
def staticErrorStatus : Nat := 65

/-- The exit status for a run that stopped at a runtime fault. -/
def runtimeErrorStatus : Nat := 70

/-- Nothing was reported. -/
def isSuccess (outcome : Outcome) : Bool :=
  outcome.diagnostics.isEmpty

/-- The runtime fault that stopped the run, if any. -/
def runtimeError? (outcome : Outcome) : Option Diagnostic :=
  outcome.diagnostics.find? (·.stage = .runtime)

/-- The exit status of a process that ran the text. -/
def exitStatus (outcome : Outcome) : Nat :=
  if !outcome.ran then staticErrorStatus
  else if outcome.runtimeError?.isSome then runtimeErrorStatus
  else 0

end Outcome

/-- A machine and the first identity that no occurrence has yet. -/
structure Session where
  machine : Machine
  nextId : Nat

namespace Session

/-- A session that has run nothing. -/
def start (clock : Nat → Nat) (callLimit : Nat) : Session :=
  { machine := .start clock callLimit, nextId := 0 }

/-- Run a program that has been read. There is no answer if the fuel does not suffice. -/
def runProgram (fuel : Nat) (session : Session) (program : Program) : Option (Outcome × Session) :=
  let advanced := { session with nextId := program.nextId }
  if !program.diagnostics.isEmpty then
    some ({ diagnostics := program.diagnostics, ran := false }, advanced)
  else
    let resolution := resolve program.statements
    if !resolution.errors.isEmpty then
      some ({ diagnostics := Program.resolveDiagnostics resolution, ran := false }, advanced)
    else
      match Eval.interpret fuel program.statements
          (advanced.machine.addDistances resolution.distances) with
      | .value _ machine => some ({ diagnostics := [], ran := true }, { advanced with machine })
      | .fault error machine =>
        some ({ diagnostics := [error.diagnostic], ran := true }, { advanced with machine })
      | .outOfFuel => none

/-- Run a source text: the program that is read from it, its occurrences numbered from the first
identity that is left. -/
def run (fuel : Nat) (session : Session) (source : String) : Option (Outcome × Session) :=
  session.runProgram fuel (.ofSource source session.nextId)

/-- Take what has been written since output was taken last. -/
def takeOutput (session : Session) : String × Session :=
  let (text, machine) := session.machine.takeOutput
  (text, { session with machine })

end Session

end LoxLang
