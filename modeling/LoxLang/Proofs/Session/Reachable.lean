import LoxLang.Proofs.Machine.Evolution
import LoxLang.Session

/-!
# Sessions that a host can bring about

`Session.Reachable` closes the fresh sessions under finished runs and under what a host may do
between two runs. `Session.run_cases` says once what a finished run can come to. Together with
the evolution of machines they give `context_restored`: no evaluator changes the environment or the
call depth for good, so a session between two runs is always at its top level.
-/

namespace LoxLang

/-- A text that the scanner, the parser and scope resolution all accept. -/
structure Program.Accepted (program : Program) : Prop where
  read : program.diagnostics = []
  resolved : (resolve program.statements).errors = []

/-- A text is read in full if neither the scanner nor the parser reports anything. -/
theorem Program.ofSource_read_iff {source : String} {firstId : Nat} :
    (ofSource source firstId).diagnostics = [] ↔
      scanDiagnostics (scan source) = [] ∧
        (parse (scannedTokens (scan source)) firstId).errors = [] := by
  simp only [ofSource, List.append_eq_nil_iff, List.map_eq_nil_iff]

namespace Session

variable {session after : Session} {fuel : Nat} {source : String} {outcome : Outcome}

/-- The program that a session reads from a text. -/
def program (session : Session) (source : String) : Program :=
  .ofSource source session.nextId

/-- The machine on which a session starts a text that it accepts. -/
def loaded (session : Session) (source : String) : Machine :=
  session.machine.addDistances (resolve (session.program source).statements).distances

/-- The sessions that a host can bring about: it starts one, runs texts, and between two runs may
take the output elsewhere or set another call limit. -/
inductive Reachable : Session → Prop where
  | start (clock : Nat → Nat) (callLimit : Nat) : Reachable (.start clock callLimit)
  | run {session after : Session} {fuel : Nat} {source : String} {outcome : Outcome}
      (prior : Reachable session) (ended : session.run fuel source = some (outcome, after)) :
      Reachable after
  | redirect {session : Session} (prior : Reachable session) (sink : Sink) :
      Reachable { session with machine := { session.machine with sink } }
  | limitCalls {session : Session} (prior : Reachable session) (callLimit : Nat) :
      Reachable { session with machine := { session.machine with callLimit } }

/-- A text that some stage refuses only uses up identities. -/
theorem run_of_refused (fuel : Nat) (refused : ¬ (session.program source).Accepted) :
    ∃ diagnostics, session.run fuel source =
      some ({ diagnostics, ran := false },
        { session with nextId := (session.program source).nextId }) := by
  unfold run runProgram
  rw [← program]
  by_cases read : (session.program source).diagnostics = []
  · have unresolved : (resolve (session.program source).statements).errors ≠ [] :=
      fun resolved => refused ⟨read, resolved⟩
    exact ⟨Program.resolveDiagnostics (resolve (session.program source).statements), by
      simp [read, unresolved]⟩
  · exact ⟨(session.program source).diagnostics, by simp [read]⟩

/-- What a session makes of the ending of a program that was started. -/
def settle (nextId : Nat) : Ending Unit → Option (Outcome × Session)
  | .value _ machine => some ({ diagnostics := [], ran := true }, { machine, nextId })
  | .fault error machine =>
    some ({ diagnostics := [error.diagnostic], ran := true }, { machine, nextId })
  | .outOfFuel => none

/-- A program that all stages accept is run on the machine that knows its distances. -/
theorem runProgram_of_accepted {program : Program} (accepted : program.Accepted) (fuel : Nat)
    (session : Session) :
    session.runProgram fuel program =
      settle program.nextId (Eval.interpret fuel program.statements
        (session.machine.addDistances (resolve program.statements).distances)) := by
  simp only [runProgram, accepted.read, accepted.resolved, List.isEmpty_nil, Bool.not_true,
    Bool.false_eq_true, if_false]
  rfl

/-- A text that all stages accept is run from the loaded machine. -/
theorem run_of_accepted (accepted : (session.program source).Accepted) :
    session.run fuel source = settle (session.program source).nextId
      (Eval.interpret fuel (session.program source).statements (session.loaded source)) :=
  runProgram_of_accepted accepted fuel session

/-- What a finished run has come to: the text was refused, or it was started and either reached its
end or stopped at a fault. -/
theorem run_cases (ended : session.run fuel source = some (outcome, after)) :
    (¬ (session.program source).Accepted ∧ outcome.ran = false ∧
      after = { session with nextId := (session.program source).nextId }) ∨
    ((session.program source).Accepted ∧ outcome.ran = true ∧
      after.nextId = (session.program source).nextId ∧
      ((Eval.interpret fuel (session.program source).statements (session.loaded source) =
          .value () after.machine ∧ outcome.diagnostics = []) ∨
        ∃ error, Eval.interpret fuel (session.program source).statements (session.loaded source) =
          .fault error after.machine ∧ outcome.diagnostics = [error.diagnostic])) := by
  by_cases accepted : (session.program source).Accepted
  · right
    rw [run_of_accepted accepted] at ended
    cases ending : Eval.interpret fuel (session.program source).statements
        (session.loaded source) with
    | value result machine =>
      simp only [ending, settle, Option.some.injEq, Prod.mk.injEq] at ended
      obtain ⟨rfl, rfl⟩ := ended
      exact ⟨accepted, rfl, rfl, .inl ⟨rfl, rfl⟩⟩
    | fault error machine =>
      simp only [ending, settle, Option.some.injEq, Prod.mk.injEq] at ended
      obtain ⟨rfl, rfl⟩ := ended
      exact ⟨accepted, rfl, rfl, .inr ⟨error, rfl, rfl⟩⟩
    | outOfFuel => simp [ending, settle] at ended
  · left
    obtain ⟨diagnostics, refused⟩ := run_of_refused fuel accepted
    rw [refused, Option.some.injEq, Prod.mk.injEq] at ended
    obtain ⟨rfl, rfl⟩ := ended
    exact ⟨accepted, rfl, rfl⟩

end Session

namespace Machine

/-- A machine at its top level: no block, function or method is being executed. -/
structure AtTopLevel (machine : Machine) : Prop where
  environment : machine.environment = globalEnvironment
  callDepth : machine.callDepth = 0

/-- A program leaves a machine that was at its top level there. -/
theorem AtTopLevel.interpret {machine : Machine} (top : machine.AtTopLevel) (fuel : Nat)
    (statements : List Stmt) :
    (Eval.interpret fuel statements machine).Holds (fun _ after => after.AtTopLevel)
      (fun _ after => after.AtTopLevel) := by
  have evolved := Eval.executeTopLevel_evolving fuel statements machine
  unfold Eval.interpret Eval.atTopLevel
  cases ending : Eval.executeTopLevel fuel statements machine with
  | value result after =>
    rw [ending] at evolved
    exact ⟨evolved.environment.trans top.environment, evolved.callDepth.trans top.callDepth⟩
  | fault error after => exact ⟨rfl, rfl⟩
  | outOfFuel => trivial

end Machine

/-- Every session between two runs is at its top level. -/
theorem Session.Reachable.atTopLevel {session : Session} (reachable : session.Reachable) :
    session.machine.AtTopLevel := by
  induction reachable with
  | start clock callLimit => exact ⟨rfl, rfl⟩
  | @run session after fuel source outcome _ ended inductionHypothesis =>
    have loaded : (session.loaded source).AtTopLevel :=
      ⟨inductionHypothesis.environment, inductionHypothesis.callDepth⟩
    have kept := loaded.interpret fuel (session.program source).statements
    rcases run_cases ended with ⟨_, _, rfl⟩ | ⟨_, _, _, ⟨ending, _⟩ | ⟨error, ending, _⟩⟩
    · exact ⟨inductionHypothesis.environment, inductionHypothesis.callDepth⟩
    · rw [ending] at kept
      exact kept
    · rw [ending] at kept
      exact kept
  | redirect _ _ inductionHypothesis =>
    exact ⟨inductionHypothesis.environment, inductionHypothesis.callDepth⟩
  | limitCalls _ _ inductionHypothesis =>
    exact ⟨inductionHypothesis.environment, inductionHypothesis.callDepth⟩

/-- A computation that ended is back in the environment and at the call depth it started from,
whether it gave a result or stopped at a fault. -/
def Ending.RestoresContext {α : Type} (before : Machine) : Ending α → Prop
  | .value _ after =>
    after.environment = before.environment ∧ after.callDepth = before.callDepth
  | .fault _ after =>
    after.environment = before.environment ∧ after.callDepth = before.callDepth
  | .outOfFuel => True

/-- An evolved machine is back in its context. -/
theorem Eval.Evolving.restoresContext {α : Type} {computation : Eval α}
    (evolving : Eval.Evolving computation) (machine : Machine) :
    (computation machine).RestoresContext machine := by
  have evolved := evolving machine
  cases ending : computation machine with
  | value result after =>
    rw [ending] at evolved
    exact ⟨evolved.environment, evolved.callDepth⟩
  | fault error after =>
    rw [ending] at evolved
    exact ⟨evolved.environment, evolved.callDepth⟩
  | outOfFuel => trivial

/-- Expressions, statements, blocks in any environment and calls of any value restore the context
on every way out, from every machine; so between two runs a session is in the globals frame and no
call is active. -/
theorem context_restored :
    (∀ fuel machine expression,
      (Eval.evaluate fuel expression machine).RestoresContext machine) ∧
    (∀ fuel machine statement,
      (Eval.execute fuel statement machine).RestoresContext machine) ∧
    (∀ fuel machine inner body,
      (Eval.inEnvironment inner (Eval.executeAll fuel body) machine).RestoresContext machine) ∧
    (∀ fuel machine callee paren arguments,
      (Eval.call fuel callee paren arguments machine).RestoresContext machine) ∧
    (∀ session : Session, session.Reachable →
      session.machine.environment = globalEnvironment ∧ session.machine.callDepth = 0) := by
  refine ⟨?_, ?_, ?_, ?_, ?_⟩
  · intro fuel machine expression
    exact ((Eval.evolving fuel).evaluate expression).restoresContext machine
  · intro fuel machine statement
    exact ((Eval.evolving fuel).execute statement).restoresContext machine
  · intro fuel machine inner body
    exact (Eval.Evolving.inEnvironment inner
      ((Eval.evolving fuel).executeAll body)).restoresContext machine
  · intro fuel machine callee paren arguments
    exact ((Eval.evolving fuel).call callee paren arguments).restoresContext machine
  · intro session reachable
    exact ⟨reachable.atTopLevel.environment, reachable.atTopLevel.callDepth⟩

/-- A run that overflows inside a block of the third call leaves the session at its top level. -/
theorem context_restored_overflow :
    ∃ outcome after,
      (Session.start (fun _ => 0) 2).run 60 "\x7b fun f() \x7b \x7b f(); \x7d \x7d f(); \x7d" =
        some (outcome, after) ∧
      outcome.diagnostics.map Diagnostic.message = [RuntimeFault.stackOverflow.message] ∧
      after.machine.environment = globalEnvironment ∧ after.machine.callDepth = 0 := by
  have messages :
      ((Session.start (fun _ => 0) 2).run 60 "\x7b fun f() \x7b \x7b f(); \x7d \x7d f(); \x7d").map
        (fun ended => ended.1.diagnostics.map Diagnostic.message) =
          some [RuntimeFault.stackOverflow.message] := by decide +kernel
  obtain ⟨⟨outcome, after⟩, ended, reported⟩ := Option.map_eq_some_iff.mp messages
  have top := context_restored.2.2.2.2 after (.run (.start _ _) ended)
  exact ⟨outcome, after, ended, reported, top⟩

end LoxLang
