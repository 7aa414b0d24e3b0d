import LoxLang.Proofs.Machine.Guarding
import LoxLang.Proofs.Machine.Returning
import LoxLang.Proofs.Scope.Anchored
import LoxLang.Proofs.Session.Scopes

/-!
# What the static stages rule out

The evaluators have branches for trees that no parser builds and no resolution accepts. No session
comes to them: whatever a session keeps between two runs was checked before it was run.
`internal_faults_unreachable` says so of every run of a reachable session, together with what
happens to a `return`: it is caught by a call of the function that holds it, and no statement at
the top level of a program ends with one.
-/

namespace LoxLang

/-- An accepted program has operators, names and keywords where they belong; its names are as the
identifiers of its text. -/
theorem Program.Accepted.formed {source : String} {firstId : Nat} {named : Token → Prop}
    (accepted : (Program.ofSource source firstId).Accepted)
    (spelled : ∀ token ∈ scannedTokens (scan source), token.kind = .identifier → named token) :
    Stmt.FormedAll ⟨named, fun _ => True⟩ (Program.ofSource source firstId).statements := by
  have clean : (parse (scannedTokens (scan source)) firstId).errors = [] := by
    have read := accepted.read
    simp only [Program.ofSource, List.append_eq_nil_iff, List.map_eq_nil_iff] at read
    exact read.2
  refine (parse_reads clean).formed fun token member => ?_
  have listed := List.takeWhile_subset _ member
  exact ⟨scannedTokens_genuine source token listed, spelled token listed⟩

/-- No identifier of a text is spelled like `this` or `super`. -/
theorem scannedTokens_ordinary (source : String) :
    ∀ token ∈ scannedTokens (scan source), token.kind = .identifier →
      token.lexeme ≠ "this" ∧ token.lexeme ≠ "super" := by
  intro token member identifier
  have genuine := scannedTokens_genuine source token member
  exact ⟨genuine.lexeme_ne identifier .thisWord, genuine.lexeme_ne identifier .superWord⟩

namespace Session

variable {session : Session} {source : String}

/-- A session that keeps checked functions only. -/
def Guarded (session : Session) : Prop :=
  session.machine.Guarded session.machine.distances

/-- The program of an accepted text is checked. -/
theorem Sound.checked (sound : session.Sound) (accepted : (session.program source).Accepted) :
    Stmt.FormedAll (checkedRules (session.loaded source).distances)
      (session.program source).statements := by
  have formed := accepted.formed (scannedTokens_ordinary source)
  have lawful := resolve_lawful accepted.resolved
  have outside : Chain.Encloses [] .outside := ⟨fun within => (within rfl).elim, nofun⟩
  exact Stmt.FormedAll.anchored outside _ formed accepted.issued.proper lawful
    (sound.holds accepted)

/-- A session that keeps checked functions starts a text so. -/
theorem Guarded.loaded (guarded : session.Guarded) (source : String) :
    (session.loaded source).Guarded (session.loaded source).distances := by
  refine guarded.reload fun id known => ?_
  change ((session.machine.addDistances _).distances[id]?).isSome
  rw [Machine.getElem?_addDistances, Option.isSome_or, known, Bool.or_true]

theorem start_guarded (clock : Nat → Nat) (callLimit : Nat) :
    (Session.start clock callLimit).Guarded where
  distances := rfl
  kept := by
    constructor
    · intro frame name value present
      obtain ⟨native, rfl, rfl⟩ := Machine.start_binding? present
      refine ⟨trivial, fun same => absurd same ?_, fun same => absurd same ?_⟩ <;>
        cases native <;> decide
    · intro object name value present
      cases (Machine.start_field? clock callLimit object name).symm.trans present

/-- The program of an accepted text leaves a guarded machine and comes to no internal fault. -/
theorem Guarded.interpret (guarded : session.Guarded) (sound : session.Sound)
    (accepted : (session.program source).Accepted) (fuel : Nat) :
    (Eval.interpret fuel (session.program source).statements (session.loaded source)).Holds
      (fun _ after => after.Guarded (session.loaded source).distances)
      (fun error after =>
        after.Guarded (session.loaded source).distances ∧ ¬ error.fault.Internal) := by
  let world : GuardedMachine (session.loaded source).distances := ⟨_, guarded.loaded source⟩
  have formed := Stmt.formedAll_iff.mp (sound.checked accepted)
  have admits : (guarding (session.nextAddressing source) _).Admits () world
      (.topLevel fuel (session.program source).statements) := ⟨trivial, formed⟩
  have obeys := (Discipline.Lawful.obeys_topLevel (sound.topLevel accepted fuel) admits).holds
  unfold Eval.interpret Eval.atTopLevel
  change (Eval.executeTopLevel fuel (session.program source).statements
    (session.loaded source)).Holds _ _ at obeys
  cases ending : Eval.executeTopLevel fuel (session.program source).statements
      (session.loaded source) with
  | value result after =>
    rw [ending] at obeys
    obtain ⟨last, rfl, _⟩ := obeys
    exact last.guarded
  | fault error after =>
    rw [ending] at obeys
    obtain ⟨allowed, last, rfl, _⟩ := obeys
    exact ⟨last.guarded.sameStore rfl rfl, allowed⟩
  | outOfFuel => trivial

/-- Every session that a host can bring about keeps checked functions only. -/
theorem Reachable.guarded {session : Session} (reachable : session.Reachable) :
    session.Guarded := by
  induction reachable with
  | start clock callLimit => exact start_guarded clock callLimit
  | @run session after fuel source outcome prior ended inductionHypothesis =>
    rcases run_cases ended with ⟨_, _, rfl⟩ | ⟨accepted, _, _, ending⟩
    · exact inductionHypothesis
    · have kept := inductionHypothesis.interpret prior.sound accepted fuel
      have leaves : after.machine.Guarded (session.loaded source).distances := by
        rcases ending with ⟨ending, _⟩ | ⟨error, ending, _⟩
        · rw [ending] at kept
          exact kept
        · rw [ending] at kept
          exact kept.1
      unfold Guarded
      rw [leaves.distances]
      exact leaves
  | redirect _ _ inductionHypothesis | limitCalls _ _ inductionHypothesis =>
    exact ⟨rfl, inductionHypothesis.kept⟩

end Session

/-- In every run of every session, an accepted text comes to no fault that the static stages
exclude. None of its top-level statements ends by returning: a return that is executed is caught by
the call of the function that holds it, which ends with the value that was returned unless it
initializes an instance. -/
theorem internal_faults_unreachable {session : Session} (reachable : session.Reachable)
    {source : String} (accepted : (session.program source).Accepted) (fuel : Nat) :
    (∀ outcome after, session.run fuel source = some (outcome, after) →
      ∀ diagnostic ∈ outcome.diagnostics,
        diagnostic.message ∉ RuntimeFault.internalMessages) ∧
    (∀ before statement behind machine flow after,
      (session.program source).statements = before ++ statement :: behind →
      Eval.executeTopLevel fuel before (session.loaded source) = .value () machine →
      Eval.execute fuel statement machine = .value flow after → flow = .normal) ∧
    (∀ depth keyword value machine result after,
      session.Performs source fuel (.execute depth (.return keyword value)) machine →
      Eval.execute depth (.return keyword value) machine = .value (.returned result) after →
      ∃ remaining closure paren arguments caller given final,
        Task.Catches (.topLevel fuel (session.program source).statements) (session.loaded source)
          (.return keyword value) result (.execute depth (.return keyword value)) machine
          remaining closure paren arguments caller ∧
        .return keyword value ∈ Stmt.returnsAll closure.declaration.body ∧
        Eval.invoke (remaining + 1) closure paren arguments caller = .value given final ∧
        (closure.isInitializer = false → given = result)) := by
  have start := reachable.sound.topLevel accepted fuel
  have returnless := Stmt.LawfulAll.returns _ (resolve_lawful accepted.resolved)
  refine ⟨?_, ?_, ?_⟩
  · intro outcome after ended diagnostic member worded
    have kept := reachable.guarded.interpret reachable.sound accepted fuel
    rcases Session.run_cases ended with ⟨refused, _⟩ | ⟨_, _, _, ending⟩
    · exact refused accepted
    · rcases ending with ⟨_, quiet⟩ | ⟨error, ending, reported⟩
      · rw [quiet] at member
        cases member
      · rw [ending] at kept
        rw [reported, List.mem_singleton] at member
        subst member
        exact kept.2 (RuntimeFault.internal_of_message worded)
  · intro before statement behind machine flow after split _ ended
    rw [split, Stmt.returnsAll_append] at returnless
    have none : statement.returns = [] :=
      (List.append_eq_nil_iff.mp (List.append_eq_nil_iff.mp returnless).2).1
    cases flow with
    | normal => rfl
    | returned value => exact (Eval.returns_of_execute ended none).elim
  · intro depth keyword value machine result after reached ended
    rcases reached.returns List.mem_cons_self ⟨after, ended⟩ with passes | caught
    · have held := passes.returns.1
      rw [Task.returns, returnless] at held
      cases held
    · obtain ⟨remaining, closure, paren, arguments, caller, caught⟩ := caught
      obtain ⟨callee, leads, passes⟩ := caught.passes
      obtain ⟨held, last, returned⟩ := passes.returns
      obtain ⟨between, ran⟩ := Eval.asCall_of_returned leads returned
      have sound := start.reaches caught.reached
      cases initializes : closure.isInitializer with
      | false =>
        refine ⟨remaining, closure, paren, arguments, caller, result, between, caught, held, ?_,
          fun _ => rfl⟩
        refine Eval.bind_eq_value_iff.mpr ⟨_, _, ran, ?_⟩
        rw [initializes]
        rfl
      | true =>
        obtain ⟨frame, outer, here, bound⟩ :=
          (sound.step (.receiver ran initializes)).bound_receiver
        have there : closure.environment[0]? = some frame := by simp [here]
        obtain ⟨given, found⟩ : ∃ given, Eval.lookupAt closure.environment 0
            (.implicit "this" closure.declaration.name.line) between = .value given between :=
          let ⟨given, found, _⟩ := Eval.lookupAt_of_bound there bound
          ⟨given, found⟩
        refine ⟨remaining, closure, paren, arguments, caller, given, between, caught, held, ?_,
          fun other => nomatch initializes.symm.trans other⟩
        refine Eval.bind_eq_value_iff.mpr ⟨_, _, ran, ?_⟩
        rw [if_pos initializes]
        exact found

/-- A call whose function returns a truth value, in a run that stops at an ordinary fault. -/
theorem internal_faults_unreachable_call :
    ∃ outcome after keyword machine remaining closure paren arguments caller given final,
      (Session.start (fun _ => 0) 2).run 9 "fun f() \x7b return true; \x7d f() + f;" =
        some (outcome, after) ∧
      outcome.diagnostics.map Diagnostic.message = [RuntimeFault.operandsNotAddable.message] ∧
      (∀ diagnostic ∈ outcome.diagnostics,
        diagnostic.message ∉ RuntimeFault.internalMessages) ∧
      (Session.start (fun _ => 0) 2).Performs "fun f() \x7b return true; \x7d f() + f;" 9
        (.execute 3 (.return keyword (some (.literal (.bool true))))) machine ∧
      Eval.execute 3 (.return keyword (some (.literal (.bool true)))) machine =
        .value (.returned (.bool true)) machine ∧
      .return keyword (some (.literal (.bool true))) ∈
        Stmt.returnsAll closure.declaration.body ∧
      Eval.invoke (remaining + 1) closure paren arguments caller = .value given final ∧
      (closure.isInitializer = false → given = .bool true) := by
  have accepted : ((Session.start (fun _ => 0) 2).program
      "fun f() \x7b return true; \x7d f() + f;").Accepted :=
    ⟨by decide +kernel, by decide +kernel⟩
  have messages : ((Session.start (fun _ => 0) 2).run 9
      "fun f() \x7b return true; \x7d f() + f;").map
        (fun ended => ended.1.diagnostics.map Diagnostic.message) =
          some [RuntimeFault.operandsNotAddable.message] := by decide +kernel
  obtain ⟨⟨outcome, after⟩, ended, reported⟩ := Option.map_eq_some_iff.mp messages
  have statements : ((Session.start (fun _ => 0) 2).program
      "fun f() \x7b return true; \x7d f() + f;").statements =
      [.function (.mk ⟨.identifier, "f", 1⟩ []
        [.return ⟨.keyword .returnWord, "return", 1⟩ (some (.literal (.bool true)))]),
      .expression (.binary
        (.call (.reference 0 ⟨.identifier, "f", 1⟩) ⟨.symbol .rightParen, ")", 1⟩ [])
        ⟨.symbol .plus, "+", 1⟩ (.reference 1 ⟨.identifier, "f", 1⟩))] := by decide +kernel
  obtain ⟨keyword, machine, reached⟩ : ∃ keyword machine,
      (Session.start (fun _ => 0) 2).Performs "fun f() \x7b return true; \x7d f() + f;" 9
        (.execute 3 (.return keyword (some (.literal (.bool true))))) machine := by
    unfold Session.Performs Session.loaded
    rw [statements]
    refine ⟨⟨.keyword .returnWord, "return", 1⟩, ?machine, ?reached⟩
    case reached =>
      refine .step (.nextStatements rfl) (.step .topStatement (.step .expression ?_))
      refine .step .left (.step (.call (by rfl) rfl rfl) (.step .function ?_))
      refine .step (.body rfl rfl rfl) (.step .firstStatement ?_)
      exact .refl
  have returned : Eval.execute 3 (.return keyword (some (.literal (.bool true)))) machine =
      .value (.returned (.bool true)) machine := rfl
  obtain ⟨quiet, _, caught⟩ := internal_faults_unreachable (.start _ _) accepted 9
  obtain ⟨remaining, closure, paren, arguments, caller, given, final, _, held, invoked, same⟩ :=
    caught 3 keyword (some (.literal (.bool true))) machine (.bool true) machine reached
      returned
  exact ⟨outcome, after, keyword, machine, remaining, closure, paren, arguments, caller,
    given, final, ended, reported, quiet outcome after ended, reached, returned, held, invoked,
    same⟩

end LoxLang
