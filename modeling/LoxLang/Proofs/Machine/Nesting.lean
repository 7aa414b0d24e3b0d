import LoxLang.Proofs.Machine.Moments

/-!
# Bodies that are being executed

`Task.Nests` follows a run as `Task.Reaches` does and remembers the functions whose bodies it is
inside of. The machine only counts, and no one tells it what is nested in what. `Nests.counts` shows
that its count is the number of these functions and keeps to the limit, and
`overflowsItself_iff` that a call is refused exactly where one more body would exceed it.
-/

namespace LoxLang

open Eval

/-- Calling a value executes a body that was declared in a program. -/
def Value.startsBody : Value → Bool
  | function _ _ => true
  | classObject origin => (origin.method? initializerName).isSome
  | _ => false

namespace Task

variable {task later last : Task} {machine between final after : Machine} {bodies : List Closure}

/-- The function whose body a task goes on to execute, if it does. -/
def entered : Task → Task → List Closure
  | invoke _ closure _ _, executeAll _ _ => [closure]
  | _, _ => []

/-- A task comes about during another one inside the bodies of these functions, innermost first. -/
inductive Nests : List Closure → Task → Machine → Task → Machine → Prop where
  | refl {task : Task} {machine : Machine} : Nests [] task machine task machine
  | step {bodies : List Closure} {task later last : Task} {machine between final : Machine}
      (first : Leads task machine later between) (rest : Nests bodies later between last final) :
      Nests (bodies ++ entered task later) task machine last final

/-- Whatever comes about does so inside some bodies. -/
theorem Reaches.nests (reached : Reaches task machine last final) :
    ∃ bodies, Nests bodies task machine last final := by
  induction reached with
  | refl => exact ⟨[], .refl⟩
  | step first _ inductionHypothesis =>
    obtain ⟨bodies, nested⟩ := inductionHypothesis
    exact ⟨_, .step first nested⟩

/-- One step counts the body that it enters, and enters one only below the limit. -/
structure Counts (machine between : Machine) (bodies : List Closure) : Prop where
  callDepth : between.callDepth = machine.callDepth + bodies.length
  callLimit : between.callLimit = machine.callLimit
  allowed : machine.callDepth ≤ machine.callLimit → between.callDepth ≤ between.callLimit

theorem Counts.refl (machine : Machine) : Counts machine machine [] :=
  ⟨rfl, rfl, fun allowed => allowed⟩

/-- A part of a run that comes back counts nothing. -/
theorem Counts.ofEvolves (evolved : machine.Evolves between) : Counts machine between [] where
  callDepth := evolved.callDepth
  callLimit := evolved.callLimit
  allowed := fun allowed => by rwa [evolved.callDepth, evolved.callLimit]

/-- Counts of a run and of its continuation add up. -/
theorem Counts.trans {outer : List Closure} (first : Counts machine between outer)
    (rest : Counts between final bodies) : Counts machine final (bodies ++ outer) where
  callDepth := by
    rw [rest.callDepth, first.callDepth, List.length_append]
    omega
  callLimit := rest.callLimit.trans first.callLimit
  allowed := fun allowed => rest.allowed (first.allowed allowed)

/-- Only the step into a body changes the count. -/
theorem Leads.counts (leads : Leads task machine later between) :
    Counts machine between (entered task later) := by
  have all := evolving
  cases leads with
  | grouping | operand | left | deciding | reference | this | super | assigned | callee | accessed
  | changed | firstArgument | function | expression | print | declare | condition | loop
  | «return» | superclass | firstStatement | test | topStatement => exact .refl machine
  | right first | undecided first _ | assign first | arguments first | stored first
  | otherArguments first | whenTrue first _ | whenFalse first _ | repeated first _ =>
    exact .ofEvolves (((all _).evaluate _).result first)
  | call first second _ =>
    exact .ofEvolves ((((all _).evaluate _).result first).trans
      (((all _).evaluateAll _).result second))
  | initializer made _ binds =>
    cases made
    cases binds
    exact .ofEvolves ((Machine.Evolves.ofStore (.addObject _)).trans (.ofStore (.addFrame _ _)))
  | body entered outer inner =>
    unfold enterCall at entered
    split at entered
    case isTrue => cases entered
    case isFalse below =>
      cases entered
      cases outer
      cases inner
      exact ⟨rfl, rfl, fun _ => Nat.lt_of_not_le below⟩
  | receiver ran _ =>
    exact .ofEvolves ((runBody_evolving _ _ _ _).result ran)
  | block opened =>
    cases opened
    exact ⟨rfl, rfl, fun allowed => allowed⟩
  | otherStatements head | nextStatements head =>
    exact .ofEvolves (((all _).execute _).result head)
  | again first _ second =>
    exact .ofEvolves ((((all _).evaluate _).result first).trans (((all _).execute _).result second))

/-- The machine counts the bodies that are being executed. -/
theorem Nests.counts (nested : Nests bodies task machine last final) :
    Counts machine final bodies := by
  induction nested with
  | refl => exact .refl _
  | step first _ inductionHypothesis => exact first.counts.trans inductionHypothesis

end Task

/-! ### Calls at the limit -/

section Calls

variable {fuel : Nat} {callee : Value} {paren : Token} {arguments : List Value} {machine : Machine}

/-- A call overflows by itself: it stops at its closing parenthesis before any body is entered. -/
def OverflowsItself (fuel : Nat) (callee : Value) (paren : Token) (arguments : List Value)
    (machine : Machine) : Prop :=
  (∃ after, Eval.call fuel callee paren arguments machine =
    .fault { token := paren, fault := .stackOverflow } after) ∧
  ∀ bodies last final,
    Task.Nests bodies (.call fuel callee paren arguments) machine last final → bodies = []

/-- At the limit a function is not started. -/
theorem invoke_at_limit (fuel : Nat) (closure : Closure) (paren : Token) (arguments : List Value)
    (reached : machine.callLimit ≤ machine.callDepth) :
    Eval.invoke (fuel + 1) closure paren arguments machine =
        .fault { token := paren, fault := .stackOverflow } machine ∧
      ∀ later between, ¬ Task.Leads (.invoke (fuel + 1) closure paren arguments) machine later
        between := by
  have overflows {α : Type} (computation : Eval α) : asCall paren computation machine =
      .fault { token := paren, fault := .stackOverflow } machine := by
    rw [asCall_apply, if_pos reached]
  constructor
  · unfold Eval.invoke
    rw [bind_apply, overflows]
  · rintro later between (entered | ran)
    case body outer inner entered =>
      rw [enterCall, if_pos reached] at entered
      cases entered
    case receiver ran =>
      rw [overflows] at ran
      cases ran

/-- Below the limit a function goes on to its body. -/
theorem invoke_below_limit (fuel : Nat) (closure : Closure) (paren : Token)
    (arguments : List Value) (below : machine.callDepth < machine.callLimit) :
    ∃ between, Task.Leads (.invoke (fuel + 1) closure paren arguments) machine
      (.executeAll fuel closure.declaration.body) between := by
  have entered : enterCall paren machine =
      .value () { machine with callDepth := machine.callDepth + 1 } :=
    if_neg (Nat.not_le_of_lt below)
  exact ⟨_, .body entered rfl rfl⟩

/-- A call that starts a body does so by invoking a function, at the same depth and limit. -/
theorem call_invokes (starts : callee.startsBody = true) (fuel : Nat) (paren : Token)
    (arguments : List Value) (machine : Machine) :
    ∃ closure between, machine.Evolves between ∧
      (∀ error after, Eval.invoke fuel closure paren arguments between = .fault error after →
        Eval.call (fuel + 1) callee paren arguments machine = .fault error after) ∧
      ∀ later final, Task.Leads (.call (fuel + 1) callee paren arguments) machine later final ↔
        later = .invoke fuel closure paren arguments ∧ final = between := by
  cases callee with
  | function identity closure =>
    refine ⟨closure, machine, .refl machine, fun _ _ faulted => faulted, fun later final => ?_⟩
    constructor
    · rintro ⟨⟩
      exact ⟨rfl, rfl⟩
    · rintro ⟨rfl, rfl⟩
      exact .function
  | classObject origin =>
    obtain ⟨method, found⟩ := Option.isSome_iff_exists.mp starts
    obtain ⟨created, between, made⟩ : ∃ created between,
        newObject origin machine = .value created between := ⟨_, _, rfl⟩
    obtain ⟨bound, ready, binds⟩ : ∃ bound ready,
        bindMethod method created between = .value bound ready := ⟨_, _, rfl⟩
    refine ⟨bound, ready, ?_, ?_, fun later final => ?_⟩
    · cases made
      cases binds
      exact (Machine.Evolves.ofStore (.addObject _)).trans (.ofStore (.addFrame _ _))
    · intro error after faulted
      unfold Eval.call
      simp only [bind_apply, made, found, binds, faulted]
    · constructor
      · intro leads
        cases leads with
        | initializer again known bindsAgain =>
          cases made.symm.trans again
          cases found.symm.trans known
          cases binds.symm.trans bindsAgain
          exact ⟨rfl, rfl⟩
      · rintro ⟨rfl, rfl⟩
        exact .initializer made found binds
  | _ => cases starts

/-- A call that starts no body goes on to nothing and does not overflow. -/
theorem call_without_body (starts : callee.startsBody = false) (fuel : Nat) (paren : Token)
    (arguments : List Value) (machine : Machine) :
    (∀ later final, ¬ Task.Leads (.call fuel callee paren arguments) machine later final) ∧
      ∀ error after, Eval.call fuel callee paren arguments machine = .fault error after →
        error.fault ≠ .stackOverflow := by
  cases fuel with
  | zero =>
    refine ⟨fun later final leads => ?_, fun error after ended => ?_⟩
    · cases leads
    · cases ended
  | succ fuel =>
    cases callee with
    | function identity closure => cases starts
    | classObject origin =>
      have missing : origin.method? initializerName = none := by
        simpa [Value.startsBody] using starts
      constructor
      · intro later final leads
        cases leads with
        | initializer _ found _ => cases missing.symm.trans found
      · intro error after ended
        unfold Eval.call at ended
        simp only [bind_apply, newObject, missing] at ended
        cases ended
    | native builtin =>
      refine ⟨fun later final leads => ?_, fun error after ended => ?_⟩
      · cases leads
      · cases builtin with
        | clock => cases ended
        | dump =>
          unfold Eval.call callNative at ended
          cases obstacle : machine.sink.obstacle with
          | none =>
            simp only [bind_apply, frameListing, write, obstacle] at ended
            cases ended
          | some reason =>
            simp only [bind_apply, frameListing, write, obstacle, fail] at ended
            obtain ⟨rfl, _⟩ := Ending.fault.inj ended
            nofun
    | nil | bool | number | string | object =>
      refine ⟨fun later final leads => ?_, fun error after ended => ?_⟩
      · cases leads
      · obtain ⟨rfl, _⟩ := Ending.fault.inj ended
        nofun

/-- A call overflows by itself if and only if it would start a body at the limit. -/
theorem overflowsItself_iff (allowed : machine.callDepth ≤ machine.callLimit) :
    OverflowsItself (fuel + 2) callee paren arguments machine ↔
      callee.startsBody = true ∧ machine.callDepth = machine.callLimit := by
  constructor
  · rintro ⟨⟨after, overflowed⟩, unentered⟩
    cases starts : callee.startsBody with
    | false =>
      have harmless := call_without_body starts (fuel + 2) paren arguments machine
      exact (harmless.2 _ _ overflowed rfl).elim
    | true =>
      refine ⟨rfl, Nat.le_antisymm allowed (Nat.le_of_not_lt fun below => ?_)⟩
      obtain ⟨closure, between, evolved, _, leads⟩ :=
        call_invokes starts (fuel + 1) paren arguments machine
      obtain ⟨inner, enters⟩ := invoke_below_limit fuel closure paren arguments
        (show between.callDepth < between.callLimit by
          rwa [evolved.callDepth, evolved.callLimit])
      cases unentered _ _ _ (.step ((leads _ _).mpr ⟨rfl, rfl⟩) (.step enters .refl))
  · rintro ⟨starts, reached⟩
    obtain ⟨closure, between, evolved, faults, leads⟩ :=
      call_invokes starts (fuel + 1) paren arguments machine
    obtain ⟨overflows, stuck⟩ := invoke_at_limit fuel closure paren arguments
      (Nat.le_of_eq (by rw [evolved.callDepth, evolved.callLimit, reached]))
    refine ⟨⟨between, faults _ _ overflows⟩, fun bodies last final nested => ?_⟩
    cases nested with
    | refl => rfl
    | step first rest =>
      obtain ⟨rfl, rfl⟩ := (leads _ _).mp first
      cases rest with
      | refl => rfl
      | step second _ => exact (stuck _ _ second).elim

end Calls

end LoxLang
