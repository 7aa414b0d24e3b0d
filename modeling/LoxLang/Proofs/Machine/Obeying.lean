import LoxLang.Proofs.Machine.Discipline

/-!
# Evaluators obey every lawful discipline

`Discipline.Obeys` says of a computation in a world that it leaves a later one, with a result of a
certain kind or at a fault that the discipline allows. There is one rule for each operation, and
`Discipline.Lawful.obeys` goes through the evaluators once, by induction on their fuel.
-/

namespace LoxLang

namespace Discipline

open Eval

variable {α β : Type} {D : Discipline}

section Obeys

variable (D)

/-- A computation leaves a later world, with a result of a certain kind or at an allowed fault; it
runs out of fuel only if the discipline lets it. -/
def Obeys (world : D.World) (computation : Eval α) (kind : D.World → α → Prop) : Prop :=
  match computation (D.machine world) with
  | .value result machine =>
    ∃ after, D.machine after = machine ∧ D.Next world after ∧ kind after result
  | .fault error machine => D.fault error ∧ ∃ after, D.machine after = machine ∧ D.Next world after
  | .outOfFuel => D.exhausts

end Obeys

variable {world : D.World} {first : Eval α} {next : α → Eval β} {early wider : D.World → α → Prop}
  {kind : D.World → β → Prop}

/-! ### Ways to obey -/

/-- What is known when a computation has given a result. -/
theorem Obeys.result (obeys : D.Obeys world first early) {given : α} {machine : Machine}
    (ended : first (D.machine world) = .value given machine) :
    ∃ after, D.machine after = machine ∧ D.Next world after ∧ early after given := by
  unfold Obeys at obeys
  rwa [ended] at obeys

/-- What is known when a computation has stopped at a fault. -/
theorem Obeys.stops (obeys : D.Obeys world first early) {error : RuntimeError} {machine : Machine}
    (ended : first (D.machine world) = .fault error machine) :
    D.fault error ∧ ∃ after, D.machine after = machine ∧ D.Next world after := by
  unfold Obeys at obeys
  rwa [ended] at obeys

/-- A computation that obeys ends in later worlds. -/
theorem Obeys.holds (obeys : D.Obeys world first early) :
    (first (D.machine world)).Holds
      (fun result machine =>
        ∃ after, D.machine after = machine ∧ D.Next world after ∧ early after result)
      (fun error machine =>
        D.fault error ∧ ∃ after, D.machine after = machine ∧ D.Next world after) := by
  cases ending : first (D.machine world) with
  | value result machine => exact obeys.result ending
  | fault error machine => exact obeys.stops ending
  | outOfFuel => trivial

/-- What a run leaves may be weakened. -/
theorem Obeys.imp (obeys : D.Obeys world first early)
    (weaken : ∀ after result, D.Next world after → early after result → wider after result) :
    D.Obeys world first wider := by
  unfold Obeys at obeys ⊢
  cases ending : first (D.machine world) with
  | value result machine =>
    rw [ending] at obeys
    obtain ⟨after, same, next, known⟩ := obeys
    exact ⟨after, same, next, weaken after result next known⟩
  | fault error machine =>
    rw [ending] at obeys
    exact obeys
  | outOfFuel =>
    rw [ending] at obeys
    exact obeys

/-- Computations that do the same obey the same. -/
theorem Obeys.congr {other : Eval α} (obeys : D.Obeys world first early)
    (same : other (D.machine world) = first (D.machine world)) : D.Obeys world other early := by
  unfold Obeys at obeys ⊢
  rwa [same]

/-- A run that ends with a value in a next world obeys when its result is as expected there. -/
theorem Obeys.value (result : α) {after : D.World}
    (ended : first (D.machine world) = .value result (D.machine after))
    (next : D.Next world after) (known : early after result) : D.Obeys world first early := by
  unfold Obeys
  rw [ended]
  exact ⟨after, rfl, next, known⟩

/-- Two stretches of a run make one. -/
theorem Next.trans [lawful : D.Lawful] {first second third : D.World} (before : D.Next first second)
    (behind : D.Next second third) : D.Next first third where
  later := lawful.trans before.later behind.later
  environment := behind.environment.trans before.environment
  callDepth := behind.callDepth.trans before.callDepth

/-- Nothing has happened yet in a world itself. -/
theorem Next.refl [lawful : D.Lawful] (world : D.World) : D.Next world world :=
  ⟨lawful.refl world, rfl, rfl⟩

/-- A machine that a law leads to is that of a next world if it stands where the first one does. -/
theorem Obeys.moves {result : α} {machine : Machine} {holds : D.World → Prop}
    (ended : first (D.machine world) = .value result machine)
    (moves : D.Moves world machine holds)
    (environment : machine.environment = (D.machine world).environment)
    (callDepth : machine.callDepth = (D.machine world).callDepth)
    (given : ∀ after, D.machine after = machine → D.Next world after → holds after →
      early after result) :
    D.Obeys world first early := by
  obtain ⟨after, rfl, later, known⟩ := moves
  have next : D.Next world after := ⟨later, environment, callDepth⟩
  exact .value result ended next (given after rfl next known)

variable [lawful : D.Lawful]
include lawful

/-- Obeying runs follow one another: the second one starts where the first has ended. -/
theorem Obeys.bind (before : D.Obeys world first early)
    (behind : ∀ between result, first (D.machine world) = .value result (D.machine between) →
      D.Next world between → early between result → D.Obeys between (next result) kind) :
    D.Obeys world (first >>= next) kind := by
  unfold Obeys
  rw [bind_apply]
  cases ending : first (D.machine world) with
  | value result machine =>
    obtain ⟨between, rfl, step, known⟩ := before.result ending
    have obeys := behind between result ending step known
    unfold Obeys at obeys
    dsimp only
    cases final : next result (D.machine between) with
    | value last machine =>
      obtain ⟨after, same, further, known⟩ := Obeys.result (behind between result ending step known)
        final
      exact ⟨after, same, step.trans further, known⟩
    | fault error machine =>
      obtain ⟨allowed, after, same, further⟩ :=
        Obeys.stops (behind between result ending step known) final
      exact ⟨allowed, after, same, step.trans further⟩
    | outOfFuel =>
      rw [final] at obeys
      exact obeys
  | fault error machine => exact before.stops ending
  | outOfFuel =>
    unfold Obeys at before
    rw [ending] at before
    exact before

/-- A result is returned at once. -/
theorem Obeys.pure {result : α} (given : early world result) :
    D.Obeys world (pure result) early :=
  .value result rfl (.refl world) given

/-- An allowed fault stops a run. -/
theorem Obeys.fail (token : Token) {fault : RuntimeFault} (allowed : D.fault { token, fault }) :
    D.Obeys world (fail token fault : Eval α) early :=
  ⟨allowed, world, rfl, .refl world⟩

/-- An outcome is returned if it is known, and stops the run with an allowed fault otherwise. -/
theorem Obeys.ofExcept {outcome : Except RuntimeFault α} (token : Token)
    (given : ∀ result, outcome = .ok result → early world result)
    (allowed : ∀ fault, outcome = .error fault → D.fault { token, fault }) :
    D.Obeys world (ofExcept token outcome) early := by
  cases outcome with
  | ok result => exact .pure (given result rfl)
  | error fault => exact .fail token (allowed fault rfl)

/-- What stands aside from frames, instances and calls leads to a next world. -/
theorem Lawful.next_aside {machine : Machine} (aside : (D.machine world).Aside machine) :
    ∃ after, D.machine after = machine ∧ D.Next world after := by
  obtain ⟨after, rfl, later, _⟩ := lawful.aside aside
  exact ⟨after, rfl, later, aside.environment, aside.callDepth⟩

/-- An operation aside of what the discipline keeps track of obeys it. -/
theorem Obeys.aside {known : α → Prop} (ended : (first (D.machine world)).Aside (D.machine world)
    known) (given : ∀ after result, D.Next world after → known result → early after result) :
    D.Obeys world first early := by
  unfold Obeys
  generalize first (D.machine world) = ending at ended
  cases ended with
  | value aside known =>
    obtain ⟨after, same, next⟩ := lawful.next_aside aside
    exact ⟨after, same, next, given _ _ next known⟩
  | fault aside ordinary =>
    exact ⟨lawful.ordinary ordinary, lawful.next_aside aside⟩

/-! ### Operations -/

/-- The value of a name is one that may be kept. -/
theorem Obeys.reads {name : Token} {lookup : Eval Value}
    (ended : (lookup (D.machine world)).Reads (D.machine world) name)
    (allowed : ∀ error after, lookup (D.machine world) = .fault error after → D.fault error) :
    D.Obeys world lookup D.value := by
  unfold Obeys
  cases ending : lookup (D.machine world) with
  | value result machine =>
    rw [ending] at ended
    cases ended with
    | found bound => exact ⟨world, rfl, .refl world, lawful.bound bound⟩
  | fault error machine =>
    rw [ending] at ended
    cases ended
    exact ⟨allowed _ _ ending, world, rfl, .refl world⟩
  | outOfFuel =>
    rw [ending] at ended
    cases ended

variable {context : D.Context}

/-- An assignment to a known occurrence stores a kept value. -/
theorem Obeys.assign {fuel id : Nat} {name : Token} {expression : Expr} {given : Value}
    (known : D.known (.assign id name given) (D.machine world)) (stands : D.stands context world)
    (holds : D.expr context fuel (.assign id name expression)) (kept : D.value world given) :
    D.Obeys world (assign id name given) fun _ _ => True := by
  have ended := assign_stores id name given (D.machine world)
  cases ending : Eval.assign id name given (D.machine world) with
  | value result machine =>
    rw [ending] at ended
    cases ended
    exact .moves ending (lawful.assign stands holds kept) rfl rfl fun _ _ _ _ => trivial
  | fault error machine =>
    have allowed : D.fault error := lawful.access known trivial
      ⟨stands, kept, fuel, expression, holds⟩ ⟨machine, ending⟩
    rw [ending] at ended
    cases ended
    unfold Obeys
    rw [ending]
    exact ⟨allowed, world, rfl, .refl world⟩
  | outOfFuel =>
    rw [ending] at ended
    cases ended

/-- Binding a method supplies the frame of its instance. -/
theorem Obeys.bindMethod {method : Closure} {identity : Nat} {origin : ClassObject}
    (awaits : D.method world method) (given : D.value world (.object identity origin)) :
    D.Obeys world (bindMethod method (.object identity origin)) fun after bound =>
      D.closure after bound ∧ bound.arity = method.arity :=
  .moves (bindMethod_apply _ _ _) (lawful.bindMethod awaits given) rfl rfl
    fun _ _ _ known => ⟨known, rfl⟩

/-- A bound method as a value. -/
theorem Obeys.boundMethod {method : Closure} {identity : Nat} {origin : ClassObject}
    (awaits : D.method world method) (given : D.value world (.object identity origin)) :
    D.Obeys world (do newFunction (← Eval.bindMethod method (.object identity origin)))
      D.value := by
  refine .bind (.bindMethod awaits given) fun between bound _ _ known => ?_
  refine .aside (newFunction_aside bound _) ?_
  rintro after _ next ⟨identity, rfl⟩
  exact lawful.callable.mpr (lawful.closure known.1 next.later)

/-- A property of a kept value is kept: a field, or a method bound to the instance. -/
theorem Obeys.property {given : Value} (kept : D.value world given) (name : Token) :
    D.Obeys world (property given name) D.value := by
  unfold Eval.property
  split
  case h_1 identity origin =>
    have read : D.Obeys world (field? identity name.lexeme)
        fun after found => ∀ value, found = some value → D.value after value :=
      .value _ rfl (.refl world) fun _ found => lawful.field found
    refine .bind read fun between found _ next known => ?_
    have kept := lawful.value kept next.later
    split
    case h_1 => exact .pure (known _ rfl)
    case h_2 =>
      split
      case h_1 method found => exact .boundMethod (lawful.method kept rfl found) kept
      case h_2 => exact .fail name (lawful.ordinary trivial)
  case h_2 => exact .fail name (lawful.ordinary trivial)

/-- The method found for a known occurrence of `super` is kept. -/
theorem Obeys.superMethod {fuel id : Nat} {keyword method : Token}
    (known : D.known (.superMethod id keyword method) (D.machine world))
    (stands : D.stands context world) (holds : D.expr context fuel (.super id keyword method)) :
    D.Obeys world (superMethod id keyword method) D.value := by
  rcases superMethod_cases id keyword method (D.machine world) with
    ⟨error, ended⟩ | ⟨_, _, ancestor, identity, origin, found, parent, receiver, there, same⟩
  · have allowed : D.fault error := lawful.access known trivial ⟨stands, fuel, holds⟩ ⟨_, ended⟩
    unfold Obeys
    rw [ended]
    exact ⟨allowed, world, rfl, .refl world⟩
  · have awaits := lawful.method (lawful.bound parent) rfl there
    exact (Obeys.boundMethod awaits (lawful.bound receiver)).congr same

/-- A move from a later world is one from the world before. -/
theorem Moves.behind {between : D.World} {machine : Machine} {holds : D.World → Prop}
    (moves : D.Moves between machine holds) (later : D.Later world between) :
    D.Moves world machine holds := by
  obtain ⟨after, same, further, known⟩ := moves
  exact ⟨after, same, lawful.trans later further, known⟩

/-- A field is set to a value that may be kept. -/
theorem Obeys.setField {object : Nat} {name : String} {given : Value} (kept : D.value world given) :
    D.Obeys world (do setField object name given; return given) D.value := by
  have stored : D.Obeys world (Eval.setField object name given) fun after _ =>
      D.value after given :=
    .moves rfl (lawful.setField kept) rfl rfl fun after _ next _ => lawful.value kept next.later
  exact .bind stored fun _ _ _ _ kept => .pure kept

/-- One more identity is used up. -/
theorem Lawful.next_identity (world : D.World) :
    ∃ after, D.machine after =
        { D.machine world with nextIdentity := (D.machine world).nextIdentity + 1 } ∧
      D.Next world after :=
  lawful.next_aside { Machine.Aside.refl (D.machine world) with }

/-- A class is bound under its name. -/
theorem Obeys.defineBase {fuel : Nat} {name : Token} {methods : List FunctionDecl}
    (stands : D.stands context world)
    (holds : D.stmt context (fuel + 1) (.class name none methods)) :
    D.Obeys world (defineClass name none methods)
      fun after _ => D.stands (D.declares context name) after := by
  obtain ⟨between, counted, next⟩ := lawful.next_identity world
  have moves := lawful.base (D.machine world).nextIdentity (lawful.stands stands next) holds
  rw [counted] at moves
  exact .moves (defineClass_none name methods _) (moves.behind next.later)
    (Machine.define_environment _ _ _) (Machine.define_callDepth _ _ _) fun _ _ _ stands => stands

/-- A derived class is defined in a frame of its own, and its name is known behind it. -/
theorem Obeys.defineDerived {fuel : Nat} {name : Token} {superclass : Expr}
    {methods : List FunctionDecl} {ancestor : ClassObject} (stands : D.stands context world)
    (holds : D.stmt context (fuel + 1) (.class name (some superclass) methods))
    (inherited : D.value world (.classObject ancestor)) :
    D.Obeys world (defineClass name (some ancestor) methods)
      fun after _ => D.stands (D.declares context name) after := by
  obtain ⟨between, counted, next⟩ := lawful.next_identity world
  have moves := lawful.derived (D.machine world).nextIdentity (lawful.stands stands next) holds
    (lawful.value inherited next.later)
  rw [counted] at moves
  exact .moves (defineClass_some name ancestor methods _) (moves.behind next.later)
    (Machine.define_environment _ _ _) (Machine.define_callDepth _ _ _) fun _ _ _ stands => stands

/-- A class is defined behind its superclass. -/
theorem Obeys.derives {fuel : Nat} {name : Token} {superclass : Expr}
    {methods : List FunctionDecl} {value : Value} (stands : D.stands context world)
    (holds : D.stmt context (fuel + 1) (.class name (some superclass) methods))
    (kept : D.value world value) :
    D.Obeys world (do
      let parent ← asSuperclass (superclassToken name superclass) value
      defineClass name (some parent) methods
      return Flow.normal) fun after flow =>
      D.Leaves context after flow ∧ D.stands (D.declares context name) after := by
  refine .bind (.aside (asSuperclass_aside _ value _) fun _ _ next same =>
    same ▸ lawful.value kept next.later) ?_
  intro between parent _ next inherited
  refine .bind (.defineDerived (lawful.stands stands next) holds inherited) ?_
  exact fun _ _ _ _ stands => .pure ⟨trivial, stands⟩

/-- A declared name is bound, and control goes on behind it. -/
theorem Obeys.declared {name : String} {given : Value} {place : D.Context}
    (moves : D.Moves world ((D.machine world).define name given) (D.stands place)) :
    D.Obeys world (do define name given; return Flow.normal) fun after flow =>
      D.Leaves context after flow ∧ (flow = .normal → D.stands place after) := by
  have bound : D.Obeys world (define name given) fun after _ => D.stands place after :=
    .moves (define_apply name given _) moves (Machine.define_environment _ _ _)
      (Machine.define_callDepth _ _ _) fun _ _ _ stands => stands
  exact .bind bound fun _ _ _ _ stands => .pure ⟨trivial, fun _ => stands⟩

/-! ### Bodies and blocks -/

/-- A computation that is run elsewhere and comes back obeys what was obeyed there. -/
theorem Obeys.elsewhere {inner : D.World} {second : Eval α} {change : Machine → Machine}
    (ended : first (D.machine world) = (second (D.machine inner)).adjust change)
    (later : D.Later world inner)
    (back : ∀ after, D.Next inner after →
      change (D.machine after) = (D.machine after).backTo (D.machine world))
    (obeys : D.Obeys inner second early)
    (given : ∀ after final result, D.Later after final → D.Next world final →
      early after result → wider final result) : D.Obeys world first wider := by
  have returning {after : D.World} (next : D.Next inner after) :
      ∃ final, D.machine final = change (D.machine after) ∧ D.Next world final ∧
        D.Later after final := by
    obtain ⟨final, same, behind, later⟩ := lawful.back (lawful.trans later next.later)
    rw [back after next]
    refine ⟨final, same, ⟨later, ?_, ?_⟩, behind⟩ <;> rw [same] <;> rfl
  unfold Obeys
  rw [ended]
  cases ending : second (D.machine inner) with
  | value result machine =>
    obtain ⟨after, rfl, next, known⟩ := obeys.result ending
    obtain ⟨final, same, next, behind⟩ := returning next
    exact ⟨final, same, next, given after final result behind next known⟩
  | fault error machine =>
    obtain ⟨allowed, after, rfl, next⟩ := obeys.stops ending
    obtain ⟨final, same, next, _⟩ := returning next
    exact ⟨allowed, final, same, next⟩
  | outOfFuel =>
    unfold Obeys at obeys
    rwa [ending] at obeys

/-- What may return within may return around it. -/
theorem Lawful.leaves_later {inner : D.Context} {flow : Flow} {after : D.World}
    (leaves : D.Leaves inner world flow) (later : D.Later world after)
    (returns : D.returns inner → D.returns context) : D.Leaves context after flow := by
  cases flow with
  | normal => trivial
  | returned value => exact ⟨returns leaves.1, lawful.value leaves.2 later⟩

/-- What may return behind a statement may return before it. -/
theorem Lawful.returns_after {statement : Stmt} (returns : D.returns (D.after context statement)) :
    D.returns context := by
  cases statement with
  | declare | function | «class» => exact lawful.returns returns
  | _ => exact returns

/-- What a function gives for the way its body left control. -/
theorem Lawful.result {flow : Flow} (leaves : D.Leaves context world flow) :
    D.value world flow.result := by
  cases flow with
  | normal => exact lawful.plain trivial
  | returned value => exact leaves.2

/-! ### Evaluators -/

section Evaluators

omit lawful

variable (D)

/-- The evaluators at one fuel obey the discipline. -/
structure ObeyedAt (fuel : Nat) : Prop where
  evaluate : ∀ {context world expression}, D.known (.evaluate fuel expression) (D.machine world) →
    D.stands context world → D.expr context fuel expression →
    D.Obeys world (evaluate fuel expression) D.value
  evaluateAll : ∀ {context world expressions},
    D.known (.evaluateAll fuel expressions) (D.machine world) → D.stands context world →
    D.exprs context fuel expressions →
    D.Obeys world (evaluateAll fuel expressions)
      fun after values => ∀ value ∈ values, D.value after value
  call : ∀ {world callee paren arguments},
    D.known (.call fuel callee paren arguments) (D.machine world) → D.value world callee →
    (∀ argument ∈ arguments, D.value world argument) → D.takes callee.arity? arguments.length →
    D.calls world fuel → D.Obeys world (call fuel callee paren arguments) D.value
  invoke : ∀ {world closure paren arguments},
    D.known (.invoke fuel closure paren arguments) (D.machine world) → D.closure world closure →
    (∀ argument ∈ arguments, D.value world argument) →
    D.takes (some closure.arity) arguments.length → D.invokes world fuel →
    D.Obeys world (invoke fuel closure paren arguments) D.value
  execute : ∀ {context world statement}, D.known (.execute fuel statement) (D.machine world) →
    D.stands context world → D.stmt context fuel statement →
    D.Obeys world (execute fuel statement) fun after flow =>
      D.Leaves context after flow ∧ (flow = .normal → D.stands (D.after context statement) after)
  executeAll : ∀ {context world statements},
    D.known (.executeAll fuel statements) (D.machine world) → D.stands context world →
    D.stmts context fuel statements → D.Obeys world (executeAll fuel statements) (D.Leaves context)
  repeatWhile : ∀ {context world condition body},
    D.known (.repeatWhile fuel condition body) (D.machine world) → D.stands context world →
    D.loop context fuel condition body →
    D.Obeys world (repeatWhile fuel condition body) (D.Leaves context)

end Evaluators

namespace ObeyedAt

/-- Without fuel nothing is run, and whatever stops a run there is allowed. -/
theorem zero : D.ObeyedAt 0 where
  evaluate := fun _ stands holds => lawful.exhausts (.evaluate 0 _) ⟨stands, holds⟩ rfl
  evaluateAll := fun _ stands holds => lawful.exhausts (.evaluateAll 0 _) ⟨stands, holds⟩ rfl
  call := fun {world callee paren arguments} _ kept listed fits enough =>
    have admits : D.Admits D.topLevel world (.call 0 callee paren arguments) :=
      ⟨kept, listed, fits, enough⟩
    lawful.exhausts _ admits rfl
  invoke := fun {world closure paren arguments} _ kept listed fits enough =>
    have admits : D.Admits D.topLevel world (.invoke 0 closure paren arguments) :=
      ⟨kept, listed, fits, enough⟩
    lawful.exhausts _ admits rfl
  execute := fun _ stands holds => lawful.exhausts (.execute 0 _) ⟨stands, holds⟩ rfl
  executeAll := fun _ stands holds => lawful.exhausts (.executeAll 0 _) ⟨stands, holds⟩ rfl
  repeatWhile := fun _ stands holds => lawful.exhausts (.repeatWhile 0 _ _) ⟨stands, holds⟩ rfl

variable {fuel : Nat} (smaller : D.ObeyedAt fuel)
include smaller

/-! What is left to do behind the first part of an evaluator. -/

/-- A call is checked before it is made. -/
theorem checkedCall {callee : Expr} {paren : Token} {arguments : List Expr} {target : Value}
    {values : List Value} {machine between : Machine}
    (known : D.known (.evaluate (fuel + 1) (.call callee paren arguments)) machine)
    (first : Eval.evaluate fuel callee machine = .value target between)
    (second : Eval.evaluateAll fuel arguments between = .value values (D.machine world))
    (stands : D.stands context world)
    (holds : D.expr context (fuel + 1) (.call callee paren arguments))
    (kept : D.value world target) (listed : ∀ value ∈ values, D.value world value) :
    D.Obeys world (do
      checkCall target paren values
      Eval.call fuel target paren values) D.value := by
  refine .bind (.aside (checkCall_aside _ _ _ _) fun _ _ _ fits => fits) ?_
  intro after _ checked next fits
  have same := checkCall_same checked
  rw [same] at second checked
  exact smaller.call (lawful.lead known (.call first second checked))
    (lawful.value kept next.later)
    (fun argument member => lawful.value (listed argument member) next.later)
    (fits ▸ lawful.takes _) (lawful.calls (lawful.stands stands next) holds)

/-- Arguments are evaluated behind the callee. -/
theorem arguments {callee : Expr} {paren : Token} {arguments : List Expr} {target : Value}
    {machine : Machine}
    (known : D.known (.evaluate (fuel + 1) (.call callee paren arguments)) machine)
    (first : Eval.evaluate fuel callee machine = .value target (D.machine world))
    (stands : D.stands context world)
    (holds : D.expr context (fuel + 1) (.call callee paren arguments))
    (kept : D.value world target) :
    D.Obeys world (do
      let values ← Eval.evaluateAll fuel arguments
      checkCall target paren values
      Eval.call fuel target paren values) D.value := by
  refine .bind (smaller.evaluateAll (lawful.lead known (.arguments first)) stands
    (lawful.exprParts holds).2) ?_
  intro after values second next listed
  exact smaller.checkedCall known first second (lawful.stands stands next) holds
    (lawful.value kept next.later) listed

/-- A property is set behind its object. -/
theorem stored {object value : Expr} {name : Token} {target : Value} {machine : Machine}
    (known : D.known (.evaluate (fuel + 1) (.set object name value)) machine)
    (first : Eval.evaluate fuel object machine = .value target (D.machine world))
    (stands : D.stands context world) (holds : D.expr context (fuel + 1) (.set object name value)) :
    D.Obeys world (do
      match target with
      | .object identity _ =>
        let result ← Eval.evaluate fuel value
        setField identity name.lexeme result
        return result
      | _ => fail name .noFields) D.value := by
  split
  case h_1 identity origin =>
    exact .bind (smaller.evaluate (lawful.lead known (.stored first)) stands
      (lawful.exprParts holds).2) fun _ _ _ _ kept => .setField kept
  case h_2 => exact .fail name (lawful.ordinary trivial)

/-- One of two branches is executed behind the condition. -/
theorem branches {condition : Expr} {whenTrue : Stmt} {whenFalse : Option Stmt} {value : Value}
    {machine : Machine}
    (known : D.known (.execute (fuel + 1) (.branch condition whenTrue whenFalse)) machine)
    (first : Eval.evaluate fuel condition machine = .value value (D.machine world))
    (stands : D.stands context world)
    (holds : D.stmt context (fuel + 1) (.branch condition whenTrue whenFalse)) :
    D.Obeys world (do
      if value.isTruthy then Eval.execute fuel whenTrue
      else
        match whenFalse with
        | none => return .normal
        | some other => Eval.execute fuel other) fun after flow =>
      D.Leaves context after flow ∧ D.stands context after := by
  obtain ⟨_, positive, negative⟩ := lawful.stmtParts holds
  split
  case isTrue truth =>
    refine (smaller.execute (lawful.lead known (.whenTrue first truth)) stands positive).imp ?_
    exact fun _ _ next left => ⟨left.1, lawful.stands stands next⟩
  case isFalse fails =>
    cases whenFalse with
    | none => exact .pure ⟨trivial, stands⟩
    | some other =>
      refine (smaller.execute (lawful.lead known (.whenFalse first (by simpa using fails))) stands
        (negative other rfl)).imp ?_
      exact fun _ _ next left => ⟨left.1, lawful.stands stands next⟩

/-- The other statements are executed unless the first one returned. -/
theorem otherStatements {first : Stmt} {rest : List Stmt} {flow : Flow} {machine : Machine}
    (known : D.known (.executeAll (fuel + 1) (first :: rest)) machine)
    (ran : Eval.execute fuel first machine = .value flow (D.machine world))
    (holds : D.stmts context (fuel + 1) (first :: rest)) (leaves : D.Leaves context world flow)
    (stands : flow = .normal → D.stands (D.after context first) world) :
    D.Obeys world (match flow with
      | .returned value => return .returned value
      | .normal => Eval.executeAll fuel rest) (D.Leaves context) := by
  cases flow with
  | returned value => exact .pure leaves
  | normal =>
    refine (smaller.executeAll (lawful.lead known (.otherStatements ran)) (stands rfl)
      (lawful.stmtsParts holds).2).imp ?_
    exact fun after _ _ leaves =>
      lawful.leaves_later leaves (lawful.refl after) lawful.returns_after

/-- A loop goes on unless its body returned. -/
theorem again {condition : Expr} {body : Stmt} {value : Value} {flow : Flow}
    {machine between : Machine}
    (known : D.known (.repeatWhile (fuel + 1) condition body) machine)
    (first : Eval.evaluate fuel condition machine = .value value between)
    (truth : value.isTruthy = true)
    (second : Eval.execute fuel body between = .value flow (D.machine world))
    (stands : D.stands context world) (holds : D.loop context (fuel + 1) condition body)
    (leaves : D.Leaves context world flow) :
    D.Obeys world (match flow with
      | .returned value => return .returned value
      | .normal => Eval.repeatWhile fuel condition body) (D.Leaves context) := by
  cases flow with
  | returned value => exact .pure leaves
  | normal =>
    exact smaller.repeatWhile (lawful.lead known (.again first truth second)) stands
      (lawful.loopParts holds).2.2

/-- The body of a loop is executed if the condition holds. -/
theorem repeats {condition : Expr} {body : Stmt} {value : Value} {machine : Machine}
    (known : D.known (.repeatWhile (fuel + 1) condition body) machine)
    (first : Eval.evaluate fuel condition machine = .value value (D.machine world))
    (stands : D.stands context world) (holds : D.loop context (fuel + 1) condition body) :
    D.Obeys world (do
      if value.isTruthy then
        match ← Eval.execute fuel body with
        | .returned value => return .returned value
        | .normal => Eval.repeatWhile fuel condition body
      else return .normal) (D.Leaves context) := by
  split
  case isTrue truth =>
    refine .bind (smaller.execute (lawful.lead known (.repeated first truth)) stands
      (lawful.loopParts holds).2.1) ?_
    intro after flow second next left
    exact smaller.again known first truth second (lawful.stands stands next) holds left.1
  case isFalse => exact .pure trivial

/-! The evaluators at one more fuel. -/

/-- An expression obeys with one more unit of fuel when its parts do. -/
theorem evaluate_succ {expression : Expr}
    (known : D.known (.evaluate (fuel + 1) expression) (D.machine world))
    (stands : D.stands context world) (holds : D.expr context (fuel + 1) expression) :
    D.Obeys world (Eval.evaluate (fuel + 1) expression) D.value := by
  have parts := lawful.exprParts holds
  cases expression with
  | literal value => exact .pure (lawful.plain value.value_isPlain)
  | grouping inner => exact smaller.evaluate (lawful.lead known .grouping) stands parts
  | unary operator operand =>
    refine .bind (smaller.evaluate (lawful.lead known .operand) stands parts.1) ?_
    intro between value _ _ _
    refine .ofExcept operator (fun _ computed => lawful.plain (isPlain_of_applyUnary computed)) ?_
    intro fault stopped
    rcases ordinary_of_applyUnary stopped with ordinary | rfl
    · exact lawful.ordinary ordinary
    · exact parts.2 value stopped
  | binary left operator right =>
    refine .bind (smaller.evaluate (lawful.lead known .left) stands parts.1) ?_
    intro between leftValue first next _
    refine .bind (smaller.evaluate (lawful.lead known (.right first)) (lawful.stands stands next)
      parts.2.1) ?_
    intro after rightValue _ _ _
    refine .ofExcept operator (fun _ computed => lawful.plain (isPlain_of_applyBinary computed)) ?_
    intro fault stopped
    rcases ordinary_of_applyBinary stopped with ordinary | rfl
    · exact lawful.ordinary ordinary
    · exact parts.2.2 leftValue rightValue stopped
  | logical left operator right =>
    refine .bind (smaller.evaluate (lawful.lead known .deciding) stands parts.1) ?_
    intro between leftValue first next kept
    split
    case isTrue => exact .pure kept
    case isFalse undecided =>
      exact smaller.evaluate (lawful.lead known (.undecided first (by simpa using undecided)))
        (lawful.stands stands next) parts.2
  | reference id name =>
    exact .reads (lookup_reads id name _) fun _ _ ended =>
      lawful.access (lawful.lead known .reference) trivial ⟨stands, _, .inl holds⟩ ⟨_, ended⟩
  | assign id name value =>
    refine .bind (smaller.evaluate (lawful.lead known .assigned) stands parts) ?_
    intro between result first next kept
    refine .bind (.assign (lawful.lead known (.assign first)) (lawful.stands stands next) holds
      kept) ?_
    exact fun _ _ _ next _ => .pure (lawful.value kept next.later)
  | call callee paren arguments =>
    refine .bind (smaller.evaluate (lawful.lead known .callee) stands parts.1) ?_
    exact fun _ _ first next kept =>
      smaller.arguments known first (lawful.stands stands next) holds kept
  | get object name =>
    refine .bind (smaller.evaluate (lawful.lead known .accessed) stands parts) ?_
    exact fun between value _ _ kept => .property kept name
  | set object name value =>
    refine .bind (smaller.evaluate (lawful.lead known .changed) stands parts.1) ?_
    exact fun _ _ first next _ => smaller.stored known first (lawful.stands stands next) holds
  | this id keyword =>
    exact .reads (lookup_reads id keyword _) fun _ _ ended =>
      lawful.access (lawful.lead known .this) trivial ⟨stands, _, .inr holds⟩ ⟨_, ended⟩
  | super id keyword method => exact .superMethod (lawful.lead known .super) stands holds

/-- A list of expressions obeys with one more unit of fuel. -/
theorem evaluateAll_succ {expressions : List Expr}
    (known : D.known (.evaluateAll (fuel + 1) expressions) (D.machine world))
    (stands : D.stands context world) (holds : D.exprs context (fuel + 1) expressions) :
    D.Obeys world (Eval.evaluateAll (fuel + 1) expressions)
      fun after values => ∀ value ∈ values, D.value after value := by
  cases expressions with
  | nil => exact .pure nofun
  | cons first rest =>
    obtain ⟨head, tail⟩ := lawful.exprsParts holds
    refine .bind (smaller.evaluate (lawful.lead known .firstArgument) stands head) ?_
    intro between value given next kept
    refine .bind (smaller.evaluateAll (lawful.lead known (.otherArguments given))
      (lawful.stands stands next) tail) ?_
    intro after values _ further listed
    exact .pure (List.forall_mem_cons.mpr ⟨lawful.value kept further.later, listed⟩)

/-- A checked call obeys with one more unit of fuel: of a function, of a bound method, of a class or
of a native function. -/
theorem call_succ {callee : Value} {paren : Token} {arguments : List Value}
    (known : D.known (.call (fuel + 1) callee paren arguments) (D.machine world))
    (kept : D.value world callee) (listed : ∀ argument ∈ arguments, D.value world argument)
    (fits : D.takes callee.arity? arguments.length) (enough : D.calls world (fuel + 1)) :
    D.Obeys world (Eval.call (fuel + 1) callee paren arguments) D.value := by
  have enough := lawful.invokes enough
  cases callee with
  | native builtin =>
    exact .aside (callNative_aside paren builtin _) fun _ _ _ plain => lawful.plain plain
  | function identity closure =>
    exact smaller.invoke (lawful.lead known .function) (lawful.callable.mp kept) listed fits enough
  | classObject origin =>
    have made : D.Obeys world (newObject origin) fun after created =>
        ∃ identity, created = .object identity origin ∧ D.value after created :=
      .moves rfl (lawful.newObject kept) rfl rfl fun _ _ _ kept => ⟨_, rfl, kept⟩
    refine .bind made fun between created making next found => ?_
    obtain ⟨identity, rfl, createdKept⟩ := found
    split
    case h_1 => exact .pure createdKept
    case h_2 method there =>
      refine .bind (.bindMethod (lawful.method createdKept rfl there) createdKept) ?_
      intro ready bound binding further kept
      have all := next.trans further
      have fits : D.takes (some bound.arity) arguments.length := by
        rw [kept.2, ← ClassObject.arity_of_initializer there]
        exact fits
      refine .bind (smaller.invoke (lawful.lead known (.initializer making there binding)) kept.1
        (fun argument member => lawful.value (listed argument member) all.later) fits
        (lawful.invokesNext enough all)) ?_
      intro last _ _ final _
      exact .pure (lawful.value createdKept (further.trans final).later)
  | nil | bool | number | string | object =>
    exact .fail paren (lawful.ordinary trivial)

/-- The body of a call is executed where the call enters. -/
theorem body {closure : Closure} {paren : Token} {arguments : List Value}
    (known : D.known (.invoke (fuel + 1) closure paren arguments) (D.machine world))
    (kept : D.closure world closure) (listed : ∀ argument ∈ arguments, D.value world argument)
    (fits : D.takes (some closure.arity) arguments.length) (enough : D.invokes world (fuel + 1)) :
    D.Obeys world (runBody fuel closure paren arguments) fun after flow =>
      D.value after flow.result := by
  have ended := runBody_apply fuel closure paren arguments (D.machine world)
  by_cases limited : (D.machine world).callLimit ≤ (D.machine world).callDepth
  · rw [if_pos limited] at ended
    unfold Obeys
    rw [ended]
    exact ⟨lawful.ordinary trivial, world, rfl, .refl world⟩
  · rw [if_neg limited] at ended
    obtain ⟨inner, entered, later, context, stands, holds⟩ :=
      lawful.enter kept listed fits enough (Nat.lt_of_not_le limited)
    have known : D.known (.executeAll fuel closure.declaration.body) (D.machine inner) := by
      rw [entered]
      exact lawful.lead known (.enter (Nat.lt_of_not_le limited))
    rw [← entered] at ended
    exact .elsewhere ended later
      (fun _ next => Machine.leaveCall_eq_backTo (entered ▸ next.callDepth))
      (smaller.executeAll known stands holds)
      fun _ _ _ later _ leaves => lawful.value (lawful.result leaves) later

/-- An invocation obeys with one more unit of fuel: the body runs in a frame of parameters, and the
caller is found as it was left. -/
theorem invoke_succ {closure : Closure} {paren : Token} {arguments : List Value}
    (known : D.known (.invoke (fuel + 1) closure paren arguments) (D.machine world))
    (kept : D.closure world closure) (listed : ∀ argument ∈ arguments, D.value world argument)
    (fits : D.takes (some closure.arity) arguments.length) (enough : D.invokes world (fuel + 1)) :
    D.Obeys world (Eval.invoke (fuel + 1) closure paren arguments) D.value := by
  refine .bind (smaller.body known kept listed fits enough) fun between flow ran next given => ?_
  split
  case isTrue initializes =>
    refine .reads (lookupAt_reads _ _ _ _) fun _ _ ended => ?_
    have admits : D.Admits D.topLevel between (.receiver closure) :=
      ⟨lawful.closure kept next.later, initializes⟩
    exact lawful.access (lawful.lead known (.receiver ran initializes)) trivial admits ⟨_, ended⟩
  case isFalse => exact .pure given

/-- A statement obeys with one more unit of fuel when its parts do. -/
theorem execute_succ {statement : Stmt}
    (known : D.known (.execute (fuel + 1) statement) (D.machine world))
    (stands : D.stands context world) (holds : D.stmt context (fuel + 1) statement) :
    D.Obeys world (Eval.execute (fuel + 1) statement) fun after flow =>
      D.Leaves context after flow ∧
        (flow = .normal → D.stands (D.after context statement) after) := by
  have parts := lawful.stmtParts holds
  cases statement with
  | expression value =>
    refine .bind (smaller.evaluate (lawful.lead known .expression) stands parts) ?_
    exact fun _ _ _ next _ => .pure ⟨trivial, fun _ => lawful.stands stands next⟩
  | print keyword value =>
    refine .bind (smaller.evaluate (lawful.lead known .print) stands parts) ?_
    intro between result _ next _
    refine .bind (.aside (write_aside keyword _ _) fun _ _ _ known => known) ?_
    exact fun _ _ _ further _ => .pure ⟨trivial, fun _ => lawful.stands stands (next.trans further)⟩
  | declare name initializer =>
    cases initializer with
    | none =>
      exact .declared (lawful.declare stands holds (lawful.plain trivial))
    | some initializer =>
      refine .bind (smaller.evaluate (lawful.lead known .declare) stands (parts initializer rfl)) ?_
      intro between value _ next kept
      exact .declared (lawful.declare (lawful.stands stands next) holds kept)
  | block body =>
    obtain ⟨inner, opened, later, within, standsWithin, bodyHolds, returns⟩ :=
      lawful.block stands holds
    have known : D.known (.executeAll fuel body) (D.machine inner) := by
      rw [opened]
      exact lawful.lead known (.block rfl)
    have ended := execute_block fuel body (D.machine world)
    rw [← opened] at ended
    refine .elsewhere ended later
      (fun _ next => Machine.leaveBlock_eq_backTo (next.callDepth.trans (by rw [opened])))
      (smaller.executeAll known standsWithin bodyHolds) fun _ _ _ later next leaves => ?_
    exact ⟨lawful.leaves_later leaves later returns, fun _ => lawful.stands stands next⟩
  | branch condition whenTrue whenFalse =>
    refine .bind (smaller.evaluate (lawful.lead known .condition) stands parts.1) ?_
    intro between value first next _
    refine (smaller.branches known first (lawful.stands stands next) holds).imp ?_
    exact fun _ _ _ left => ⟨left.1, fun _ => left.2⟩
  | loop condition body =>
    refine (smaller.repeatWhile (lawful.lead known .loop) stands parts).imp ?_
    exact fun _ _ next leaves => ⟨leaves, fun _ => lawful.stands stands next⟩
  | function declaration =>
    have here : D.Obeys world environment fun after around =>
        around = (D.machine after).environment := .value _ rfl (.refl world) rfl
    refine .bind here fun between around _ next same => ?_
    subst same
    have stands := lawful.stands stands next
    refine .bind (.aside (newFunction_aside _ _) fun _ _ _ known => known) ?_
    rintro ready _ _ next ⟨identity, rfl⟩
    have moves := lawful.function identity (lawful.stands stands next) holds
    rw [next.environment] at moves
    exact .declared moves
  | «return» keyword value =>
    cases value with
    | none => exact .pure ⟨⟨parts.1, lawful.plain trivial⟩, nofun⟩
    | some value =>
      refine .bind (smaller.evaluate (lawful.lead known .return) stands (parts.2 value rfl)) ?_
      exact fun _ _ _ _ kept => .pure ⟨⟨parts.1, kept⟩, nofun⟩
  | «class» name superclass methods =>
    cases superclass with
    | none =>
      refine .bind (.defineBase stands holds) fun _ _ _ _ stands => ?_
      exact .pure ⟨trivial, fun _ => stands⟩
    | some superclass =>
      refine .bind (smaller.evaluate (lawful.lead known .superclass) stands
        (parts superclass rfl)) ?_
      intro between value _ next kept
      refine (Obeys.derives (lawful.stands stands next) holds kept).imp ?_
      exact fun _ _ _ left => ⟨left.1, fun _ => left.2⟩

/-- A list of statements obeys with one more unit of fuel. -/
theorem executeAll_succ {statements : List Stmt}
    (known : D.known (.executeAll (fuel + 1) statements) (D.machine world))
    (stands : D.stands context world) (holds : D.stmts context (fuel + 1) statements) :
    D.Obeys world (Eval.executeAll (fuel + 1) statements) (D.Leaves context) := by
  cases statements with
  | nil => exact .pure trivial
  | cons first rest =>
    obtain ⟨head, tail⟩ := lawful.stmtsParts holds
    refine .bind (smaller.execute (lawful.lead known .firstStatement) stands head) ?_
    exact fun _ _ ran _ left => smaller.otherStatements known ran holds left.1 left.2

/-- A loop obeys with one more unit of fuel. -/
theorem repeatWhile_succ {condition : Expr} {body : Stmt}
    (known : D.known (.repeatWhile (fuel + 1) condition body) (D.machine world))
    (stands : D.stands context world) (holds : D.loop context (fuel + 1) condition body) :
    D.Obeys world (Eval.repeatWhile (fuel + 1) condition body) (D.Leaves context) := by
  refine .bind (smaller.evaluate (lawful.lead known .test) stands (lawful.loopParts holds).1) ?_
  exact fun _ _ first next _ => smaller.repeats known first (lawful.stands stands next) holds

end ObeyedAt

/-- Every evaluator obeys a lawful discipline, however much fuel it has. -/
theorem Lawful.obeys (fuel : Nat) : D.ObeyedAt fuel := by
  induction fuel with
  | zero => exact .zero
  | succ fuel smaller =>
    exact
      { evaluate := smaller.evaluate_succ
        evaluateAll := smaller.evaluateAll_succ
        call := smaller.call_succ
        invoke := smaller.invoke_succ
        execute := smaller.execute_succ
        executeAll := smaller.executeAll_succ
        repeatWhile := smaller.repeatWhile_succ }

/-- Top-level statements obey a lawful discipline. -/
theorem Lawful.obeys_topLevel {fuel : Nat} {statements : List Stmt}
    (known : D.known (.topLevel fuel statements) (D.machine world))
    (admits : D.Admits context world (.topLevel fuel statements)) :
    D.Obeys world (executeTopLevel fuel statements) fun _ _ => True := by
  obtain ⟨stands, holds⟩ := admits
  induction statements generalizing world with
  | nil => exact .pure trivial
  | cons first rest inductionHypothesis =>
    obtain ⟨head, tail⟩ := List.forall_mem_cons.mp holds
    refine .bind ((lawful.obeys fuel).execute (lawful.lead known .topStatement) stands head) ?_
    intro between flow ran next _
    exact inductionHypothesis (lawful.lead known (.nextStatements ran)) (lawful.stands stands next)
      tail

/-- Every task that is admitted obeys, accesses included. -/
theorem Lawful.obeys_task {task : Task} (known : D.known task (D.machine world))
    (admits : D.Admits context world task) : D.Obeys world task.run fun _ _ => True := by
  have allowed {error : RuntimeError} {after : Machine} (isAccess : task.IsAccess)
      (ended : task.run (D.machine world) = .fault error after) : D.fault error :=
    lawful.access known isAccess admits (Task.faults_iff.mpr ⟨after, ended⟩)
  have any {α : Type} {computation : Eval α} {kind : D.World → α → Prop}
      (obeys : D.Obeys world computation kind) : D.Obeys world computation fun _ _ => True :=
    obeys.imp fun _ _ _ _ => trivial
  cases task with
  | evaluate fuel => exact any ((lawful.obeys fuel).evaluate known admits.1 admits.2)
  | evaluateAll fuel => exact any ((lawful.obeys fuel).evaluateAll known admits.1 admits.2)
  | call fuel =>
    obtain ⟨kept, listed, fits, enough⟩ := admits
    exact any ((lawful.obeys fuel).call known kept listed fits enough)
  | invoke fuel =>
    obtain ⟨kept, listed, fits, enough⟩ := admits
    exact any ((lawful.obeys fuel).invoke known kept listed fits enough)
  | execute fuel => exact any ((lawful.obeys fuel).execute known admits.1 admits.2)
  | executeAll fuel => exact any ((lawful.obeys fuel).executeAll known admits.1 admits.2)
  | repeatWhile fuel => exact any ((lawful.obeys fuel).repeatWhile known admits.1 admits.2)
  | topLevel => exact lawful.obeys_topLevel known admits
  | lookup => exact any (.reads (lookup_reads _ _ _) fun _ _ => allowed trivial)
  | assign =>
    obtain ⟨stands, kept, _, _, holds⟩ := admits
    exact .assign known stands holds kept
  | superMethod =>
    obtain ⟨stands, _, holds⟩ := admits
    exact any (.superMethod known stands holds)
  | receiver => exact any (.reads (lookupAt_reads _ _ _ _) fun _ _ => allowed trivial)

/-- A task that is admitted stops at allowed faults only. -/
theorem Lawful.allows {task : Task} {error : RuntimeError} (known : D.known task (D.machine world))
    (admits : D.Admits context world task) (faults : task.Faults (D.machine world) error) :
    D.fault error := by
  obtain ⟨after, ended⟩ := Task.faults_iff.mp faults
  exact ((lawful.obeys_task known admits).stops ended).1

/-- A task that is admitted leaves a later world. -/
theorem Lawful.leaves {task : Task} {machine : Machine} (known : D.known task (D.machine world))
    (admits : D.Admits context world task) (left : task.Leaves (D.machine world) machine) :
    ∃ after, D.machine after = machine ∧ D.Next world after := by
  have obeys := lawful.obeys_task known admits
  have left := Task.leaves_iff.mp left
  cases ending : task.run (D.machine world) with
  | value result last =>
    rw [ending] at left
    obtain ⟨after, same, next, _⟩ := obeys.result ending
    exact ⟨after, same.trans left, next⟩
  | fault error last =>
    rw [ending] at left
    obtain ⟨_, after, same, next⟩ := obeys.stops ending
    exact ⟨after, same.trans left, next⟩
  | outOfFuel =>
    rw [ending] at left
    exact left.elim

end Discipline

end LoxLang
