import LoxLang.Proofs.Machine.Bound
import LoxLang.Proofs.Session.Checked
import Mathlib.Order.Defs.LinearOrder

/-!
# Instances and superclasses are fixed by binding

A session keeps rooted values only, so at every moment of every run the code of a method finds the
instance that it was bound to and the superclass that its class was declared with.
`Session.Precedes` says which store comes before which in the life of a session, also across runs;
the frames of `this` and `super` are the same in all stores that follow. `receivers_fixed` puts the
parts together: how closures come to serve an instance, that they go on to, what `this` and `super`
come to while they run, and what initializers and classes give when they are called.
-/

namespace LoxLang

/-- A machine with the same store stays rooted when more addresses are known. -/
theorem Machine.Rooted.reload {addressing later : Addressing} {machine after : Machine}
    (rooted : machine.Rooted addressing) (includes : later.Includes addressing)
    (distances : ∀ id, after.distances[id]? = later.address? id)
    (store : after.store = machine.store) : after.Rooted later where
  distances := distances
  kept := by
    rw [store]
    exact rooted.kept.imp (fun _ _ known => known.extend includes) fun _ known =>
      known.extend includes

namespace Session

variable {session after : Session} {source : String} {fuel : Nat} {outcome : Outcome}
  {task : Task} {machine : Machine}

/-- A session that keeps rooted values only. -/
def Rooted (session : Session) : Prop :=
  session.machine.Rooted session.addressing

/-- Every occurrence that has an entry keeps it. -/
theorem Sound.includes (sound : session.Sound) (accepted : (session.program source).Accepted) :
    (session.nextAddressing source).Includes session.addressing := by
  intro id distance known
  have issued : id < session.nextId := by
    refine Nat.lt_of_not_le fun above => ?_
    cases known.symm.trans (sound.unissued id above)
  exact (loaded_distances_of_other accepted (.inl issued)).trans known

/-- A rooted session is about to run what is rooted. -/
theorem Rooted.topLevel (rooted : session.Rooted) (sound : session.Sound)
    (accepted : (session.program source).Accepted) (fuel : Nat) :
    (Task.topLevel fuel (session.program source).statements).Rooted
      (session.nextAddressing source) .outside 0 (session.loaded source) := by
  have formed : Stmt.FormedAll unreservedRules (session.program source).statements :=
    accepted.formed (scannedTokens_ordinary source)
  have leveled := Stmt.FormedAll.leveled (Chain.levels_outside [] 0) _ formed
    accepted.issued.proper (resolve_lawful accepted.resolved) (sound.holds accepted)
  refine ⟨rooted.reload (sound.includes accepted) (fun _ => rfl) rfl, ?_,
    Stmt.leveledAll_iff.mp leveled⟩
  exact ⟨fun within => (within rfl).elim, nofun⟩

/-- A finished run of an accepted text leaves the store that its statements leave. -/
theorem run_leaves (accepted : (session.program source).Accepted)
    (ended : session.run fuel source = some (outcome, after)) :
    ∃ left, (Task.topLevel fuel (session.program source).statements).Leaves
      (session.loaded source) left ∧ after.machine.store = left.store ∧
        after.machine.distances = left.distances := by
  rcases run_cases ended with ⟨refused, _⟩ | ⟨_, _, _, ending⟩
  · exact (refused accepted).elim
  · suffices leaves : ∃ left, (Eval.executeTopLevel fuel (session.program source).statements
        (session.loaded source)).Leaves left ∧ after.machine.store = left.store ∧
          after.machine.distances = left.distances from leaves
    unfold Eval.interpret Eval.atTopLevel at ending
    cases given : Eval.executeTopLevel fuel (session.program source).statements
        (session.loaded source) with
    | value result left =>
      simp only [given, Ending.value.injEq, reduceCtorEq, false_and, exists_false, or_false]
        at ending
      exact ⟨left, rfl, by rw [ending.1.2], by rw [ending.1.2]⟩
    | fault error left =>
      simp only [given, reduceCtorEq, false_and, Ending.fault.injEq, false_or] at ending
      obtain ⟨_, ⟨_, same⟩, _⟩ := ending
      exact ⟨left, rfl, by rw [← same]; rfl, by rw [← same]; rfl⟩
    | outOfFuel => simp [given] at ending

theorem start_rooted (clock : Nat → Nat) (callLimit : Nat) :
    (Session.start clock callLimit).Rooted where
  distances := fun _ => rfl
  kept := {
    bound := by
      intro frame name value present
      obtain ⟨native, _, rfl⟩ := Machine.start_binding? present
      trivial
    field := by
      intro object name value present
      cases (Machine.start_field? clock callLimit object name).symm.trans present }

/-- Every session that a host can bring about keeps rooted values only. -/
theorem Reachable.rooted {session : Session} (reachable : session.Reachable) :
    session.Rooted := by
  induction reachable with
  | start clock callLimit => exact start_rooted clock callLimit
  | @run session after fuel source outcome prior ended inductionHypothesis =>
    by_cases accepted : (session.program source).Accepted
    · obtain ⟨left, leaves, store, distances⟩ := run_leaves accepted ended
      have rooted :=
        ((inductionHypothesis.topLevel prior.sound accepted fuel).leaves leaves).2
      refine rooted.reload (fun id distance known => ?_) (fun _ => rfl) store
      change after.machine.distances[id]? = some distance
      rw [distances, rooted.distances, known]
    · rcases run_cases ended with ⟨_, _, rfl⟩ | ⟨other, _⟩
      · exact inductionHypothesis.reload (fun _ _ known => known) (fun _ => rfl) rfl
      · exact (accepted other).elim
  | redirect _ _ inductionHypothesis | limitCalls _ _ inductionHypothesis =>
    exact inductionHypothesis.reload (fun _ _ known => known) (fun _ => rfl) rfl

/-- Whatever a run comes to is rooted. -/
theorem Reachable.rooted_task (reachable : session.Reachable)
    (accepted : (session.program source).Accepted)
    (performs : session.Performs source fuel task machine) :
    ∃ inside level, task.Rooted (session.nextAddressing source) inside level machine :=
  ((reachable.rooted.topLevel reachable.sound accepted fuel).reaches performs).2

/-- One store comes before another in the life of a session: a task starts before all that comes
about in it, which comes before its end and before the end of the run. -/
inductive Precedes : Store → Store → Prop where
  | during {session : Session} {source : String} {fuel : Nat} {task later : Task}
      {machine between : Machine} {moment : Store} (reachable : session.Reachable)
      (accepted : (session.program source).Accepted)
      (performs : session.Performs source fuel task machine)
      (reached : Task.Reaches task machine later between) (shown : later.Moment between moment) :
      Precedes machine.store moment
  | ending {session : Session} {source : String} {fuel : Nat} {task later : Task}
      {machine between outer : Machine} {moment : Store} (reachable : session.Reachable)
      (accepted : (session.program source).Accepted)
      (performs : session.Performs source fuel task machine)
      (reached : Task.Reaches task machine later between) (shown : later.Moment between moment)
      (ended : task.Leaves machine outer) : Precedes moment outer.store
  | finishing {session after : Session} {source : String} {fuel : Nat} {outcome : Outcome}
      {task : Task} {machine : Machine} {moment : Store} (reachable : session.Reachable)
      (accepted : (session.program source).Accepted)
      (performs : session.Performs source fuel task machine) (shown : task.Moment machine moment)
      (ended : session.run fuel source = some (outcome, after)) :
      Precedes moment after.machine.store
  | trans {before middle after : Store} (first : Precedes before middle)
      (second : Precedes middle after) : Precedes before after

/-- `this` and `super` are bound for good. -/
theorem Precedes.fixes {before after : Store} (precedes : Precedes before after) :
    before.Fixes after := by
  induction precedes with
  | during reachable accepted performs reached shown =>
    obtain ⟨inside, level, rooted⟩ := reachable.rooted_task accepted performs
    exact rooted.fixes_moment reached shown
  | ending reachable accepted performs reached shown ended =>
    obtain ⟨inside, level, rooted⟩ := reachable.rooted_task accepted performs
    exact rooted.moment_fixes reached shown ended
  | finishing reachable accepted performs shown ended =>
    obtain ⟨left, leaves, store, _⟩ := run_leaves accepted ended
    have rooted := reachable.rooted.topLevel reachable.sound accepted
    rw [store]
    exact (rooted _).moment_fixes performs shown leaves
  | trans _ _ first second => exact first.trans second

/-- A task comes about in the body of a closure that was called at a machine, and not in a further
call. -/
def Runs (session : Session) (source : String) (fuel : Nat) (closure : Closure)
    (caller : Machine) (task : Task) (machine : Machine) : Prop :=
  ∃ depth paren arguments callee,
    session.Performs source fuel (.invoke (depth + 1) closure paren arguments) caller ∧
    Task.Leads (.invoke (depth + 1) closure paren arguments) caller
      (.executeAll depth closure.declaration.body) callee ∧
    Task.Continues (.executeAll depth closure.declaration.body) callee task machine

section Runs

variable {closure : Closure} {caller : Machine} (reachable : session.Reachable)
  (accepted : (session.program source).Accepted)
  (runs : session.Runs source fuel closure caller task machine)
include reachable accepted runs

theorem Runs.sound : task.Sound (session.nextAddressing source) machine := by
  obtain ⟨depth, paren, arguments, callee, performs, begun, continues⟩ := runs
  have called := (reachable.sound.topLevel accepted fuel).reaches performs
  exact (called.step begun).reaches continues.reaches

/-- The code that runs is rooted, and what the closure means by `this` and `super` is what the
environment has for them, some frames further away. -/
theorem Runs.rooted :
    ∃ inside level depth, caller.store.Roots inside level closure.environment ∧
      task.Rooted (session.nextAddressing source) inside (level + 2 + depth) machine ∧
      ∀ name value distance, name = "this" ∨ name = "super" →
        caller.store.Nearest name value closure.environment distance →
        machine.store.Nearest name value machine.environment (distance + 2 + depth) := by
  obtain ⟨remaining, paren, arguments, callee, performs, begun, continues⟩ := runs
  obtain ⟨_, _, rooted, ⟨inside, level, leveled, roots⟩, listed, _⟩ :=
    reachable.rooted_task accepted performs
  obtain ⟨rfl, body⟩ := Task.rooted_body rooted listed leveled roots begun
  obtain ⟨depth, known, found⟩ := body.continues continues
  -- Two frames lie between the body and the closure, then one for each block around the task.
  refine ⟨inside, level, depth, roots, known, fun name value distance reserved nearest => ?_⟩
  exact found name value _ reserved (nearest.enter reserved leveled.body.1)

end Runs

/-- While a session runs a text, `this`, `super` and initializers are fixed by binding. -/
structure FixesReceivers (session : Session) (source : String) (fuel : Nat) : Prop where
  /-- A method that is got as a property is bound to the instance. -/
  getting : ∀ depth object name identity origin method machine between,
    session.Performs source fuel (.evaluate (depth + 1) (.get object name)) machine →
    Eval.evaluate depth object machine = .value (.object identity origin) between →
    between.store.field? identity name.lexeme = none →
    origin.method? name.lexeme = some method →
    ∃ number bound after,
      Eval.evaluate (depth + 1) (.get object name) machine =
        .value (.function number bound) after ∧
      bound.BoundTo after.store method (.object identity origin)
  /-- The initializer that a class runs is bound to the new instance. -/
  constructing : ∀ depth origin bound paren arguments machine ready,
    session.Performs source fuel (.call (depth + 1) (.classObject origin) paren arguments) machine →
    Task.Leads (.call (depth + 1) (.classObject origin) paren arguments) machine
      (.invoke depth bound paren arguments) ready →
    ∃ method, origin.method? initializerName = some method ∧
      bound.BoundTo ready.store method (.object machine.store.objects.size origin)
  /-- The methods of a class mean by `super` what its superclass expression came to. -/
  declaring : ∀ depth name superclass methods parent machine between,
    session.Performs source fuel (.execute (depth + 1) (.class name (some superclass) methods))
      machine →
    Eval.evaluate depth superclass machine = .value (.classObject parent) between →
    ∃ origin after,
      Eval.execute (depth + 1) (.class name (some superclass) methods) machine =
        .value .normal after ∧
      after.store.getAt? after.environment 0 name.lexeme = some (.classObject origin) ∧
      origin.Derives after.store methods parent
  /-- Closures serve the same instance and inherit from the same class at all later moments, and
  instances last. -/
  lasting : ∀ before task machine, session.Performs source fuel task machine →
    Precedes before machine.store →
    (∀ closure receiver, Closure.Serves before closure receiver →
      closure.Serves machine.store receiver) ∧
    (∀ closure parent, Closure.Inherits before closure parent →
      closure.Inherits machine.store parent) ∧
    (∀ value, Value.Exists before value → value.Exists machine.store)
  /-- In the body of a closure, `this` is the instance that the closure serves. -/
  this : ∀ closure caller depth id keyword machine,
    session.Runs source fuel closure caller (.evaluate (depth + 1) (.this id keyword)) machine →
    (∃ identity origin, closure.Serves caller.store (.object identity origin)) ∧
    ∀ receiver, closure.Serves caller.store receiver →
      Eval.evaluate (depth + 1) (.this id keyword) machine = .value receiver machine
  /-- In the body of a closure, `super` finds the methods of the class that the closure inherits
  from, bound to the instance that it serves. -/
  super : ∀ closure receiver caller depth id keyword method machine,
    session.Runs source fuel closure caller (.evaluate (depth + 1) (.super id keyword method))
      machine →
    closure.Serves caller.store receiver →
    (∃ parent, closure.Inherits caller.store parent) ∧
    ∀ parent, closure.Inherits caller.store parent →
      (Eval.evaluate (depth + 1) (.super id keyword method) machine).GivesMethod machine parent
        method receiver
  /-- A function that is declared in the body of a closure serves the same instance and inherits
  from the same class. -/
  nested : ∀ closure receiver caller depth declaration machine,
    session.Runs source fuel closure caller (.execute (depth + 1) (.function declaration))
      machine →
    closure.Serves caller.store receiver →
    ∃ number inner after,
      Eval.execute (depth + 1) (.function declaration) machine = .value .normal after ∧
      after.store.getAt? after.environment 0 declaration.name.lexeme =
        some (.function number inner) ∧
      inner.declaration = declaration ∧ inner.Serves after.store receiver ∧
      ∀ parent, closure.Inherits caller.store parent → inner.Inherits after.store parent
  /-- An initializer that is called gives the instance that it serves. -/
  initializing : ∀ depth number closure receiver paren arguments machine result after,
    session.Performs source fuel (.call depth (.function number closure) paren arguments) machine →
    closure.isInitializer = true →
    closure.Serves machine.store receiver →
    Eval.call depth (.function number closure) paren arguments machine = .value result after →
    result = receiver
  /-- A class that is called gives a new instance of it. -/
  creating : ∀ depth origin paren arguments machine result after,
    session.Performs source fuel (.call depth (.classObject origin) paren arguments) machine →
    Eval.call depth (.classObject origin) paren arguments machine = .value result after →
    (∃ identity, result = .object identity origin) ∧ ¬ result.Exists machine.store ∧
      result.Exists after.store
  /-- Instances that are bound to a name, kept in a field or the value of an expression exist. -/
  existing : ∀ task machine, session.Performs source fuel task machine →
    (∀ frame name value, machine.store.binding? frame name = some value →
      value.Exists machine.store) ∧
    (∀ object name value, machine.store.field? object name = some value →
      value.Exists machine.store) ∧
    ∀ depth expression value after, task = .evaluate depth expression →
      Eval.evaluate depth expression machine = .value value after → value.Exists after.store

end Session

/-- In every run of every session, methods mean by `this` the instance that they were bound to and
by `super` the superclass that their class was declared with, wherever they were kept in between and
whoever calls them; a bound initializer gives its instance, and a class a new instance of it. -/
theorem receivers_fixed {session : Session} (reachable : session.Reachable) {source : String}
    (accepted : (session.program source).Accepted) (fuel : Nat) :
    session.FixesReceivers source fuel where
  getting := by
    intro depth object name identity origin method machine between _ evaluated absent found
    obtain ⟨number, bound, after, given, boundTo⟩ := Eval.property_eq_value absent found
    exact ⟨number, bound, after, Eval.bind_eq_value_iff.mpr ⟨_, between, evaluated, given⟩,
      boundTo⟩
  constructing := by
    intro depth origin bound paren arguments machine ready _ leads
    cases leads with
    | initializer made found binds =>
      cases made
      exact ⟨_, found, Eval.boundTo_of_bindMethod found binds⟩
  declaring := by
    intro depth name superclass methods parent machine between performs evaluated
    obtain ⟨inside, level, rooted, stands, named, parentLeveled, _⟩ :=
      reachable.rooted_task accepted performs
    obtain ⟨_, chain, sited, _⟩ := (reachable.sound.topLevel accepted fuel).reaches performs
    obtain ⟨frame, outer, here, there⟩ := sited.innermost_lt
    have parent : (Task.evaluate depth superclass).Rooted _ inside level machine :=
      ⟨rooted, stands, parentLeveled⟩
    obtain ⟨environment, fixes, _⟩ := parent.evaluated evaluated
    exact Eval.execute_derived evaluated (environment.trans here)
      (Nat.lt_of_lt_of_le there fixes.frames) named
  lasting := by
    intro before task machine _ precedes
    have fixes := precedes.fixes
    exact ⟨fun _ _ serves => serves.mono fixes, fun _ _ inherits => inherits.mono fixes,
      fun _ present => present.mono fixes⟩
  this := by
    intro closure caller depth id keyword machine runs
    obtain ⟨inside, level, more, roots, rooted, found⟩ := runs.rooted reachable accepted
    have ⟨_, _, _, within, _⟩ := rooted
    obtain ⟨identity, origin, own⟩ := roots.this within
    refine ⟨⟨identity, origin, level, own⟩, ?_⟩
    rintro receiver ⟨distance, nearest⟩
    exact rooted.evaluate_this (found _ _ _ (.inl rfl) nearest)
  super := by
    rintro closure receiver caller depth id keyword method machine runs ⟨distance, nearest⟩
    obtain ⟨inside, level, more, roots, rooted, found⟩ := runs.rooted reachable accepted
    have ⟨_, _, _, within, _⟩ := rooted
    obtain ⟨parent, above⟩ := roots.super within
    refine ⟨⟨parent, _, above⟩, ?_⟩
    rintro parent ⟨further, above⟩
    exact rooted.evaluate_super (found _ _ _ (.inl rfl) nearest) (found _ _ _ (.inr rfl) above)
  nested := by
    rintro closure receiver caller depth declaration machine runs ⟨distance, nearest⟩
    obtain ⟨inside, level, more, roots, ⟨_, _, leveled⟩, found⟩ :=
      runs.rooted reachable accepted
    obtain ⟨_, chain, sited, _⟩ := runs.sound reachable accepted
    obtain ⟨frame, outer, here, there⟩ := sited.innermost_lt
    obtain ⟨number, after, ended, defined, fixes⟩ :=
      Eval.execute_function here there (FunctionDecl.Leveled.name leveled)
    refine ⟨number, _, after, ended, defined, rfl, ?_, ?_⟩
    · exact ⟨_, (found _ _ _ (.inl rfl) nearest).mono (.inl rfl) fixes⟩
    · rintro parent ⟨further, above⟩
      exact ⟨_, (found _ _ _ (.inr rfl) above).mono (.inr rfl) fixes⟩
  initializing := by
    intro depth number closure receiver paren arguments machine result after performs
      initializes serves ended
    cases depth with
    | zero => cases ended
    | succ depth =>
      have sound := (reachable.sound.topLevel accepted fuel).reaches performs
      obtain ⟨inside, level, rooted⟩ := reachable.rooted_task accepted performs
      have invoked : (Task.invoke depth closure paren arguments).Rooted _ inside level machine :=
        rooted
      exact Task.eq_of_invoke_initializer invoked (sound.step .function) initializes serves ended
  creating := by
    intro depth origin paren arguments machine result after performs ended
    obtain ⟨inside, level, rooted⟩ := reachable.rooted_task accepted performs
    have present := (rooted.called ended).exists
    cases depth with
    | zero => cases ended
    | succ depth =>
      obtain rfl := Eval.eq_of_call_class ended
      exact ⟨⟨_, rfl⟩, Nat.lt_irrefl _, present⟩
  existing := by
    intro task machine performs
    obtain ⟨inside, level, rooted⟩ := reachable.rooted_task accepted performs
    have ⟨keeps, _⟩ := rooted
    refine ⟨fun frame name value bound => (keeps.kept.bound bound).exists,
      fun object name value kept => (keeps.kept.field kept).exists, ?_⟩
    rintro depth expression value after rfl ended
    exact (rooted.evaluated ended).2.2.exists

/-- A method that was stored in a variable finds the superclass of its class when it is called,
although the variable of the superclass no longer holds it. -/
theorem receivers_fixed_stored :
    ∃ closure receiver parent caller keyword method machine,
      (Session.start (fun _ => 0) 9).Runs
        "class A\x7bm()\x7b\x7d\x7d class B<A\x7bm()\x7bsuper.m;\x7d\x7d var f=B().m; A=nil; f();"
        9 closure caller (.evaluate 3 (.super 1 keyword method)) machine ∧
      closure.Serves caller.store receiver ∧ closure.Inherits caller.store parent ∧
      parent.name = "A" ∧ caller.store.getAt? globalEnvironment 0 "A" = some .nil ∧
      (Eval.evaluate 3 (.super 1 keyword method) machine).GivesMethod machine parent method
        receiver := by
  have accepted : Program.Accepted ((Session.start (fun _ => 0) 9).program
      "class A\x7bm()\x7b\x7d\x7d class B<A\x7bm()\x7bsuper.m;\x7d\x7d var f=B().m; A=nil; f();") :=
    ⟨by decide +kernel, by decide +kernel⟩
  have statements : Program.statements ((Session.start (fun _ => 0) 9).program
      "class A\x7bm()\x7b\x7d\x7d class B<A\x7bm()\x7bsuper.m;\x7d\x7d var f=B().m; A=nil; f();") =
      [.class ⟨.identifier, "A", 1⟩ none [.mk ⟨.identifier, "m", 1⟩ [] []],
      .class ⟨.identifier, "B", 1⟩ (some (.reference 0 ⟨.identifier, "A", 1⟩))
        [.mk ⟨.identifier, "m", 1⟩ []
          [.expression (.super 1 ⟨.keyword .superWord, "super", 1⟩ ⟨.identifier, "m", 1⟩)]],
      .declare ⟨.identifier, "f", 1⟩ (some (.get
        (.call (.reference 2 ⟨.identifier, "B", 1⟩) ⟨.symbol .rightParen, ")", 1⟩ [])
        ⟨.identifier, "m", 1⟩)),
      .expression (.assign 3 ⟨.identifier, "A", 1⟩ (.literal .nil)),
      .expression
        (.call (.reference 4 ⟨.identifier, "f", 1⟩) ⟨.symbol .rightParen, ")", 1⟩ [])] := by
    decide +kernel
  obtain ⟨closure, receiver, parent, caller, performs, body, below, serves, inherits, named,
      lost⟩ : ∃ closure receiver parent caller,
        (Session.start (fun _ => 0) 9).Performs
          "class A\x7bm()\x7b\x7d\x7d class B<A\x7bm()\x7bsuper.m;\x7d\x7d var f=B().m; A=nil; f();"
          9 (.invoke 6 closure ⟨.symbol .rightParen, ")", 1⟩ []) caller ∧
        closure.declaration.body = [.expression
          (.super 1 ⟨.keyword .superWord, "super", 1⟩ ⟨.identifier, "m", 1⟩)] ∧
        caller.callDepth < caller.callLimit ∧ closure.Serves caller.store receiver ∧
        closure.Inherits caller.store parent ∧ parent.name = "A" ∧
        caller.store.getAt? globalEnvironment 0 "A" = some .nil := by
    have distances : (resolve (Program.statements ((Session.start (fun _ => 0) 9).program
        "class A\x7bm()\x7b\x7d\x7d class B<A\x7bm()\x7bsuper.m;\x7d\x7d var f=B().m; A=nil; f();"
        ))).distances = (∅ : Distances).insert 1 3 := by
      rw [statements]
      rfl
    unfold Session.Performs Session.loaded
    rw [distances, statements]
    refine ⟨?closure, ?receiver, ?parent, ?caller, ?performs, ?body, ?below, ?serves, ?inherits,
      ?named, ?lost⟩
    case performs =>
      refine .step (.nextStatements (by conv => lhs; cbv)) ?_
      refine .step (.nextStatements (by conv => lhs; cbv)) ?_
      refine .step (.nextStatements (by conv => lhs; cbv)) ?_
      refine .step (.nextStatements (by conv => lhs; cbv)) ?_
      refine .step .topStatement (.step .expression ?_)
      refine .step (.call (by conv => lhs; cbv) rfl rfl) (.step .function ?_)
      exact .refl
    case body => rfl
    case below => cbv
    case serves => exact ⟨0, .here (by conv => lhs; cbv)⟩
    case inherits => exact ⟨1, .further (by cbv) (by cbv) (.here (by conv => lhs; cbv))⟩
    case named => rfl
    case lost => cbv
  obtain ⟨callee, begun⟩ : ∃ callee, Task.Leads
      (.invoke 6 closure ⟨.symbol .rightParen, ")", 1⟩ []) caller
      (.executeAll 5 closure.declaration.body) callee :=
    ⟨_, .body (if_neg (Nat.not_le_of_lt below)) rfl rfl⟩
  have runs : (Session.start (fun _ => 0) 9).Runs
      "class A\x7bm()\x7b\x7d\x7d class B<A\x7bm()\x7bsuper.m;\x7d\x7d var f=B().m; A=nil; f();"
      9 closure caller (.evaluate 3
        (.super 1 ⟨.keyword .superWord, "super", 1⟩ ⟨.identifier, "m", 1⟩)) callee := by
    refine ⟨5, _, _, callee, performs, begun, ?_⟩
    rw [body]
    exact .step id .firstStatement (.step id .expression .refl)
  have fixed := receivers_fixed (.start _ _) accepted 9
  exact ⟨closure, receiver, parent, caller, _, _, callee, runs, serves, inherits, named, lost,
    (fixed.super closure receiver caller 2 1 _ _ callee runs serves).2 parent inherits⟩

end LoxLang
