import LoxLang.Proofs.Machine.Fixing

/-!
# Moments of a run

`Task.Rooted` says of a task at a machine that what it is about to run finds its instance and its
superclass: it is what the discipline `fixing` admits. Only a block and the body of a call have
frames of their own, so `this` and `super` stay where they are while a function body runs
(`Task.Rooted.continues`). A task has two moments, its start and its end; whatever comes about
during a rooted task fixes `this` and `super` for all moments behind it, up to the end of the task
(`Task.Rooted.moment_fixes`).
-/

namespace LoxLang

/-- How many frames deeper another machine is: it is in the same environment, or a block was
opened. -/
inductive Machine.Deepens (machine between : Machine) : Nat → Prop where
  | same (environment : between.environment = machine.environment)
      (fixes : machine.store.Fixes between.store) : Deepens machine between 0
  | opened (environment : between.environment = machine.store.frames.size :: machine.environment)
      (store : between.store = machine.store.addFrame ∅) : Deepens machine between 1

/-- A block lies between a name and its frame. -/
theorem Machine.Deepens.nearest {machine between : Machine} {depth distance : Nat} {name : String}
    {value : Value} (deepens : machine.Deepens between depth)
    (reserved : name = "this" ∨ name = "super")
    (nearest : machine.store.Nearest name value machine.environment distance) :
    between.store.Nearest name value between.environment (distance + depth) := by
  cases deepens with
  | same environment fixes =>
    rw [environment]
    exact nearest.mono reserved fixes
  | opened environment store =>
    rw [environment, store]
    exact nearest.push reserved (by simp)

namespace Task

open Eval

/-- A call of a function, whose body has an environment of its own. -/
def IsInvoke : Task → Prop
  | invoke _ _ _ _ => True
  | _ => False

/-- A task is about to run what finds its instance and its superclass. -/
def Rooted (addressing : Addressing) (inside : ClassContext) (level : Nat) (machine : Machine)
    (task : Task) : Prop :=
  ∃ rooted : machine.Rooted addressing,
    (fixing addressing).Admits (inside, level) ⟨machine, rooted⟩ task

variable {addressing : Addressing} {inside : ClassContext} {level fuel : Nat}
  {machine between after outer final : Machine} {task later last : Task}

/-! ### Steps -/

/-- Evaluating an expression leaves the machine where it stands. -/
theorem Rooted.evaluated {expression : Expr} {value : Value}
    (rooted : (Task.evaluate fuel expression).Rooted addressing inside level machine)
    (ended : Eval.evaluate fuel expression machine = .value value between) :
    between.environment = machine.environment ∧ machine.store.Fixes between.store ∧
      value.Rooted addressing between.store := by
  obtain ⟨rooted, stands, leveled⟩ := rooted
  have known : (fixing addressing).known (.evaluate fuel expression)
      ((fixing addressing).machine ⟨machine, rooted⟩) := trivial
  obtain ⟨after, rfl, next, _, given⟩ := Discipline.Lawful.evaluated known stands leveled ended
  exact ⟨next.environment, next.later, given⟩

/-- A rooted value gives a rooted value when it is called. -/
theorem Rooted.called {callee : Value} {paren : Token} {arguments : List Value} {value : Value}
    (rooted : (Task.call fuel callee paren arguments).Rooted addressing inside level machine)
    (ended : Eval.call fuel callee paren arguments machine = .value value between) :
    value.Rooted addressing between.store := by
  obtain ⟨rooted, kept, listed, fits, enough⟩ := rooted
  have known : (fixing addressing).known (.call fuel callee paren arguments)
      ((fixing addressing).machine ⟨machine, rooted⟩) := trivial
  obtain ⟨after, rfl, _, given⟩ :=
    ((Discipline.Lawful.obeys fuel).call known kept listed fits enough).result ended
  exact given

/-- A rooted task follows, in the same class context and a number of frames deeper unless it is the
body of a call. -/
def Advances (addressing : Addressing) (inside : ClassContext) (level : Nat) (machine : Machine)
    (task later : Task) (between : Machine) : Prop :=
  ∃ within further, later.Rooted addressing within further between ∧
    machine.store.Fixes between.store ∧
    (task.IsInvoke ∨
      within = inside ∧ ∃ depth, machine.Deepens between depth ∧ further = level + depth)

/-- A rooted task starts rooted tasks only. -/
theorem Rooted.step (rooted : task.Rooted addressing inside level machine)
    (leads : Leads task machine later between) :
    Advances addressing inside level machine task later between := by
  obtain ⟨rooted, admits⟩ := rooted
  have known : (fixing addressing).known task
      ((fixing addressing).machine ⟨machine, rooted⟩) := trivial
  have advances := Discipline.Lawful.step known admits leads
  cases leads with
  | block opened =>
    -- The place inside a block is known only from the code.
    cases opened
    obtain ⟨stands, leveled⟩ := admits
    exact ⟨inside, level + 1,
      ⟨rooted.addEmpty _, Store.Roots.push stands (by simp) (by simp), leveled⟩,
      .addFrame _ _, .inr ⟨rfl, 1, .opened rfl rfl, rfl⟩⟩
  | body | receiver =>
    obtain ⟨⟨within, further⟩, after, same, fixes, admits, _⟩ := advances
    rw [← same]
    exact ⟨within, further, ⟨after.rooted, admits⟩, fixes, .inl trivial⟩
  | _ =>
    obtain ⟨context, after, rfl, fixes, admits, opens | ⟨next, place⟩⟩ := advances
    · exact opens.elim
    · have same : context = (inside, level) := by
        rcases place with same | ⟨statement, same⟩
        · exact same
        · exact same.trans (Discipline.after_of_still (fun _ => rfl) statement)
      subst same
      exact ⟨inside, level, ⟨after.rooted, admits⟩, fixes,
        .inr ⟨rfl, 0, .same next.environment fixes, rfl⟩⟩

/-- The body of a rooted function is rooted, two frames inside the environment of the function. -/
theorem rooted_body {closure : Closure} {paren : Token} {arguments : List Value} {callee : Machine}
    (rooted : machine.Rooted addressing)
    (listed : ∀ argument ∈ arguments, argument.Rooted addressing machine.store)
    (leveled : closure.declaration.Leveled addressing inside level)
    (roots : machine.store.Roots inside level closure.environment)
    (leads : Leads (.invoke (fuel + 1) closure paren arguments) machine
      (.executeAll fuel closure.declaration.body) callee) :
    callee = machine.enter closure arguments ∧
      (Task.executeAll fuel closure.declaration.body).Rooted addressing inside (level + 2)
        callee := by
  cases leads with
  | body entered outer inner =>
    rw [(enter_of_entered entered outer inner).2]
    obtain ⟨named, bodyLeveled⟩ := leveled.body
    exact ⟨rfl, rooted.enter listed, fixing.roots_enter roots named, bodyLeveled⟩

/-! ### Whole runs -/

/-- A rooted task leaves a rooted machine and fixes `this` and `super`. -/
theorem Rooted.leaves (rooted : task.Rooted addressing inside level machine)
    (ended : task.Leaves machine after) :
    machine.store.Fixes after.store ∧ after.Rooted addressing := by
  obtain ⟨rooted, admits⟩ := rooted
  have known : (fixing addressing).known task
      ((fixing addressing).machine ⟨machine, rooted⟩) := trivial
  obtain ⟨last, rfl, next⟩ := Discipline.Lawful.leaves known admits ended
  exact ⟨next.later, last.rooted⟩

/-- Whatever comes about during a rooted task is rooted. -/
theorem Rooted.reaches (rooted : task.Rooted addressing inside level machine)
    (reached : Reaches task machine last final) :
    machine.store.Fixes final.store ∧
      ∃ within further, last.Rooted addressing within further final := by
  obtain ⟨rooted, admits⟩ := rooted
  have known : (fixing addressing).known task
      ((fixing addressing).machine ⟨machine, rooted⟩) := trivial
  obtain ⟨_, context, after, rfl, fixes, admits⟩ :=
    Discipline.Lawful.reaches known admits reached
  exact ⟨fixes, context.1, context.2, after.rooted, admits⟩

/-- Whatever came about during a rooted task has ended if the task has, and what it left is fixed
from then on. -/
theorem Rooted.settles_reached (rooted : task.Rooted addressing inside level machine)
    (reached : Reaches task machine last final) (ended : task.Leaves machine outer) :
    ∃ inner, last.Leaves final inner ∧ inner.store.Fixes outer.store := by
  obtain ⟨rooted, admits⟩ := rooted
  have known : (fixing addressing).known task
      ((fixing addressing).machine ⟨machine, rooted⟩) := trivial
  have single {one other : RootedMachine addressing} (same : one.machine = other.machine) :
      one = other := by
    cases one
    cases other
    cases same
    rfl
  obtain ⟨inner, last, left, rfl, fixes⟩ :=
    Discipline.Lawful.settles_reached single known admits reached ended
  exact ⟨inner.machine, leaves_iff.mpr left, fixes⟩

/-- The store at a moment of a task: when it starts, or when it has ended. -/
inductive Moment (task : Task) (machine : Machine) : Store → Prop where
  | start : Moment task machine machine.store
  | ended {after : Machine} (leaves : task.Leaves machine after) : Moment task machine after.store

/-- A task has one end. -/
theorem Leaves.unique {other : Machine} (ended : task.Leaves machine after)
    (again : task.Leaves machine other) : after = other := by
  have only {α : Type} {ending : Ending α} (ended : ending.Leaves after)
      (again : ending.Leaves other) : after = other := by
    cases ending with
    | value result last => exact ended.symm.trans again
    | fault error last => exact ended.symm.trans again
    | outOfFuel => exact ended.elim
  cases task <;> exact only ended again

/-- Every moment during a rooted task comes behind its start. -/
theorem Rooted.fixes_moment (rooted : task.Rooted addressing inside level machine)
    (reached : Reaches task machine last final) {moment : Store}
    (shown : last.Moment final moment) : machine.store.Fixes moment := by
  obtain ⟨fixes, within, further, known⟩ := rooted.reaches reached
  cases shown with
  | start => exact fixes
  | ended leaves => exact fixes.trans (known.leaves leaves).1

/-- Every moment during a rooted task comes before its end. -/
theorem Rooted.moment_fixes (rooted : task.Rooted addressing inside level machine)
    (reached : Reaches task machine last final) {moment : Store} (shown : last.Moment final moment)
    (ended : task.Leaves machine outer) : moment.Fixes outer.store := by
  obtain ⟨inner, left, rest⟩ := rooted.settles_reached reached ended
  obtain ⟨_, within, further, known⟩ := rooted.reaches reached
  cases shown with
  | start => exact (known.leaves left).1.trans rest
  | ended leaves => exact leaves.unique left ▸ rest

/-- A task comes about during another one in the same function body: no call lies in between. -/
inductive Continues : Task → Machine → Task → Machine → Prop where
  | refl {task : Task} {machine : Machine} : Continues task machine task machine
  | step {task later last : Task} {machine between final : Machine} (here : ¬ task.IsInvoke)
      (first : Leads task machine later between) (rest : Continues later between last final) :
      Continues task machine last final

theorem Continues.reaches (continues : Continues task machine last final) :
    Reaches task machine last final := by
  induction continues with
  | refl => exact .refl
  | step _ first _ inductionHypothesis => exact .step first inductionHypothesis

/-- In the same function body, `this` and `super` are as many frames further away as blocks have
been entered. -/
theorem Rooted.continues (rooted : task.Rooted addressing inside level machine)
    (continues : Continues task machine last final) :
    ∃ depth, last.Rooted addressing inside (level + depth) final ∧
      ∀ name value distance, name = "this" ∨ name = "super" →
        machine.store.Nearest name value machine.environment distance →
        final.store.Nearest name value final.environment (distance + depth) := by
  induction continues generalizing level with
  | refl => exact ⟨0, rooted, fun _ _ _ _ nearest => nearest⟩
  | step here first _ inductionHypothesis =>
    obtain ⟨_, _, later, _, call | ⟨rfl, depth, deepens, rfl⟩⟩ := rooted.step first
    · exact (here call).elim
    · obtain ⟨more, known, found⟩ := inductionHypothesis later
      refine ⟨depth + more, Nat.add_assoc level depth more ▸ known, ?_⟩
      intro name value distance reserved nearest
      rw [← Nat.add_assoc]
      exact found name value _ reserved (deepens.nearest reserved nearest)

end Task

end LoxLang
