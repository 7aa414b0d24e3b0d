import LoxLang.Proofs.Machine.Obeying

/-!
# What a computation may change

`Machine.Evolves` bounds the effect of every evaluator, whichever way it ends: the environment, the
call depth, the call limit, the scope distances and the clock are what they were, output is only
added, and frames and instances are only added and never lose a name. Machines that evolve are an
instance of the walk through the evaluators, `evolution`, and `evolving` is what the walk gives.
-/

namespace LoxLang

namespace Store

/-- A later store has at least the frames and instances of an earlier one, and its frames still bind
every name they bound. -/
structure Grows (before after : Store) : Prop where
  frames : before.frames.size ≤ after.frames.size
  objects : before.objects.size ≤ after.objects.size
  bound : ∀ frame name, (before.binding? frame name).isSome → (after.binding? frame name).isSome

namespace Grows

variable {store middle after : Store}

theorem refl (store : Store) : store.Grows store where
  frames := Nat.le_refl _
  objects := Nat.le_refl _
  bound := fun _ _ bound => bound

theorem trans (first : store.Grows middle) (second : middle.Grows after) : store.Grows after where
  frames := Nat.le_trans first.frames second.frames
  objects := Nat.le_trans first.objects second.objects
  bound := fun frame name bound => second.bound frame name (first.bound frame name bound)

/-- Binding a name keeps every frame and every bound name. -/
theorem define (store : Store) (frame : Nat) (name : String) (value : Value) :
    store.Grows (store.define frame name value) where
  frames := by simp [Store.define, Tables.set]
  objects := Nat.le_refl _
  bound := by
    intro other wanted bound
    simp only [Store.binding?, Store.define, Tables.value?_set]
    split
    case isTrue => rfl
    case isFalse => exact bound

/-- A new frame is numbered behind the others, which stay as they are. -/
theorem addFrame (store : Store) (bindings : Bindings) : store.Grows (store.addFrame bindings) where
  frames := by simp [Store.addFrame]
  objects := Nat.le_refl _
  bound := by
    intro frame name bound
    simp only [Store.binding?, Store.addFrame, Tables.value?_push]
    split
    case isTrue last =>
      -- No frame is numbered like the new one yet.
      simp [Store.binding?, Tables.value?, last] at bound
    case isFalse => exact bound

/-- A new instance is numbered behind the others. -/
theorem addObject (store : Store) : store.Grows store.addObject where
  frames := Nat.le_refl _
  objects := by simp [Store.addObject]
  bound := fun _ _ bound => bound

/-- Setting a field of an instance touches no frame. -/
theorem setField (store : Store) (object : Nat) (name : String) (value : Value) :
    store.Grows (store.setField object name value) where
  frames := Nat.le_refl _
  objects := by simp [Store.setField, Tables.set]
  bound := fun _ _ bound => bound

end Grows

end Store

namespace Machine

/-- The effect that a computation may have by the time it ends. -/
structure Evolves (before after : Machine) : Prop where
  environment : after.environment = before.environment
  callDepth : after.callDepth = before.callDepth
  callLimit : after.callLimit = before.callLimit
  distances : after.distances = before.distances
  clock : after.clock = before.clock
  output : ∃ text, after.sink.written = before.sink.written ++ text
  store : before.store.Grows after.store

namespace Evolves

variable {machine middle after : Machine}

theorem refl (machine : Machine) : machine.Evolves machine where
  environment := rfl
  callDepth := rfl
  callLimit := rfl
  distances := rfl
  clock := rfl
  output := ⟨"", by simp⟩
  store := .refl _

/-- What a computation changes and what the next one changes add up. -/
theorem trans (first : machine.Evolves middle) (second : middle.Evolves after) :
    machine.Evolves after where
  environment := second.environment.trans first.environment
  callDepth := second.callDepth.trans first.callDepth
  callLimit := second.callLimit.trans first.callLimit
  distances := second.distances.trans first.distances
  clock := second.clock.trans first.clock
  output := by
    obtain ⟨earlier, firstOutput⟩ := first.output
    obtain ⟨later, secondOutput⟩ := second.output
    exact ⟨earlier ++ later, by rw [secondOutput, firstOutput, String.append_assoc]⟩
  store := first.store.trans second.store

/-- A machine evolves with its store. -/
theorem ofStore {store : Store} (grows : machine.store.Grows store) :
    machine.Evolves { machine with store } :=
  { refl machine with store := grows }

/-- A machine evolves if a name is bound in it, wherever control goes. -/
theorem define (machine : Machine) (name : String) (value : Value) :
    machine.Evolves ((machine.define name value).backTo machine) := by
  unfold Machine.define
  split
  case h_1 => exact refl machine
  case h_2 frame _ _ => exact ofStore (.define _ frame name value)

end Evolves

end Machine

namespace Eval

variable {α : Type}

/-- A computation that leaves an evolved machine, whichever way it ends. -/
def Evolving (computation : Eval α) : Prop :=
  ∀ machine, (computation machine).Holds (fun _ after => machine.Evolves after)
    (fun _ after => machine.Evolves after)

namespace Evolving

variable {computation : Eval α} {machine after : Machine}

/-- A result is given in an evolved machine. -/
theorem result (evolving : Evolving computation) {result : α}
    (ended : computation machine = .value result after) : machine.Evolves after := by
  have evolved := evolving machine
  rwa [ended] at evolved

/-- Whatever happens in another environment, the computation comes back to this one. -/
theorem inEnvironment (inner : Environment) (within : Evolving computation) :
    Evolving (inEnvironment inner computation) := by
  intro machine
  apply holds_inEnvironment
  apply (within { machine with environment := inner }).imp <;>
    exact fun _ _ evolved => { evolved with environment := rfl }

end Evolving

/-! ### The discipline of evolving machines -/

/-- Machines evolve, wherever control goes; nothing is asked of code and values. -/
def evolution : Discipline where
  World := Machine
  machine := id
  Later := fun before after => before.Evolves (after.backTo before)
  Context := Unit
  topLevel := ()

instance : evolution.Lawful where
  refl := fun machine => .refl machine
  trans := by
    intro before middle after first second
    have further : Machine.Evolves (middle.backTo before) (after.backTo before) :=
      { second with environment := rfl, callDepth := rfl }
    exact first.trans further
  back := fun {_ inner} later => ⟨_, rfl, { Machine.Evolves.refl inner with }, later⟩
  exprParts := fun _ => Discipline.exprParts_of_free (fun _ => trivial) (fun _ => trivial)
    (fun _ => trivial) (fun _ => trivial) _
  stmtParts := fun _ => Discipline.stmtParts_of_free (fun _ => trivial) (fun _ => trivial)
    (fun _ _ => trivial) trivial _
  loopParts := fun _ => ⟨trivial, trivial, trivial⟩
  aside := fun aside =>
    ⟨_, rfl,
      { environment := rfl
        callDepth := rfl
        callLimit := aside.callLimit
        distances := aside.distances
        clock := aside.clock
        output := aside.output
        store := aside.store ▸ .refl _ }, trivial⟩
  assign := fun _ _ _ => ⟨_, rfl, .ofStore (.define _ _ _ _), trivial⟩
  newObject := fun _ => ⟨_, rfl, .ofStore (.addObject _), trivial⟩
  setField := fun _ => ⟨_, rfl, .ofStore (.setField _ _ _ _), trivial⟩
  bindMethod := fun _ _ => ⟨_, rfl, .ofStore (.addFrame _ _), trivial⟩
  enter := fun _ _ _ _ _ =>
    ⟨_, rfl, .ofStore ((Store.Grows.addFrame _ _).trans (.addFrame _ _)), (), trivial, trivial⟩
  block := fun _ _ => ⟨_, rfl, .ofStore (.addFrame _ _), (), trivial, trivial, id⟩
  declare := fun _ _ _ => ⟨_, rfl, .define _ _ _, trivial⟩
  function := fun _ _ _ => ⟨_, rfl, .define _ _ _, trivial⟩
  base := fun _ _ _ => ⟨_, rfl, .define _ _ _, trivial⟩
  derived := by
    intro _ world _ name _ _ ancestor identity _ _ _
    let shared : Bindings := Std.TreeMap.empty.insert "super" (.classObject ancestor)
    have opened : world.Evolves { world with store := world.store.addFrame shared } :=
      .ofStore (.addFrame _ _)
    exact ⟨_, rfl, opened.trans (.define _ _ _), trivial⟩

/-- A machine that comes next has come back, so it has evolved. -/
theorem evolves_of_next {machine after : Machine} (next : evolution.Next machine after) :
    machine.Evolves after := by
  have returned : after.backTo machine = after :=
    Machine.backTo_of_same next.environment next.callDepth
  have later : machine.Evolves (after.backTo machine) := next.later
  rwa [returned] at later

/-- What obeys the discipline evolves. -/
theorem Evolving.ofObeys {computation : Eval α} {kind : Machine → α → Prop}
    (obeys : ∀ machine, evolution.Obeys machine computation kind) : Evolving computation := by
  intro machine
  refine (obeys machine).holds.imp ?_ ?_
  · rintro _ _ ⟨after, rfl, next, _⟩
    exact evolves_of_next next
  · rintro _ _ ⟨_, after, rfl, next⟩
    exact evolves_of_next next

/-- The evaluators at one fuel let the machine evolve. -/
structure EvolvingAt (fuel : Nat) : Prop where
  evaluate : ∀ expression, Evolving (evaluate fuel expression)
  evaluateAll : ∀ expressions, Evolving (evaluateAll fuel expressions)
  call : ∀ callee paren arguments, Evolving (call fuel callee paren arguments)
  invoke : ∀ closure paren arguments, Evolving (invoke fuel closure paren arguments)
  execute : ∀ statement, Evolving (execute fuel statement)
  executeAll : ∀ statements, Evolving (executeAll fuel statements)
  repeatWhile : ∀ condition body, Evolving (repeatWhile fuel condition body)

/-- Every evaluator lets the machine evolve, however much fuel it has. -/
theorem evolving (fuel : Nat) : EvolvingAt fuel :=
  have obeyed : evolution.ObeyedAt fuel := Discipline.Lawful.obeys fuel
  have stands (machine : Machine) : evolution.stands () machine := trivial
  { evaluate := fun _ => .ofObeys fun machine => obeyed.evaluate trivial (stands machine) trivial
    evaluateAll := fun _ => .ofObeys fun machine =>
      obeyed.evaluateAll trivial (stands machine) trivial
    call := fun _ _ _ => .ofObeys fun _ =>
      obeyed.call trivial trivial (fun _ _ => trivial) trivial trivial
    invoke := fun _ _ _ => .ofObeys fun _ =>
      obeyed.invoke trivial trivial (fun _ _ => trivial) trivial trivial
    execute := fun _ => .ofObeys fun machine => obeyed.execute trivial (stands machine) trivial
    executeAll := fun _ => .ofObeys fun machine =>
      obeyed.executeAll trivial (stands machine) trivial
    repeatWhile := fun _ _ => .ofObeys fun machine =>
      obeyed.repeatWhile trivial (stands machine) trivial }

/-- Top-level statements let the machine evolve. -/
theorem executeTopLevel_evolving (fuel : Nat) (program : List Stmt) :
    Evolving (executeTopLevel fuel program) :=
  .ofObeys fun machine =>
    have admits : evolution.Admits () machine (.topLevel fuel program) :=
      ⟨trivial, fun _ _ => trivial⟩
    Discipline.Lawful.obeys_topLevel trivial admits

/-- The body of a call lets the machine evolve. -/
theorem runBody_evolving (fuel : Nat) (closure : Closure) (paren : Token)
    (arguments : List Value) : Evolving (runBody fuel closure paren arguments) :=
  .ofObeys fun _ => (Discipline.Lawful.obeys fuel).body trivial trivial (fun _ _ => trivial) trivial
    trivial

end Eval

namespace Task

variable {task : Task} {machine after : Machine}

/-- Nothing is asked of an evaluator in order that machines evolve. -/
theorem evolves (evaluates : ¬ task.IsAccess) : Eval.evolution.Admits () machine task := by
  cases task with
  | evaluate | evaluateAll | execute | executeAll | repeatWhile => exact ⟨trivial, trivial⟩
  | call | invoke => exact ⟨trivial, fun _ _ => trivial, trivial, trivial⟩
  | topLevel => exact ⟨trivial, fun _ _ => trivial⟩
  | lookup | assign | superMethod | receiver => exact (evaluates trivial).elim

/-- Every task lets the machine evolve until its end. -/
theorem Leaves.evolves (ended : task.Leaves machine after) : machine.Evolves after := by
  have known : Eval.evolution.known task (Eval.evolution.machine machine) := trivial
  have admitted (admits : Eval.evolution.Admits () machine task) : machine.Evolves after := by
    obtain ⟨last, rfl, next⟩ := Discipline.Lawful.leaves known admits ended
    exact Eval.evolves_of_next next
  cases task with
  | lookup => exact admitted ⟨trivial, 0, .inl trivial⟩
  | assign => exact admitted ⟨trivial, trivial, 0, .literal .nil, trivial⟩
  | superMethod => exact admitted ⟨trivial, 0, trivial⟩
  | receiver closure =>
    have reads := Eval.lookupAt_reads closure.environment 0
      (.implicit "this" closure.declaration.name.line) machine
    exact reads.leaves ended ▸ .refl machine
  | _ => exact admitted (evolves id)

end Task

end LoxLang
