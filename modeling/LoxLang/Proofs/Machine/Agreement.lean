import LoxLang.Proofs.Machine.Siting

/-!
# Scopes and frames agree

`Task.Sound` says of a task at a machine that the environment covers what it is about to run: it is
what the discipline `siting` admits. A sound task starts sound tasks only (`Task.Sound.step`), so
every access that a run comes to finds its name in the frame at the distance that was resolved for
it.
-/

namespace LoxLang

/-- The frame a number of steps out of the current environment exists and binds a name. -/
def Machine.Binds (machine : Machine) (distance : Nat) (name : String) : Prop :=
  ∃ frame, machine.environment[distance]? = some frame ∧
    (machine.store.binding? frame name).isSome

namespace Eval

variable {machine after : Machine} {id distance : Nat} {name : Token} {error : RuntimeError}

theorem lookupAt_of_bound {environment : Environment} {frame : Nat}
    (there : environment[distance]? = some frame)
    (bound : (machine.store.binding? frame name.lexeme).isSome) :
    ∃ value, lookupAt environment distance name machine = .value value machine ∧
      machine.store.binding? frame name.lexeme = some value := by
  obtain ⟨value, found⟩ := Option.isSome_iff_exists.mp bound
  exact ⟨value, by simp [lookupAt, Store.getAt?, there, found, orUndefined], found⟩

/-- A local name is found at its distance. -/
theorem lookup_of_binds (entry : machine.distances[id]? = some distance)
    (binds : machine.Binds distance name.lexeme) :
    ∃ value, lookup id name machine = .value value machine := by
  obtain ⟨frame, there, bound⟩ := binds
  obtain ⟨value, found, _⟩ := lookupAt_of_bound there bound
  refine ⟨value, ?_⟩
  unfold lookup
  rw [bind_apply]
  simp only [distance?, entry]
  exact found

/-- A local name is stored where it is bound. -/
theorem assign_of_binds (entry : machine.distances[id]? = some distance)
    (binds : machine.Binds distance name.lexeme) (value : Value) :
    ∃ frame, machine.environment[distance]? = some frame ∧
      (machine.store.binding? frame name.lexeme).isSome ∧
      assign id name value machine =
        .value () { machine with store := machine.store.define frame name.lexeme value } := by
  obtain ⟨frame, there, bound⟩ := binds
  refine ⟨frame, there, bound, ?_⟩
  unfold assign
  rw [bind_apply]
  simp only [distance?, entry, bind_apply, environment, there]
  rfl

/-- Without an entry there is no superclass. -/
theorem superMethod_of_none {keyword method : Token} (missing : machine.distances[id]? = none) :
    superMethod id keyword method machine = .fault ⟨keyword, .superUnavailable⟩ machine := by
  unfold superMethod
  rw [bind_apply]
  simp only [distance?, missing]
  rfl

/-- Where `super` and `this` are bound, only a missing method is a fault, unless one of the two is
bound to a value of the wrong kind. -/
theorem superMethod_fault {inner : Nat} {keyword method : Token}
    (entry : machine.distances[id]? = some (inner + 1))
    (outside : machine.Binds (inner + 1) keyword.lexeme) (within : machine.Binds inner "this")
    (ended : superMethod id keyword method machine = .fault error after) :
    error.fault = .undefinedProperty method.lexeme ∨
      error.fault = .superUnavailable ∧ ∃ outerFrame innerFrame parent receiver,
        machine.store.binding? outerFrame keyword.lexeme = some parent ∧
        machine.store.binding? innerFrame "this" = some receiver ∧
        ∀ ancestor identity origin,
          parent = .classObject ancestor → receiver ≠ .object identity origin := by
  obtain ⟨outerFrame, outerThere, outerBound⟩ := outside
  obtain ⟨innerFrame, innerThere, innerBound⟩ := within
  obtain ⟨parent, parentFound, parentBound⟩ := lookupAt_of_bound outerThere outerBound
  obtain ⟨receiver, found, bound⟩ : ∃ receiver,
      lookupAt machine.environment inner (.implicit "this" keyword.line) machine =
        .value receiver machine ∧
      machine.store.binding? innerFrame "this" = some receiver :=
    lookupAt_of_bound innerThere innerBound
  unfold superMethod at ended
  simp only [bind_apply, distance?, entry, environment, parentFound, found] at ended
  split at ended
  case h_1 ancestor identity origin =>
    cases there : ancestor.method? method.lexeme <;> rw [there] at ended <;> cases ended
    exact .inl rfl
  case h_2 mismatch =>
    cases ended
    refine .inr ⟨rfl, outerFrame, innerFrame, parent, receiver, parentBound, bound, ?_⟩
    exact fun ancestor identity origin => mismatch ancestor identity origin

end Eval

namespace Task

/-- A task is about to run what its environment covers. -/
def Sound (addressing : Addressing) (machine : Machine) (task : Task) : Prop :=
  ∃ (valid : machine.Valid addressing) (context : ClassContext × Chain),
    (siting addressing).Admits context ⟨machine, valid⟩ task

namespace Sound

variable {addressing : Addressing} {machine between after : Machine} {task later : Task}

/-! ### Runs -/

/-- A sound task starts sound tasks only. -/
theorem step (sound : task.Sound addressing machine) (leads : Leads task machine later between) :
    later.Sound addressing between := by
  obtain ⟨valid, context, admits⟩ := sound
  have known : (siting addressing).known task
      ((siting addressing).machine ⟨machine, valid⟩) := trivial
  obtain ⟨inner, after, rfl, _, admits, _⟩ := Discipline.Lawful.step known admits leads
  exact ⟨after.valid, inner, admits⟩

/-- Every task that comes about during a sound one is sound. -/
theorem reaches (sound : task.Sound addressing machine)
    (reached : Reaches task machine later between) : later.Sound addressing between := by
  obtain ⟨valid, context, admits⟩ := sound
  have known : (siting addressing).known task
      ((siting addressing).machine ⟨machine, valid⟩) := trivial
  obtain ⟨_, inner, after, rfl, _, admits⟩ := Discipline.Lawful.reaches known admits reached
  exact ⟨after.valid, inner, admits⟩

/-- A sound task leaves a valid machine. -/
theorem leaves (sound : task.Sound addressing machine) (left : task.Leaves machine after) :
    after.Valid addressing := by
  obtain ⟨valid, context, admits⟩ := sound
  have known : (siting addressing).known task
      ((siting addressing).machine ⟨machine, valid⟩) := trivial
  obtain ⟨last, rfl, _⟩ := Discipline.Lawful.leaves known admits left
  exact last.valid

/-! ### Accesses -/

section Accesses

variable {id distance : Nat} {name : Token}

/-- A variable that has an entry is bound at its distance. -/
theorem binds_lookup (sound : (Task.lookup id name).Sound addressing machine)
    (entry : machine.distances[id]? = some distance) : machine.Binds distance name.lexeme := by
  obtain ⟨valid, context, sited, _, placed⟩ := sound
  have found : addressing.address? id = some distance := (valid.distances id).symm.trans entry
  rcases placed with placed | placed
  · exact Machine.Sited.bound sited ((Expr.Placed.reference placed).symm.trans found)
  · exact Machine.Sited.bound sited (Expr.Placed.this placed found)

/-- A variable that is assigned to and has an entry is bound at its distance. -/
theorem binds_assign {value : Value} (sound : (Task.assign id name value).Sound addressing machine)
    (entry : machine.distances[id]? = some distance) : machine.Binds distance name.lexeme := by
  obtain ⟨valid, context, sited, _, _, _, placed⟩ := sound
  have found : addressing.address? id = some distance := (valid.distances id).symm.trans entry
  exact Machine.Sited.bound sited ((Expr.Placed.assign placed).2.symm.trans found)

/-- Where `super` is bound, `this` is bound one frame further in. -/
theorem binds_superMethod {keyword method : Token}
    (sound : (Task.superMethod id keyword method).Sound addressing machine)
    (entry : machine.distances[id]? = some distance) :
    machine.Binds distance keyword.lexeme ∧
      ∃ inner, distance = inner + 1 ∧ machine.Binds inner "this" := by
  obtain ⟨valid, context, sited, _, placed⟩ := sound
  have sited : machine.Sited addressing context.2 := sited
  have found := Expr.Placed.super placed ((valid.distances id).symm.trans entry)
  obtain ⟨inner, names, rfl, there, member⟩ := sited.beside distance found
  have spelled : keyword.lexeme = "super" := placed.proper
  exact ⟨spelled ▸ sited.bound found, inner, rfl, sited.covers.bound there member⟩

/-- An initializer finds its instance in the innermost frame of its environment. -/
theorem bound_receiver {closure : Closure}
    (sound : (Task.receiver closure).Sound addressing machine) :
    ∃ frame outer, closure.environment = frame :: outer ∧
      (machine.store.binding? frame "this").isSome := by
  obtain ⟨_, _, valid, initializes⟩ := sound
  exact Closure.Valid.receiver valid initializes

/-- The name of an access that found it undefined has no entry: local names are bound. -/
theorem undefined {access : Task} {error : RuntimeError} (sound : access.Sound addressing machine)
    (isAccess : access.IsAccess) (faults : access.Faults machine error) {text : String}
    (missing : error.fault = .undefinedVariable text) :
    ∃ id name, machine.distances[id]? = none ∧ error = .undefined name ∧
      (access = .lookup id name ∨ ∃ value, access = .assign id name value) := by
  cases access with
  | lookup id name =>
    obtain ⟨after, ended⟩ := faults
    have reads := Eval.lookup_reads id name machine
    rw [ended] at reads
    cases reads
    cases entry : machine.distances[id]? with
    | none => exact ⟨id, name, entry, rfl, .inl rfl⟩
    | some distance =>
      obtain ⟨value, found⟩ := Eval.lookup_of_binds entry (sound.binds_lookup entry)
      cases found.symm.trans ended
  | assign id name value =>
    obtain ⟨after, ended⟩ := faults
    have stores := Eval.assign_stores id name value machine
    rw [ended] at stores
    cases stores
    cases entry : machine.distances[id]? with
    | none => exact ⟨id, name, entry, rfl, .inr ⟨value, rfl⟩⟩
    | some distance =>
      obtain ⟨frame, _, _, stored⟩ := Eval.assign_of_binds entry (sound.binds_assign entry) value
      cases stored.symm.trans ended
  | superMethod id keyword method =>
    obtain ⟨after, ended⟩ := faults
    cases entry : machine.distances[id]? with
    | none =>
      cases (Eval.superMethod_of_none entry).symm.trans ended
      cases missing
    | some distance =>
      obtain ⟨outside, inner, rfl, within⟩ := sound.binds_superMethod entry
      rcases Eval.superMethod_fault entry outside within ended with other | ⟨other, _⟩ <;>
        cases other.symm.trans missing
  | receiver closure =>
    obtain ⟨after, ended⟩ := faults
    obtain ⟨frame, outer, here, bound⟩ := sound.bound_receiver
    have there : closure.environment[0]? = some frame := by simp [here]
    obtain ⟨value, found, _⟩ : ∃ value, Eval.lookupAt closure.environment 0
        (.implicit "this" closure.declaration.name.line) machine = .value value machine ∧
        machine.store.binding? frame "this" = some value :=
      Eval.lookupAt_of_bound there bound
    cases found.symm.trans ended
  | _ => exact isAccess.elim

end Accesses

end Sound

end Task

end LoxLang
