import LoxLang.Proofs.Machine.Guarded

/-!
# Evaluators come to no internal fault

A guarded machine runs formed code where the scopes and the frames agree. This makes a lawful
discipline, `guarding`: all code that comes about is formed, machines stay guarded, and no fault is
one that the static stages exclude.
-/

namespace LoxLang

/-- A machine that keeps checked functions only. -/
structure GuardedMachine (table : Distances) where
  machine : Machine
  guarded : machine.Guarded table

/-- Code that was built and checked comes to no internal fault where frames agree with scopes. -/
def guarding (addressing : Addressing) (table : Distances) : Discipline where
  World := GuardedMachine table
  machine := GuardedMachine.machine
  Later := fun _ _ => True
  known := fun task machine => task.Sound addressing machine
  fault := fun error => ¬ error.fault.Internal
  value := fun _ value => value.Formed (checkedRules table)
  closure := fun _ closure => closure.declaration.Formed (checkedRules table)
  method := fun _ method => method.declaration.Formed (checkedRules table)
  Context := Unit
  topLevel := ()
  expr := fun _ _ expression => expression.Formed (checkedRules table)
  exprs := fun _ _ expressions => Expr.FormedAll (checkedRules table) expressions
  stmt := fun _ _ statement => statement.Formed (checkedRules table)
  stmts := fun _ _ statements => Stmt.FormedAll (checkedRules table) statements
  loop := fun _ _ condition body =>
    condition.Formed (checkedRules table) ∧ body.Formed (checkedRules table)

namespace guarding

variable {addressing : Addressing} {table : Distances} {world : GuardedMachine table}
  {machine : Machine} {fuel : Nat}

theorem exprParts {expression : Expr}
    (formed : (guarding addressing table).expr () (fuel + 1) expression) :
    (guarding addressing table).ExprParts () fuel expression := by
  cases expression with
  | literal | reference | this | super => trivial
  | grouping | get => exact formed
  | assign => exact formed.2
  | unary =>
    exact ⟨formed.2, fun _ invalid => (applyUnary_ne_invalid formed.1 _ invalid).elim⟩
  | binary =>
    refine ⟨formed.2.1, formed.2.2, ?_⟩
    exact fun _ _ invalid => (applyBinary_ne_invalid formed.1 _ _ invalid).elim
  | logical | set | call => exact formed

theorem stmtParts {statement : Stmt}
    (formed : (guarding addressing table).stmt () (fuel + 1) statement) :
    (guarding addressing table).StmtParts () fuel statement := by
  cases statement with
  | expression | print | loop => exact formed
  | block | function => trivial
  | branch _ _ whenFalse =>
    cases whenFalse with
    | none => exact ⟨formed.1, formed.2, nofun⟩
    | some other =>
      refine ⟨formed.1, formed.2.1, ?_⟩
      rintro _ ⟨⟩
      exact formed.2.2
  | declare _ initializer =>
    rintro value rfl
    exact formed.2
  | «return» _ value =>
    refine ⟨trivial, ?_⟩
    rintro result rfl
    exact formed
  | «class» _ superclass =>
    rintro parent rfl
    exact formed.2.1

/-- The name of an access that is found undefined is neither `this` nor `super`. -/
theorem not_internal_of_undefined {name : Token} (named : (checkedRules table).named name) :
    ¬ (RuntimeError.undefined name).fault.Internal := by
  rintro (same | same)
  · exact named.1 same
  · exact named.2 same

/-- An occurrence of `super` finds a class and, one frame inside, an instance. -/
theorem superMethod {id : Nat} {keyword method : Token} {error : RuntimeError}
    (sound : (Task.superMethod id keyword method).Sound addressing world.machine)
    (formed : (Expr.super id keyword method).Formed (checkedRules table))
    (faults : (Task.superMethod id keyword method).Faults world.machine error) :
    ¬ error.fault.Internal := by
  obtain ⟨spelled, anchored⟩ := formed
  simp only [checkedRules, ← world.guarded.distances] at anchored
  obtain ⟨distance, entry⟩ := Option.isSome_iff_exists.mp anchored
  obtain ⟨outside, inner, rfl, within⟩ := sound.binds_superMethod entry
  obtain ⟨after, ended⟩ := faults
  rcases Eval.superMethod_fault entry outside within ended with other | ⟨_, wrong⟩
  · rw [other]
    exact RuntimeFault.Ordinary.not_internal trivial
  · obtain ⟨_, _, parent, receiver, parentBound, receiverBound, mismatch⟩ := wrong
    obtain ⟨ancestor, isClass⟩ := (world.guarded.kept.bound parentBound).superclass spelled
    obtain ⟨identity, origin, isInstance⟩ := (world.guarded.kept.bound receiverBound).instanceOf rfl
    exact (mismatch ancestor identity origin isClass isInstance).elim

/-- Only a variable may be found undefined. -/
theorem access {task : Task} {error : RuntimeError} (sound : task.Sound addressing world.machine)
    (isAccess : task.IsAccess) (admits : (guarding addressing table).Admits () world task)
    (faults : task.Faults world.machine error) : ¬ error.fault.Internal := by
  cases task with
  | lookup id name =>
    obtain ⟨_, _, formed⟩ := admits
    obtain ⟨after, ended⟩ := faults
    have reads := Eval.lookup_reads id name world.machine
    rw [ended] at reads
    cases reads
    rcases formed with named | ⟨_, anchored⟩
    · have named : (checkedRules table).named name := named
      exact not_internal_of_undefined named
    · simp only [checkedRules, ← world.guarded.distances] at anchored
      obtain ⟨distance, entry⟩ := Option.isSome_iff_exists.mp anchored
      obtain ⟨value, found⟩ := Eval.lookup_of_binds entry (sound.binds_lookup entry)
      cases found.symm.trans ended
  | assign id name value =>
    obtain ⟨_, _, _, _, named, _⟩ := admits
    obtain ⟨after, ended⟩ := faults
    have stores := Eval.assign_stores id name value world.machine
    rw [ended] at stores
    cases stores
    exact not_internal_of_undefined named
  | superMethod =>
    obtain ⟨_, _, formed⟩ := admits
    exact superMethod sound formed faults
  | receiver closure =>
    obtain ⟨after, ended⟩ := id faults
    have reads := Eval.lookupAt_reads closure.environment 0
      (.implicit "this" closure.declaration.name.line) world.machine
    have ended : Eval.lookupAt closure.environment 0
        (.implicit "this" closure.declaration.name.line) world.machine = .fault error after := ended
    rw [ended] at reads
    cases reads
    obtain ⟨_, _, _, _, other | ⟨_, other⟩⟩ := sound.undefined isAccess faults rfl <;> cases other
  | _ => exact isAccess.elim

/-- A guarded machine is that of a later world. -/
theorem moves {kind : GuardedMachine table → Prop} (guarded : machine.Guarded table)
    (known : kind ⟨machine, guarded⟩) : (guarding addressing table).Moves world machine kind :=
  ⟨⟨machine, guarded⟩, rfl, trivial, known⟩

end guarding

open guarding in
instance (addressing : Addressing) (table : Distances) : (guarding addressing table).Lawful where
  refl := fun _ => trivial
  trans := fun _ _ => trivial
  back := fun {_ inner} _ => moves (inner.guarded.sameStore rfl rfl) trivial
  value := fun formed _ => formed
  closure := fun formed _ => formed
  plain := fun plain => plain.formed
  method := by
    intro world value origin name method formed given found
    cases value with
    | classObject | object =>
      cases given
      exact ClassObject.Formed.method formed found
    | _ => cases given
  bound := fun {world _ _ _} present => (world.guarded.kept.bound present).formed
  field := fun {world _ _ _} present => world.guarded.kept.field present
  lead := fun sound leads => sound.step leads
  ordinary := fun ordinary => ordinary.not_internal
  access := access
  exprParts := exprParts
  exprsParts := id
  stmtParts := stmtParts
  stmtsParts := fun formed => formed
  loopParts := fun formed => ⟨formed.1, formed.2, formed⟩
  aside := fun {world _} aside =>
    moves (world.guarded.sameStore aside.distances aside.store) trivial
  assign := fun {_ world _ _ _ _ _ _} _ formed given =>
    moves (world.guarded.later rfl (world.guarded.kept.define _ (given.suits formed.1))) trivial
  newObject := fun {world _} formed =>
    moves (world.guarded.later rfl world.guarded.kept.addObject) formed
  setField := fun {world _ _ _} given =>
    moves (world.guarded.later rfl (world.guarded.kept.setField _ _ given)) trivial
  bindMethod := fun {world _ _ _} awaiting given =>
    moves (world.guarded.addReceiver given) awaiting
  enter := fun {world _ _ _} formed listed _ _ _ =>
    moves (world.guarded.enter formed listed) ⟨(), trivial, formed.body.2⟩
  block := fun {_ world _ _} _ formed =>
    moves (world.guarded.later rfl world.guarded.kept.addEmpty) ⟨(), trivial, formed, id⟩
  declare := fun {_ world _ _ _ _} _ formed given =>
    moves (world.guarded.define given formed.1) trivial
  function := fun {_ world _ declaration} _ _ formed =>
    have given : Value.Formed (checkedRules table)
        (.function _ ⟨declaration, world.machine.environment, false⟩) := formed
    moves (world.guarded.define given (FunctionDecl.Formed.name formed)) trivial
  base := fun {_ world _ _ _} _ _ formed =>
    have members := FunctionDecl.formedAll_iff.mp formed.2.2
    moves (world.guarded.define (List.forall_mem_singleton.mpr members) formed.1) trivial
  derived := fun {_ world _ _ _ _ _} _ _ formed inherited =>
    have members := FunctionDecl.formedAll_iff.mp formed.2.2
    moves ((world.guarded.addSuperclass inherited).define
      (List.forall_mem_cons.mpr ⟨members, inherited⟩) formed.1) trivial

end LoxLang
