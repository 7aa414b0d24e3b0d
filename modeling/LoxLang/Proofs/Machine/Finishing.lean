import LoxLang.Proofs.Machine.Obeying
import LoxLang.Proofs.Parsing.Loopless

/-!
# Evaluators that finish

Without loops, an evaluator starts others only on smaller trees or on the body of a function that
the machine keeps, and the latter takes one of the levels that the call limit leaves. So a tree
finishes with as much fuel as its size and, for each level that is left, the size of the largest
body. This makes a lawful discipline, `finishing`, under which no fuel runs out.
-/

namespace LoxLang

/-! ### Brief functions -/

/-- A function without loops whose body is not larger than a bound. -/
structure FunctionDecl.Brief (bound : Nat) (declaration : FunctionDecl) : Prop where
  loopless : declaration.Loopless
  size : sizeOf declaration.body ≤ bound

/-- A class with brief methods only. -/
def ClassObject.Brief (bound : Nat) (origin : ClassObject) : Prop :=
  ∀ body ∈ origin.lineage, ∀ method ∈ body.methods, method.Brief bound

/-- A value with brief functions only. -/
def Value.Brief (bound : Nat) : Value → Prop
  | .function _ closure => closure.declaration.Brief bound
  | .classObject origin => origin.Brief bound
  | .object _ origin => origin.Brief bound
  | _ => True

/-- A store with brief values only. -/
def Store.Brief (bound : Nat) (store : Store) : Prop :=
  store.Keeps (fun _ => Value.Brief bound) (Value.Brief bound)

section Brief

variable {bound larger levels : Nat}

/-- A bound on the size of a function may be raised. -/
theorem FunctionDecl.Brief.mono {declaration : FunctionDecl} (brief : declaration.Brief bound)
    (within : bound ≤ larger) : declaration.Brief larger :=
  ⟨brief.loopless, Nat.le_trans brief.size within⟩

/-- A bound on the size of methods may be raised. -/
theorem ClassObject.Brief.mono {origin : ClassObject} (brief : origin.Brief bound)
    (within : bound ≤ larger) : origin.Brief larger :=
  fun body member method listed => (brief body member method listed).mono within

/-- A bound on the size of what a value may call may be raised. -/
theorem Value.Brief.mono {value : Value} (brief : value.Brief bound) (within : bound ≤ larger) :
    value.Brief larger := by
  cases value with
  | function identity closure => exact FunctionDecl.Brief.mono brief within
  | classObject origin => exact ClassObject.Brief.mono brief within
  | object identity origin => exact ClassObject.Brief.mono brief within
  | _ => trivial

/-- A bound on the size of what a store may call may be raised. -/
theorem Store.Brief.mono {store : Store} (brief : store.Brief bound) (within : bound ≤ larger) :
    store.Brief larger :=
  brief.imp (fun _ _ known => known.mono within) fun _ known => known.mono within

/-- A plain value has no functions. -/
theorem Value.IsPlain.brief {value : Value} (plain : value.IsPlain) : value.Brief bound := by
  cases value with
  | nil | bool | number | string => trivial
  | _ => exact plain.elim

/-- A brief class has brief methods. -/
theorem ClassObject.Brief.method {origin : ClassObject} (brief : origin.Brief bound)
    {name : String} {method : Closure} (found : origin.method? name = some method) :
    method.declaration.Brief bound := by
  obtain ⟨body, member, found⟩ := List.exists_of_findSome?_eq_some found
  obtain ⟨declaration, listed, rfl⟩ := Option.map_eq_some_iff.mp found
  exact brief body member declaration (List.mem_reverse.mp (List.mem_of_find?_eq_some listed))

/-- The functions of a loopless program are brief. -/
theorem FunctionDecl.Loopless.brief {declaration : FunctionDecl}
    (loopless : declaration.Loopless) (within : sizeOf declaration ≤ bound) :
    declaration.Brief bound := by
  obtain ⟨name, parameters, body⟩ := declaration
  constructor
  · exact loopless
  · rw [FunctionDecl.mk.sizeOf_spec] at within
    change sizeOf body ≤ bound
    omega

/-- Loopless methods are bounded by their size together. -/
theorem FunctionDecl.LooplessAll.brief {declarations : List FunctionDecl}
    (loopless : FunctionDecl.LooplessAll declarations) (within : sizeOf declarations ≤ bound) :
    ∀ declaration ∈ declarations, declaration.Brief bound := by
  intro declaration member
  have smaller := List.sizeOf_lt_of_mem member
  exact (loopless.of_mem member).brief (by omega)

end Brief

/-! ### The discipline of finishing -/

/-- An expression has a size. -/
theorem Expr.sizeOf_pos (expression : Expr) : 0 < sizeOf expression := by
  cases expression <;> simp +arith

/-- A statement has a size. -/
theorem Stmt.sizeOf_pos (statement : Stmt) : 0 < sizeOf statement := by
  cases statement <;> simp +arith

/-- A machine that keeps brief functions only. -/
structure BriefMachine (bound : Nat) where
  machine : Machine
  brief : machine.store.Brief bound

/-- The fuel pays for a number of steps and, on each level that the call limit leaves, for the
largest body. -/
def Machine.Affords (bound : Nat) (machine : Machine) (steps fuel : Nat) : Prop :=
  ∃ levels, machine.callLimit ≤ machine.callDepth + levels ∧ steps + levels * bound ≤ fuel

/-- Loopless code comes to an end if its fuel pays for its size and for the levels that are left. A
place of code is as many levels away from the call limit. -/
def finishing (bound : Nat) : Discipline where
  World := BriefMachine bound
  machine := BriefMachine.machine
  Later := fun before after => after.machine.callLimit = before.machine.callLimit
  exhausts := False
  value := fun _ value => value.Brief bound
  closure := fun _ closure => closure.declaration.Brief bound
  method := fun _ method => method.declaration.Brief bound
  Context := Nat
  topLevel := 0
  stands := fun levels world => world.machine.callLimit ≤ world.machine.callDepth + levels
  expr := fun levels fuel expression => sizeOf expression + levels * bound ≤ fuel
  exprs := fun levels fuel expressions => sizeOf expressions + levels * bound ≤ fuel
  stmt := fun levels fuel statement =>
    statement.Loopless ∧ sizeOf statement ≤ bound ∧ sizeOf statement + levels * bound ≤ fuel
  stmts := fun levels fuel statements =>
    Stmt.LooplessAll statements ∧ sizeOf statements ≤ bound ∧
      sizeOf statements + levels * bound ≤ fuel
  loop := fun _ _ _ _ => False
  calls := fun world fuel => world.machine.Affords bound 2 fuel
  invokes := fun world fuel => world.machine.Affords bound 1 fuel

namespace finishing

variable {bound levels fuel : Nat} {world : BriefMachine bound} {machine : Machine}

/-- The parts of an expression are smaller, so they have fuel enough. -/
theorem exprParts {expression : Expr}
    (enough : sizeOf expression + levels * bound ≤ fuel + 1) :
    (finishing bound).ExprParts levels fuel expression := by
  have shorter {size : Nat} (less : size < sizeOf expression) : size + levels * bound ≤ fuel := by
    omega
  cases expression with
  | literal | reference | this | super => trivial
  | grouping | assign | get =>
    refine shorter ?_
    simp +arith
  | unary => exact ⟨shorter (by simp +arith), fun _ _ => trivial⟩
  | binary =>
    exact ⟨shorter (by simp +arith), shorter (by simp +arith), fun _ _ _ => trivial⟩
  | logical | set | call => exact ⟨shorter (by simp +arith), shorter (by simp +arith)⟩

/-- The parts of a statement without loops are smaller, so they have fuel enough. -/
theorem stmtParts {statement : Stmt}
    (holds : (finishing bound).stmt levels (fuel + 1) statement) :
    (finishing bound).StmtParts levels fuel statement := by
  obtain ⟨loopless, within, enough⟩ := holds
  have shorter {size : Nat} (less : size < sizeOf statement) :
      size ≤ bound ∧ size + levels * bound ≤ fuel := by
    omega
  cases statement with
  | block | function => trivial
  | loop => exact loopless.elim
  | expression | print => exact (shorter (by simp +arith)).2
  | declare | «class» =>
    rintro value rfl
    exact (shorter (by simp +arith)).2
  | «return» =>
    refine ⟨trivial, ?_⟩
    rintro value rfl
    exact (shorter (by simp +arith)).2
  | branch condition whenTrue whenFalse =>
    have positive : whenTrue.Loopless ∧
        ∀ other, whenFalse = some other → other.Loopless := by
      cases whenFalse with
      | none => exact ⟨loopless, nofun⟩
      | some other => exact ⟨loopless.1, fun _ same => Option.some.inj same ▸ loopless.2⟩
    refine ⟨(shorter (by simp +arith)).2, ⟨positive.1, shorter (by simp +arith)⟩, ?_⟩
    rintro other rfl
    exact ⟨positive.2 other rfl, shorter (by simp +arith)⟩

/-- No fuel is enough for nothing. -/
theorem exhausts {task : Task} (admits : (finishing bound).Admits levels world task)
    (empty : task.fuel? = some 0) : False := by
  cases task with
  | evaluate _ expression =>
    cases empty
    have enough : sizeOf expression + levels * bound ≤ 0 := admits.2
    have positive := expression.sizeOf_pos
    omega
  | evaluateAll _ expressions =>
    cases empty
    have enough : sizeOf expressions + levels * bound ≤ 0 := admits.2
    cases expressions <;> simp +arith at enough
  | execute _ statement =>
    cases empty
    have enough : sizeOf statement + levels * bound ≤ 0 := admits.2.2.2
    have positive := statement.sizeOf_pos
    omega
  | executeAll _ statements =>
    cases empty
    have enough : sizeOf statements + levels * bound ≤ 0 := admits.2.2.2
    cases statements <;> simp +arith at enough
  | call | invoke =>
    cases empty
    obtain ⟨_, _, _, _, _, enough⟩ := admits
    omega
  | repeatWhile => exact admits.2.elim
  | topLevel | lookup | assign | superMethod | receiver => cases empty

/-- A brief machine with the same call limit is that of a later world. -/
theorem moves {kind : BriefMachine bound → Prop} (brief : machine.store.Brief bound)
    (limit : machine.callLimit = world.machine.callLimit) (known : kind ⟨machine, brief⟩) :
    (finishing bound).Moves world machine kind :=
  ⟨⟨machine, brief⟩, rfl, limit, known⟩

/-- A name is bound, which takes no fuel. -/
theorem defines {name : String} {value : Value}
    (stands : world.machine.callLimit ≤ world.machine.callDepth + levels)
    (brief : value.Brief bound) :
    (finishing bound).Moves world (world.machine.define name value)
      ((finishing bound).stands levels) := by
  have limit : (world.machine.define name value).callLimit = world.machine.callLimit := by
    unfold Machine.define
    split
    case h_1 => rfl
    case h_2 => rfl
  refine moves (Machine.define_keeps world.brief brief) limit ?_
  change (world.machine.define name value).callLimit ≤ _
  rw [limit, Machine.define_callDepth]
  exact stands

/-- The body of a function is on the next level; what that level leaves pays for its size. -/
theorem enter {closure : Closure} (enough : world.machine.Affords bound 1 (fuel + 1))
    (below : world.machine.callDepth < world.machine.callLimit)
    (brief : closure.declaration.Brief bound) :
    ∃ fewer, world.machine.callLimit ≤ world.machine.callDepth + 1 + fewer ∧
      (finishing bound).stmts fewer fuel closure.declaration.body := by
  obtain ⟨levels, limit, enough⟩ := enough
  obtain ⟨fewer, rfl⟩ : ∃ fewer, levels = fewer + 1 := ⟨levels - 1, by omega⟩
  have share : (fewer + 1) * bound = fewer * bound + bound := Nat.succ_mul fewer bound
  have size := brief.size
  exact ⟨fewer, by omega, brief.loopless.body, size, by omega⟩

end finishing

open finishing in
instance (bound : Nat) : (finishing bound).Lawful where
  refl := fun _ => rfl
  trans := fun first second => second.trans first
  back := fun {_ inner} limit => moves inner.brief rfl limit
  stands := by
    intro (levels : Nat) world after stands next
    have limit : after.machine.callLimit = world.machine.callLimit := next.later
    have depth : after.machine.callDepth = world.machine.callDepth := next.callDepth
    change after.machine.callLimit ≤ after.machine.callDepth + levels
    rwa [limit, depth]
  value := fun brief _ => brief
  closure := fun brief _ => brief
  plain := fun plain => plain.brief
  method := by
    intro world value origin name method brief given found
    cases value with
    | classObject | object =>
      cases given
      exact ClassObject.Brief.method brief found
    | _ => cases given
  bound := fun {world _ _ _} present => world.brief.bound present
  field := fun {world _ _ _} present => world.brief.field present
  exprParts := exprParts
  exprsParts := by
    intro (levels : Nat) fuel first rest enough
    have enough : sizeOf (first :: rest) + levels * bound ≤ fuel + 1 := enough
    rw [List.cons.sizeOf_spec] at enough
    constructor
    · change sizeOf first + levels * bound ≤ fuel
      omega
    · change sizeOf rest + levels * bound ≤ fuel
      omega
  stmtParts := stmtParts
  stmtsParts := by
    rintro levels fuel first rest ⟨loopless, within, enough⟩
    rw [List.cons.sizeOf_spec] at within enough
    rw [Discipline.after_of_still fun _ => rfl]
    exact ⟨⟨loopless.1, by omega, by omega⟩, loopless.2, by omega, by omega⟩
  loopParts := fun loops => loops.elim
  calls := by
    intro (levels : Nat) world fuel callee paren arguments stands enough
    have enough : sizeOf (Expr.call callee paren arguments) + levels * bound ≤ fuel + 1 := enough
    have positive := callee.sizeOf_pos
    have listed : 0 < sizeOf arguments := by cases arguments <;> simp +arith
    rw [Expr.call.sizeOf_spec] at enough
    exact ⟨levels, stands, by omega⟩
  invokes := fun ⟨levels, limit, enough⟩ => ⟨levels, limit, by omega⟩
  invokesNext := by
    rintro world after fuel ⟨levels, limit, enough⟩ next
    have sameLimit : after.machine.callLimit = world.machine.callLimit := next.later
    have depth : after.machine.callDepth = world.machine.callDepth := next.callDepth
    exact ⟨levels, by rwa [sameLimit, depth], enough⟩
  exhausts := fun _ admits empty => exhausts admits empty
  aside := fun {world _} aside => moves (aside.store ▸ world.brief) aside.callLimit trivial
  assign := fun {_ world _ _ _ _ _ _} _ _ given => moves (world.brief.define _ given) rfl trivial
  newObject := fun {world _} brief => moves world.brief.addObject rfl brief
  setField := fun {world _ _ _} given => moves (world.brief.setField _ _ given) rfl trivial
  bindMethod := fun {world _ _ _} awaiting given =>
    moves (world.brief.addSingle given) rfl awaiting
  enter := by
    intro world fuel closure arguments brief listed _ enough below
    have kept : (world.machine.enter closure arguments).store.Brief bound :=
      Machine.enter_keeps world.brief fun _ value found =>
        listed value (Eval.forall_parameterBindings found)
    exact moves kept rfl (enter enough below brief)
  block := by
    rintro levels world fuel body stands ⟨loopless, within, enough⟩
    rw [Stmt.block.sizeOf_spec] at within enough
    exact moves world.brief.addEmpty rfl
      ⟨levels, stands, ⟨loopless, by omega, by omega⟩, id⟩
  declare := fun stands _ given => defines stands given
  function := by
    rintro levels world fuel declaration identity stands ⟨loopless, within, _⟩
    rw [Stmt.function.sizeOf_spec] at within
    have brief : declaration.Brief bound := FunctionDecl.Loopless.brief loopless (by omega)
    exact defines stands brief
  base := by
    rintro levels world fuel name methods identity stands ⟨loopless, within, _⟩
    rw [Stmt.class.sizeOf_spec] at within
    have members : ∀ method ∈ methods, method.Brief bound :=
      FunctionDecl.LooplessAll.brief loopless (by omega)
    exact defines stands (List.forall_mem_singleton.mpr members)
  derived := by
    rintro (levels : Nat) world fuel name superclass methods ancestor identity stands
      ⟨loopless, within, _⟩ inherited
    rw [Stmt.class.sizeOf_spec] at within
    have members : ∀ method ∈ methods, method.Brief bound :=
      FunctionDecl.LooplessAll.brief loopless (by omega)
    have given : Value.Brief bound (.classObject ancestor) := inherited
    let opened : BriefMachine bound :=
      ⟨{ world.machine with
          store := world.machine.store.addFrame
            (Std.TreeMap.empty.insert "super" (.classObject ancestor)) },
        world.brief.addSingle given⟩
    have stands : opened.machine.callLimit ≤ opened.machine.callDepth + levels := stands
    have known : Value.Brief bound (.classObject
        ⟨identity, name.lexeme, ⟨methods, world.machine.store.frames.size ::
          world.machine.environment⟩ :: ancestor.lineage⟩) :=
      List.forall_mem_cons.mpr ⟨members, inherited⟩
    obtain ⟨after, same, later, stands⟩ := defines stands known
    exact ⟨after, same, later, stands⟩

/-- A loopless program comes to an end, by itself or through a fault. -/
theorem Eval.interpret_finishes {bound fuel levels : Nat} {machine : Machine}
    {statements : List Stmt} (brief : machine.store.Brief bound)
    (limit : machine.callLimit ≤ machine.callDepth + levels)
    (loopless : Stmt.LooplessAll statements) (within : sizeOf statements ≤ bound)
    (enough : bound + levels * bound ≤ fuel) :
    ∃ after, after.store.Brief bound ∧
      (interpret fuel statements machine = .value () after ∨
        ∃ error, interpret fuel statements machine = .fault error after) := by
  have each (statement : Stmt) (member : statement ∈ statements) :
      (finishing bound).stmt levels fuel statement := by
    have smaller := List.sizeOf_lt_of_mem member
    exact ⟨loopless.of_mem member, by omega, by omega⟩
  let world : BriefMachine bound := ⟨machine, brief⟩
  have admits : (finishing bound).Admits levels world (.topLevel fuel statements) := ⟨limit, each⟩
  have obeys := Discipline.Lawful.obeys_topLevel trivial admits
  have start : (finishing bound).machine world = machine := rfl
  unfold interpret atTopLevel
  cases ending : executeTopLevel fuel statements machine with
  | value result after =>
    obtain ⟨last, rfl, _⟩ := obeys.result (start ▸ ending)
    exact ⟨last.machine, last.brief, .inl rfl⟩
  | fault error after =>
    obtain ⟨_, last, rfl, _⟩ := obeys.stops (start ▸ ending)
    exact ⟨last.machine.atTopLevel, last.brief, .inr ⟨error, rfl⟩⟩
  | outOfFuel =>
    unfold Discipline.Obeys at obeys
    rw [start, ending] at obeys
    exact obeys.elim

end LoxLang
