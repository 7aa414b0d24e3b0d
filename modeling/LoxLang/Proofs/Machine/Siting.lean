import LoxLang.Proofs.Machine.Leading
import LoxLang.Proofs.Machine.Sited

/-!
# Evaluators keep machines sited

Code that was resolved in a chain of scopes is only ever run where the environment covers the chain.
This makes a lawful discipline, `siting`: frames never lose a name, so what was valid stays so, and
each declaration extends the innermost scope and the innermost frame alike.
-/

namespace LoxLang

/-- A machine that holds valid values only. -/
structure ValidMachine (addressing : Addressing) where
  machine : Machine
  valid : machine.Valid addressing

/-- Code runs where the environment covers the chain that it was resolved in. -/
def siting (addressing : Addressing) : Discipline where
  World := ValidMachine addressing
  machine := ValidMachine.machine
  Later := fun before after => before.machine.store.Grows after.machine.store
  value := fun world value => value.Valid addressing world.machine.store
  closure := fun world closure => closure.Valid addressing world.machine.store
  method := fun world method => method.Unbound addressing world.machine.store
  takes := fun arity count => arity = some count
  Context := ClassContext × Chain
  topLevel := (.outside, [])
  stands := fun (_, chain) world => world.machine.Sited addressing chain
  declares := fun (inside, chain) name => (inside, chain.define name.lexeme)
  expr := fun (inside, chain) _ expression => expression.Placed addressing inside chain
  exprs := fun (inside, chain) _ expressions => Expr.PlacedAll addressing inside chain expressions
  stmt := fun (inside, chain) _ statement => statement.Placed addressing inside chain
  stmts := fun (inside, chain) _ statements => Stmt.PlacedAll addressing inside chain statements
  loop := fun (inside, chain) _ condition body =>
    condition.Placed addressing inside chain ∧ body.Placed addressing inside chain ∧
      body.declares = false

namespace siting

variable {addressing : Addressing} {world : ValidMachine addressing} {machine : Machine}
  {context : ClassContext × Chain} {inside : ClassContext} {chain : Chain} {fuel : Nat}

/-- The place behind a statement is in the chain that the statement leaves. -/
theorem after_eq {statement : Stmt} (proper : statement.Proper) :
    (siting addressing).after (inside, chain) statement =
      (inside, statement.chainAfter chain) := by
  cases plain : statement.declares with
  | false =>
    rw [statement.chainAfter_of_plain chain proper plain]
    cases statement with
    | declare | function | «class» => cases plain
    | _ => rfl
  | true =>
    cases statement with
    | declare => rfl
    | function declaration => cases declaration with | mk => rfl
    | «class» _ superclass => cases superclass <;> rfl
    | _ => cases plain

theorem exprParts {expression : Expr}
    (placed : (siting addressing).expr context (fuel + 1) expression) :
    (siting addressing).ExprParts context fuel expression := by
  have placed : expression.Placed addressing context.1 context.2 := placed
  cases expression with
  | literal | reference | this | super => trivial
  | grouping | get => exact ⟨placed.proper, placed.addressed⟩
  | assign => exact placed.assign.1
  | unary operator operand =>
    have inner : operand.Placed addressing context.1 context.2 := ⟨placed.proper, placed.addressed⟩
    exact ⟨inner, fun _ _ => trivial⟩
  | binary => exact ⟨placed.binary.1, placed.binary.2, fun _ _ _ => trivial⟩
  | logical => exact placed.logical
  | set => exact placed.set
  | call => exact placed.call

theorem stmtParts {statement : Stmt}
    (placed : (siting addressing).stmt context (fuel + 1) statement) :
    (siting addressing).StmtParts context fuel statement := by
  have placed : statement.Placed addressing context.1 context.2 := placed
  cases statement with
  | expression | print => exact ⟨placed.proper, placed.addressed⟩
  | block | function => trivial
  | loop => exact placed.loop
  | branch =>
    obtain ⟨condition, ⟨body, _⟩, other⟩ := placed.branch
    exact ⟨condition, body, fun statement present => (other statement present).1⟩
  | declare _ initializer =>
    rintro value rfl
    exact ⟨placed.proper.2, placed.addressed⟩
  | «return» _ value =>
    refine ⟨trivial, ?_⟩
    rintro result rfl
    exact ⟨placed.proper, placed.addressed⟩
  | «class» _ superclass =>
    rintro parent rfl
    exact placed.derived.2.1

/-- A valid machine is that of a later world if its store grows from that of the world. -/
theorem moves {kind : ValidMachine addressing → Prop} (valid : machine.Valid addressing)
    (grows : world.machine.store.Grows machine.store) (known : kind ⟨machine, valid⟩) :
    (siting addressing).Moves world machine kind :=
  ⟨⟨machine, valid⟩, rfl, grows, known⟩

/-- A name is defined, and code stands behind the declaration. -/
theorem defines {name : Token} {value : Value} (sited : world.machine.Sited addressing chain)
    (ordinary : name.Ordinary)
    (given : ∀ store, world.machine.store.Grows store →
      store.Covers (chain.define name.lexeme) world.machine.environment →
        value.Valid addressing store) :
    (siting addressing).Moves world (world.machine.define name.lexeme value)
      ((siting addressing).stands (inside, chain.define name.lexeme)) :=
  have sited := sited.define ordinary given
  moves sited.valid (Machine.define_grows _ _ _) sited

/-- The methods of a derived class see their superclass in a frame inside that of the class. -/
theorem derived {name : Token} {methods : List FunctionDecl} {ancestor : ClassObject}
    {identity : Nat} (sited : world.machine.Sited addressing chain) (ordinary : name.Ordinary)
    (placed : ∀ method ∈ methods,
      method.Placed addressing .derived ((chain.define name.lexeme).enterClass .derived))
    (inherited : ancestor.Valid addressing world.machine.store) :
    (siting addressing).Moves world
      (Machine.define
        { world.machine with
          store := world.machine.store.addFrame
            (Std.TreeMap.empty.insert "super" (.classObject ancestor)) }
        name.lexeme (.classObject
          ⟨identity, name.lexeme, ⟨methods, world.machine.store.frames.size ::
            world.machine.environment⟩ :: ancestor.lineage⟩))
      ((siting addressing).stands (inside, chain.define name.lexeme)) := by
  have opening := Store.Grows.addFrame world.machine.store
    (Std.TreeMap.empty.insert "super" (.classObject ancestor))
  have given : Value.Valid addressing world.machine.store (.classObject ancestor) := inherited
  let opened : ValidMachine addressing := ⟨_, world.valid.addSingle "super" given⟩
  have sitedThere : opened.machine.Sited addressing chain := sited.mono rfl opening opened.valid
  have pushed : opened.machine.store.Covers (["super"] :: chain)
      (world.machine.store.frames.size :: world.machine.environment) :=
    sited.covers.push (by simp)
  have known (store : Store) (grows : opened.machine.store.Grows store)
      (outer : store.Covers (chain.define name.lexeme) world.machine.environment) :
      Value.Valid addressing store (.classObject
        ⟨identity, name.lexeme, ⟨methods, world.machine.store.frames.size ::
          world.machine.environment⟩ :: ancestor.lineage⟩) := by
    refine List.forall_mem_cons.mpr
      ⟨⟨.derived, ["super"] :: chain.define name.lexeme, ?_, ⟨(pushed.mono grows).1, outer⟩,
        placed⟩, ?_⟩
    · exact (sited.beside.define ordinary).enterClass .derived
    · exact (inherited.mono opening).mono grows
  obtain ⟨after, same, grows, stands⟩ := defines sitedThere ordinary known
  exact ⟨after, same, opening.trans grows, stands⟩

end siting

open siting in
instance (addressing : Addressing) : (siting addressing).Lawful where
  refl := fun world => .refl _
  trans := fun first second => first.trans second
  back := fun {_ inner} grows => moves (inner.valid.sameStore rfl rfl) (.refl _) grows
  stands := fun {_ _ after} sited next =>
    Machine.Sited.mono sited next.environment next.later after.valid
  value := fun valid grows => valid.mono grows
  closure := fun valid grows => valid.mono grows
  plain := fun plain => plain.valid
  method := by
    intro world value origin name method valid given found
    cases value with
    | classObject | object =>
      cases given
      exact ClassObject.Valid.method valid found
    | _ => cases given
  takes := fun _ => rfl
  bound := fun {world _ _ _} present => world.valid.store.bound present
  field := fun {world _ _ _} present => world.valid.store.field present
  exprParts := exprParts
  exprsParts := fun placed => Expr.PlacedAll.uncons placed
  stmtParts := stmtParts
  stmtsParts := by
    rintro ⟨inside, chain⟩ _ first rest placed
    obtain ⟨head, tail⟩ := Stmt.PlacedAll.uncons placed
    refine ⟨head, ?_⟩
    rw [after_eq head.proper]
    exact tail
  loopParts := fun placed => ⟨placed.1, placed.2.1, placed⟩
  aside := fun {world _} aside =>
    moves (world.valid.sameStore aside.distances aside.store) (aside.store ▸ .refl _) trivial
  assign := fun {_ world _ _ _ _ _ _} _ _ given =>
    moves (world.valid.bind _ _ given) (.define _ _ _ _) trivial
  newObject := fun {world _} valid =>
    moves world.valid.addObject (.addObject _) (ClassObject.Valid.mono valid (.addObject _))
  setField := fun {world _ _ _} given =>
    moves (world.valid.setField _ _ given) (.setField _ _ _ _) trivial
  bindMethod := fun {world _ _ _} awaiting given =>
    moves (world.valid.addSingle "this" given) (.addFrame _ _) (awaiting.bind _)
  enter := by
    intro world fuel closure arguments valid listed fits _ _
    have entered : (world.machine.enter closure arguments).Valid addressing :=
      world.valid.enter listed
    obtain ⟨inside, chain, sited, placed⟩ :=
      Closure.Valid.enter valid (Option.some.inj fits).symm entered
    exact moves entered (Machine.enter_grows _ _ _) ⟨(inside, chain), sited, placed⟩
  block := by
    intro context world fuel body sited placed
    have sited := Machine.Sited.block sited
    exact moves sited.valid (.addFrame _ _)
      ⟨(context.1, [] :: context.2), sited, ⟨placed.proper, placed.parents, placed.addressed⟩, id⟩
  declare := fun sited placed given =>
    defines sited placed.proper.1 fun _ grows _ => given.mono grows
  function := by
    rintro ⟨inside, chain⟩ world fuel ⟨name, parameters, body⟩ identity sited placed
    refine defines sited placed.proper.1 fun store _ covers => ?_
    exact ⟨inside, _, sited.beside.define placed.proper.1, covers,
      ⟨placed.proper, placed.parents, placed.addressed⟩, nofun⟩
  base := by
    intro context world fuel name methods identity sited placed
    obtain ⟨ordinary, members⟩ := Stmt.Placed.base placed
    refine defines sited ordinary fun store _ covers => ?_
    refine List.forall_mem_singleton.mpr ⟨.base, _, ?_, covers, members⟩
    exact (sited.beside.define ordinary).enterClass .base
  derived := by
    intro context world fuel name superclass methods ancestor identity sited placed inherited
    obtain ⟨ordinary, _, members⟩ := Stmt.Placed.derived placed
    exact derived sited ordinary members inherited

end LoxLang
