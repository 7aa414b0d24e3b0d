import LoxLang.Proofs.Machine.Rooted
import LoxLang.Proofs.Machine.Settling

/-!
# Evaluators fix `this` and `super`

A machine that keeps rooted values only is taken by itself; a later one binds `this` and `super` in
all earlier frames as before. Code stands inside a class, a number of scopes inside the scope of
`this`, and finds its instance and its superclass from there. This makes a lawful discipline,
`fixing`: `Task.Rooted` is what it asks of a task.
-/

namespace LoxLang

/-- A machine that keeps rooted values only. -/
structure RootedMachine (addressing : Addressing) where
  machine : Machine
  rooted : machine.Rooted addressing

/-- Code finds its instance and its superclass, and these are fixed. -/
def fixing (addressing : Addressing) : Discipline where
  World := RootedMachine addressing
  machine := RootedMachine.machine
  Later := fun before after => before.machine.store.Fixes after.machine.store
  value := fun world value => value.Rooted addressing world.machine.store
  closure := fun world closure => closure.Rooted addressing world.machine.store
  method := fun world method => method.Awaiting addressing world.machine.store
  Context := ClassContext × Nat
  topLevel := (.outside, 0)
  stands := fun (inside, level) world =>
    world.machine.store.Roots inside level world.machine.environment
  expr := fun (inside, level) _ expression => expression.Leveled addressing inside level
  exprs := fun (inside, level) _ expressions => Expr.LeveledAll addressing inside level expressions
  stmt := fun (inside, level) _ statement => statement.Leveled addressing inside level
  stmts := fun (inside, level) _ statements => Stmt.LeveledAll addressing inside level statements
  loop := fun (inside, level) _ condition body =>
    condition.Leveled addressing inside level ∧ body.Leveled addressing inside level

namespace fixing

variable {addressing : Addressing} {world : RootedMachine addressing} {machine : Machine}

theorem exprParts {context : ClassContext × Nat} {fuel : Nat} {expression : Expr}
    (leveled : (fixing addressing).expr context (fuel + 1) expression) :
    (fixing addressing).ExprParts context fuel expression := by
  cases expression with
  | literal | reference | this | super => trivial
  | grouping | get => exact leveled
  | assign => exact leveled.2
  | unary => exact ⟨leveled, fun _ _ => trivial⟩
  | binary => exact ⟨leveled.1, leveled.2, fun _ _ _ => trivial⟩
  | logical | set | call => exact leveled

theorem stmtParts {context : ClassContext × Nat} {fuel : Nat} {statement : Stmt}
    (leveled : (fixing addressing).stmt context (fuel + 1) statement) :
    (fixing addressing).StmtParts context fuel statement := by
  cases statement with
  | expression | print | loop => exact leveled
  | block | function => trivial
  | branch => exact leveled.branch
  | declare _ initializer =>
    rintro value rfl
    exact leveled.2
  | «return» _ value =>
    refine ⟨trivial, ?_⟩
    rintro result rfl
    exact leveled
  | «class» _ superclass =>
    rintro parent rfl
    exact leveled.2.1

/-- A rooted machine is that of a later world if it fixes what the world binds. -/
theorem moves {kind : RootedMachine addressing → Prop} (rooted : machine.Rooted addressing)
    (fixes : world.machine.store.Fixes machine.store) (known : kind ⟨machine, rooted⟩) :
    (fixing addressing).Moves world machine kind :=
  ⟨⟨machine, rooted⟩, rfl, fixes, known⟩

/-- A name is defined in the innermost frame, and code stands where it did. -/
theorem defines {inside : ClassContext} {level : Nat} {name : Token} {value : Value}
    (roots : world.machine.store.Roots inside level world.machine.environment)
    (named : name.Unreserved) (given : value.Rooted addressing world.machine.store) :
    (fixing addressing).Moves world (world.machine.define name.lexeme value)
      ((fixing addressing).stands (inside, level)) := by
  obtain ⟨rooted, fixes⟩ := world.rooted.define named given
  refine moves rooted fixes ?_
  have there := roots.mono fixes
  rw [← Machine.define_environment world.machine name.lexeme value] at there
  exact there

/-- A method that is bound finds the instance in the frame that was added for it. -/
theorem bindMethod {method : Closure} {identity : Nat} {origin : ClassObject}
    (awaiting : method.Awaiting addressing world.machine.store) :
    Closure.Rooted addressing
      (world.machine.store.addFrame
        (Std.TreeMap.empty.insert "this" (.object identity origin)))
      { method with environment := world.machine.store.frames.size :: method.environment } := by
  obtain ⟨inside, leveled, parent⟩ := awaiting
  refine ⟨inside, 0, leveled, fun _ => ⟨identity, origin, .here ?_⟩, fun within => ?_⟩
  · rw [Store.binding?_addFrame]
    simp
  · obtain ⟨parent, nearest⟩ := parent within
    exact ⟨parent, nearest.push (.inr rfl) (by simp)⟩

/-- The body of a function lies two frames inside the environment of the function. -/
theorem roots_enter {closure : Closure} {arguments : List Value} {inside : ClassContext}
    {level : Nat} (roots : machine.store.Roots inside level closure.environment)
    (named : ∀ parameter ∈ closure.declaration.parameters, parameter.Unreserved) :
    (machine.enter closure arguments).store.Roots inside (level + 2)
      (machine.enter closure arguments).environment where
  this within :=
    let ⟨identity, origin, nearest⟩ := roots.this within
    ⟨identity, origin, nearest.enter (.inl rfl) named⟩
  super within :=
    let ⟨parent, nearest⟩ := roots.super within
    ⟨parent, nearest.enter (.inr rfl) named⟩

/-- The methods of a derived class see its superclass in a frame of their own. -/
theorem lineage_derived {methods : List FunctionDecl} {ancestor : ClassObject}
    {environment : Environment} {store : Store}
    (members : FunctionDecl.LeveledAll addressing .derived methods)
    (inherited : store.Lineage addressing ancestor.lineage) :
    (store.addFrame (Std.TreeMap.empty.insert "super" (.classObject ancestor))).Lineage addressing
      (⟨methods, store.frames.size :: environment⟩ :: ancestor.lineage) := by
  refine .derived (FunctionDecl.leveledAll_iff.mp members) (.here ?_)
    (inherited.mono (.addFrame _ _))
  rw [Store.binding?_addFrame]
  simp

end fixing

open fixing in
instance (addressing : Addressing) : (fixing addressing).Lawful where
  refl := fun world => .refl _
  trans := fun first second => first.trans second
  back := fun {_ inner} fixes => moves (inner.rooted.sameStore rfl rfl) (.refl _) fixes
  stands := by
    intro context world after roots next
    have same : after.machine.environment = world.machine.environment := next.environment
    have there := Store.Roots.mono roots next.later
    rw [← same] at there
    exact there
  value := fun rooted fixes => rooted.mono fixes
  closure := fun rooted fixes => rooted.mono fixes
  plain := fun plain => plain.rooted
  method := fun rooted given found => (rooted.lineage given).method found
  bound := fun {world _ _ _} present => world.rooted.kept.bound present
  field := fun {world _ _ _} present => world.rooted.kept.field present
  exprParts := exprParts
  exprsParts := id
  stmtParts := stmtParts
  stmtsParts := by
    intro context _ first rest leveled
    rw [Discipline.after_of_still fun _ => rfl]
    exact leveled
  loopParts := fun leveled => ⟨leveled.1, leveled.2, leveled⟩
  aside := fun {world _} aside =>
    moves (world.rooted.sameStore aside.distances aside.store) (aside.store ▸ .refl _) trivial
  assign := fun {_ world _ _ _ _ _ _} _ leveled given =>
    moves (world.rooted.bind _ leveled.1 given) (.define _ _ _ leveled.1) trivial
  newObject := by
    intro world origin known
    refine moves world.rooted.addObject (.addObject _) ⟨?_, Store.Lineage.mono known (.addObject _)⟩
    simp [Store.addObject]
  setField := fun {world _ _ _} given =>
    moves (world.rooted.setField _ _ given) (.setField _ _ _ _) trivial
  bindMethod := fun {world _ _ _} awaiting given =>
    moves (world.rooted.addSingle "this" given) (.addFrame _ _) (bindMethod awaiting)
  enter := by
    rintro world fuel closure arguments ⟨inside, level, leveled, roots⟩ listed _ _ _
    obtain ⟨named, body⟩ := leveled.body
    exact moves (world.rooted.enter listed) ((Store.Fixes.addFrame _ _).trans (.addFrame _ _))
      ⟨(inside, level + 2), roots_enter roots named, body⟩
  block := by
    intro context world fuel body roots leveled
    exact moves (world.rooted.addEmpty _) (.addFrame _ _)
      ⟨(context.1, context.2 + 1), Store.Roots.push roots (by simp) (by simp), leveled, id⟩
  declare := fun roots leveled given => defines roots leveled.1 given
  function := fun {context _ _ _} _ roots leveled =>
    defines roots (FunctionDecl.Leveled.name leveled) ⟨context.1, context.2, leveled, roots⟩
  base := fun {_ _ _ _ _} _ roots leveled =>
    defines roots leveled.1 (.base (FunctionDecl.leveledAll_iff.mp leveled.2.2))
  derived := by
    intro context world fuel name superclass methods ancestor identity roots leveled inherited
    have fixes := Store.Fixes.addFrame world.machine.store
      (Std.TreeMap.empty.insert "super" (.classObject ancestor))
    have given : Value.Rooted addressing world.machine.store (.classObject ancestor) := inherited
    let opened : RootedMachine addressing := ⟨_, world.rooted.addSingle "super" given⟩
    have known : Value.Rooted addressing opened.machine.store (.classObject
        ⟨identity, name.lexeme, ⟨methods, world.machine.store.frames.size ::
          world.machine.environment⟩ :: ancestor.lineage⟩) :=
      lineage_derived leveled.2.2 inherited
    have stands : opened.machine.store.Roots context.1 context.2 opened.machine.environment :=
      Store.Roots.mono roots fixes
    obtain ⟨after, same, later, stands⟩ := defines stands leveled.1 known
    exact ⟨after, same, fixes.trans later, stands⟩

end LoxLang
