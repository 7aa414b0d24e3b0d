import LoxLang.Proofs.Machine.Alike
import LoxLang.Proofs.Machine.Pacing

/-!
# Moved programs run alike

Evaluation looks at lines only to put them into faults. So a moved tree, run on a like machine with
at least as much fuel, does what the tree itself does: it ends with like results or at the same
fault, in like machines again. The two runs make a lawful pairing, `simulation`.
-/

namespace LoxLang

section

variable (limit lines : Nat)

/-- An ending that follows another: the same fault or none, in a like machine. Nothing is asked of
it where the other runs out of fuel. -/
inductive Ending.Follows : Ending Unit → Ending Unit → Prop where
  | value {machine other : Machine} (alike : Machine.Alike limit lines machine other) :
      Ending.Follows (.value () machine) (.value () other)
  | fault {error image : RuntimeError} {machine other : Machine}
      (like : RuntimeError.Alike lines error image)
      (alike : Machine.Alike limit lines machine other) :
      Ending.Follows (.fault error machine) (.fault image other)
  | outOfFuel (ending : Ending Unit) : Ending.Follows .outOfFuel ending

/-- Two machines that are alike. -/
structure AlikeMachines where
  machine : Machine
  other : Machine
  alike : Machine.Alike limit lines machine other

end

variable {limit lines offset extra : Nat}

/-- Like bindings stay alike when names get like values. -/
theorem Bindings.Alike.insertAll {bindings image : Bindings}
    (alike : Bindings.Alike limit lines bindings image) (names : List Token)
    {values others : List Value} (same : List.Forall₂ (Value.Alike limit lines) values others) :
    Bindings.Alike limit lines
      ((names.zip values).foldl (fun known entry => known.insert entry.1.lexeme entry.2) bindings)
      (((names.map (Token.moved offset)).zip others).foldl
        (fun known entry => known.insert entry.1.lexeme entry.2) image) := by
  induction names generalizing values others bindings image with
  | nil => exact alike
  | cons name rest inductionHypothesis =>
    cases same with
    | nil => exact alike
    | cons like same => exact inductionHypothesis (alike.insert name.lexeme like) same

/-- Parameters of the same names are bound to like arguments. -/
theorem Bindings.Alike.parameterBindings (parameters : List Token) {arguments others : List Value}
    (same : List.Forall₂ (Value.Alike limit lines) arguments others) :
    Bindings.Alike limit lines (Eval.parameterBindings parameters arguments)
      (Eval.parameterBindings (parameters.map (Token.moved offset)) others) :=
  Bindings.Alike.empty.insertAll parameters same

namespace Machine.Alike

variable {machine other : Machine} (alike : Machine.Alike limit lines machine other)
include alike

/-- A name is bound to like values. -/
theorem define (name : String) {value image : Value}
    (related : Value.Alike limit lines value image) :
    Machine.Alike limit lines (machine.define name value) (other.define name image) := by
  unfold Machine.define
  rw [alike.environment]
  cases machine.environment with
  | nil => exact alike
  | cons frame outer =>
    exact { alike with store := alike.store.define frame name related, environment := rfl }

/-- Like functions are entered alike. -/
theorem enter {closure image : Closure} (like : Closure.Alike limit lines closure image)
    {arguments others : List Value}
    (same : List.Forall₂ (Value.Alike limit lines) arguments others) :
    Machine.Alike limit lines (machine.enter closure arguments) (other.enter image others) := by
  obtain ⟨offset, _, moved⟩ := like.declaration.moved
  have bound : Bindings.Alike limit lines
      (Eval.parameterBindings closure.declaration.parameters arguments)
      (Eval.parameterBindings image.declaration.parameters others) := by
    rw [moved, FunctionDecl.moved, FunctionDecl.relabelled_parameters]
    exact .parameterBindings _ same
  have outer := alike.store.addFrame bound
  exact { alike with
    store := outer.addFrame .empty
    environment := congrArg₂ List.cons outer.frames.size
      (congrArg₂ List.cons alike.store.frames.size like.environment)
    callDepth := congrArg (· + 1) alike.callDepth }

end Machine.Alike

namespace Eval

/-- A bad superclass is reported at a token that has moved with the class. -/
theorem superclassToken_moved (shift : Shift) (name : Token) (superclass : Expr) :
    superclassToken (name.moved shift.lines) (superclass.moved shift) =
      (superclassToken name superclass).moved shift.lines := by
  cases superclass <;> rfl

/-- A run beside the run of the same code further down, on like machines. -/
def simulation (limit lines extra : Nat) : Pairing where
  World := AlikeMachines limit lines
  machine := AlikeMachines.machine
  other := AlikeMachines.other
  Later := fun _ _ => True
  extra := extra
  closure := fun _ => Closure.Alike limit lines
  method := fun _ => Closure.Alike limit lines
  origin := fun _ => ClassObject.Alike limit lines
  token := fun token image => ∃ offset, IsOffset lines offset ∧ image = token.moved offset
  Context := { offset : Nat // IsOffset lines offset }
  stands := fun _ _ => True
  declares := fun offset name image => image = name.moved offset
  occurs := fun offset id name otherId image =>
    id < limit ∧ otherId = id ∧ image = name.moved offset
  expr := fun offset expression image =>
    Below limit expression.ids ∧ image = expression.moved (.down offset)
  stmt := fun offset statement image =>
    Below limit statement.ids ∧ image = statement.moved (.down offset)

namespace simulation

variable {world : AlikeMachines limit lines} {place : { offset : Nat // IsOffset lines offset }}

/-- The values that stand for each other are those that are alike. -/
theorem twin_iff {value image : Value} :
    (simulation limit lines extra).Twin world value image ↔
      Value.Alike limit lines value image := by
  constructor
  · intro twin
    cases twin with
    | nil => exact .nil
    | bool value => exact .bool value
    | number value => exact .number value
    | string contents => exact .string contents
    | native builtin => exact .native builtin
    | function identity alike => exact .function identity alike
    | classObject alike => exact .classObject alike
    | object identity alike => exact .object identity alike
  · intro alike
    cases alike with
    | nil => exact .nil
    | bool value => exact .bool value
    | number value => exact .number value
    | string contents => exact .string contents
    | native builtin => exact .native builtin trivial
    | function identity alike => exact .function identity alike
    | classObject alike => exact .classObject alike
    | object identity alike => exact .object identity alike

/-- Values in like tables stand for each other. -/
theorem rel_twin {value image : Option Value}
    (alike : Option.Rel (Value.Alike limit lines) value image) :
    Option.Rel ((simulation limit lines extra).Twin world) value image := by
  cases alike with
  | none => exact .none
  | some alike => exact .some (twin_iff.mpr alike)

/-- A moved token stands for the token. -/
theorem mark (token : Token) :
    (simulation limit lines extra).Mark token (token.moved place) :=
  ⟨⟨place, place.property, rfl⟩, rfl, rfl⟩

/-- A list of moved expressions stands for the expressions. -/
theorem exprs {expressions : List Expr} (below : Below limit (Expr.idsAll expressions)) :
    List.Forall₂ ((simulation limit lines extra).expr place) expressions
      (Expr.movedAll (.down place) expressions) := by
  induction expressions with
  | nil => exact .nil
  | cons first rest inductionHypothesis =>
    exact .cons ⟨below.left, rfl⟩ (inductionHypothesis below.right)

/-- A list of moved statements stands for the statements. -/
theorem stmts {statements : List Stmt} (below : Below limit (Stmt.idsAll statements)) :
    List.Forall₂ ((simulation limit lines extra).stmt place) statements
      (Stmt.movedAll (.down place) statements) := by
  induction statements with
  | nil => exact .nil
  | cons first rest inductionHypothesis =>
    exact .cons ⟨below.left, rfl⟩ (inductionHypothesis below.right)

/-- The parts of a moved expression are moved. -/
theorem exprParts {expression : Expr} (below : Below limit expression.ids) :
    (simulation limit lines extra).ExprParts place expression
      (expression.moved (.down place)) := by
  cases expression with
  | literal => rfl
  | grouping => exact ⟨_, rfl, below, rfl⟩
  | unary => exact ⟨_, _, rfl, mark _, below, rfl⟩
  | binary | logical =>
    exact ⟨_, _, _, rfl, ⟨below.left, rfl⟩, mark _, below.right, rfl⟩
  | reference | this => exact ⟨_, _, rfl, below.head, rfl, rfl⟩
  | assign => exact ⟨_, _, _, rfl, ⟨below.right.head, rfl, rfl⟩, below.left, rfl⟩
  | call => exact ⟨_, _, _, rfl, ⟨below.left, rfl⟩, mark _, exprs below.right⟩
  | get => exact ⟨_, _, rfl, ⟨below, rfl⟩, mark _⟩
  | set => exact ⟨_, _, _, rfl, ⟨below.right, rfl⟩, mark _, below.left, rfl⟩
  | super => exact ⟨_, _, _, rfl, ⟨below.head, rfl, rfl⟩, mark _⟩

/-- The parts of a moved statement are moved. -/
theorem stmtParts {statement : Stmt} (below : Below limit statement.ids) :
    (simulation limit lines extra).StmtParts place statement
      (statement.moved (.down place)) := by
  cases statement with
  | expression => exact ⟨_, rfl, below, rfl⟩
  | print => exact ⟨_, _, rfl, ⟨place, place.property, rfl⟩, below, rfl⟩
  | declare name initializer =>
    cases initializer with
    | none => exact ⟨_, _, rfl, rfl, .none⟩
    | some => exact ⟨_, _, rfl, rfl, .some ⟨below, rfl⟩⟩
  | branch condition whenTrue whenFalse =>
    cases whenFalse with
    | none => exact ⟨_, _, _, rfl, ⟨below.left, rfl⟩, ⟨below.right, rfl⟩, .none⟩
    | some =>
      exact ⟨_, _, _, rfl, ⟨below.left.left, rfl⟩, ⟨below.left.right, rfl⟩,
        .some ⟨below.right, rfl⟩⟩
  | loop => exact ⟨_, _, rfl, ⟨below.left, rfl⟩, below.right, rfl⟩
  | «return» keyword value =>
    cases value with
    | none => exact ⟨_, _, rfl, .none⟩
    | some => exact ⟨_, _, rfl, .some ⟨below, rfl⟩⟩
  | «class» name superclass methods =>
    cases superclass with
    | none => trivial
    | some superclass =>
      exact ⟨_, _, _, rfl, ⟨below.left, rfl⟩, place, place.property,
        superclassToken_moved (.down place) name superclass⟩
  | block | function => trivial

/-- What is bound, or not, is bound to like values, or not. -/
theorem finds_orUndefined {name image : Token}
    (stands : (simulation limit lines extra).Mark name image) {found other : Option Value}
    (alike : Option.Rel (Value.Alike limit lines) found other) :
    (simulation limit lines extra).Finds world (orUndefined name found world.machine)
      (orUndefined image other world.other) := by
  cases alike with
  | none => exact .missing stands.token (congrArg RuntimeFault.undefinedVariable stands.lexeme)
  | some alike => exact .found (twin_iff.mpr alike)

/-- A frame is searched alike. -/
theorem finds_lookupAt (environment : Environment) (distance : Nat) {name image : Token}
    (stands : (simulation limit lines extra).Mark name image) :
    (simulation limit lines extra).Finds world
      (lookupAt environment distance name world.machine)
      (lookupAt environment distance image world.other) := by
  unfold lookupAt
  rw [stands.lexeme]
  exact finds_orUndefined stands (world.alike.store.getAt? environment distance name.lexeme)

/-- A name is found alike if its distance is known alike. -/
theorem finds_lookup {id : Nat} (below : id < limit) {name image : Token}
    (stands : (simulation limit lines extra).Mark name image) :
    (simulation limit lines extra).Finds world (lookup id name world.machine)
      (lookup id image world.other) := by
  rw [lookup_apply, lookup_apply, world.alike.distances id below, world.alike.environment]
  cases world.machine.distances[id]? with
  | none =>
    simp only [Option.elim_none, lookupGlobal, stands.lexeme]
    exact finds_orUndefined stands (world.alike.store.get? globalEnvironment name.lexeme)
  | some distance => exact finds_lookupAt _ _ stands

/-- Machines that are alike may come behind any others. -/
theorem moves {machine other : Machine} {kind : AlikeMachines limit lines → Prop}
    (alike : Machine.Alike limit lines machine other) (known : ∀ after, kind after) :
    (simulation limit lines extra).Moves world machine other kind :=
  ⟨⟨machine, other, alike⟩, rfl, rfl, trivial, known _⟩

/-- Machines with like stores may come behind any others that are alike. -/
theorem moves_store {store image : Store} {kind : AlikeMachines limit lines → Prop}
    (alike : Store.Alike limit lines store image) (known : ∀ after, kind after) :
    (simulation limit lines extra).Moves world { world.machine with store }
      { world.other with store := image } kind :=
  moves { world.alike with store := alike } known

/-- Names are assigned alike if their distances are known alike. -/
theorem meets_assign {id : Nat} (below : id < limit) {name spelled : Token} {value image : Value}
    (stands : (simulation limit lines extra).Mark name spelled)
    (alike : Value.Alike limit lines value image) :
    (simulation limit lines extra).Meets world (fun _ _ _ => True)
      (assign id name value world.machine) (assign id spelled image world.other) := by
  have ready : (simulation limit lines extra).Next world world := ⟨trivial, rfl, rfl⟩
  rw [assign_apply, assign_apply, world.alike.distances id below, world.alike.environment,
    world.alike.store.owner?, stands.lexeme]
  generalize (world.machine.distances[id]?).elim _ _ = frame
  cases frame with
  | none => exact .fault ready stands.token (congrArg RuntimeFault.undefinedVariable stands.lexeme)
  | some frame =>
    have stored : (simulation limit lines extra).Moves world _ _ fun _ => True :=
      moves_store (world.alike.store.define frame name.lexeme alike) fun _ => trivial
    rw [bindIn, bindIn, stands.lexeme]
    exact stored.meets rfl rfl

end simulation

open simulation in
instance (limit lines extra : Nat) : (simulation limit lines extra).Lawful where
  refl := fun _ => trivial
  trans := fun _ _ => trivial
  beside := fun world =>
    { nextIdentity := world.alike.nextIdentity
      environment := world.alike.environment
      sink := world.alike.sink
      callDepth := world.alike.callDepth
      clock := world.alike.clock
      readings := world.alike.readings
      callLimit := Nat.le_of_eq world.alike.callLimit.symm
      frames := world.alike.store.frames.size
      objects := world.alike.store.objects.size }
  back := fun {outer inner} _ =>
    moves { inner.alike with
      environment := outer.alike.environment
      callDepth := outer.alike.callDepth } fun _ => trivial
  closureLater := fun alike _ => alike
  originLater := fun alike _ => alike
  closureName := fun alike => by
    obtain ⟨_, _, same⟩ := alike.declaration.moved
    simp [same]
  closureArity := fun alike => by
    obtain ⟨_, _, same⟩ := alike.declaration.moved
    simp [Closure.arity, same]
  closureFlag := fun alike => alike.isInitializer
  methodArity := fun alike => by
    obtain ⟨_, _, same⟩ := alike.declaration.moved
    simp [Closure.arity, same]
  originIdentity := fun alike => alike.identity
  originName := fun alike => alike.name
  originMethod := fun alike name => alike.method? name
  field := fun world object name => rel_twin (world.alike.store.objects.value? object name)
  listing := fun {world} _ => world.alike.store.listing _ _ _
  exprParts := fun ⟨below, same⟩ => same ▸ exprParts below
  stmtParts := fun ⟨below, same⟩ => same ▸ stmtParts below
  occurrence := fun {place _ _ _ _} occurs => ⟨_, place.property, occurs.2.2⟩
  distance := by
    rintro _ world id _ _ _ _ ⟨below, rfl, _⟩
    exact world.alike.distances _ below
  lookup := by
    rintro place world id name _ _ _ ⟨below, rfl, rfl⟩ _
    exact finds_lookup below (mark name)
  assign := by
    rintro place world id name _ _ value image _ ⟨below, rfl, rfl⟩ twin _
    exact meets_assign below (mark name) (twin_iff.mp twin)
  inherits := by
    rintro place world id keyword _ _ method outer _ ⟨_, rfl, rfl⟩ _ _
    exact ⟨finds_lookupAt _ _ (mark keyword), finds_lookupAt _ _ (mark (.implicit "this" _))⟩
  receiver := by
    rintro world ⟨⟨name, parameters, body⟩, environment, _⟩ ⟨declaration, around, _⟩ alike _ _
    obtain ⟨offset, known, same⟩ := alike.declaration.moved
    dsimp only at same
    subst same
    obtain rfl : around = environment := alike.environment
    let place : { offset : Nat // IsOffset lines offset } := ⟨offset, known⟩
    have this : (simulation limit lines extra).Mark (.implicit "this" name.line)
      ((Token.implicit "this" name.line).moved place) := mark _
    exact finds_lookupAt _ _ this
  aside := fun world _ _ _ =>
    moves { world.alike with sink := rfl, nextIdentity := rfl, readings := rfl } fun _ => trivial
  declare := by
    rintro place world name _ value image _ rfl twin
    exact moves (world.alike.define _ (twin_iff.mp twin)) fun _ => trivial
  newObject := fun {world _ _} _ => moves_store world.alike.store.addObject fun _ => trivial
  setField := fun {world _ _ _ _} twin =>
    moves_store (world.alike.store.setField _ _ (twin_iff.mp twin)) fun _ => trivial
  bindMethod := fun {world _ _ _ _} like twin =>
    moves_store (world.alike.store.addFrame (.singleton "this" (twin_iff.mp twin)))
      fun _ => { like with environment := congrArg (_ :: ·) like.environment }
  enter := by
    rintro world ⟨⟨name, parameters, body⟩, _, _⟩ image arguments others like twins
    have entered := world.alike.enter like (twins.imp fun _ _ => twin_iff.mp)
    obtain ⟨⟨below, offset, known, moved⟩, _, _⟩ := like
    let place : { offset : Nat // IsOffset lines offset } := ⟨offset, known⟩
    refine moves entered fun _ => ⟨place, trivial, ?_⟩
    rw [moved]
    exact stmts below
  block := by
    rintro place world body _ _ ⟨below, rfl⟩
    refine ⟨_, rfl, moves ?_ fun _ => ⟨place, trivial, stmts below⟩⟩
    have opened := world.alike.store.addFrame .empty
    have environment := congrArg₂ List.cons world.alike.store.frames.size world.alike.environment
    exact { world.alike with store := opened, environment }
  function := by
    rintro place world declaration _ _ ⟨below, rfl⟩
    exact ⟨_, rfl, FunctionDecl.relabelled_name _,
      ⟨below, _, place.property, rfl⟩, rfl, rfl⟩
  base := by
    rintro place world name methods _ _ ⟨below, rfl⟩
    exact ⟨_, _, rfl, rfl, fun _ =>
      ⟨rfl, rfl, .cons ⟨below, ⟨_, place.property, rfl⟩, rfl⟩ .nil⟩⟩
  derived := by
    rintro place world name superclass methods _ _ _ ancestor image _ ⟨below, same⟩ inherited
    cases same
    exact ⟨rfl, moves_store
      (world.alike.store.addFrame (.singleton "super" (.classObject inherited))) fun _ _ =>
        ⟨rfl, rfl, .cons ⟨below.right, ⟨_, place.property, rfl⟩, rfl⟩ inherited.lineage⟩⟩

/-- A moved program does what the program itself does, on a like machine. -/
theorem interpret_follows (extra fuel : Nat) (moved : IsOffset lines offset)
    {statements : List Stmt} (below : Below limit (Stmt.idsAll statements))
    {machine other : Machine} (alike : Machine.Alike limit lines machine other) :
    Ending.Follows limit lines (interpret fuel statements machine)
      (interpret (extra + fuel) (Stmt.movedAll (.down offset) statements) other) := by
  let world : AlikeMachines limit lines := ⟨machine, other, alike⟩
  let place : { offset : Nat // IsOffset lines offset } := ⟨offset, moved⟩
  have known : (simulation limit lines extra).known (.topLevel fuel statements)
      ((simulation limit lines extra).machine world) := trivial
  have stands : (simulation limit lines extra).stands place world := trivial
  have paces := Pairing.Lawful.paces_topLevel fuel known stands (simulation.stmts below)
  change (simulation limit lines extra).Paced _ _ _ (executeTopLevel fuel statements machine)
    (executeTopLevel (extra + fuel) (Stmt.movedAll (.down offset) statements) other) at paces
  unfold interpret atTopLevel
  generalize executeTopLevel fuel statements machine = ending,
    executeTopLevel (extra + fuel) _ other = image at paces ⊢
  cases paces with
  | meets meets =>
    cases meets with
    | @value after => exact .value after.alike
    | @fault after error image _ token same =>
      obtain ⟨further, known, shifted⟩ := token
      refine .fault ⟨further, known, ?_⟩
        { after.alike with environment := rfl, callDepth := rfl }
      cases image
      exact congr (congrArg RuntimeError.mk shifted) same
  | @overflow after _ _ _ lower =>
    exact absurd after.alike.callLimit (Nat.ne_of_gt lower)
  | outOfFuel => exact .outOfFuel _

end Eval

end LoxLang
