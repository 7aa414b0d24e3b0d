import LoxLang.Proofs.Machine.Activity
import LoxLang.Proofs.Machine.Operation

/-!
# Disciplines

A `Discipline` says what code, values and machines are like throughout a run: which values may be
kept, which functions be called, and what the code at a place is like. It is `Lawful` if what it
says of a piece of code holds of the parts, and if each change of the machine leads to a later
world. This module walks through the evaluators once, for all lawful disciplines: a task that the
discipline admits leaves a later world, with a result or at a fault that the discipline allows.
What one evaluator starts, in which order and where, is used here and nowhere else.
-/

namespace LoxLang

/-- Below the limit, a call goes on to the body of its function. -/
theorem Task.Leads.enter {fuel : Nat} {closure : Closure} {paren : Token} {arguments : List Value}
    {machine : Machine} (below : machine.callDepth < machine.callLimit) :
    Leads (.invoke (fuel + 1) closure paren arguments) machine
      (.executeAll fuel closure.declaration.body) (machine.enter closure arguments) :=
  .body (if_neg (Nat.not_le_of_lt below)) rfl rfl

/-- What code, values and machines are like throughout a run. What a discipline is silent about, it
leaves free. -/
structure Discipline where
  /-- A machine together with what is known about it. -/
  World : Type
  machine : World → Machine
  /-- The second world may come behind the first, wherever the two stand. -/
  Later : World → World → Prop
  /-- What is known of the tasks that come about. -/
  known : Task → Machine → Prop := fun _ _ => True
  /-- The faults that may come about. -/
  fault : RuntimeError → Prop := fun _ => True
  /-- Whether fuel may run out. -/
  exhausts : Prop := True
  /-- The values that may be kept. -/
  value : World → Value → Prop := fun _ _ => True
  /-- The functions that may be called. -/
  closure : World → Closure → Prop := fun _ _ => True
  /-- The methods that may be bound to an instance. -/
  method : World → Closure → Prop := fun _ _ => True
  /-- A value that takes so many arguments, if any, may be called with so many. -/
  takes : Option Nat → Nat → Prop := fun _ _ => True
  /-- What is known statically of the place where code stands. -/
  Context : Type
  /-- The place of top-level code. -/
  topLevel : Context
  /-- The world stands at a place of this kind. -/
  stands : Context → World → Prop := fun _ _ => True
  /-- The place where one more name has been declared. -/
  declares : Context → Token → Context := fun context _ => context
  /-- The code at this place may return. -/
  returns : Context → Prop := fun _ => True
  expr : Context → Nat → Expr → Prop := fun _ _ _ => True
  exprs : Context → Nat → List Expr → Prop := fun _ _ _ => True
  stmt : Context → Nat → Stmt → Prop := fun _ _ _ => True
  stmts : Context → Nat → List Stmt → Prop := fun _ _ _ => True
  loop : Context → Nat → Expr → Stmt → Prop := fun _ _ _ _ => True
  /-- The fuel is enough to call a value. -/
  calls : World → Nat → Prop := fun _ _ => True
  /-- The fuel is enough to run a body. -/
  invokes : World → Nat → Prop := fun _ _ => True

namespace Discipline

variable (D : Discipline)

/-- A later world in the same environment, with as many calls around it. -/
structure Next (before after : D.World) : Prop where
  later : D.Later before after
  environment : (D.machine after).environment = (D.machine before).environment
  callDepth : (D.machine after).callDepth = (D.machine before).callDepth

/-- The place behind a statement that did not return. -/
def after (context : D.Context) : Stmt → D.Context
  | .declare name _ => D.declares context name
  | .function declaration => D.declares context declaration.name
  | .class name _ _ => D.declares context name
  | _ => context

/-- The machine may be that of a later world of a certain kind. -/
def Moves (world : D.World) (machine : Machine) (kind : D.World → Prop) : Prop :=
  ∃ after, D.machine after = machine ∧ D.Later world after ∧ kind after

/-- What is said of an expression is said of its parts. -/
def ExprParts (context : D.Context) (fuel : Nat) : Expr → Prop
  | .literal _ => True
  | .grouping inner => D.expr context fuel inner
  | .unary operator operand =>
    D.expr context fuel operand ∧ ∀ value,
      applyUnary operator.kind value = .error .invalidUnaryOperator →
      D.fault { token := operator, fault := .invalidUnaryOperator }
  | .binary left operator right =>
    D.expr context fuel left ∧ D.expr context fuel right ∧ ∀ first second,
      applyBinary operator.kind first second = .error .invalidBinaryOperator →
      D.fault { token := operator, fault := .invalidBinaryOperator }
  | .logical left _ right => D.expr context fuel left ∧ D.expr context fuel right
  | .reference _ _ => True
  | .assign _ _ value => D.expr context fuel value
  | .call callee _ arguments => D.expr context fuel callee ∧ D.exprs context fuel arguments
  | .get object _ => D.expr context fuel object
  | .set object _ value => D.expr context fuel object ∧ D.expr context fuel value
  | .this _ _ => True
  | .super _ _ _ => True

/-- What is said of a statement is said of its parts. -/
def StmtParts (context : D.Context) (fuel : Nat) : Stmt → Prop
  | .expression value => D.expr context fuel value
  | .print _ value => D.expr context fuel value
  | .declare _ initializer => ∀ value, initializer = some value → D.expr context fuel value
  | .block _ => True
  | .branch condition whenTrue whenFalse =>
    D.expr context fuel condition ∧ D.stmt context fuel whenTrue ∧
      ∀ other, whenFalse = some other → D.stmt context fuel other
  | .loop condition body => D.loop context fuel condition body
  | .function _ => True
  | .return _ value =>
    D.returns context ∧ ∀ result, value = some result → D.expr context fuel result
  | .class _ superclass _ => ∀ parent, superclass = some parent → D.expr context fuel parent

/-- The way a statement may leave control. -/
def Leaves (context : D.Context) (world : D.World) : Flow → Prop
  | .normal => True
  | .returned value => D.returns context ∧ D.value world value

/-- What the discipline asks of a task in a world. -/
def Admits (context : D.Context) (world : D.World) : Task → Prop
  | .evaluate fuel expression => D.stands context world ∧ D.expr context fuel expression
  | .evaluateAll fuel expressions => D.stands context world ∧ D.exprs context fuel expressions
  | .call fuel callee _ arguments =>
    D.value world callee ∧ (∀ argument ∈ arguments, D.value world argument) ∧
      D.takes callee.arity? arguments.length ∧ D.calls world fuel
  | .invoke fuel closure _ arguments =>
    D.closure world closure ∧ (∀ argument ∈ arguments, D.value world argument) ∧
      D.takes (some closure.arity) arguments.length ∧ D.invokes world fuel
  | .execute fuel statement => D.stands context world ∧ D.stmt context fuel statement
  | .executeAll fuel statements => D.stands context world ∧ D.stmts context fuel statements
  | .repeatWhile fuel condition body =>
    D.stands context world ∧ D.loop context fuel condition body
  | .topLevel fuel statements =>
    D.stands context world ∧ ∀ statement ∈ statements, D.stmt context fuel statement
  | .lookup id name =>
    D.stands context world ∧ ∃ fuel,
      D.expr context fuel (.reference id name) ∨ D.expr context fuel (.this id name)
  | .assign id name value =>
    D.stands context world ∧ D.value world value ∧ ∃ fuel expression,
      D.expr context fuel (.assign id name expression)
  | .superMethod id keyword method =>
    D.stands context world ∧ ∃ fuel, D.expr context fuel (.super id keyword method)
  | .receiver closure => D.closure world closure ∧ closure.isInitializer = true

variable {D}

/-- Where nothing is asked of code, nothing is asked of the parts of an expression. -/
theorem exprParts_of_free {context : D.Context} {fuel : Nat}
    (free : ∀ expression, D.expr context fuel expression)
    (lists : ∀ expressions, D.exprs context fuel expressions)
    (unary : ∀ token, D.fault { token, fault := .invalidUnaryOperator })
    (binary : ∀ token, D.fault { token, fault := .invalidBinaryOperator }) (expression : Expr) :
    D.ExprParts context fuel expression := by
  cases expression with
  | literal | reference | this | super => trivial
  | grouping | assign | get => exact free _
  | logical | set => exact ⟨free _, free _⟩
  | call => exact ⟨free _, lists _⟩
  | unary operator => exact ⟨free _, fun _ _ => unary operator⟩
  | binary _ operator => exact ⟨free _, free _, fun _ _ _ => binary operator⟩

theorem stmtParts_of_free {context : D.Context} {fuel : Nat}
    (free : ∀ expression, D.expr context fuel expression)
    (others : ∀ statement, D.stmt context fuel statement)
    (loops : ∀ condition body, D.loop context fuel condition body) (returns : D.returns context)
    (statement : Stmt) : D.StmtParts context fuel statement := by
  cases statement with
  | block | function => trivial
  | expression | print => exact free _
  | declare | «class» => exact fun _ _ => free _
  | branch => exact ⟨free _, others _, fun _ _ => others _⟩
  | loop => exact loops _ _
  | «return» => exact ⟨returns, fun _ _ => free _⟩

/-- Where declarations leave a place as it is, every statement does. -/
theorem after_of_still {context : D.Context} (still : ∀ name, D.declares context name = context)
    (statement : Stmt) : D.after context statement = context := by
  cases statement with
  | declare | function | «class» => exact still _
  | _ => rfl

variable (D)

/-- The laws about worlds and what they keep. -/
structure Orderly : Prop where
  refl : ∀ world, D.Later world world
  trans : ∀ {first second third}, D.Later first second → D.Later second third →
    D.Later first third
  /-- From wherever code has gone there is a way back. -/
  back : ∀ {outer inner}, D.Later outer inner →
    D.Moves inner ((D.machine inner).backTo (D.machine outer)) (D.Later outer)
  stands : ∀ {context world after}, D.stands context world → D.Next world after →
    D.stands context after := by intros; trivial
  value : ∀ {world after given}, D.value world given → D.Later world after →
    D.value after given := by intros; trivial
  closure : ∀ {world after given}, D.closure world given → D.Later world after →
    D.closure after given := by intros; trivial
  plain : ∀ {world given}, given.IsPlain → D.value world given := by intros; trivial
  callable : ∀ {world identity given},
    D.value world (.function identity given) ↔ D.closure world given := by intros; exact .rfl
  method : ∀ {world given origin name method}, D.value world given →
    given.origin? = some origin → origin.method? name = some method → D.method world method := by
    intros; trivial
  takes : ∀ count, D.takes (some count) count := by intros; trivial
  bound : ∀ {world frame name given},
    (D.machine world).store.binding? frame name = some given → D.value world given := by
    intros; trivial
  field : ∀ {world object name given},
    (D.machine world).store.field? object name = some given → D.value world given := by
    intros; trivial

/-- The laws about tasks and faults. -/
structure Blaming : Prop where
  lead : ∀ {task later machine between}, D.known task machine →
    task.Leads machine later between → D.known later between := by intros; trivial
  ordinary : ∀ {error : RuntimeError}, error.fault.Ordinary → D.fault error := by intros; trivial
  access : ∀ {context world task error}, D.known task (D.machine world) → task.IsAccess →
    D.Admits context world task → task.Faults (D.machine world) error → D.fault error := by
    intros; trivial

/-- The laws about code and the fuel that it is given. -/
structure Compositional : Prop where
  exprParts : ∀ {context fuel expression}, D.expr context (fuel + 1) expression →
    D.ExprParts context fuel expression
  exprsParts : ∀ {context fuel first rest}, D.exprs context (fuel + 1) (first :: rest) →
    D.expr context fuel first ∧ D.exprs context fuel rest := by intros; trivial
  stmtParts : ∀ {context fuel statement}, D.stmt context (fuel + 1) statement →
    D.StmtParts context fuel statement
  stmtsParts : ∀ {context fuel first rest}, D.stmts context (fuel + 1) (first :: rest) →
    D.stmt context fuel first ∧ D.stmts (D.after context first) fuel rest := by intros; trivial
  loopParts : ∀ {context fuel condition body}, D.loop context (fuel + 1) condition body →
    D.expr context fuel condition ∧ D.stmt context fuel body ∧ D.loop context fuel condition body
  returns : ∀ {context name}, D.returns (D.declares context name) → D.returns context := by
    intros; trivial
  calls : ∀ {context world fuel callee paren arguments}, D.stands context world →
    D.expr context (fuel + 1) (.call callee paren arguments) → D.calls world fuel := by
    intros; trivial
  invokes : ∀ {world fuel}, D.calls world (fuel + 1) → D.invokes world fuel := by intros; trivial
  invokesNext : ∀ {world after fuel}, D.invokes world fuel → D.Next world after →
    D.invokes after fuel := by intros; trivial
  exhausts : ∀ {context world} task, D.Admits context world task → task.fuel? = some 0 →
    D.exhausts := by intros; trivial

/-- The laws about what evaluators do to a machine. -/
structure Effective : Prop where
  aside : ∀ {world machine}, (D.machine world).Aside machine →
    D.Moves world machine fun _ => True
  assign : ∀ {context world fuel id name expression given frame}, D.stands context world →
    D.expr context fuel (.assign id name expression) → D.value world given →
    D.Moves world
      { D.machine world with store := (D.machine world).store.define frame name.lexeme given }
      fun _ => True
  newObject : ∀ {world origin}, D.value world (.classObject origin) →
    D.Moves world { D.machine world with store := (D.machine world).store.addObject }
      fun after => D.value after (.object (D.machine world).store.objects.size origin)
  setField : ∀ {world object name given}, D.value world given →
    D.Moves world
      { D.machine world with store := (D.machine world).store.setField object name given }
      fun _ => True
  bindMethod : ∀ {world method identity origin}, D.method world method →
    D.value world (.object identity origin) →
    D.Moves world
      { D.machine world with
        store := (D.machine world).store.addFrame
          (Std.TreeMap.empty.insert "this" (.object identity origin)) }
      fun after => D.closure after
        { method with
          environment := (D.machine world).store.frames.size :: method.environment }
  enter : ∀ {world fuel closure arguments}, D.closure world closure →
    (∀ argument ∈ arguments, D.value world argument) →
    D.takes (some closure.arity) arguments.length → D.invokes world (fuel + 1) →
    (D.machine world).callDepth < (D.machine world).callLimit →
    D.Moves world ((D.machine world).enter closure arguments)
      fun after => ∃ context, D.stands context after ∧
        D.stmts context fuel closure.declaration.body
  block : ∀ {context world fuel body}, D.stands context world →
    D.stmt context (fuel + 1) (.block body) →
    D.Moves world
      { D.machine world with
        store := (D.machine world).store.addFrame ∅
        environment := (D.machine world).store.frames.size :: (D.machine world).environment }
      fun after => ∃ inner, D.stands inner after ∧ D.stmts inner fuel body ∧
        (D.returns inner → D.returns context)
  declare : ∀ {context world fuel name initializer given}, D.stands context world →
    D.stmt context (fuel + 1) (.declare name initializer) → D.value world given →
    D.Moves world ((D.machine world).define name.lexeme given)
      (D.stands (D.declares context name))
  function : ∀ {context world fuel declaration} identity, D.stands context world →
    D.stmt context (fuel + 1) (.function declaration) →
    D.Moves world
      ((D.machine world).define declaration.name.lexeme
        (.function identity ⟨declaration, (D.machine world).environment, false⟩))
      (D.stands (D.declares context declaration.name))
  base : ∀ {context world fuel name methods} identity, D.stands context world →
    D.stmt context (fuel + 1) (.class name none methods) →
    D.Moves world
      ((D.machine world).define name.lexeme (.classObject
        ⟨identity, name.lexeme, [⟨methods, (D.machine world).environment⟩]⟩))
      (D.stands (D.declares context name))
  derived : ∀ {context world fuel name superclass methods ancestor} identity,
    D.stands context world → D.stmt context (fuel + 1) (.class name (some superclass) methods) →
    D.value world (.classObject ancestor) →
    D.Moves world
      (Machine.define
        { D.machine world with
          store := (D.machine world).store.addFrame
            (Std.TreeMap.empty.insert "super" (.classObject ancestor)) }
        name.lexeme (.classObject
          ⟨identity, name.lexeme,
            ⟨methods, (D.machine world).store.frames.size :: (D.machine world).environment⟩ ::
              ancestor.lineage⟩))
      (D.stands (D.declares context name))

/-- A discipline that the evaluators keep. -/
class Lawful : Prop extends D.Orderly, D.Blaming, D.Compositional, D.Effective

end Discipline

end LoxLang
