import LoxLang.Proofs.Machine.Ending

/-!
# What happens during a run

A `Task` is something the evaluators do at a machine: they evaluate an expression, execute a
statement, call a value, or access a name. `Leads` says which tasks a task starts and at which
machine, one rule for each place where an evaluator goes on to another one; `Reaches` closes it
under further steps. So "at every moment of a run" is "at every task that the run reaches".
-/

namespace LoxLang

/-- Something that an evaluator does at a machine. -/
inductive Task where
  | evaluate (fuel : Nat) (expression : Expr)
  | evaluateAll (fuel : Nat) (expressions : List Expr)
  | call (fuel : Nat) (callee : Value) (paren : Token) (arguments : List Value)
  | invoke (fuel : Nat) (closure : Closure) (paren : Token) (arguments : List Value)
  | execute (fuel : Nat) (statement : Stmt)
  | executeAll (fuel : Nat) (statements : List Stmt)
  | repeatWhile (fuel : Nat) (condition : Expr) (body : Stmt)
  | topLevel (fuel : Nat) (statements : List Stmt)
  /-- Read a name at an occurrence of it or of `this`. -/
  | lookup (id : Nat) (name : Token)
  /-- Store a value at an occurrence of a name. -/
  | assign (id : Nat) (name : Token) (value : Value)
  /-- Find a method at an occurrence of `super`. -/
  | superMethod (id : Nat) (keyword method : Token)
  /-- Read the instance that an initializer was bound to. -/
  | receiver (closure : Closure)

namespace Task

open Eval

/-- One task starts another one. -/
inductive Leads : Task → Machine → Task → Machine → Prop where
  | grouping {fuel : Nat} {inner : Expr} {machine : Machine} :
      Leads (.evaluate (fuel + 1) (.grouping inner)) machine (.evaluate fuel inner) machine
  | operand {fuel : Nat} {operator : Token} {operand : Expr} {machine : Machine} :
      Leads (.evaluate (fuel + 1) (.unary operator operand)) machine
        (.evaluate fuel operand) machine
  | left {fuel : Nat} {left right : Expr} {operator : Token} {machine : Machine} :
      Leads (.evaluate (fuel + 1) (.binary left operator right)) machine
        (.evaluate fuel left) machine
  | right {fuel : Nat} {left right : Expr} {operator : Token} {leftValue : Value}
      {machine between : Machine}
      (first : Eval.evaluate fuel left machine = .value leftValue between) :
      Leads (.evaluate (fuel + 1) (.binary left operator right)) machine
        (.evaluate fuel right) between
  | deciding {fuel : Nat} {left right : Expr} {operator : Token} {machine : Machine} :
      Leads (.evaluate (fuel + 1) (.logical left operator right)) machine
        (.evaluate fuel left) machine
  | undecided {fuel : Nat} {left right : Expr} {operator : Token} {leftValue : Value}
      {machine between : Machine}
      (first : Eval.evaluate fuel left machine = .value leftValue between)
      (undecided : leftDecides operator.kind leftValue = false) :
      Leads (.evaluate (fuel + 1) (.logical left operator right)) machine (.evaluate fuel right)
        between
  | reference {fuel id : Nat} {name : Token} {machine : Machine} :
      Leads (.evaluate (fuel + 1) (.reference id name)) machine (.lookup id name) machine
  | this {fuel id : Nat} {keyword : Token} {machine : Machine} :
      Leads (.evaluate (fuel + 1) (.this id keyword)) machine (.lookup id keyword) machine
  | super {fuel id : Nat} {keyword method : Token} {machine : Machine} :
      Leads (.evaluate (fuel + 1) (.super id keyword method)) machine
        (.superMethod id keyword method) machine
  | assigned {fuel id : Nat} {name : Token} {value : Expr} {machine : Machine} :
      Leads (.evaluate (fuel + 1) (.assign id name value)) machine (.evaluate fuel value) machine
  | assign {fuel id : Nat} {name : Token} {value : Expr} {result : Value}
      {machine between : Machine}
      (first : Eval.evaluate fuel value machine = .value result between) :
      Leads (.evaluate (fuel + 1) (.assign id name value)) machine (.assign id name result) between
  | callee {fuel : Nat} {callee : Expr} {paren : Token} {arguments : List Expr}
      {machine : Machine} :
      Leads (.evaluate (fuel + 1) (.call callee paren arguments)) machine (.evaluate fuel callee)
        machine
  | arguments {fuel : Nat} {callee : Expr} {paren : Token} {arguments : List Expr} {target : Value}
      {machine between : Machine}
      (first : Eval.evaluate fuel callee machine = .value target between) :
      Leads (.evaluate (fuel + 1) (.call callee paren arguments)) machine
        (.evaluateAll fuel arguments) between
  | call {fuel : Nat} {callee : Expr} {paren : Token} {arguments : List Expr} {target : Value}
      {values : List Value} {machine between ready : Machine}
      (first : Eval.evaluate fuel callee machine = .value target between)
      (second : Eval.evaluateAll fuel arguments between = .value values ready)
      (checked : checkCall target paren values ready = .value () ready) :
      Leads (.evaluate (fuel + 1) (.call callee paren arguments)) machine
        (.call fuel target paren values) ready
  | accessed {fuel : Nat} {object : Expr} {name : Token} {machine : Machine} :
      Leads (.evaluate (fuel + 1) (.get object name)) machine (.evaluate fuel object) machine
  | changed {fuel : Nat} {object value : Expr} {name : Token} {machine : Machine} :
      Leads (.evaluate (fuel + 1) (.set object name value)) machine (.evaluate fuel object) machine
  | stored {fuel : Nat} {object value : Expr} {name : Token} {identity : Nat}
      {origin : ClassObject} {machine between : Machine}
      (first : Eval.evaluate fuel object machine = .value (.object identity origin) between) :
      Leads (.evaluate (fuel + 1) (.set object name value)) machine (.evaluate fuel value) between
  | firstArgument {fuel : Nat} {first : Expr} {rest : List Expr} {machine : Machine} :
      Leads (.evaluateAll (fuel + 1) (first :: rest)) machine (.evaluate fuel first) machine
  | otherArguments {fuel : Nat} {first : Expr} {rest : List Expr} {value : Value}
      {machine between : Machine} (head : Eval.evaluate fuel first machine = .value value between) :
      Leads (.evaluateAll (fuel + 1) (first :: rest)) machine (.evaluateAll fuel rest) between
  | function {fuel identity : Nat} {closure : Closure} {paren : Token} {arguments : List Value}
      {machine : Machine} :
      Leads (.call (fuel + 1) (.function identity closure) paren arguments) machine
        (.invoke fuel closure paren arguments) machine
  | initializer {fuel : Nat} {origin : ClassObject} {method bound : Closure} {created : Value}
      {paren : Token} {arguments : List Value} {machine between ready : Machine}
      (made : newObject origin machine = .value created between)
      (found : origin.method? initializerName = some method)
      (binds : bindMethod method created between = .value bound ready) :
      Leads (.call (fuel + 1) (.classObject origin) paren arguments) machine
        (.invoke fuel bound paren arguments) ready
  | body {fuel parameters frame : Nat} {closure : Closure} {paren : Token} {arguments : List Value}
      {machine counted between ready : Machine}
      (entered : enterCall paren machine = .value () counted)
      (outer : newFrame (parameterBindings closure.declaration.parameters arguments) counted =
        .value parameters between)
      (inner : newFrame ∅ between = .value frame ready) :
      Leads (.invoke (fuel + 1) closure paren arguments) machine
        (.executeAll fuel closure.declaration.body)
        { ready with environment := frame :: parameters :: closure.environment }
  | receiver {fuel : Nat} {closure : Closure} {paren : Token} {arguments : List Value} {flow : Flow}
      {machine between : Machine}
      (ran : asCall paren (do
        let parameters ← newFrame (parameterBindings closure.declaration.parameters arguments)
        let body ← newFrame ∅
        inEnvironment (body :: parameters :: closure.environment)
          (Eval.executeAll fuel closure.declaration.body)) machine = .value flow between)
      (initializes : closure.isInitializer = true) :
      Leads (.invoke (fuel + 1) closure paren arguments) machine (.receiver closure) between
  | expression {fuel : Nat} {value : Expr} {machine : Machine} :
      Leads (.execute (fuel + 1) (.expression value)) machine (.evaluate fuel value) machine
  | print {fuel : Nat} {keyword : Token} {value : Expr} {machine : Machine} :
      Leads (.execute (fuel + 1) (.print keyword value)) machine (.evaluate fuel value) machine
  | declare {fuel : Nat} {name : Token} {initializer : Expr} {machine : Machine} :
      Leads (.execute (fuel + 1) (.declare name (some initializer))) machine
        (.evaluate fuel initializer) machine
  | block {fuel frame : Nat} {body : List Stmt} {machine between : Machine}
      (opened : newFrame ∅ machine = .value frame between) :
      Leads (.execute (fuel + 1) (.block body)) machine (.executeAll fuel body)
        { between with environment := frame :: between.environment }
  | condition {fuel : Nat} {condition : Expr} {whenTrue : Stmt} {whenFalse : Option Stmt}
      {machine : Machine} :
      Leads (.execute (fuel + 1) (.branch condition whenTrue whenFalse)) machine
        (.evaluate fuel condition) machine
  | whenTrue {fuel : Nat} {condition : Expr} {whenTrue : Stmt} {whenFalse : Option Stmt}
      {value : Value} {machine between : Machine}
      (first : Eval.evaluate fuel condition machine = .value value between)
      (holds : value.isTruthy = true) :
      Leads (.execute (fuel + 1) (.branch condition whenTrue whenFalse)) machine
        (.execute fuel whenTrue) between
  | whenFalse {fuel : Nat} {condition : Expr} {whenTrue whenFalse : Stmt} {value : Value}
      {machine between : Machine}
      (first : Eval.evaluate fuel condition machine = .value value between)
      (fails : value.isTruthy = false) :
      Leads (.execute (fuel + 1) (.branch condition whenTrue (some whenFalse))) machine
        (.execute fuel whenFalse) between
  | loop {fuel : Nat} {condition : Expr} {body : Stmt} {machine : Machine} :
      Leads (.execute (fuel + 1) (.loop condition body)) machine (.repeatWhile fuel condition body)
        machine
  | «return» {fuel : Nat} {keyword : Token} {value : Expr} {machine : Machine} :
      Leads (.execute (fuel + 1) (.return keyword (some value))) machine (.evaluate fuel value)
        machine
  | superclass {fuel : Nat} {name : Token} {superclass : Expr} {methods : List FunctionDecl}
      {machine : Machine} :
      Leads (.execute (fuel + 1) (.class name (some superclass) methods)) machine
        (.evaluate fuel superclass) machine
  | firstStatement {fuel : Nat} {first : Stmt} {rest : List Stmt} {machine : Machine} :
      Leads (.executeAll (fuel + 1) (first :: rest)) machine (.execute fuel first) machine
  | otherStatements {fuel : Nat} {first : Stmt} {rest : List Stmt} {machine between : Machine}
      (head : Eval.execute fuel first machine = .value .normal between) :
      Leads (.executeAll (fuel + 1) (first :: rest)) machine (.executeAll fuel rest) between
  | test {fuel : Nat} {condition : Expr} {body : Stmt} {machine : Machine} :
      Leads (.repeatWhile (fuel + 1) condition body) machine (.evaluate fuel condition) machine
  | repeated {fuel : Nat} {condition : Expr} {body : Stmt} {value : Value}
      {machine between : Machine}
      (first : Eval.evaluate fuel condition machine = .value value between)
      (holds : value.isTruthy = true) :
      Leads (.repeatWhile (fuel + 1) condition body) machine (.execute fuel body) between
  | again {fuel : Nat} {condition : Expr} {body : Stmt} {value : Value}
      {machine between ready : Machine}
      (first : Eval.evaluate fuel condition machine = .value value between)
      (holds : value.isTruthy = true)
      (second : Eval.execute fuel body between = .value .normal ready) :
      Leads (.repeatWhile (fuel + 1) condition body) machine
        (.repeatWhile fuel condition body) ready
  | topStatement {fuel : Nat} {first : Stmt} {rest : List Stmt} {machine : Machine} :
      Leads (.topLevel fuel (first :: rest)) machine (.execute fuel first) machine
  | nextStatements {fuel : Nat} {first : Stmt} {rest : List Stmt} {flow : Flow}
      {machine between : Machine} (head : Eval.execute fuel first machine = .value flow between) :
      Leads (.topLevel fuel (first :: rest)) machine (.topLevel fuel rest) between

/-- A task comes about during another one. -/
inductive Reaches : Task → Machine → Task → Machine → Prop where
  | refl {task : Task} {machine : Machine} : Reaches task machine task machine
  | step {task later last : Task} {machine between final : Machine}
      (first : Leads task machine later between) (rest : Reaches later between last final) :
      Reaches task machine last final

/-- What a task leads to, comes about wherever the task does. -/
theorem Reaches.lead {task later last : Task} {machine between final : Machine}
    (reached : Reaches task machine later between) (leads : Leads later between last final) :
    Reaches task machine last final := by
  induction reached with
  | refl => exact .step leads .refl
  | step first _ inductionHypothesis => exact .step first (inductionHypothesis leads)

/-- A task that reads or stores a name. -/
def IsAccess : Task → Prop
  | lookup _ _ | assign _ _ _ | superMethod _ _ _ | receiver _ => True
  | _ => False

/-- A task stops at a fault. -/
def Faults (machine : Machine) (error : RuntimeError) : Task → Prop
  | evaluate fuel expression =>
    ∃ after, Eval.evaluate fuel expression machine = .fault error after
  | evaluateAll fuel expressions =>
    ∃ after, Eval.evaluateAll fuel expressions machine = .fault error after
  | call fuel callee paren arguments =>
    ∃ after, Eval.call fuel callee paren arguments machine = .fault error after
  | invoke fuel closure paren arguments =>
    ∃ after, Eval.invoke fuel closure paren arguments machine = .fault error after
  | execute fuel statement => ∃ after, Eval.execute fuel statement machine = .fault error after
  | executeAll fuel statements =>
    ∃ after, Eval.executeAll fuel statements machine = .fault error after
  | repeatWhile fuel condition body =>
    ∃ after, Eval.repeatWhile fuel condition body machine = .fault error after
  | topLevel fuel statements =>
    ∃ after, Eval.executeTopLevel fuel statements machine = .fault error after
  | lookup id name => ∃ after, Eval.lookup id name machine = .fault error after
  | assign id name value => ∃ after, Eval.assign id name value machine = .fault error after
  | superMethod id keyword method =>
    ∃ after, Eval.superMethod id keyword method machine = .fault error after
  | receiver closure =>
    ∃ after, lookupAt closure.environment 0 (.implicit "this" closure.declaration.name.line)
      machine = .fault error after

/-- A task ends and leaves a machine. -/
def Leaves (machine after : Machine) : Task → Prop
  | evaluate fuel expression => (Eval.evaluate fuel expression machine).Leaves after
  | evaluateAll fuel expressions => (Eval.evaluateAll fuel expressions machine).Leaves after
  | call fuel callee paren arguments => (Eval.call fuel callee paren arguments machine).Leaves after
  | invoke fuel closure paren arguments =>
    (Eval.invoke fuel closure paren arguments machine).Leaves after
  | execute fuel statement => (Eval.execute fuel statement machine).Leaves after
  | executeAll fuel statements => (Eval.executeAll fuel statements machine).Leaves after
  | repeatWhile fuel condition body => (Eval.repeatWhile fuel condition body machine).Leaves after
  | topLevel fuel statements => (executeTopLevel fuel statements machine).Leaves after
  | lookup id name => (Eval.lookup id name machine).Leaves after
  | assign id name value => (Eval.assign id name value machine).Leaves after
  | superMethod id keyword method => (Eval.superMethod id keyword method machine).Leaves after
  | receiver closure =>
    (lookupAt closure.environment 0 (.implicit "this" closure.declaration.name.line)
      machine).Leaves after

/-- What a task gives. -/
def Result : Task → Type
  | evaluate _ _ | call _ _ _ _ | invoke _ _ _ _ | lookup _ _ | superMethod _ _ _ | receiver _ =>
    Value
  | evaluateAll _ _ => List Value
  | execute _ _ | executeAll _ _ | repeatWhile _ _ _ => Flow
  | topLevel _ _ | assign _ _ _ => Unit

/-- The computation that a task is. -/
def run : (task : Task) → Eval task.Result
  | evaluate fuel expression => Eval.evaluate fuel expression
  | evaluateAll fuel expressions => Eval.evaluateAll fuel expressions
  | call fuel callee paren arguments => Eval.call fuel callee paren arguments
  | invoke fuel closure paren arguments => Eval.invoke fuel closure paren arguments
  | execute fuel statement => Eval.execute fuel statement
  | executeAll fuel statements => Eval.executeAll fuel statements
  | repeatWhile fuel condition body => Eval.repeatWhile fuel condition body
  | topLevel fuel statements => executeTopLevel fuel statements
  | lookup id name => Eval.lookup id name
  | assign id name value => Eval.assign id name value
  | superMethod id keyword method => Eval.superMethod id keyword method
  | receiver closure =>
    lookupAt closure.environment 0 (.implicit "this" closure.declaration.name.line)

theorem faults_iff {task : Task} {machine : Machine} {error : RuntimeError} :
    task.Faults machine error ↔ ∃ after, task.run machine = .fault error after := by
  cases task <;> rfl

theorem leaves_iff {task : Task} {machine after : Machine} :
    task.Leaves machine after ↔ (task.run machine).Leaves after := by
  cases task <;> rfl

/-- The fuel that a task may use up. -/
def fuel? : Task → Option Nat
  | evaluate fuel _ | evaluateAll fuel _ | call fuel _ _ _ | invoke fuel _ _ _ | execute fuel _
  | executeAll fuel _ | repeatWhile fuel _ _ => some fuel
  | topLevel _ _ | lookup _ _ | assign _ _ _ | superMethod _ _ _ | receiver _ => none

end Task

end LoxLang
