import LoxLang.Machine
import LoxLang.Machine.Operator

/-!
# Evaluation

Expressions evaluate to values; statements are executed and either fall through or return. The
evaluators recurse on fuel, which bounds how deep they nest and how often a loop repeats; a
computation that ends with some fuel ends the same way with more.
-/

namespace LoxLang

/-- How a statement leaves control: it falls through, or the enclosing function returns. -/
inductive Flow where
  | normal
  | returned (value : Value)

namespace Flow

/-- The result of a function whose body left control this way. -/
def result : Flow → Value
  | normal => .nil
  | returned value => value

end Flow

namespace Eval

/-- A function value of its own identity. -/
def newFunction (closure : Closure) : Eval Value := do
  return .function (← newIdentity) closure

/-- A method bound to an instance: its environment gains a frame in which `this` is the instance. -/
def bindMethod (method : Closure) (receiver : Value) : Eval Closure := do
  let frame ← newFrame (Std.TreeMap.empty.insert "this" receiver)
  return { method with environment := frame :: method.environment }

/-- The frame that binds parameters to arguments. -/
def parameterBindings (parameters : List Token) (arguments : List Value) : Bindings :=
  (parameters.zip arguments).foldl
    (fun bindings (parameter, argument) => bindings.insert parameter.lexeme argument) ∅

/-- A property of a value: a field of an instance or else a method bound to it. -/
def property (value : Value) (name : Token) : Eval Value := do
  match value with
  | .object identity origin =>
    match ← field? identity name.lexeme with
    | some found => return found
    | none =>
      match origin.method? name.lexeme with
      | some method => newFunction (← bindMethod method value)
      | none => fail name (.undefinedProperty name.lexeme)
  | _ => fail name .noProperties

/-- A method of the superclass, bound to the current instance. The superclass is found at the
distance of the occurrence, the instance one frame further inside. -/
def superMethod (id : Nat) (keyword method : Token) : Eval Value := do
  match ← distance? id with
  | some (outer + 1) =>
    let here ← environment
    let parent ← lookupAt here (outer + 1) keyword
    let receiver ← lookupAt here outer (.implicit "this" keyword.line)
    match parent, receiver with
    | .classObject ancestor, .object _ _ =>
      match ancestor.method? method.lexeme with
      | some found => newFunction (← bindMethod found receiver)
      | none => fail method (.undefinedProperty method.lexeme)
    | _, _ => fail keyword .superUnavailable
  | _ => fail keyword .superUnavailable

/-- Call a native function. -/
def callNative (paren : Token) : Native → Eval Value
  | .clock => readClock
  | .dump => do
    write paren (← frameListing)
    return .nil

/-- Define a class under its name. The methods of a derived class see `super` in a frame of their
own. -/
def defineClass (name : Token) (parent : Option ClassObject) (methods : List FunctionDecl) :
    Eval Unit := do
  let here ← environment
  let shared ← match parent with
    | none => pure here
    | some ancestor =>
      let frame ← newFrame (Std.TreeMap.empty.insert "super" (.classObject ancestor))
      pure (frame :: here)
  let inherited := (parent.map ClassObject.lineage).getD []
  let lineage := { methods, environment := shared } :: inherited
  define name.lexeme (.classObject { identity := ← newIdentity, name := name.lexeme, lineage })

/-- The token that a bad superclass is reported at. -/
def superclassToken (name : Token) : Expr → Token
  | .reference _ parent => parent
  | _ => name

/-- The class that a value is, or the fault that it is none. -/
def asSuperclass (token : Token) : Value → Eval ClassObject
  | .classObject origin => pure origin
  | _ => fail token .superclassNotClass

/-- Only as many arguments as a value takes may be passed to it, and only to callable values. -/
def checkCall (callee : Value) (paren : Token) (arguments : List Value) : Eval Unit :=
  match callee.arity? with
  | none => fail paren .notCallable
  | some arity =>
    if arguments.length = arity then pure ()
    else fail paren (.wrongArgumentCount arity arguments.length)

mutual

/-- Evaluate an expression. -/
def evaluate : Nat → Expr → Eval Value
  | 0, _ => outOfFuel
  | fuel + 1, expression =>
    match expression with
    | .literal value => pure value.value
    | .grouping inner => evaluate fuel inner
    | .unary operator operand => do
      let value ← evaluate fuel operand
      ofExcept operator (applyUnary operator.kind value)
    | .binary left operator right => do
      let leftValue ← evaluate fuel left
      let rightValue ← evaluate fuel right
      ofExcept operator (applyBinary operator.kind leftValue rightValue)
    | .logical left operator right => do
      let leftValue ← evaluate fuel left
      if leftDecides operator.kind leftValue then return leftValue
      else evaluate fuel right
    | .reference id name => lookup id name
    | .assign id name value => do
      let result ← evaluate fuel value
      assign id name result
      return result
    | .call callee paren arguments => do
      let target ← evaluate fuel callee
      let values ← evaluateAll fuel arguments
      checkCall target paren values
      call fuel target paren values
    | .get object name => do
      property (← evaluate fuel object) name
    | .set object name value => do
      match ← evaluate fuel object with
      | .object identity _ =>
        let result ← evaluate fuel value
        setField identity name.lexeme result
        return result
      | _ => fail name .noFields
    | .this id keyword => lookup id keyword
    | .super id keyword method => superMethod id keyword method

/-- Evaluate expressions from left to right. -/
def evaluateAll : Nat → List Expr → Eval (List Value)
  | 0, _ => outOfFuel
  | _ + 1, [] => pure []
  | fuel + 1, first :: rest => do
    let value ← evaluate fuel first
    let values ← evaluateAll fuel rest
    return value :: values

/-- Call a value with as many arguments as it takes. Calling a class makes an instance and runs the
initializer on it, if there is one. -/
def call : Nat → Value → Token → List Value → Eval Value
  | 0, _, _, _ => outOfFuel
  | fuel + 1, callee, paren, arguments =>
    match callee with
    | .native builtin => callNative paren builtin
    | .function _ closure => invoke fuel closure paren arguments
    | .classObject origin => do
      let created ← newObject origin
      match origin.method? initializerName with
      | none => return created
      | some method =>
        let _ ← invoke fuel (← bindMethod method created) paren arguments
        return created
    | _ => fail paren .notCallable

/-- Run the body of a function, in a frame of its own inside the frame of its parameters. A bound
initializer gives its instance whatever its body returns. -/
def invoke : Nat → Closure → Token → List Value → Eval Value
  | 0, _, _, _ => outOfFuel
  | fuel + 1, closure, paren, arguments => do
    let flow ← asCall paren do
      let parameters ← newFrame (parameterBindings closure.declaration.parameters arguments)
      let body ← newFrame ∅
      inEnvironment (body :: parameters :: closure.environment)
        (executeAll fuel closure.declaration.body)
    if closure.isInitializer then
      lookupAt closure.environment 0 (.implicit "this" closure.declaration.name.line)
    else return flow.result

/-- Execute a statement. -/
def execute : Nat → Stmt → Eval Flow
  | 0, _ => outOfFuel
  | fuel + 1, statement =>
    match statement with
    | .expression value => do
      let _ ← evaluate fuel value
      return .normal
    | .print keyword value => do
      let result ← evaluate fuel value
      write keyword (result.display ++ "\n")
      return .normal
    | .declare name none => do
      define name.lexeme .nil
      return .normal
    | .declare name (some initializer) => do
      define name.lexeme (← evaluate fuel initializer)
      return .normal
    | .block body => do
      let frame ← newFrame ∅
      inEnvironment (frame :: (← environment)) (executeAll fuel body)
    | .branch condition whenTrue whenFalse => do
      if (← evaluate fuel condition).isTruthy then execute fuel whenTrue
      else
        match whenFalse with
        | none => return .normal
        | some other => execute fuel other
    | .loop condition body => repeatWhile fuel condition body
    | .function declaration => do
      let closure := { declaration, environment := ← environment, isInitializer := false }
      define declaration.name.lexeme (← newFunction closure)
      return .normal
    | .return _ none => return .returned .nil
    | .return _ (some value) => return .returned (← evaluate fuel value)
    | .class name none methods => do
      defineClass name none methods
      return .normal
    | .class name (some superclass) methods => do
      let parent ← asSuperclass (superclassToken name superclass) (← evaluate fuel superclass)
      defineClass name (some parent) methods
      return .normal

/-- Execute statements in order until one returns. -/
def executeAll : Nat → List Stmt → Eval Flow
  | 0, _ => outOfFuel
  | _ + 1, [] => return .normal
  | fuel + 1, first :: rest => do
    match ← execute fuel first with
    | .returned value => return .returned value
    | .normal => executeAll fuel rest

/-- Execute a body for as long as a condition holds and the body does not return. -/
def repeatWhile : Nat → Expr → Stmt → Eval Flow
  | 0, _, _ => outOfFuel
  | fuel + 1, condition, body => do
    if (← evaluate fuel condition).isTruthy then
      match ← execute fuel body with
      | .returned value => return .returned value
      | .normal => repeatWhile fuel condition body
    else return .normal

end

/-- Execute top-level statements one after another; a `return` ends only its own statement. -/
def executeTopLevel (fuel : Nat) : List Stmt → Eval Unit
  | [] => pure ()
  | first :: rest => do
    let _ ← execute fuel first
    executeTopLevel fuel rest

/-- Run a program: the first fault stops it and leaves the machine at the top level. -/
def interpret (fuel : Nat) (program : List Stmt) : Eval Unit :=
  atTopLevel (executeTopLevel fuel program)

end Eval

end LoxLang
