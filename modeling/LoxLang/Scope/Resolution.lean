import LoxLang.Scope.Violation
import LoxLang.Tree
import Std.Data.TreeMap

/-!
# Scope resolution

`resolve` walks a program once with a stack of scopes and records, for every occurrence of a local
name, how many scopes lie between the occurrence and the scope that binds it. Occurrences without an
entry are global: the outermost level is no scope. Violations of the static rules are collected
along the way and never stop the walk.

A name is *declared* before its initializer and *defined* after it; only defined names are found, so
an initializer sees the outer binding of the name it initializes.
-/

namespace LoxLang

/-- Scope distances of local occurrences, by the identity of the occurrence. -/
abbrev Distances := Std.TreeMap Nat Nat

/-- The names of one scope; a name is defined once its initializer is behind. -/
abbrev Scope := Std.TreeMap String Bool

/-- The innermost function body around a statement. -/
inductive FunctionContext where
  | outside
  | function
  | initializer
  | method
deriving DecidableEq, Repr

/-- The innermost class body around an expression. -/
inductive ClassContext where
  | outside
  | base
  | derived
deriving DecidableEq, Repr

/-- What resolution has found so far; the innermost scope comes first. -/
structure Resolution where
  scopes : List Scope
  distances : Distances
  errors : List ResolveError

namespace Resolution

/-- Nothing found yet. -/
def start : Resolution :=
  { scopes := [], distances := ∅, errors := [] }

/-- Record a violation. -/
def reportAt (state : Resolution) (token : Token) (violation : Violation) : Resolution :=
  { state with errors := state.errors ++ [{ token, violation }] }

/-- Enter a new scope. -/
def openScope (state : Resolution) : Resolution :=
  { state with scopes := ∅ :: state.scopes }

/-- Leave the innermost scope. -/
def closeScope (state : Resolution) : Resolution :=
  { state with scopes := state.scopes.tail }

/-- Bind a name in the innermost scope, as defined. -/
def bind (state : Resolution) (name : String) : Resolution :=
  match state.scopes with
  | [] => state
  | scope :: outer => { state with scopes := scope.insert name true :: outer }

/-- Declare a name in the innermost scope; a name that it already has is a violation and stays as it
is. -/
def declare (state : Resolution) (name : Token) : Resolution :=
  match state.scopes with
  | [] => state
  | scope :: outer =>
    if scope.contains name.lexeme then state.reportAt name .redeclaration
    else { state with scopes := scope.insert name.lexeme false :: outer }

/-- Declare a name and define it at once. -/
def introduce (state : Resolution) (name : Token) : Resolution :=
  (state.declare name).bind name.lexeme

/-- The distance of the innermost scope that defines a name. -/
def distance? (scopes : List Scope) (name : String) : Option Nat :=
  scopes.findIdx? fun scope => scope[name]? == some true

/-- Record the distance of an occurrence, unless it is global. -/
def locate (state : Resolution) (id : Nat) (name : Token) : Resolution :=
  match distance? state.scopes name.lexeme with
  | none => state
  | some distance => { state with distances := state.distances.insert id distance }

end Resolution

mutual

/-- Resolve an expression inside a class context. -/
def Expr.resolve (inside : ClassContext) : Expr → Resolution → Resolution
  | .literal _, state => state
  | .grouping inner, state => inner.resolve inside state
  | .unary _ operand, state => operand.resolve inside state
  | .binary left _ right, state => right.resolve inside (left.resolve inside state)
  | .logical left _ right, state => right.resolve inside (left.resolve inside state)
  | .reference id name, state => state.locate id name
  | .assign id name value, state => (value.resolve inside state).locate id name
  | .call callee _ arguments, state =>
    Expr.resolveAll inside arguments (callee.resolve inside state)
  | .get object _, state => object.resolve inside state
  | .set object _ value, state => object.resolve inside (value.resolve inside state)
  | .this id keyword, state =>
    match inside with
    | .outside => state.reportAt keyword .thisOutsideClass
    | _ => state.locate id keyword
  | .super id keyword _, state =>
    match inside with
    | .outside => state.reportAt keyword .superOutsideClass
    | .base => state.reportAt keyword .superWithoutSuperclass
    | .derived => state.locate id keyword

/-- Resolve several expressions from left to right. -/
def Expr.resolveAll (inside : ClassContext) : List Expr → Resolution → Resolution
  | [], state => state
  | first :: rest, state => Expr.resolveAll inside rest (first.resolve inside state)

end

/-- Resolve an expression if there is one. -/
def Expr.resolveOptional (inside : ClassContext) : Option Expr → Resolution → Resolution
  | none, state => state
  | some value, state => value.resolve inside state

/-- The static rules for a `return` statement: it belongs into a function, and an initializer
returns no value. -/
def Resolution.checkReturn (state : Resolution) (within : FunctionContext) (keyword : Token)
    (value : Option Expr) : Resolution :=
  match within, value with
  | .outside, _ => state.reportAt keyword .returnOutsideFunction
  | .initializer, some _ => state.reportAt keyword .valueFromInitializer
  | _, _ => state

/-- A class must not name itself as its superclass. -/
def Resolution.checkSuperclass (state : Resolution) (name : Token) (superclass : Expr) :
    Resolution :=
  match superclass with
  | .reference _ parent =>
    if parent.lexeme = name.lexeme then state.reportAt parent .selfInheritance else state
  | _ => state

/-- The context of a method's body. -/
def FunctionContext.ofMethod (method : FunctionDecl) : FunctionContext :=
  if method.name.lexeme = initializerName then .initializer else .method

mutual

/-- Resolve a statement. -/
def Stmt.resolve (within : FunctionContext) (inside : ClassContext) :
    Stmt → Resolution → Resolution
  | .expression value, state => value.resolve inside state
  | .print _ value, state => value.resolve inside state
  | .declare name initializer, state =>
    (Expr.resolveOptional inside initializer (state.declare name)).bind name.lexeme
  | .block body, state => (Stmt.resolveAll within inside body state.openScope).closeScope
  | .branch condition whenTrue none, state =>
    whenTrue.resolve within inside (condition.resolve inside state)
  | .branch condition whenTrue (some whenFalse), state =>
    whenFalse.resolve within inside
      (whenTrue.resolve within inside (condition.resolve inside state))
  | .loop condition body, state => body.resolve within inside (condition.resolve inside state)
  | .function declaration, state =>
    declaration.resolve .function inside (state.introduce declaration.name)
  | .return keyword value, state =>
    Expr.resolveOptional inside value (state.checkReturn within keyword value)
  | .class name none methods, state =>
    (FunctionDecl.resolveMethods .base methods
      ((state.introduce name).openScope.bind "this")).closeScope
  | .class name (some superclass) methods, state =>
    let introduced := (state.introduce name).checkSuperclass name superclass
    let located := superclass.resolve .derived introduced
    (FunctionDecl.resolveMethods .derived methods
      ((located.openScope.bind "super").openScope.bind "this")).closeScope.closeScope

/-- Resolve several statements in order. -/
def Stmt.resolveAll (within : FunctionContext) (inside : ClassContext) :
    List Stmt → Resolution → Resolution
  | [], state => state
  | first :: rest, state =>
    Stmt.resolveAll within inside rest (first.resolve within inside state)

/-- Resolve a function: one scope for its parameters and one inside it for its body. -/
def FunctionDecl.resolve (within : FunctionContext) (inside : ClassContext) :
    FunctionDecl → Resolution → Resolution
  | .mk _ parameters body, state =>
    let entered := parameters.foldl Resolution.introduce state.openScope
    (Stmt.resolveAll within inside body entered.openScope).closeScope.closeScope

/-- Resolve the methods of a class in order. -/
def FunctionDecl.resolveMethods (inside : ClassContext) :
    List FunctionDecl → Resolution → Resolution
  | [], state => state
  | first :: rest, state =>
    FunctionDecl.resolveMethods inside rest
      (first.resolve (.ofMethod first) inside state)

end

/-- Resolve a program from its outermost level. -/
def resolve (program : List Stmt) : Resolution :=
  Stmt.resolveAll .outside .outside program .start

end LoxLang
