import LoxLang.Token

/-!
# Program trees

Expressions, statements and function declarations as the parser builds them. An occurrence of a
name, of `this` or of `super` carries an identity, which scope resolution keys its distances on.
Operators and names stay tokens, so that a runtime fault can point at its place in the source.
-/

namespace LoxLang

/-- A constant written in the source. -/
inductive Literal where
  | number (value : Float)
  | string (contents : String)
  | bool (value : Bool)
  | nil
deriving DecidableEq, Repr

/-- An expression. -/
inductive Expr where
  | literal (value : Literal)
  | grouping (inner : Expr)
  | unary (operator : Token) (operand : Expr)
  | binary (left : Expr) (operator : Token) (right : Expr)
  | logical (left : Expr) (operator : Token) (right : Expr)
  | reference (id : Nat) (name : Token)
  | assign (id : Nat) (name : Token) (value : Expr)
  | call (callee : Expr) (paren : Token) (arguments : List Expr)
  | get (object : Expr) (name : Token)
  | set (object : Expr) (name : Token) (value : Expr)
  | this (id : Nat) (keyword : Token)
  | super (id : Nat) (keyword : Token) (method : Token)
deriving Repr

mutual

/-- A statement; a `for` loop is a block around a `loop`. -/
inductive Stmt where
  | expression (value : Expr)
  | print (keyword : Token) (value : Expr)
  | declare (name : Token) (initializer : Option Expr)
  | block (body : List Stmt)
  | branch (condition : Expr) (whenTrue : Stmt) (whenFalse : Option Stmt)
  | loop (condition : Expr) (body : Stmt)
  | function (declaration : FunctionDecl)
  | return (keyword : Token) (value : Option Expr)
  | class (name : Token) (superclass : Option Expr) (methods : List FunctionDecl)

/-- A function or a method: its name, its parameters and its body. -/
inductive FunctionDecl where
  | mk (name : Token) (parameters : List Token) (body : List Stmt)

end

instance : Inhabited Expr := ⟨.literal .nil⟩

instance : Inhabited Stmt := ⟨.block []⟩

namespace FunctionDecl

/-- The name that a function is declared with. -/
def name : FunctionDecl → Token
  | mk name _ _ => name

/-- The parameters in order. -/
def parameters : FunctionDecl → List Token
  | mk _ parameters _ => parameters

/-- The statements of the body. -/
def body : FunctionDecl → List Stmt
  | mk _ _ body => body

end FunctionDecl

/-- The method of this name initializes new instances of its class. -/
def initializerName : String := "init"

end LoxLang
