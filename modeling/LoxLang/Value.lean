import LoxLang.Tree

/-!
# Values

What expressions evaluate to. Functions, classes and instances carry an identity, by which they are
compared; everything else about a class is embedded in its value, and only the fields of an instance
live in the store. A class keeps its own body first and those of its ancestors behind it, so finding
a method is one search along a list.
-/

namespace LoxLang

/-- The frames that are visible at a place, innermost first. -/
abbrev Environment := List Nat

/-- A function together with the environment it was declared in. -/
structure Closure where
  declaration : FunctionDecl
  environment : Environment
  isInitializer : Bool

/-- The methods that one class declaration contributes, and the environment they share. -/
structure ClassBody where
  methods : List FunctionDecl
  environment : Environment

/-- A class: its own body, then its superclass's, and so on upwards. -/
structure ClassObject where
  identity : Nat
  name : String
  lineage : List ClassBody

/-- The functions that are there from the start. -/
inductive Native where
  | clock
  | dump
deriving DecidableEq, Repr

/-- A value of the language. -/
inductive Value where
  | nil
  | bool (value : Bool)
  | number (value : Float)
  | string (contents : String)
  | native (builtin : Native)
  | function (identity : Nat) (closure : Closure)
  | classObject (origin : ClassObject)
  | object (identity : Nat) (origin : ClassObject)

instance : Inhabited Value := ⟨.nil⟩

namespace ClassBody

/-- The method of this name; of several declarations the last one counts. -/
def method? (body : ClassBody) (name : String) : Option Closure :=
  (body.methods.reverse.find? (·.name.lexeme == name)).map fun declaration =>
    { declaration
      environment := body.environment
      isInitializer := declaration.name.lexeme == initializerName }

end ClassBody

namespace Closure

/-- The number of arguments that a function takes. -/
def arity (closure : Closure) : Nat :=
  closure.declaration.parameters.length

end Closure

namespace ClassObject

/-- The method of this name: the class's own, or else the nearest inherited one. -/
def method? (origin : ClassObject) (name : String) : Option Closure :=
  origin.lineage.findSome? (·.method? name)

/-- A class takes the arguments of its initializer, none if it has no initializer. -/
def arity (origin : ClassObject) : Nat :=
  ((origin.method? initializerName).map Closure.arity).getD 0

end ClassObject

namespace Native

/-- The global name of a native function. -/
def name : Native → String
  | clock => "clock"
  | dump => "dump"

end Native

/-- The value that a constant stands for. -/
def Literal.value : Literal → Value
  | number value => .number value
  | string contents => .string contents
  | bool value => .bool value
  | nil => .nil

namespace Value

/-- Only `nil` and `false` count as false. -/
def isTruthy : Value → Bool
  | nil => false
  | bool value => value
  | _ => true

/-- Values of different types differ; numbers compare as numbers, and functions, classes and
instances by identity. -/
def same : Value → Value → Bool
  | nil, nil => true
  | bool left, bool right => left == right
  | number left, number right => left == right
  | string left, string right => left == right
  | native left, native right => left == right
  | function left _, function right _ => left == right
  | classObject left, classObject right => left.identity == right.identity
  | object left _, object right _ => left == right
  | _, _ => false

/-- The number of arguments that a callable value takes. -/
def arity? : Value → Option Nat
  | native _ => some 0
  | function _ closure => some closure.arity
  | classObject origin => some origin.arity
  | _ => none

/-- The text that `print` writes for a value. -/
def display : Value → String
  | nil => "nil"
  | bool value => if value then "true" else "false"
  | number value => NumberText.value value
  | string contents => contents
  | native builtin => "<native fn " ++ builtin.name ++ ">"
  | function _ closure => "<fn " ++ closure.declaration.name.lexeme ++ ">"
  | classObject origin => origin.name
  | object _ origin => origin.name ++ " instance"

end Value

end LoxLang
