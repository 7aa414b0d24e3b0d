import LoxLang.Diagnostic

/-!
# Violations of the static rules

What scope resolution refuses in a program that the grammar accepts, with one wording each.
-/

namespace LoxLang

/-- A static rule that a program breaks. -/
inductive Violation where
  | redeclaration
  | returnOutsideFunction
  | valueFromInitializer
  | selfInheritance
  | thisOutsideClass
  | superOutsideClass
  | superWithoutSuperclass
deriving DecidableEq, Repr

/-- The wording of a violation. -/
def Violation.message : Violation → String
  | redeclaration => "Already a variable with this name in this scope."
  | returnOutsideFunction => "Can't return from top-level code."
  | valueFromInitializer => "Can't return a value from an initializer."
  | selfInheritance => "A class can't inherit from itself."
  | thisOutsideClass => "Can't use 'this' outside of a class."
  | superOutsideClass => "Can't use 'super' outside of a class."
  | superWithoutSuperclass => "Can't use 'super' in a class with no superclass."

/-- A violation at a token. -/
structure ResolveError where
  token : Token
  violation : Violation
deriving DecidableEq, Repr

/-- The diagnostic of a violation. -/
def ResolveError.diagnostic (error : ResolveError) : Diagnostic :=
  .onToken .resolve error.token error.violation.message

end LoxLang
