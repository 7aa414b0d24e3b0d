import LoxLang.Diagnostic

/-!
# Runtime faults

The causes for which a running program stops, with one wording each.
-/

namespace LoxLang

/-- Why a running program stops. -/
inductive RuntimeFault where
  | operandNotNumber
  | operandsNotNumbers
  | operandsNotAddable
  | invalidUnaryOperator
  | invalidBinaryOperator
  | undefinedVariable (name : String)
  | undefinedProperty (name : String)
  | notCallable
  | wrongArgumentCount (expected actual : Nat)
  | stackOverflow
  | noProperties
  | noFields
  | superclassNotClass
  | superUnavailable
  | outputFailed (reason : String)
deriving DecidableEq, Repr

/-- The wording of a runtime fault. -/
def RuntimeFault.message : RuntimeFault → String
  | operandNotNumber => "Operand must be a number."
  | operandsNotNumbers => "Operands must be numbers."
  | operandsNotAddable => "Operands must be two numbers or two strings."
  | invalidUnaryOperator => "Invalid unary operator."
  | invalidBinaryOperator => "Invalid binary operator."
  | undefinedVariable name => "Undefined variable '" ++ name ++ "'."
  | undefinedProperty name => "Undefined property '" ++ name ++ "'."
  | notCallable => "Can only call functions and classes."
  | wrongArgumentCount expected actual =>
    "Expected " ++ naturalText expected ++ " arguments but got " ++ naturalText actual ++ "."
  | stackOverflow => "Stack overflow."
  | noProperties => "Only instances have properties."
  | noFields => "Only instances have fields."
  | superclassNotClass => "Superclass must be a class."
  | superUnavailable => "Can't use 'super' here."
  | outputFailed reason => "Could not write output: " ++ reason

/-- A runtime fault at a token. -/
structure RuntimeError where
  token : Token
  fault : RuntimeFault
deriving DecidableEq, Repr

/-- The diagnostic of a runtime fault. -/
def RuntimeError.diagnostic (error : RuntimeError) : Diagnostic :=
  .onToken .runtime error.token error.fault.message

/-- A name that no visible frame binds. -/
def RuntimeError.undefined (name : Token) : RuntimeError :=
  { token := name, fault := .undefinedVariable name.lexeme }

end LoxLang
