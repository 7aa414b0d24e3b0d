import LoxLang.Diagnostic

/-!
# Grammar violations

The causes for which the parser refuses tokens, with one wording each. An `Expectation` names what
had to stand at a place; the other causes leave the parser in a known state and are reported
without giving the statement up.
-/

namespace LoxLang

/-- A routine is declared by `fun` or inside a class body. -/
inductive RoutineKind where
  | function
  | method
deriving DecidableEq, Repr

/-- How messages call a routine. -/
def RoutineKind.label : RoutineKind → String
  | function => "function"
  | method => "method"

/-- What the grammar asks for at a place. -/
inductive Expectation where
  | expression
  | groupEnd
  | argumentsEnd
  | propertyName
  | superDot
  | superMethodName
  | expressionEnd
  | printEnd
  | returnEnd
  | variableName
  | declarationEnd
  | forOpening
  | forConditionEnd
  | forClausesEnd
  | ifOpening
  | ifConditionEnd
  | whileOpening
  | whileConditionEnd
  | blockEnd
  | className
  | superclassName
  | classBodyOpening
  | classBodyEnd
  | routineName (kind : RoutineKind)
  | parametersOpening (kind : RoutineKind)
  | parameterName
  | parametersEnd
  | routineBodyOpening (kind : RoutineKind)
deriving DecidableEq, Repr

/-- The wording of an unmet expectation. -/
def Expectation.message : Expectation → String
  | expression => "Expect expression."
  | groupEnd => "Expect ')' after expression."
  | argumentsEnd => "Expect ')' after arguments."
  | propertyName => "Expect property name after '.'."
  | superDot => "Expect '.' after 'super'."
  | superMethodName => "Expect superclass method name."
  | expressionEnd => "Expect ';' after expression."
  | printEnd => "Expect ';' after value."
  | returnEnd => "Expect ';' after return value."
  | variableName => "Expect variable name."
  | declarationEnd => "Expect ';' after variable declaration."
  | forOpening => "Expect '(' after 'for'."
  | forConditionEnd => "Expect ';' after loop condition."
  | forClausesEnd => "Expect ')' after for clauses."
  | ifOpening => "Expect '(' after 'if'."
  | ifConditionEnd => "Expect ')' after if condition."
  | whileOpening => "Expect '(' after 'while'."
  | whileConditionEnd => "Expect ')' after condition."
  | blockEnd => "Expect '\x7d' after block."
  | className => "Expect class name."
  | superclassName => "Expect superclass name."
  | classBodyOpening => "Expect '\x7b' before class body."
  | classBodyEnd => "Expect '\x7d' after class body."
  | routineName kind => "Expect " ++ kind.label ++ " name."
  | parametersOpening kind => "Expect '(' after " ++ kind.label ++ " name."
  | parameterName => "Expect parameter name."
  | parametersEnd => "Expect ')' after parameters."
  | routineBodyOpening kind => "Expect '\x7b' before " ++ kind.label ++ " body."

/-- The most parameters or arguments that a list may have. -/
def maxListLength : Nat := 255

/-- Why the parser refuses tokens. -/
inductive ParseFault where
  | expected (expectation : Expectation)
  | tooManyParameters
  | tooManyArguments
  | invalidAssignmentTarget
deriving DecidableEq, Repr

/-- The wording of a grammar violation. -/
def ParseFault.message : ParseFault → String
  | expected expectation => expectation.message
  | tooManyParameters => "Can't have more than " ++ naturalText maxListLength ++ " parameters."
  | tooManyArguments => "Can't have more than " ++ naturalText maxListLength ++ " arguments."
  | invalidAssignmentTarget => "Invalid assignment target."

/-- A grammar violation at a token. -/
structure ParseError where
  token : Token
  fault : ParseFault
deriving DecidableEq, Repr

/-- The diagnostic of a grammar violation. -/
def ParseError.diagnostic (error : ParseError) : Diagnostic :=
  .onToken .parse error.token error.fault.message

end LoxLang
