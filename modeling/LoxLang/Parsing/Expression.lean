import LoxLang.Parsing.Readers

/-!
# Reading expressions

From the loosest to the tightest: assignment, `or`, `and`, equality, comparison, sums, products,
prefix operators, calls and property accesses, primary expressions. Binary operators of one level
associate to the left, assignment to the right.
-/

namespace LoxLang

namespace Parse

/-- Read the target of an assignment again as what it stores to; any other expression is no target
and stays as it is. -/
def assignTo (target : Expr) (equals : Token) (value : Expr) : Parse Expr :=
  match target with
  | .reference id name => return .assign id name value
  | .get object name => return .set object name value
  | other => do
    report { token := equals, fault := .invalidAssignmentTarget }
    return other

/-- Step over the token at the cursor if it is one of the operators of a level. -/
def acceptOperator? (level : Level) : Parse (Option Token) := do
  let token ← current
  if level.operators.contains token.kind then
    advance
    return some token
  else return none

/-- Step over the token at the cursor if it is a prefix operator. -/
def acceptPrefixOperator? : Parse (Option Token) := do
  match ← accept? (.symbol .bang) with
  | some token => return some token
  | none => accept? (.symbol .minus)

/-- `super`, a point and the name of a method, behind the keyword. -/
def superAccess (keyword : Token) : Parse Expr := do
  let _ ← expect (.symbol .dot) .superDot
  let method ← expect .identifier .superMethodName
  return .super (← freshId) keyword method

end Parse

namespace Readers

open Parse

variable (inner : Readers)

/-- An operand of a level: operators of the next tighter level, or a prefix operator. -/
def operand (level : Level) : Parse Expr :=
  match level.tighter? with
  | some tighter => inner.chain tighter
  | none => inner.unary

/-- An assignment, or an expression that is none. -/
def assignment : Parse Expr := do
  let target ← inner.chain .disjunction
  match ← accept? (.symbol .equal) with
  | none => return target
  | some equals =>
    let value ← inner.expression
    assignTo target equals value

/-- The operands of a level. -/
def operands (level : Level) : Parse Expr := do
  let first ← inner.operand level
  inner.chainRest level first

/-- The operands of a level behind a first one. -/
def operandsBehind (level : Level) (left : Expr) : Parse Expr := do
  match ← acceptOperator? level with
  | none => return left
  | some operator =>
    let right ← inner.operand level
    inner.chainRest level (level.combine left operator right)

/-- A prefix operator and its operand, or a call. -/
def prefixed : Parse Expr := do
  match ← acceptPrefixOperator? with
  | some operator => return .unary operator (← inner.unary)
  | none =>
    let callee ← inner.primary
    inner.accesses callee

/-- The argument lists and property accesses behind an expression. -/
def accessed (object : Expr) : Parse Expr := do
  match (← current).kind with
  | .symbol .leftParen =>
    advance
    let arguments ← if ← check (.symbol .rightParen) then pure [] else inner.arguments 0
    let paren ← expect (.symbol .rightParen) .argumentsEnd
    inner.accesses (.call object paren arguments)
  | .symbol .dot =>
    advance
    let name ← expect .identifier .propertyName
    inner.accesses (.get object name)
  | _ => return object

/-- Arguments behind `count` others; a comma may follow the last one. -/
def argumentList (count : Nat) : Parse (List Expr) := do
  if maxListLength ≤ count then
    report { token := ← current, fault := .tooManyArguments }
  let first ← inner.expression
  match ← accept? (.symbol .comma) with
  | none => return [first]
  | some _ =>
    if ← check (.symbol .rightParen) then return [first]
    else return first :: (← inner.arguments (count + 1))

/-- A literal, a name, `this`, a method of `super`, or an expression in parentheses. -/
def atom : Parse Expr := do
  let token ← current
  match token.kind with
  | .keyword .falseWord => advance; return .literal (.bool false)
  | .keyword .trueWord => advance; return .literal (.bool true)
  | .keyword .nilWord => advance; return .literal .nil
  | .number value => advance; return .literal (.number value)
  | .string contents => advance; return .literal (.string contents)
  | .keyword .thisWord => advance; return .this (← freshId) token
  | .keyword .superWord => advance; superAccess token
  | .identifier => advance; return .reference (← freshId) token
  | .symbol .leftParen =>
    advance
    let value ← inner.expression
    let _ ← expect (.symbol .rightParen) .groupEnd
    return .grouping value
  | _ => refuse .expression

end Readers

end LoxLang
