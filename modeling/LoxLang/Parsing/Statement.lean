import LoxLang.Parsing.Expression

/-!
# Reading statements

A violation gives up one declaration: `recovering` reports it and moves to the next statement
boundary, where reading goes on. `parse` reads a whole token list; it keeps every statement that
could be read and every violation, in order.
-/

namespace LoxLang

/-- The reserved words at which reading resumes after a violation. -/
def Kind.startsStatement : Kind → Bool
  | .keyword .classWord => true
  | .keyword .funWord => true
  | .keyword .varWord => true
  | .keyword .forWord => true
  | .keyword .ifWord => true
  | .keyword .whileWord => true
  | .keyword .printWord => true
  | .keyword .returnWord => true
  | _ => false

/-- Where reading resumes: one token is dropped in any case, then all up to a semicolon, which is
dropped too, or up to a word that starts a statement, which is kept. -/
def resumption : List Token → List Token
  | [] => []
  | dropped :: rest =>
    if dropped.kind = .symbol .semicolon then rest
    else
      match rest with
      | [] => []
      | next :: _ => if next.kind.startsStatement then rest else resumption rest

namespace Parse

/-- Read a statement; on a violation report it and move to where reading resumes. -/
def recovering (statement : Parse Stmt) (cursor : Cursor) : Option Stmt × Cursor :=
  match statement cursor with
  | .read result after => (some result, after)
  | .refused error after =>
    (none, { after.report error with remaining := resumption after.remaining })

/-- A semicolon. -/
def semicolon (expectation : Expectation) : Parse Unit := do
  let _ ← expect (.symbol .semicolon) expectation

/-- A `for` loop is a block that holds the first clause and a loop; the third clause runs after the
body, and a missing condition is always true. -/
def forLoop (initializer : Option Stmt) (test : Option Expr) (increment : Option Expr)
    (body : Stmt) : Stmt :=
  let repeated := match increment with
    | none => body
    | some step => .block [body, .expression step]
  .block (initializer.toList ++ [.loop (test.getD (.literal (.bool true))) repeated])

/-- The superclass of a class, if it names one. -/
def superclass? : Parse (Option Expr) := do
  match ← accept? (.symbol .less) with
  | none => return none
  | some _ =>
    let name ← expect .identifier .superclassName
    return some (.reference (← freshId) name)

end Parse

namespace Readers

open Parse

variable (inner : Readers)

/-- An expression, unless a token of the closing kind stands at the cursor. -/
def expressionUnless (closing : Kind) : Parse (Option Expr) := do
  if ← check closing then return none else return some (← inner.expression)

/-- An expression and its semicolon. -/
def expressionStatement : Parse Stmt := do
  let value ← inner.expression
  semicolon .expressionEnd
  return .expression value

/-- The rest of a variable declaration, behind the keyword. -/
def variableDeclaration : Parse Stmt := do
  let name ← expect .identifier .variableName
  let initializer ← match ← accept? (.symbol .equal) with
    | none => pure none
    | some _ => some <$> inner.expression
  semicolon .declarationEnd
  return .declare name initializer

/-- The rest of a `print` statement, behind the keyword. -/
def printStatement (keyword : Token) : Parse Stmt := do
  let value ← inner.expression
  semicolon .printEnd
  return .print keyword value

/-- The rest of a `return` statement, behind the keyword. -/
def returnStatement (keyword : Token) : Parse Stmt := do
  let value ← inner.expressionUnless (.symbol .semicolon)
  semicolon .returnEnd
  return .return keyword value

/-- A condition in parentheses. -/
def condition (opening closing : Expectation) : Parse Expr := do
  let _ ← expect (.symbol .leftParen) opening
  let value ← inner.expression
  let _ ← expect (.symbol .rightParen) closing
  return value

/-- The rest of an `if` statement, behind the keyword. -/
def ifStatement : Parse Stmt := do
  let test ← inner.condition .ifOpening .ifConditionEnd
  let whenTrue ← inner.statement
  match ← accept? (.keyword .elseWord) with
  | none => return .branch test whenTrue none
  | some _ => return .branch test whenTrue (some (← inner.statement))

/-- The rest of a `while` statement, behind the keyword. -/
def whileStatement : Parse Stmt := do
  let test ← inner.condition .whileOpening .whileConditionEnd
  return .loop test (← inner.statement)

/-- The first clause of a `for` statement: nothing, a declaration or an expression. -/
def forInitializer : Parse (Option Stmt) := do
  match (← current).kind with
  | .symbol .semicolon => advance; return none
  | .keyword .varWord => advance; some <$> inner.variableDeclaration
  | _ => some <$> inner.expressionStatement

/-- The rest of a `for` statement, behind the keyword. -/
def forStatement : Parse Stmt := do
  let _ ← expect (.symbol .leftParen) .forOpening
  let initializer ← inner.forInitializer
  let test ← inner.expressionUnless (.symbol .semicolon)
  semicolon .forConditionEnd
  let increment ← inner.expressionUnless (.symbol .rightParen)
  let _ ← expect (.symbol .rightParen) .forClausesEnd
  return forLoop initializer test increment (← inner.statement)

/-- Parameters behind `count` others; a comma may follow the last one. -/
def parameterList (count : Nat) : Parse (List Token) := do
  if maxListLength ≤ count then
    report { token := ← current, fault := .tooManyParameters }
  let first ← expect .identifier .parameterName
  match ← accept? (.symbol .comma) with
  | none => return [first]
  | some _ =>
    if ← check (.symbol .rightParen) then return [first]
    else return first :: (← inner.parameters (count + 1))

/-- A function or method from its name to the end of its body. -/
def routine (kind : RoutineKind) : Parse FunctionDecl := do
  let name ← expect .identifier (.routineName kind)
  let _ ← expect (.symbol .leftParen) (.parametersOpening kind)
  let names ← if ← check (.symbol .rightParen) then pure [] else inner.parameters 0
  let _ ← expect (.symbol .rightParen) .parametersEnd
  let _ ← expect (.symbol .leftBrace) (.routineBodyOpening kind)
  return .mk name names (← inner.block)

/-- The methods of a class up to its closing brace. -/
def members (method : Parse FunctionDecl) : Parse (List FunctionDecl) := do
  if (← check (.symbol .rightBrace)) || (← isAtEnd) then return []
  else
    let first ← method
    return first :: (← inner.methods method)

/-- The rest of a class declaration, behind the keyword. -/
def classDeclaration : Parse Stmt := do
  let name ← expect .identifier .className
  let superclass ← superclass?
  let _ ← expect (.symbol .leftBrace) .classBodyOpening
  let members ← inner.methods (inner.routine .method)
  let _ ← expect (.symbol .rightBrace) .classBodyEnd
  return .class name superclass members

/-- A declaration, or a statement that is none. -/
def anyDeclaration : Parse Stmt := do
  match (← current).kind with
  | .keyword .classWord => advance; inner.classDeclaration
  | .keyword .funWord => advance; return .function (← inner.routine .function)
  | .keyword .varWord => advance; inner.variableDeclaration
  | _ => inner.statement

/-- A statement that declares nothing. -/
def anyStatement : Parse Stmt := do
  let token ← current
  match token.kind with
  | .keyword .forWord => advance; inner.forStatement
  | .keyword .ifWord => advance; inner.ifStatement
  | .keyword .printWord => advance; inner.printStatement token
  | .keyword .returnWord => advance; inner.returnStatement token
  | .keyword .whileWord => advance; inner.whileStatement
  | .symbol .leftBrace => advance; return .block (← inner.block)
  | _ => inner.expressionStatement

/-- The rest of a block, behind its opening brace: the declarations that could be read and the
closing brace. -/
def blockRest : Parse (List Stmt) := do
  if (← check (.symbol .rightBrace)) || (← isAtEnd) then
    let _ ← expect (.symbol .rightBrace) .blockEnd
    return []
  else
    let first ← always (recovering inner.declaration)
    let rest ← inner.block
    return first.toList ++ rest

/-- Declarations up to the end of the tokens; those that could not be read are left out. -/
def declarations : Parse (List Stmt) := do
  if ← isAtEnd then return []
  else
    let first ← always (recovering inner.declaration)
    let rest ← inner.program
    return first.toList ++ rest

/-- Readers that nest one level deeper: each is written over the given ones. -/
def unfolded : Readers where
  expression := inner.assignment
  chain := inner.operands
  chainRest := inner.operandsBehind
  unary := inner.prefixed
  accesses := inner.accessed
  arguments := inner.argumentList
  primary := inner.atom
  parameters := inner.parameterList
  methods := inner.members
  declaration := inner.anyDeclaration
  statement := inner.anyStatement
  block := inner.blockRest
  program := inner.declarations

end Readers

/-- The readers that nest at most this deep. Between two tokens they nest only a fixed number of
times, so a bound proportional to the number of tokens is never reached; `parse` supplies it. -/
def readers : Nat → Readers
  | 0 => .exhausted
  | depth + 1 => (Readers.delayed (Thunk.mk fun _ => readers depth)).unfolded

/-- A larger bound is one more level. -/
theorem readers_succ (depth : Nat) : readers (depth + 1) = (readers depth).unfolded :=
  rfl

/-- What reading a token list gives. -/
structure ParseResult where
  statements : List Stmt
  errors : List ParseError
  nextId : Nat

/-- A bound on how deep the readers nest on this many tokens. -/
def parseDepth (tokenCount : Nat) : Nat :=
  32 * (tokenCount + 1)

/-- Read a declaration or a statement with readers of a depth bound. -/
abbrev Parse.declaration (depth : Nat) : Parse Stmt :=
  (readers depth).declaration

/-- Read the declarations of a program with readers of a depth bound. No program is refused; a
refusal would leave nothing of it. -/
def Parse.program (depth : Nat) (cursor : Cursor) : List Stmt × Cursor :=
  match (readers depth).program cursor with
  | .read statements after => (statements, after)
  | .refused _ after => ([], after)

/-- Read a token list as a program; identities are handed out from `firstId` on. -/
def parse (tokens : List Token) (firstId : Nat) : ParseResult :=
  let (statements, cursor) :=
    Parse.program (parseDepth tokens.length) (Cursor.start tokens firstId)
  { statements, errors := cursor.reported, nextId := cursor.nextId }

end LoxLang
