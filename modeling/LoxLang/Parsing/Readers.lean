import LoxLang.Parsing.Cursor
import LoxLang.Tree

/-!
# Readers that call each other

The readers of expressions and statements nest in each other without a bound that their own text
shows. `Readers` puts them into one record; every reader is written over such a record, and calls
the others through it. Tying the knot is left to `readers`, which bounds how deep they nest.
-/

namespace LoxLang

/-- The levels of binary operators, from the loosest to the tightest. -/
inductive Level where
  | disjunction
  | conjunction
  | equality
  | comparison
  | sum
  | product
deriving DecidableEq, Repr

namespace Level

/-- The next tighter level; below products stand prefix operators. -/
def tighter? : Level → Option Level
  | disjunction => some conjunction
  | conjunction => some equality
  | equality => some comparison
  | comparison => some sum
  | sum => some product
  | product => none

/-- The operators of a level. -/
def operators : Level → List Kind
  | disjunction => [.keyword .orWord]
  | conjunction => [.keyword .andWord]
  | equality => [.symbol .bangEqual, .symbol .equalEqual]
  | comparison => [.symbol .greater, .symbol .greaterEqual, .symbol .less, .symbol .lessEqual]
  | sum => [.symbol .minus, .symbol .plus]
  | product => [.symbol .star, .symbol .slash]

/-- The tree of an operator of a level: the two loosest levels decide before they evaluate their
right side. -/
def combine : Level → Expr → Token → Expr → Expr
  | disjunction => .logical
  | conjunction => .logical
  | _ => .binary

end Level

/-- The readers that call each other. -/
@[ext]
structure Readers where
  /-- An expression: an assignment or anything tighter. -/
  expression : Parse Expr
  /-- Operands of a level with the level's operators between them. -/
  chain : Level → Parse Expr
  /-- The operators and operands of a level behind a first operand. -/
  chainRest : Level → Expr → Parse Expr
  /-- A prefix operator and its operand, or a call. -/
  unary : Parse Expr
  /-- The argument lists and property accesses behind an expression. -/
  accesses : Expr → Parse Expr
  /-- Arguments behind as many others. -/
  arguments : Nat → Parse (List Expr)
  /-- A literal, a name, `this`, a method of `super`, or an expression in parentheses. -/
  primary : Parse Expr
  /-- Parameters behind as many others. -/
  parameters : Nat → Parse (List Token)
  /-- The methods of a class up to its closing brace, each by the same reader. -/
  methods : Parse FunctionDecl → Parse (List FunctionDecl)
  /-- A declaration or a statement. -/
  declaration : Parse Stmt
  /-- A statement that declares nothing. -/
  statement : Parse Stmt
  /-- The rest of a block, behind its opening brace. -/
  block : Parse (List Stmt)
  /-- Declarations up to the end of the tokens. -/
  program : Parse (List Stmt)

namespace Readers

/-- Readers that have no room left: each refuses what it would read next. A program that cannot be
read any further ends. -/
def exhausted : Readers where
  expression := .refuse .expression
  chain _ := .refuse .expression
  chainRest _ _ := .refuse .expression
  unary := .refuse .expression
  accesses _ := .refuse .expression
  arguments _ := .refuse .expression
  primary := .refuse .expression
  parameters _ := .refuse .parameterName
  methods _ := .refuse .classBodyEnd
  declaration := .refuse .expression
  statement := .refuse .expression
  block := .refuse .blockEnd
  program := return []

/-- The same readers, made when one of them is called. -/
def delayed (inner : Thunk Readers) : Readers where
  expression cursor := inner.get.expression cursor
  chain level cursor := inner.get.chain level cursor
  chainRest level left cursor := inner.get.chainRest level left cursor
  unary cursor := inner.get.unary cursor
  accesses object cursor := inner.get.accesses object cursor
  arguments count cursor := inner.get.arguments count cursor
  primary cursor := inner.get.primary cursor
  parameters count cursor := inner.get.parameters count cursor
  methods method cursor := inner.get.methods method cursor
  declaration cursor := inner.get.declaration cursor
  statement cursor := inner.get.statement cursor
  block cursor := inner.get.block cursor
  program cursor := inner.get.program cursor

end Readers

end LoxLang
