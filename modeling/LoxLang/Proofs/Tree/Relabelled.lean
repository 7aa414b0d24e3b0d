import LoxLang.Tree
import Mathlib.Logic.Basic

/-!
# Relabelled trees

The shape of a tree may stay while the labels in it change: the identities of its occurrences and
its tokens. `Relabelling` says what becomes of both, and `relabelled` applies it throughout. Trees
further down in a text, trees without identities and trees without places are all made this way.
-/

namespace LoxLang

/-- What becomes of the labels in a tree. -/
structure Relabelling where
  id : Nat → Nat
  token : Token → Token

namespace Relabelling

/-- Every label stays. -/
def none : Relabelling :=
  { id := fun id => id, token := fun token => token }

end Relabelling

mutual

/-- The same expression with other labels. -/
@[simp] def Expr.relabelled (change : Relabelling) : Expr → Expr
  | .literal value => .literal value
  | .grouping inner => .grouping (inner.relabelled change)
  | .unary operator operand => .unary (change.token operator) (operand.relabelled change)
  | .binary left operator right =>
    .binary (left.relabelled change) (change.token operator) (right.relabelled change)
  | .logical left operator right =>
    .logical (left.relabelled change) (change.token operator) (right.relabelled change)
  | .reference id name => .reference (change.id id) (change.token name)
  | .assign id name value =>
    .assign (change.id id) (change.token name) (value.relabelled change)
  | .call callee paren arguments =>
    .call (callee.relabelled change) (change.token paren) (Expr.relabelledAll change arguments)
  | .get object name => .get (object.relabelled change) (change.token name)
  | .set object name value =>
    .set (object.relabelled change) (change.token name) (value.relabelled change)
  | .this id keyword => .this (change.id id) (change.token keyword)
  | .super id keyword method =>
    .super (change.id id) (change.token keyword) (change.token method)

/-- The same expressions with other labels. -/
@[simp] def Expr.relabelledAll (change : Relabelling) : List Expr → List Expr
  | [] => []
  | first :: rest => first.relabelled change :: Expr.relabelledAll change rest

end

mutual

/-- The same statement with other labels. -/
@[simp] def Stmt.relabelled (change : Relabelling) : Stmt → Stmt
  | .expression value => .expression (value.relabelled change)
  | .print keyword value => .print (change.token keyword) (value.relabelled change)
  | .declare name initializer =>
    .declare (change.token name) (initializer.map (Expr.relabelled change))
  | .block body => .block (Stmt.relabelledAll change body)
  | .branch condition whenTrue none =>
    .branch (condition.relabelled change) (whenTrue.relabelled change) none
  | .branch condition whenTrue (some whenFalse) =>
    .branch (condition.relabelled change) (whenTrue.relabelled change)
      (some (whenFalse.relabelled change))
  | .loop condition body => .loop (condition.relabelled change) (body.relabelled change)
  | .function declaration => .function (declaration.relabelled change)
  | .return keyword value =>
    .return (change.token keyword) (value.map (Expr.relabelled change))
  | .class name superclass methods =>
    .class (change.token name) (superclass.map (Expr.relabelled change))
      (FunctionDecl.relabelledAll change methods)

/-- The same statements with other labels. -/
@[simp] def Stmt.relabelledAll (change : Relabelling) : List Stmt → List Stmt
  | [] => []
  | first :: rest => first.relabelled change :: Stmt.relabelledAll change rest

/-- The same function with other labels. -/
@[simp] def FunctionDecl.relabelled (change : Relabelling) : FunctionDecl → FunctionDecl
  | .mk name parameters body =>
    .mk (change.token name) (parameters.map change.token) (Stmt.relabelledAll change body)

/-- The same functions with other labels. -/
@[simp] def FunctionDecl.relabelledAll (change : Relabelling) :
    List FunctionDecl → List FunctionDecl
  | [] => []
  | first :: rest => first.relabelled change :: FunctionDecl.relabelledAll change rest

end

variable {change : Relabelling}

@[simp] theorem FunctionDecl.relabelled_name (declaration : FunctionDecl) :
    (declaration.relabelled change).name = change.token declaration.name := by
  cases declaration
  rfl

@[simp] theorem FunctionDecl.relabelled_parameters (declaration : FunctionDecl) :
    (declaration.relabelled change).parameters = declaration.parameters.map change.token := by
  cases declaration
  rfl

@[simp] theorem FunctionDecl.relabelled_body (declaration : FunctionDecl) :
    (declaration.relabelled change).body = Stmt.relabelledAll change declaration.body := by
  cases declaration
  rfl

/-- Functions are relabelled one by one. -/
theorem FunctionDecl.relabelledAll_eq_map (declarations : List FunctionDecl) :
    FunctionDecl.relabelledAll change declarations =
      declarations.map (FunctionDecl.relabelled change) := by
  induction declarations with
  | nil => rfl
  | cons first rest inductionHypothesis =>
    rw [relabelledAll, inductionHypothesis, List.map_cons]

mutual

/-- An expression whose labels all stay is the same. -/
theorem Expr.relabelled_none : ∀ expression : Expr, expression.relabelled .none = expression
  | .literal _ | .reference _ _ | .this _ _ | .super _ _ _ => rfl
  | .grouping inner => congrArg Expr.grouping inner.relabelled_none
  | .unary operator operand => congrArg (Expr.unary operator) operand.relabelled_none
  | .binary left operator right =>
    congrArg₂ (Expr.binary · operator ·) left.relabelled_none right.relabelled_none
  | .logical left operator right =>
    congrArg₂ (Expr.logical · operator ·) left.relabelled_none right.relabelled_none
  | .assign id name value => congrArg (Expr.assign id name) value.relabelled_none
  | .call callee paren arguments =>
    congrArg₂ (Expr.call · paren ·) callee.relabelled_none (Expr.relabelledAll_none arguments)
  | .get object name => congrArg (Expr.get · name) object.relabelled_none
  | .set object name value =>
    congrArg₂ (Expr.set · name ·) object.relabelled_none value.relabelled_none

/-- So are several of them. -/
theorem Expr.relabelledAll_none : ∀ expressions : List Expr,
    Expr.relabelledAll .none expressions = expressions
  | [] => rfl
  | first :: rest => congrArg₂ List.cons first.relabelled_none (Expr.relabelledAll_none rest)

end

/-- So is one that may be absent. -/
theorem Expr.map_relabelled_none (value : Option Expr) :
    value.map (Expr.relabelled .none) = value := by
  cases value with
  | none => rfl
  | some value => rw [Option.map_some, value.relabelled_none]

mutual

/-- A statement whose labels all stay is the same. -/
theorem Stmt.relabelled_none : ∀ statement : Stmt, statement.relabelled .none = statement
  | .expression value => congrArg Stmt.expression value.relabelled_none
  | .print keyword value => congrArg (Stmt.print keyword) value.relabelled_none
  | .declare name initializer =>
    congrArg (Stmt.declare name) (Expr.map_relabelled_none initializer)
  | .block body => congrArg Stmt.block (Stmt.relabelledAll_none body)
  | .branch condition whenTrue none =>
    congrArg₂ (Stmt.branch · · .none) condition.relabelled_none whenTrue.relabelled_none
  | .branch condition whenTrue (some whenFalse) => by
    rw [Stmt.relabelled, condition.relabelled_none, whenTrue.relabelled_none,
      whenFalse.relabelled_none]
  | .loop condition body =>
    congrArg₂ Stmt.loop condition.relabelled_none body.relabelled_none
  | .function declaration => congrArg Stmt.function declaration.relabelled_none
  | .return keyword value => congrArg (Stmt.return keyword) (Expr.map_relabelled_none value)
  | .class name superclass methods =>
    congrArg₂ (Stmt.class name · ·) (Expr.map_relabelled_none superclass)
      (FunctionDecl.relabelledAll_none methods)

/-- So are several of them. -/
theorem Stmt.relabelledAll_none : ∀ statements : List Stmt,
    Stmt.relabelledAll .none statements = statements
  | [] => rfl
  | first :: rest => congrArg₂ List.cons first.relabelled_none (Stmt.relabelledAll_none rest)

/-- A function whose labels all stay is the same. -/
theorem FunctionDecl.relabelled_none : ∀ declaration : FunctionDecl,
    declaration.relabelled .none = declaration
  | .mk name parameters body =>
    congrArg₂ (FunctionDecl.mk name · ·) (List.map_id' parameters) (Stmt.relabelledAll_none body)

/-- So are several of them. -/
theorem FunctionDecl.relabelledAll_none : ∀ declarations : List FunctionDecl,
    FunctionDecl.relabelledAll .none declarations = declarations
  | [] => rfl
  | first :: rest =>
    congrArg₂ List.cons first.relabelled_none (FunctionDecl.relabelledAll_none rest)

end

end LoxLang
