import LoxLang.Tree

/-!
# Equality of trees

Trees nest in lists, where no handler derives their equality. `same` compares two of them part by
part, which is enough to decide whether they are equal.
-/

namespace LoxLang

mutual

/-- Two expressions have the same parts throughout. -/
def Expr.same : Expr → Expr → Bool
  | .literal value, .literal other => decide (value = other)
  | .grouping inner, .grouping other => inner.same other
  | .unary operator operand, .unary otherOperator other =>
    decide (operator = otherOperator) && operand.same other
  | .binary left operator right, .binary otherLeft otherOperator otherRight =>
    left.same otherLeft && decide (operator = otherOperator) && right.same otherRight
  | .logical left operator right, .logical otherLeft otherOperator otherRight =>
    left.same otherLeft && decide (operator = otherOperator) && right.same otherRight
  | .reference id name, .reference otherId other => decide (id = otherId ∧ name = other)
  | .assign id name value, .assign otherId otherName other =>
    decide (id = otherId ∧ name = otherName) && value.same other
  | .call callee paren arguments, .call otherCallee otherParen others =>
    callee.same otherCallee && decide (paren = otherParen) && Expr.sameAll arguments others
  | .get object name, .get otherObject other => object.same otherObject && decide (name = other)
  | .set object name value, .set otherObject otherName other =>
    object.same otherObject && decide (name = otherName) && value.same other
  | .this id keyword, .this otherId other => decide (id = otherId ∧ keyword = other)
  | .super id keyword method, .super otherId otherKeyword other =>
    decide (id = otherId ∧ keyword = otherKeyword ∧ method = other)
  | _, _ => false

/-- Two lists of expressions have the same parts throughout. -/
def Expr.sameAll : List Expr → List Expr → Bool
  | [], [] => true
  | first :: rest, other :: others => first.same other && Expr.sameAll rest others
  | _, _ => false

end

mutual

/-- Expressions with the same parts throughout are equal. -/
theorem Expr.same_iff : ∀ expression other : Expr, expression.same other = true ↔ expression = other
  | .literal _, other | .reference _ _, other | .this _ _, other | .super _ _ _, other => by
    cases other <;> simp [Expr.same]
  | .grouping inner, other => by
    cases other <;> simp [Expr.same, inner.same_iff]
  | .unary _ operand, other => by
    cases other <;> simp [Expr.same, operand.same_iff]
  | .binary left _ right, other | .logical left _ right, other | .set left _ right, other => by
    cases other <;> simp [Expr.same, left.same_iff, right.same_iff, and_assoc]
  | .assign _ _ value, other => by
    cases other <;> simp [Expr.same, value.same_iff, and_assoc]
  | .call callee _ arguments, other => by
    cases other <;> simp [Expr.same, callee.same_iff, Expr.sameAll_iff arguments, and_assoc]
  | .get object _, other => by
    cases other <;> simp [Expr.same, object.same_iff]

/-- The test of lists of expressions tells whether they are equal. -/
theorem Expr.sameAll_iff : ∀ expressions others : List Expr,
    Expr.sameAll expressions others = true ↔ expressions = others
  | [], others => by cases others <;> simp [Expr.sameAll]
  | first :: rest, others => by
    cases others <;> simp [Expr.sameAll, first.same_iff, Expr.sameAll_iff rest]

end

instance : DecidableEq Expr := fun expression other =>
  decidable_of_iff (expression.same other = true) (expression.same_iff other)

mutual

/-- Two statements have the same parts throughout. -/
def Stmt.same : Stmt → Stmt → Bool
  | .expression value, .expression other => decide (value = other)
  | .print keyword value, .print otherKeyword other =>
    decide (keyword = otherKeyword ∧ value = other)
  | .declare name initializer, .declare otherName other =>
    decide (name = otherName ∧ initializer = other)
  | .block body, .block other => Stmt.sameAll body other
  | .branch condition whenTrue none, .branch otherCondition otherTrue none =>
    decide (condition = otherCondition) && whenTrue.same otherTrue
  | .branch condition whenTrue (some whenFalse), .branch otherCondition otherTrue (some other) =>
    decide (condition = otherCondition) && whenTrue.same otherTrue && whenFalse.same other
  | .loop condition body, .loop otherCondition other =>
    decide (condition = otherCondition) && body.same other
  | .function declaration, .function other => declaration.same other
  | .return keyword value, .return otherKeyword other =>
    decide (keyword = otherKeyword ∧ value = other)
  | .class name superclass methods, .class otherName otherSuperclass others =>
    decide (name = otherName ∧ superclass = otherSuperclass) &&
      FunctionDecl.sameAll methods others
  | _, _ => false

/-- Two lists of statements have the same parts throughout. -/
def Stmt.sameAll : List Stmt → List Stmt → Bool
  | [], [] => true
  | first :: rest, other :: others => first.same other && Stmt.sameAll rest others
  | _, _ => false

/-- Two functions have the same parts throughout. -/
def FunctionDecl.same : FunctionDecl → FunctionDecl → Bool
  | .mk name parameters body, .mk otherName others otherBody =>
    decide (name = otherName ∧ parameters = others) && Stmt.sameAll body otherBody

/-- Two lists of functions have the same parts throughout. -/
def FunctionDecl.sameAll : List FunctionDecl → List FunctionDecl → Bool
  | [], [] => true
  | first :: rest, other :: others => first.same other && FunctionDecl.sameAll rest others
  | _, _ => false

end

mutual

/-- Statements with the same parts throughout are equal. -/
theorem Stmt.same_iff : ∀ statement other : Stmt, statement.same other = true ↔ statement = other
  | .expression _, other | .print _ _, other | .declare _ _, other | .return _ _, other => by
    cases other <;> simp [Stmt.same]
  | .block body, other => by
    cases other <;> simp [Stmt.same, Stmt.sameAll_iff body]
  | .branch _ whenTrue none, other => by
    cases other with
    | branch _ _ whenFalse => cases whenFalse <;> simp [Stmt.same, whenTrue.same_iff]
    | _ => simp [Stmt.same]
  | .branch _ whenTrue (some whenFalse), other => by
    cases other with
    | branch _ _ otherFalse =>
      cases otherFalse <;> simp [Stmt.same, whenTrue.same_iff, whenFalse.same_iff, and_assoc]
    | _ => simp [Stmt.same]
  | .loop _ body, other => by
    cases other <;> simp [Stmt.same, body.same_iff]
  | .function declaration, other => by
    cases other <;> simp [Stmt.same, declaration.same_iff]
  | .class _ _ methods, other => by
    cases other <;> simp [Stmt.same, FunctionDecl.sameAll_iff methods, and_assoc]

/-- The test of lists of statements tells whether they are equal. -/
theorem Stmt.sameAll_iff : ∀ statements others : List Stmt,
    Stmt.sameAll statements others = true ↔ statements = others
  | [], others => by cases others <;> simp [Stmt.sameAll]
  | first :: rest, others => by
    cases others <;> simp [Stmt.sameAll, first.same_iff, Stmt.sameAll_iff rest]

/-- The test of functions tells whether they are equal. -/
theorem FunctionDecl.same_iff : ∀ declaration other : FunctionDecl,
    declaration.same other = true ↔ declaration = other
  | .mk _ _ body, .mk _ _ _ => by
    simp [FunctionDecl.same, Stmt.sameAll_iff body, and_assoc]

/-- The test of lists of functions tells whether they are equal. -/
theorem FunctionDecl.sameAll_iff : ∀ declarations others : List FunctionDecl,
    FunctionDecl.sameAll declarations others = true ↔ declarations = others
  | [], others => by cases others <;> simp [FunctionDecl.sameAll]
  | first :: rest, others => by
    cases others <;> simp [FunctionDecl.sameAll, first.same_iff, FunctionDecl.sameAll_iff rest]

end

instance : DecidableEq Stmt := fun statement other =>
  decidable_of_iff (statement.same other = true) (statement.same_iff other)

end LoxLang
