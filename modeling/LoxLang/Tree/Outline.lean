import LoxLang.Tree

/-!
# The outline of a program

The outline shows a tree in parenthesised form, operator first, one line for each top-level
statement. Names and operators appear as their lexemes, strings without quotes and numbers as
`NumberText.literal` writes them.
-/

namespace LoxLang

/-- A list in parentheses: its head, then each part behind one space. -/
def parenthesized (head : String) (parts : List String) : String :=
  "(" ++ parts.foldl (fun text part => text ++ " " ++ part) head ++ ")"

/-- The outline of a constant. -/
def Literal.outline : Literal → String
  | number value => NumberText.literal value
  | string contents => contents
  | bool value => if value then "true" else "false"
  | nil => "nil"

mutual

/-- The outline of an expression. -/
def Expr.outline : Expr → String
  | .literal value => value.outline
  | .grouping inner => parenthesized "group" [inner.outline]
  | .unary operator operand => parenthesized operator.lexeme [operand.outline]
  | .binary left operator right => parenthesized operator.lexeme [left.outline, right.outline]
  | .logical left operator right => parenthesized operator.lexeme [left.outline, right.outline]
  | .reference _ name => name.lexeme
  | .assign _ name value => parenthesized "=" [name.lexeme, value.outline]
  | .call callee _ arguments => parenthesized "call" (callee.outline :: Expr.outlines arguments)
  | .get object name => parenthesized "." [object.outline, name.lexeme]
  | .set object name value =>
    parenthesized "=" [parenthesized "." [object.outline, name.lexeme], value.outline]
  | .this _ _ => "this"
  | .super _ _ method => parenthesized "super" [method.lexeme]

/-- The outlines of several expressions, in order. -/
def Expr.outlines : List Expr → List String
  | [] => []
  | first :: rest => first.outline :: Expr.outlines rest

end

/-- The outline of an optional expression: nothing if there is none. -/
def Expr.optionalOutline : Option Expr → List String
  | none => []
  | some value => [value.outline]

mutual

/-- The outline of a statement. -/
def Stmt.outline : Stmt → String
  | .expression value => parenthesized ";" [value.outline]
  | .print _ value => parenthesized "print" [value.outline]
  | .declare name initializer =>
    parenthesized "var" (name.lexeme :: Expr.optionalOutline initializer)
  | .block body => parenthesized "block" (Stmt.outlines body)
  | .branch condition whenTrue none =>
    parenthesized "if" [condition.outline, whenTrue.outline]
  | .branch condition whenTrue (some whenFalse) =>
    parenthesized "if" [condition.outline, whenTrue.outline, whenFalse.outline]
  | .loop condition body => parenthesized "while" [condition.outline, body.outline]
  | .function declaration => declaration.outline "fun"
  | .return _ value => parenthesized "return" (Expr.optionalOutline value)
  | .class name superclass methods =>
    let heading := match superclass with
      | none => [name.lexeme]
      | some parent => [name.lexeme, "<", parent.outline]
    parenthesized "class" (heading ++ FunctionDecl.outlines methods)

/-- The outlines of several statements, in order. -/
def Stmt.outlines : List Stmt → List String
  | [] => []
  | first :: rest => first.outline :: Stmt.outlines rest

/-- The outline of a function declaration under a label. -/
def FunctionDecl.outline (label : String) : FunctionDecl → String
  | .mk name parameters body =>
    parenthesized label
      [name.lexeme ++ "(" ++ " ".intercalate (parameters.map Token.lexeme) ++ ")",
        parenthesized "block" (Stmt.outlines body)]

/-- The outlines of the methods of a class, in order. -/
def FunctionDecl.outlines : List FunctionDecl → List String
  | [] => []
  | first :: rest => first.outline "method" :: FunctionDecl.outlines rest

end

/-- The outline of a program: one line for each statement. -/
def outlineProgram (program : List Stmt) : String :=
  "\n".intercalate (program.map Stmt.outline)

end LoxLang
