import LoxLang.Proofs.Tree.Relabelled

/-!
# Rendered trees

A tree written back as the tokens of a program. Names, operators and the keywords that a tree keeps
stand as they are; punctuation, the other keywords and constants are made anew on the first line.
Parentheses stand for a grouping, around arguments and parameters and in the heads of statements,
and nowhere else: a tree is not parenthesised to keep its shape. A tree `unnumbered` is the tree
without the identities of its occurrences.
-/

namespace LoxLang

/-- How a symbol is written. -/
def Symbol.spelling : Symbol → String
  | leftParen => "("
  | rightParen => ")"
  | leftBrace => "\x7b"
  | rightBrace => "\x7d"
  | comma => ","
  | dot => "."
  | minus => "-"
  | plus => "+"
  | semicolon => ";"
  | slash => "/"
  | star => "*"
  | bang => "!"
  | bangEqual => "!="
  | equal => "="
  | equalEqual => "=="
  | greater => ">"
  | greaterEqual => ">="
  | less => "<"
  | lessEqual => "<="

namespace Token

/-- A symbol on the first line. -/
def mark (symbol : Symbol) : Token :=
  { kind := .symbol symbol, lexeme := symbol.spelling, line := 1 }

/-- A reserved word on the first line. -/
def word (keyword : Keyword) : Token :=
  { kind := .keyword keyword, lexeme := keyword.spelling, line := 1 }

/-- Names with a comma between them. -/
def separated : List Token → List Token
  | [] => []
  | [last] => [last]
  | first :: others => first :: mark .comma :: separated others

end Token

/-- A constant on the first line. -/
def Literal.token : Literal → Token
  | number value => { kind := .number value, lexeme := NumberText.literal value, line := 1 }
  | string contents => { kind := .string contents, lexeme := "\"" ++ contents ++ "\"", line := 1 }
  | bool true => .word .trueWord
  | bool false => .word .falseWord
  | nil => .word .nilWord

mutual

/-- The tokens of an expression. -/
@[simp] def Expr.rendered : Expr → List Token
  | .literal value => [value.token]
  | .grouping inner => .mark .leftParen :: (inner.rendered ++ [.mark .rightParen])
  | .unary operator operand => operator :: operand.rendered
  | .binary left operator right => left.rendered ++ operator :: right.rendered
  | .logical left operator right => left.rendered ++ operator :: right.rendered
  | .reference _ name => [name]
  | .assign _ name value => name :: .mark .equal :: value.rendered
  | .call callee paren arguments =>
    callee.rendered ++ .mark .leftParen :: (Expr.renderedAll arguments ++ [paren])
  | .get object name => object.rendered ++ [.mark .dot, name]
  | .set object name value =>
    object.rendered ++ .mark .dot :: name :: .mark .equal :: value.rendered
  | .this _ keyword => [keyword]
  | .super _ keyword method => [keyword, .mark .dot, method]

/-- The tokens of several expressions with a comma between them. -/
@[simp] def Expr.renderedAll : List Expr → List Token
  | [] => []
  | [last] => last.rendered
  | first :: second :: others =>
    first.rendered ++ .mark .comma :: Expr.renderedAll (second :: others)

end

mutual

/-- The tokens of a statement. -/
@[simp] def Stmt.rendered : Stmt → List Token
  | .expression value => value.rendered ++ [.mark .semicolon]
  | .print keyword value => keyword :: (value.rendered ++ [.mark .semicolon])
  | .declare name none => [.word .varWord, name, .mark .semicolon]
  | .declare name (some value) =>
    .word .varWord :: name :: .mark .equal :: (value.rendered ++ [.mark .semicolon])
  | .block body => .mark .leftBrace :: (Stmt.renderedAll body ++ [.mark .rightBrace])
  | .branch condition whenTrue none =>
    .word .ifWord :: .mark .leftParen ::
      (condition.rendered ++ .mark .rightParen :: whenTrue.rendered)
  | .branch condition whenTrue (some whenFalse) =>
    .word .ifWord :: .mark .leftParen ::
      (condition.rendered ++ .mark .rightParen ::
        (whenTrue.rendered ++ .word .elseWord :: whenFalse.rendered))
  | .loop condition body =>
    .word .whileWord :: .mark .leftParen ::
      (condition.rendered ++ .mark .rightParen :: body.rendered)
  | .function declaration => .word .funWord :: declaration.rendered
  | .return keyword none => [keyword, .mark .semicolon]
  | .return keyword (some value) => keyword :: (value.rendered ++ [.mark .semicolon])
  | .class name none methods =>
    .word .classWord :: name :: .mark .leftBrace ::
      (FunctionDecl.renderedAll methods ++ [.mark .rightBrace])
  | .class name (some superclass) methods =>
    .word .classWord :: name :: .mark .less ::
      (superclass.rendered ++ .mark .leftBrace ::
        (FunctionDecl.renderedAll methods ++ [.mark .rightBrace]))

/-- The tokens of several statements, in order. -/
@[simp] def Stmt.renderedAll : List Stmt → List Token
  | [] => []
  | first :: rest => first.rendered ++ Stmt.renderedAll rest

/-- The tokens of a function from its name on. -/
@[simp] def FunctionDecl.rendered : FunctionDecl → List Token
  | .mk name parameters body =>
    name :: .mark .leftParen ::
      (Token.separated parameters ++ .mark .rightParen :: .mark .leftBrace ::
        (Stmt.renderedAll body ++ [.mark .rightBrace]))

/-- The tokens of several functions, in order. -/
@[simp] def FunctionDecl.renderedAll : List FunctionDecl → List Token
  | [] => []
  | first :: rest => first.rendered ++ FunctionDecl.renderedAll rest

end

/-- Every identity is dropped and every token stays. -/
def Relabelling.unnumbered : Relabelling :=
  { id := fun _ => 0, token := fun token => token }

@[simp] theorem Relabelling.unnumbered_id (id : Nat) : unnumbered.id id = 0 :=
  rfl

@[simp] theorem Relabelling.unnumbered_token (token : Token) : unnumbered.token token = token :=
  rfl

/-- The same expression without identities. -/
abbrev Expr.unnumbered : Expr → Expr :=
  Expr.relabelled .unnumbered

/-- The same expressions without identities. -/
abbrev Expr.unnumberedAll : List Expr → List Expr :=
  Expr.relabelledAll .unnumbered

/-- The same statement without identities. -/
abbrev Stmt.unnumbered : Stmt → Stmt :=
  Stmt.relabelled .unnumbered

/-- The same statements without identities. -/
abbrev Stmt.unnumberedAll : List Stmt → List Stmt :=
  Stmt.relabelledAll .unnumbered

/-- The same function without identities. -/
abbrev FunctionDecl.unnumbered : FunctionDecl → FunctionDecl :=
  FunctionDecl.relabelled .unnumbered

/-- The same functions without identities. -/
abbrev FunctionDecl.unnumberedAll : List FunctionDecl → List FunctionDecl :=
  FunctionDecl.relabelledAll .unnumbered

/-- Only an occurrence of the same name is the same as it up to identities. -/
theorem Expr.eq_reference_of_unnumbered {id : Nat} {name : Token} {other : Expr}
    (same : other.unnumbered = (Expr.reference id name).unnumbered) :
    ∃ otherId, other = .reference otherId name := by
  cases other with
  | reference otherId otherName =>
    simp only [relabelled, reference.injEq, Relabelling.unnumbered_token] at same
    exact ⟨otherId, by rw [same.2]⟩
  | _ => simp at same

/-- Only an access to the same property is the same as it up to identities. -/
theorem Expr.eq_get_of_unnumbered {object other : Expr} {name : Token}
    (same : other.unnumbered = (Expr.get object name).unnumbered) :
    ∃ inner, other = .get inner name ∧ inner.unnumbered = object.unnumbered := by
  cases other with
  | get inner otherName =>
    simp only [relabelled, get.injEq, Relabelling.unnumbered_token] at same
    exact ⟨inner, by rw [same.2], same.1⟩
  | _ => simp at same

end LoxLang
