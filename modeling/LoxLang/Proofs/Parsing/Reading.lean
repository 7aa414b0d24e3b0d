import LoxLang.Parsing.Statement

/-!
# Readings

`ExprReads` and `StmtReads` say, apart from any reader, which tokens are read as which tree, which
identities the occurrences in it get, and what is left behind it. A reading takes as many tokens as
it can: rules that end a repetition or leave an `else` away look at the kind of the next token.
There is no reading with a grammar violation in it.
-/

namespace LoxLang

/-- The tokens that are left to read and the first identity that is unused. -/
structure Place where
  remaining : List Token
  nextId : Nat

namespace Place

/-- The kind of the next token, if there is one. -/
def next? (place : Place) : Option Kind :=
  place.remaining.head?.map Token.kind

/-- The first token stands in front. -/
@[simp] theorem next?_cons (token : Token) (rest : List Token) (nextId : Nat) :
    next? ⟨token :: rest, nextId⟩ = some token.kind :=
  rfl

/-- Without tokens nothing stands in front. -/
@[simp] theorem next?_nil (nextId : Nat) : next? ⟨[], nextId⟩ = none :=
  rfl

end Place

/-- The kinds that an expression can start with. -/
def Kind.startsExpression : Kind → Bool
  | .symbol .bang => true
  | .symbol .minus => true
  | .symbol .leftParen => true
  | .keyword .falseWord => true
  | .keyword .trueWord => true
  | .keyword .nilWord => true
  | .keyword .thisWord => true
  | .keyword .superWord => true
  | .number _ => true
  | .string _ => true
  | .identifier => true
  | _ => false

/-- A part of an expression, with the tree it is read as. `chainRest` and `accesses` go on from a
tree that was read before them, and `arguments` from a number of arguments. -/
inductive ExprPhrase where
  | expression (tree : Expr)
  | chain (level : Level) (tree : Expr)
  | chainRest (level : Level) (left tree : Expr)
  | unary (tree : Expr)
  | accesses (object tree : Expr)
  | arguments (count : Nat) (trees : List Expr)
  | primary (tree : Expr)

/-- An operand of a level: a chain of the next tighter one, or a prefix expression. -/
def ExprPhrase.operand (level : Level) (tree : Expr) : ExprPhrase :=
  match level.tighter? with
  | some tighter => .chain tighter tree
  | none => .unary tree

/-- Which tokens are read as which part of an expression. -/
inductive ExprReads : ExprPhrase → Place → Place → Prop where
  | plain {tree : Expr} {start after : Place}
      (target : ExprReads (.chain .disjunction tree) start after)
      (stop : after.next? ≠ some (.symbol .equal)) :
      ExprReads (.expression tree) start after
  | assign {id : Nat} {name equals : Token} {value : Expr} {rest : List Token} {nextId : Nat}
      {start after : Place}
      (target : ExprReads (.chain .disjunction (.reference id name)) start ⟨equals :: rest, nextId⟩)
      (mark : equals.kind = .symbol .equal)
      (result : ExprReads (.expression value) ⟨rest, nextId⟩ after) :
      ExprReads (.expression (.assign id name value)) start after
  | set {object value : Expr} {name equals : Token} {rest : List Token} {nextId : Nat}
      {start after : Place}
      (target : ExprReads (.chain .disjunction (.get object name)) start ⟨equals :: rest, nextId⟩)
      (mark : equals.kind = .symbol .equal)
      (result : ExprReads (.expression value) ⟨rest, nextId⟩ after) :
      ExprReads (.expression (.set object name value)) start after
  | chain {level : Level} {first tree : Expr} {start middle after : Place}
      (operand : ExprReads (.operand level first) start middle)
      (rest : ExprReads (.chainRest level first tree) middle after) :
      ExprReads (.chain level tree) start after
  | chainEnd {level : Level} {left : Expr} {place : Place}
      (stop : ∀ kind ∈ level.operators, place.next? ≠ some kind) :
      ExprReads (.chainRest level left left) place place
  | chainMore {level : Level} {left right tree : Expr} {operator : Token} {rest : List Token}
      {nextId : Nat} {middle after : Place}
      (mark : operator.kind ∈ level.operators)
      (operand : ExprReads (.operand level right) ⟨rest, nextId⟩ middle)
      (more : ExprReads (.chainRest level (level.combine left operator right) tree) middle after) :
      ExprReads (.chainRest level left tree) ⟨operator :: rest, nextId⟩ after
  | prefixed {operator : Token} {operand : Expr} {rest : List Token} {nextId : Nat} {after : Place}
      (mark : operator.kind = .symbol .bang ∨ operator.kind = .symbol .minus)
      (inner : ExprReads (.unary operand) ⟨rest, nextId⟩ after) :
      ExprReads (.unary (.unary operator operand)) ⟨operator :: rest, nextId⟩ after
  | accessed {object tree : Expr} {start middle after : Place}
      (head : ExprReads (.primary object) start middle)
      (more : ExprReads (.accesses object tree) middle after) :
      ExprReads (.unary tree) start after
  | accessesEnd {object : Expr} {place : Place}
      (noCall : place.next? ≠ some (.symbol .leftParen))
      (noProperty : place.next? ≠ some (.symbol .dot)) :
      ExprReads (.accesses object object) place place
  | call {object tree : Expr} {opening paren : Token} {arguments : List Expr}
      {rest behind : List Token} {nextId laterId : Nat} {after : Place}
      (opens : opening.kind = .symbol .leftParen)
      (list : ExprReads (.arguments 0 arguments) ⟨rest, nextId⟩ ⟨paren :: behind, laterId⟩)
      (closes : paren.kind = .symbol .rightParen)
      (more : ExprReads (.accesses (.call object paren arguments) tree) ⟨behind, laterId⟩ after) :
      ExprReads (.accesses object tree) ⟨opening :: rest, nextId⟩ after
  | callEmpty {object tree : Expr} {opening paren : Token} {rest : List Token} {nextId : Nat}
      {after : Place}
      (opens : opening.kind = .symbol .leftParen) (closes : paren.kind = .symbol .rightParen)
      (more : ExprReads (.accesses (.call object paren []) tree) ⟨rest, nextId⟩ after) :
      ExprReads (.accesses object tree) ⟨opening :: paren :: rest, nextId⟩ after
  | property {object tree : Expr} {dot name : Token} {rest : List Token} {nextId : Nat}
      {after : Place}
      (mark : dot.kind = .symbol .dot) (named : name.kind = .identifier)
      (more : ExprReads (.accesses (.get object name) tree) ⟨rest, nextId⟩ after) :
      ExprReads (.accesses object tree) ⟨dot :: name :: rest, nextId⟩ after
  | lastArgument {count : Nat} {argument : Expr} {start after : Place}
      (room : count < maxListLength)
      (entry : ExprReads (.expression argument) start after)
      (stop : after.next? ≠ some (.symbol .comma)) :
      ExprReads (.arguments count [argument]) start after
  | trailingArgument {count : Nat} {argument : Expr} {comma : Token} {rest : List Token}
      {nextId : Nat} {start : Place}
      (room : count < maxListLength)
      (entry : ExprReads (.expression argument) start ⟨comma :: rest, nextId⟩)
      (mark : comma.kind = .symbol .comma)
      (closes : Place.next? ⟨rest, nextId⟩ = some (.symbol .rightParen)) :
      ExprReads (.arguments count [argument]) start ⟨rest, nextId⟩
  | moreArguments {count : Nat} {argument : Expr} {arguments : List Expr} {comma : Token}
      {rest : List Token} {nextId : Nat} {start after : Place}
      (room : count < maxListLength)
      (entry : ExprReads (.expression argument) start ⟨comma :: rest, nextId⟩)
      (mark : comma.kind = .symbol .comma)
      (more : ExprReads (.arguments (count + 1) arguments) ⟨rest, nextId⟩ after) :
      ExprReads (.arguments count (argument :: arguments)) start after
  | falseLiteral {token : Token} {rest : List Token} {nextId : Nat}
      (mark : token.kind = .keyword .falseWord) :
      ExprReads (.primary (.literal (.bool false))) ⟨token :: rest, nextId⟩ ⟨rest, nextId⟩
  | trueLiteral {token : Token} {rest : List Token} {nextId : Nat}
      (mark : token.kind = .keyword .trueWord) :
      ExprReads (.primary (.literal (.bool true))) ⟨token :: rest, nextId⟩ ⟨rest, nextId⟩
  | nilLiteral {token : Token} {rest : List Token} {nextId : Nat}
      (mark : token.kind = .keyword .nilWord) :
      ExprReads (.primary (.literal .nil)) ⟨token :: rest, nextId⟩ ⟨rest, nextId⟩
  | number {token : Token} {value : Float} {rest : List Token} {nextId : Nat}
      (mark : token.kind = .number value) :
      ExprReads (.primary (.literal (.number value))) ⟨token :: rest, nextId⟩ ⟨rest, nextId⟩
  | string {token : Token} {contents : String} {rest : List Token} {nextId : Nat}
      (mark : token.kind = .string contents) :
      ExprReads (.primary (.literal (.string contents))) ⟨token :: rest, nextId⟩ ⟨rest, nextId⟩
  | this {token : Token} {rest : List Token} {nextId : Nat}
      (mark : token.kind = .keyword .thisWord) :
      ExprReads (.primary (.this nextId token)) ⟨token :: rest, nextId⟩ ⟨rest, nextId + 1⟩
  | super {token dot method : Token} {rest : List Token} {nextId : Nat}
      (mark : token.kind = .keyword .superWord) (point : dot.kind = .symbol .dot)
      (named : method.kind = .identifier) :
      ExprReads (.primary (.super nextId token method)) ⟨token :: dot :: method :: rest, nextId⟩
        ⟨rest, nextId + 1⟩
  | reference {token : Token} {rest : List Token} {nextId : Nat}
      (mark : token.kind = .identifier) :
      ExprReads (.primary (.reference nextId token)) ⟨token :: rest, nextId⟩ ⟨rest, nextId + 1⟩
  | group {opening closing : Token} {inner : Expr} {rest behind : List Token}
      {nextId laterId : Nat}
      (opens : opening.kind = .symbol .leftParen)
      (enclosed : ExprReads (.expression inner) ⟨rest, nextId⟩ ⟨closing :: behind, laterId⟩)
      (closes : closing.kind = .symbol .rightParen) :
      ExprReads (.primary (.grouping inner)) ⟨opening :: rest, nextId⟩ ⟨behind, laterId⟩

/-- A part of a statement or of a program, with the tree it is read as. `variable` starts behind its
keyword, `block` and `methods` behind their opening brace; `optional` is an expression that may be
missing in front of a token of the closing kind. -/
inductive StmtPhrase where
  | optional (closing : Kind) (value : Option Expr)
  | variable (tree : Stmt)
  | simple (tree : Stmt)
  | initializer (clause : Option Stmt)
  | parameters (count : Nat) (names : List Token)
  | routine (declaration : FunctionDecl)
  | superclass (parent : Option Expr)
  | methods (declarations : List FunctionDecl)
  | declaration (tree : Stmt)
  | statement (tree : Stmt)
  | block (trees : List Stmt)
  | program (trees : List Stmt)

/-- Which tokens are read as which part of a statement or of a program. -/
inductive StmtReads : StmtPhrase → Place → Place → Prop where
  | absent {closing : Kind} {place : Place} (closed : place.next? = some closing) :
      StmtReads (.optional closing none) place place
  | present {closing : Kind} {value : Expr} {start after : Place}
      (opened : start.next? ≠ some closing)
      (inner : ExprReads (.expression value) start after) :
      StmtReads (.optional closing (some value)) start after
  | undefined {name semicolon : Token} {rest : List Token} {nextId : Nat}
      (named : name.kind = .identifier) (ends : semicolon.kind = .symbol .semicolon) :
      StmtReads (.variable (.declare name none)) ⟨name :: semicolon :: rest, nextId⟩ ⟨rest, nextId⟩
  | initialized {name equals semicolon : Token} {value : Expr} {rest behind : List Token}
      {nextId laterId : Nat}
      (named : name.kind = .identifier) (mark : equals.kind = .symbol .equal)
      (inner : ExprReads (.expression value) ⟨rest, nextId⟩ ⟨semicolon :: behind, laterId⟩)
      (ends : semicolon.kind = .symbol .semicolon) :
      StmtReads (.variable (.declare name (some value))) ⟨name :: equals :: rest, nextId⟩
        ⟨behind, laterId⟩
  | simple {value : Expr} {semicolon : Token} {behind : List Token} {laterId : Nat} {start : Place}
      (inner : ExprReads (.expression value) start ⟨semicolon :: behind, laterId⟩)
      (ends : semicolon.kind = .symbol .semicolon) :
      StmtReads (.simple (.expression value)) start ⟨behind, laterId⟩
  | noInitializer {semicolon : Token} {rest : List Token} {nextId : Nat}
      (ends : semicolon.kind = .symbol .semicolon) :
      StmtReads (.initializer none) ⟨semicolon :: rest, nextId⟩ ⟨rest, nextId⟩
  | variableInitializer {keyword : Token} {tree : Stmt} {rest : List Token} {nextId : Nat}
      {after : Place}
      (mark : keyword.kind = .keyword .varWord)
      (clause : StmtReads (.variable tree) ⟨rest, nextId⟩ after) :
      StmtReads (.initializer (some tree)) ⟨keyword :: rest, nextId⟩ after
  | simpleInitializer {tree : Stmt} {start after : Place}
      (clause : StmtReads (.simple tree) start after) :
      StmtReads (.initializer (some tree)) start after
  | lastParameter {count : Nat} {name : Token} {rest : List Token} {nextId : Nat}
      (room : count < maxListLength) (named : name.kind = .identifier)
      (stop : Place.next? ⟨rest, nextId⟩ ≠ some (.symbol .comma)) :
      StmtReads (.parameters count [name]) ⟨name :: rest, nextId⟩ ⟨rest, nextId⟩
  | trailingParameter {count : Nat} {name comma : Token} {rest : List Token} {nextId : Nat}
      (room : count < maxListLength) (named : name.kind = .identifier)
      (mark : comma.kind = .symbol .comma)
      (closes : Place.next? ⟨rest, nextId⟩ = some (.symbol .rightParen)) :
      StmtReads (.parameters count [name]) ⟨name :: comma :: rest, nextId⟩ ⟨rest, nextId⟩
  | moreParameters {count : Nat} {name comma : Token} {names rest : List Token} {nextId : Nat}
      {after : Place}
      (room : count < maxListLength) (named : name.kind = .identifier)
      (mark : comma.kind = .symbol .comma)
      (more : StmtReads (.parameters (count + 1) names) ⟨rest, nextId⟩ after) :
      StmtReads (.parameters count (name :: names)) ⟨name :: comma :: rest, nextId⟩ after
  | routine {name opening closing brace : Token} {names : List Token} {body : List Stmt}
      {rest behind : List Token} {nextId laterId : Nat} {after : Place}
      (named : name.kind = .identifier) (opens : opening.kind = .symbol .leftParen)
      (list : StmtReads (.parameters 0 names) ⟨rest, nextId⟩ ⟨closing :: brace :: behind, laterId⟩)
      (closes : closing.kind = .symbol .rightParen) (enters : brace.kind = .symbol .leftBrace)
      (block : StmtReads (.block body) ⟨behind, laterId⟩ after) :
      StmtReads (.routine (.mk name names body)) ⟨name :: opening :: rest, nextId⟩ after
  | routineEmpty {name opening closing brace : Token} {body : List Stmt} {rest : List Token}
      {nextId : Nat} {after : Place}
      (named : name.kind = .identifier) (opens : opening.kind = .symbol .leftParen)
      (closes : closing.kind = .symbol .rightParen) (enters : brace.kind = .symbol .leftBrace)
      (block : StmtReads (.block body) ⟨rest, nextId⟩ after) :
      StmtReads (.routine (.mk name [] body))
        ⟨name :: opening :: closing :: brace :: rest, nextId⟩ after
  | noSuperclass {place : Place} (stop : place.next? ≠ some (.symbol .less)) :
      StmtReads (.superclass none) place place
  | superclass {mark name : Token} {rest : List Token} {nextId : Nat}
      (less : mark.kind = .symbol .less) (named : name.kind = .identifier) :
      StmtReads (.superclass (some (.reference nextId name))) ⟨mark :: name :: rest, nextId⟩
        ⟨rest, nextId + 1⟩
  | methodsEnd {place : Place}
      (stop : place.next? = some (.symbol .rightBrace) ∨ place.next? = none) :
      StmtReads (.methods []) place place
  | methodsMore {first : FunctionDecl} {others : List FunctionDecl} {start middle after : Place}
      (head : StmtReads (.routine first) start middle)
      (more : StmtReads (.methods others) middle after) :
      StmtReads (.methods (first :: others)) start after
  | «class» {keyword name opening closing : Token} {parent : Option Expr}
      {methods : List FunctionDecl} {rest inside behind : List Token} {nextId innerId laterId : Nat}
      (mark : keyword.kind = .keyword .classWord) (named : name.kind = .identifier)
      (derived : StmtReads (.superclass parent) ⟨rest, nextId⟩ ⟨opening :: inside, innerId⟩)
      (opens : opening.kind = .symbol .leftBrace)
      (members : StmtReads (.methods methods) ⟨inside, innerId⟩ ⟨closing :: behind, laterId⟩)
      (closes : closing.kind = .symbol .rightBrace) :
      StmtReads (.declaration (.class name parent methods)) ⟨keyword :: name :: rest, nextId⟩
        ⟨behind, laterId⟩
  | function {keyword : Token} {declaration : FunctionDecl} {rest : List Token} {nextId : Nat}
      {after : Place}
      (mark : keyword.kind = .keyword .funWord)
      (inner : StmtReads (.routine declaration) ⟨rest, nextId⟩ after) :
      StmtReads (.declaration (.function declaration)) ⟨keyword :: rest, nextId⟩ after
  | variableDeclaration {keyword : Token} {tree : Stmt} {rest : List Token} {nextId : Nat}
      {after : Place}
      (mark : keyword.kind = .keyword .varWord)
      (inner : StmtReads (.variable tree) ⟨rest, nextId⟩ after) :
      StmtReads (.declaration tree) ⟨keyword :: rest, nextId⟩ after
  | plain {tree : Stmt} {start after : Place} (inner : StmtReads (.statement tree) start after) :
      StmtReads (.declaration tree) start after
  | «for» {keyword opening semicolon closing : Token} {initializer : Option Stmt}
      {test increment : Option Expr} {body : Stmt} {rest second behind : List Token}
      {nextId secondId laterId : Nat} {middle after : Place}
      (mark : keyword.kind = .keyword .forWord) (opens : opening.kind = .symbol .leftParen)
      (first : StmtReads (.initializer initializer) ⟨rest, nextId⟩ middle)
      (condition : StmtReads (.optional (.symbol .semicolon) test) middle
        ⟨semicolon :: second, secondId⟩)
      (ends : semicolon.kind = .symbol .semicolon)
      (step : StmtReads (.optional (.symbol .rightParen) increment) ⟨second, secondId⟩
        ⟨closing :: behind, laterId⟩)
      (closes : closing.kind = .symbol .rightParen)
      (inner : StmtReads (.statement body) ⟨behind, laterId⟩ after) :
      StmtReads (.statement (Parse.forLoop initializer test increment body))
        ⟨keyword :: opening :: rest, nextId⟩ after
  | «if» {keyword opening closing : Token} {test : Expr} {whenTrue : Stmt}
      {rest behind : List Token}
      {nextId laterId : Nat} {after : Place}
      (mark : keyword.kind = .keyword .ifWord) (opens : opening.kind = .symbol .leftParen)
      (condition : ExprReads (.expression test) ⟨rest, nextId⟩ ⟨closing :: behind, laterId⟩)
      (closes : closing.kind = .symbol .rightParen)
      (inner : StmtReads (.statement whenTrue) ⟨behind, laterId⟩ after)
      (stop : after.next? ≠ some (.keyword .elseWord)) :
      StmtReads (.statement (.branch test whenTrue none)) ⟨keyword :: opening :: rest, nextId⟩ after
  | ifElse {keyword opening closing other : Token} {test : Expr} {whenTrue whenFalse : Stmt}
      {rest behind second : List Token} {nextId laterId secondId : Nat} {after : Place}
      (mark : keyword.kind = .keyword .ifWord) (opens : opening.kind = .symbol .leftParen)
      (condition : ExprReads (.expression test) ⟨rest, nextId⟩ ⟨closing :: behind, laterId⟩)
      (closes : closing.kind = .symbol .rightParen)
      (inner : StmtReads (.statement whenTrue) ⟨behind, laterId⟩ ⟨other :: second, secondId⟩)
      (otherwise : other.kind = .keyword .elseWord)
      (outer : StmtReads (.statement whenFalse) ⟨second, secondId⟩ after) :
      StmtReads (.statement (.branch test whenTrue (some whenFalse)))
        ⟨keyword :: opening :: rest, nextId⟩ after
  | print {keyword semicolon : Token} {value : Expr} {rest behind : List Token}
      {nextId laterId : Nat}
      (mark : keyword.kind = .keyword .printWord)
      (inner : ExprReads (.expression value) ⟨rest, nextId⟩ ⟨semicolon :: behind, laterId⟩)
      (ends : semicolon.kind = .symbol .semicolon) :
      StmtReads (.statement (.print keyword value)) ⟨keyword :: rest, nextId⟩ ⟨behind, laterId⟩
  | «return» {keyword semicolon : Token} {value : Option Expr} {rest behind : List Token}
      {nextId laterId : Nat}
      (mark : keyword.kind = .keyword .returnWord)
      (inner : StmtReads (.optional (.symbol .semicolon) value) ⟨rest, nextId⟩
        ⟨semicolon :: behind, laterId⟩)
      (ends : semicolon.kind = .symbol .semicolon) :
      StmtReads (.statement (.return keyword value)) ⟨keyword :: rest, nextId⟩ ⟨behind, laterId⟩
  | «while» {keyword opening closing : Token} {test : Expr} {body : Stmt} {rest behind : List Token}
      {nextId laterId : Nat} {after : Place}
      (mark : keyword.kind = .keyword .whileWord) (opens : opening.kind = .symbol .leftParen)
      (condition : ExprReads (.expression test) ⟨rest, nextId⟩ ⟨closing :: behind, laterId⟩)
      (closes : closing.kind = .symbol .rightParen)
      (inner : StmtReads (.statement body) ⟨behind, laterId⟩ after) :
      StmtReads (.statement (.loop test body)) ⟨keyword :: opening :: rest, nextId⟩ after
  | block {opening : Token} {body : List Stmt} {rest : List Token} {nextId : Nat} {after : Place}
      (opens : opening.kind = .symbol .leftBrace)
      (inner : StmtReads (.block body) ⟨rest, nextId⟩ after) :
      StmtReads (.statement (.block body)) ⟨opening :: rest, nextId⟩ after
  | expression {tree : Stmt} {start after : Place} (inner : StmtReads (.simple tree) start after) :
      StmtReads (.statement tree) start after
  | blockEnd {closing : Token} {rest : List Token} {nextId : Nat}
      (closes : closing.kind = .symbol .rightBrace) :
      StmtReads (.block []) ⟨closing :: rest, nextId⟩ ⟨rest, nextId⟩
  | blockMore {first : Stmt} {others : List Stmt} {start middle after : Place}
      (head : StmtReads (.declaration first) start middle)
      (more : StmtReads (.block others) middle after) :
      StmtReads (.block (first :: others)) start after
  | programEnd {nextId : Nat} : StmtReads (.program []) ⟨[], nextId⟩ ⟨[], nextId⟩
  | programMore {first : Stmt} {others : List Stmt} {start middle after : Place}
      (head : StmtReads (.declaration first) start middle)
      (more : StmtReads (.program others) middle after) :
      StmtReads (.program (first :: others)) start after

/-- The phrases that go on from a tree that was read before; they alone may take no token. -/
def ExprPhrase.isRest : ExprPhrase → Bool
  | .chainRest _ _ _ => true
  | .accesses _ _ => true
  | _ => false

/-- An operand is a phrase of its own. -/
@[simp] theorem ExprPhrase.isRest_operand (level : Level) (tree : Expr) :
    (ExprPhrase.operand level tree).isRest = false := by
  cases level <;> rfl

/-- A list that starts with a token of certain kinds and goes on to another list behind it. -/
def Opens (kinds : Kind → Bool) (tokens rest : List Token) : Prop :=
  ∃ token behind, tokens = token :: behind ∧ kinds token.kind = true ∧ rest <:+ behind

namespace Opens

variable {kinds wider : Kind → Bool} {tokens middle rest : List Token}

/-- A phrase opens with its first token. -/
theorem ofToken {token : Token} {behind : List Token} (starts : kinds token.kind = true)
    (tail : rest <:+ behind) : Opens kinds (token :: behind) rest :=
  ⟨token, behind, rfl, starts, tail⟩

/-- What is left of a phrase stands behind it. -/
theorem suffix (opens : Opens kinds tokens rest) : rest <:+ tokens := by
  obtain ⟨token, behind, rfl, _, tail⟩ := opens
  exact tail.trans (List.suffix_cons token behind)

/-- A phrase has a token. -/
theorem length_lt (opens : Opens kinds tokens rest) : rest.length < tokens.length := by
  obtain ⟨token, behind, rfl, _, tail⟩ := opens
  simpa using Nat.lt_succ_of_le tail.length_le

/-- What is left may be shortened. -/
theorem further (opens : Opens kinds tokens middle) (tail : rest <:+ middle) :
    Opens kinds tokens rest := by
  obtain ⟨token, behind, same, starts, first⟩ := opens
  exact ⟨token, behind, same, starts, tail.trans first⟩

/-- A phrase that opens with some kinds opens with more. -/
theorem mono (opens : Opens kinds tokens rest)
    (covers : ∀ kind, kinds kind = true → wider kind = true) : Opens wider tokens rest := by
  obtain ⟨token, behind, same, starts, tail⟩ := opens
  exact ⟨token, behind, same, covers _ starts, tail⟩

/-- The kind in front of a phrase opens it. -/
theorem next? (opens : Opens kinds tokens rest) (nextId : Nat) :
    ∃ kind, Place.next? ⟨tokens, nextId⟩ = some kind ∧ kinds kind = true := by
  obtain ⟨token, behind, rfl, starts, _⟩ := opens
  exact ⟨token.kind, rfl, starts⟩

end Opens

namespace ExprReads

variable {phrase : ExprPhrase} {start after : Place}

/-- Every phrase goes forward, and one that is not a rest takes a token that starts an expression.
-/
theorem forward (reads : ExprReads phrase start after) :
    after.remaining <:+ start.remaining ∧
      (phrase.isRest = false →
        Opens Kind.startsExpression start.remaining after.remaining) := by
  have whole {phrase : ExprPhrase} {tokens rest : List Token}
      (opens : Opens Kind.startsExpression tokens rest) :
      rest <:+ tokens ∧ (phrase.isRest = false → Opens Kind.startsExpression tokens rest) :=
    ⟨opens.suffix, fun _ => opens⟩
  induction reads with
  | plain _ _ target => exact target
  | assign _ _ _ target result | set _ _ _ target result =>
    exact whole ((target.2 rfl).further (result.1.trans (List.suffix_cons _ _)))
  | chain _ _ operand rest => exact whole ((operand.2 (by simp)).further rest.1)
  | chainEnd _ | accessesEnd _ _ => exact ⟨List.suffix_refl _, nofun⟩
  | chainMore _ _ _ operand more =>
    have tail := more.1.trans (operand.2 (by simp)).suffix
    exact ⟨tail.trans (List.suffix_cons _ _), nofun⟩
  | prefixed mark _ inner =>
    refine whole (.ofToken ?_ inner.1)
    rcases mark with mark | mark <;> rw [mark] <;> rfl
  | accessed _ _ head more => exact whole ((head.2 rfl).further more.1)
  | call _ _ _ _ list more =>
    have tail := more.1.trans ((List.suffix_cons _ _).trans list.1)
    exact ⟨tail.trans (List.suffix_cons _ _), nofun⟩
  | callEmpty _ _ _ more | property _ _ _ more =>
    exact ⟨more.1.trans ((List.suffix_cons _ _).trans (List.suffix_cons _ _)), nofun⟩
  | lastArgument _ _ _ entry => exact ⟨entry.1, fun _ => entry.2 rfl⟩
  | trailingArgument _ _ _ _ entry =>
    exact whole ((entry.2 rfl).further (List.suffix_cons _ _))
  | moreArguments _ _ _ _ entry more =>
    exact whole ((entry.2 rfl).further (more.1.trans (List.suffix_cons _ _)))
  | falseLiteral mark | trueLiteral mark | nilLiteral mark | number mark | string mark | this mark
  | reference mark =>
    exact whole (.ofToken (by rw [mark]; rfl) (List.suffix_refl _))
  | super mark _ _ =>
    refine whole (.ofToken (by rw [mark]; rfl) ?_)
    exact (List.suffix_cons _ _).trans (List.suffix_cons _ _)
  | group opens _ _ enclosed =>
    exact whole (.ofToken (by rw [opens]; rfl) ((List.suffix_cons _ _).trans enclosed.1))

/-- What is left behind an expression are the last of the tokens before it. -/
theorem suffix (reads : ExprReads phrase start after) : after.remaining <:+ start.remaining :=
  reads.forward.1

/-- A whole expression opens with a token that starts one. -/
theorem opens (reads : ExprReads phrase start after) (whole : phrase.isRest = false) :
    Opens Kind.startsExpression start.remaining after.remaining :=
  reads.forward.2 whole

end ExprReads

/-- The kinds that a statement other than a declaration can start with. -/
def Kind.opensStatement : Kind → Bool
  | .keyword .forWord => true
  | .keyword .ifWord => true
  | .keyword .printWord => true
  | .keyword .returnWord => true
  | .keyword .whileWord => true
  | .symbol .leftBrace => true
  | kind => kind.startsExpression

/-- The kinds that a declaration or a statement can start with. -/
def Kind.opensDeclaration : Kind → Bool
  | .keyword .classWord => true
  | .keyword .funWord => true
  | .keyword .varWord => true
  | kind => kind.opensStatement

/-- What starts an expression starts a statement. -/
theorem Kind.opensStatement_of_startsExpression (kind : Kind)
    (starts : kind.startsExpression = true) : kind.opensStatement = true := by
  unfold opensStatement
  split <;> first | rfl | exact starts

/-- What starts a statement starts a declaration. -/
theorem Kind.opensDeclaration_of_opensStatement (kind : Kind)
    (starts : kind.opensStatement = true) : kind.opensDeclaration = true := by
  unfold opensDeclaration
  split <;> first | rfl | exact starts

/-- The kinds that a phrase can start with, unless it may take no token. -/
def StmtPhrase.opening? : StmtPhrase → Option (Kind → Bool)
  | .optional _ _ => none
  | .superclass _ => none
  | .methods _ => none
  | .program _ => none
  | .simple _ => some Kind.startsExpression
  | .variable _ => some (· = .identifier)
  | .parameters _ _ => some (· = .identifier)
  | .routine _ => some (· = .identifier)
  | .initializer _ => some fun _ => true
  | .block _ => some fun _ => true
  | .statement _ => some Kind.opensStatement
  | .declaration _ => some Kind.opensDeclaration

namespace StmtReads

variable {phrase : StmtPhrase} {start after : Place}

/-- Every phrase goes forward, and takes a token of the kinds it can start with. -/
theorem forward (reads : StmtReads phrase start after) :
    after.remaining <:+ start.remaining ∧
      ∀ kinds, phrase.opening? = some kinds → Opens kinds start.remaining after.remaining := by
  have whole {kinds : Kind → Bool} {tokens rest : List Token} (opens : Opens kinds tokens rest) :
      rest <:+ tokens ∧ ∀ others, some kinds = some others → Opens others tokens rest :=
    ⟨opens.suffix, fun others same => Option.some.inj same ▸ opens⟩
  have second {first second : Token} {rest : List Token} : rest <:+ first :: second :: rest :=
    (List.suffix_cons _ _).trans (List.suffix_cons _ _)
  induction reads with
  | absent _ | noSuperclass _ | methodsEnd _ | programEnd => exact ⟨List.suffix_refl _, nofun⟩
  | present _ inner => exact ⟨inner.suffix, nofun⟩
  | undefined named _ => exact whole (.ofToken (by simp [named]) (List.suffix_cons _ _))
  | initialized named _ inner _ =>
    refine whole (.ofToken (by simp [named]) ?_)
    exact ((List.suffix_cons _ _).trans inner.suffix).trans (List.suffix_cons _ _)
  | simple inner _ => exact whole ((inner.opens rfl).further (List.suffix_cons _ _))
  | noInitializer _ => exact whole (.ofToken rfl (List.suffix_refl _))
  | variableInitializer _ _ clause => exact whole (.ofToken rfl clause.1)
  | simpleInitializer _ clause => exact whole ((clause.2 _ rfl).mono fun _ _ => rfl)
  | lastParameter _ named _ => exact whole (.ofToken (by simp [named]) (List.suffix_refl _))
  | trailingParameter _ named _ _ => exact whole (.ofToken (by simp [named]) (List.suffix_cons _ _))
  | moreParameters _ named _ _ more =>
    exact whole (.ofToken (by simp [named]) (more.1.trans (List.suffix_cons _ _)))
  | routine named _ _ _ _ _ list block =>
    refine whole (.ofToken (by simp [named]) ?_)
    exact (block.1.trans (second.trans list.1)).trans (List.suffix_cons _ _)
  | routineEmpty named _ _ _ _ block =>
    refine whole (.ofToken (by simp [named]) ?_)
    exact (block.1.trans second).trans (List.suffix_cons _ _)
  | superclass _ _ => exact ⟨second, nofun⟩
  | methodsMore _ _ head more => exact ⟨more.1.trans head.1, nofun⟩
  | «class» mark _ _ _ _ _ derived members =>
    refine whole (.ofToken (by rw [mark]; rfl) ?_)
    have inside := (List.suffix_cons _ _).trans derived.1
    exact (((List.suffix_cons _ _).trans members.1).trans inside).trans (List.suffix_cons _ _)
  | function mark _ inner | variableDeclaration mark _ inner =>
    exact whole (.ofToken (by rw [mark]; rfl) inner.1)
  | plain _ inner => exact whole ((inner.2 _ rfl).mono Kind.opensDeclaration_of_opensStatement)
  | «for» mark _ _ _ _ _ _ _ first condition step inner =>
    refine whole (.ofToken (by rw [mark]; rfl) ?_)
    have clauses := ((List.suffix_cons _ _).trans condition.1).trans first.1
    have closed := ((List.suffix_cons _ _).trans step.1).trans clauses
    exact (inner.1.trans closed).trans (List.suffix_cons _ _)
  | «if» mark _ condition _ _ _ inner | «while» mark _ condition _ _ inner =>
    refine whole (.ofToken (by rw [mark]; rfl) ?_)
    have closed := (List.suffix_cons _ _).trans condition.suffix
    exact (inner.1.trans closed).trans (List.suffix_cons _ _)
  | ifElse mark _ condition _ _ _ _ inner outer =>
    refine whole (.ofToken (by rw [mark]; rfl) ?_)
    have closed := (List.suffix_cons _ _).trans condition.suffix
    have branched := ((List.suffix_cons _ _).trans inner.1).trans closed
    exact (outer.1.trans branched).trans (List.suffix_cons _ _)
  | print mark inner _ =>
    exact whole (.ofToken (by rw [mark]; rfl) ((List.suffix_cons _ _).trans inner.suffix))
  | «return» mark _ _ inner =>
    exact whole (.ofToken (by rw [mark]; rfl) ((List.suffix_cons _ _).trans inner.1))
  | block opens _ inner => exact whole (.ofToken (by rw [opens]; rfl) inner.1)
  | expression _ inner => exact whole ((inner.2 _ rfl).mono Kind.opensStatement_of_startsExpression)
  | blockEnd _ => exact whole (.ofToken rfl (List.suffix_refl _))
  | blockMore _ _ head more =>
    exact whole (((head.2 _ rfl).further more.1).mono fun _ _ => rfl)
  | programMore _ _ head more => exact ⟨more.1.trans head.1, nofun⟩

/-- What is left behind a statement are the last of the tokens before it. -/
theorem suffix (reads : StmtReads phrase start after) : after.remaining <:+ start.remaining :=
  reads.forward.1

/-- A phrase of statements opens with a token that starts it. -/
theorem opens {kinds : Kind → Bool} (reads : StmtReads phrase start after)
    (opening : phrase.opening? = some kinds) : Opens kinds start.remaining after.remaining :=
  reads.forward.2 kinds opening

end StmtReads

end LoxLang
