import LoxLang.Proofs.Parsing.Trees

/-!
# Operators, names and keywords of trees

The parser puts only operators where operators belong, identifiers where names belong, and the
keywords `this` and `super` where these are meant. `Formed` says so of a tree, together with a
condition on its names and one on the identities of `this` and `super`, which depend on who asks.
-/

namespace LoxLang

/-- The prefix operators. -/
def prefixOperators : List Kind :=
  [.symbol .bang, .symbol .minus]

/-- The binary operators that evaluate both sides. -/
def strictOperators : List Kind :=
  Level.equality.operators ++ Level.comparison.operators ++ Level.sum.operators ++
    Level.product.operators

/-- What is asked of the variable names in a tree and of the identities of `this` and `super`. -/
structure TreeRules where
  named : Token → Prop
  anchored : Nat → Prop

mutual

/-- An expression that the parser could have built, with names and identities as asked for. -/
def Expr.Formed (rules : TreeRules) : Expr → Prop
  | .literal _ => True
  | .grouping inner => inner.Formed rules
  | .unary operator operand => operator.kind ∈ prefixOperators ∧ operand.Formed rules
  | .binary left operator right =>
    operator.kind ∈ strictOperators ∧ left.Formed rules ∧ right.Formed rules
  | .logical left _ right => left.Formed rules ∧ right.Formed rules
  | .reference _ name => rules.named name
  | .assign _ name value => rules.named name ∧ value.Formed rules
  | .call callee _ arguments => callee.Formed rules ∧ Expr.FormedAll rules arguments
  | .get object _ => object.Formed rules
  | .set object _ value => object.Formed rules ∧ value.Formed rules
  | .this id keyword => keyword.lexeme = "this" ∧ rules.anchored id
  | .super id keyword _ => keyword.lexeme = "super" ∧ rules.anchored id

/-- Several expressions that the parser could have built. -/
def Expr.FormedAll (rules : TreeRules) : List Expr → Prop
  | [] => True
  | first :: rest => first.Formed rules ∧ Expr.FormedAll rules rest

end

/-- An expression that the parser could have built, if there is one. -/
def Expr.FormedOptional (rules : TreeRules) : Option Expr → Prop
  | none => True
  | some value => value.Formed rules

mutual

/-- A statement that the parser could have built, with names and identities as asked for. -/
def Stmt.Formed (rules : TreeRules) : Stmt → Prop
  | .expression value => value.Formed rules
  | .print _ value => value.Formed rules
  | .declare name initializer => rules.named name ∧ Expr.FormedOptional rules initializer
  | .block body => Stmt.FormedAll rules body
  | .branch condition whenTrue none => condition.Formed rules ∧ whenTrue.Formed rules
  | .branch condition whenTrue (some whenFalse) =>
    condition.Formed rules ∧ whenTrue.Formed rules ∧ whenFalse.Formed rules
  | .loop condition body => condition.Formed rules ∧ body.Formed rules
  | .function declaration => declaration.Formed rules
  | .return _ value => Expr.FormedOptional rules value
  | .class name superclass methods =>
    rules.named name ∧ Expr.FormedOptional rules superclass ∧
      FunctionDecl.FormedAll rules methods

/-- Several statements that the parser could have built. -/
def Stmt.FormedAll (rules : TreeRules) : List Stmt → Prop
  | [] => True
  | first :: rest => first.Formed rules ∧ Stmt.FormedAll rules rest

/-- A function that the parser could have built. -/
def FunctionDecl.Formed (rules : TreeRules) : FunctionDecl → Prop
  | .mk name parameters body =>
    rules.named name ∧ (∀ parameter ∈ parameters, rules.named parameter) ∧
      Stmt.FormedAll rules body

/-- Several functions that the parser could have built. -/
def FunctionDecl.FormedAll (rules : TreeRules) : List FunctionDecl → Prop
  | [] => True
  | first :: rest => first.Formed rules ∧ FunctionDecl.FormedAll rules rest

end

section Formed

variable {rules : TreeRules}

/-- Statements put behind one another are formed when all of them are. -/
theorem Stmt.formedAll_append {before behind : List Stmt} :
    Stmt.FormedAll rules (before ++ behind) ↔
      Stmt.FormedAll rules before ∧ Stmt.FormedAll rules behind := by
  induction before with
  | nil => simp [Stmt.FormedAll]
  | cons first rest inductionHypothesis =>
    simp only [List.cons_append, Stmt.FormedAll, inductionHypothesis, and_assoc]

/-- Statements are formed when each of them is. -/
theorem Stmt.formedAll_iff {statements : List Stmt} :
    Stmt.FormedAll rules statements ↔ ∀ statement ∈ statements, statement.Formed rules := by
  induction statements with
  | nil => simp [Stmt.FormedAll]
  | cons first rest inductionHypothesis =>
    simp only [Stmt.FormedAll, inductionHypothesis, List.forall_mem_cons]

/-- Methods are formed when each of them is. -/
theorem FunctionDecl.formedAll_iff {declarations : List FunctionDecl} :
    FunctionDecl.FormedAll rules declarations ↔
      ∀ declaration ∈ declarations, declaration.Formed rules := by
  induction declarations with
  | nil => simp [FunctionDecl.FormedAll]
  | cons first rest inductionHypothesis =>
    simp only [FunctionDecl.FormedAll, inductionHypothesis, List.forall_mem_cons]

/-- A formed function has a name as the rules want it. -/
theorem FunctionDecl.Formed.name {declaration : FunctionDecl} (formed : declaration.Formed rules) :
    rules.named declaration.name := by
  obtain ⟨name, parameters, body⟩ := declaration
  exact formed.1

/-- Some rules ask for no more than others. -/
structure TreeRules.Implies (rules wider : TreeRules) : Prop where
  named : ∀ name, rules.named name → wider.named name
  anchored : ∀ id, rules.anchored id → wider.anchored id

section Implies

variable {wider : TreeRules}

mutual

/-- A formed expression is formed for whoever asks for less. -/
theorem Expr.formed_mono (implies : rules.Implies wider) :
    ∀ expression : Expr, expression.Formed rules → expression.Formed wider
  | .literal _, _ => trivial
  | .grouping inner, formed => inner.formed_mono implies formed
  | .unary _ operand, ⟨mark, formed⟩ => ⟨mark, operand.formed_mono implies formed⟩
  | .binary left _ right, ⟨mark, first, second⟩ =>
    ⟨mark, left.formed_mono implies first, right.formed_mono implies second⟩
  | .logical left _ right, ⟨first, second⟩ =>
    ⟨left.formed_mono implies first, right.formed_mono implies second⟩
  | .reference _ name, named => implies.named name named
  | .assign _ name value, ⟨named, formed⟩ =>
    ⟨implies.named name named, value.formed_mono implies formed⟩
  | .call callee _ arguments, ⟨first, others⟩ =>
    ⟨callee.formed_mono implies first, Expr.formedAll_mono implies arguments others⟩
  | .get object _, formed => object.formed_mono implies formed
  | .set object _ value, ⟨first, second⟩ =>
    ⟨object.formed_mono implies first, value.formed_mono implies second⟩
  | .this id _, ⟨spelled, anchored⟩ => ⟨spelled, implies.anchored id anchored⟩
  | .super id _ _, ⟨spelled, anchored⟩ => ⟨spelled, implies.anchored id anchored⟩

/-- Formed expressions are formed for whoever asks for less. -/
theorem Expr.formedAll_mono (implies : rules.Implies wider) :
    ∀ expressions : List Expr, Expr.FormedAll rules expressions → Expr.FormedAll wider expressions
  | [], _ => trivial
  | first :: rest, ⟨head, tail⟩ =>
    ⟨first.formed_mono implies head, Expr.formedAll_mono implies rest tail⟩

end

/-- A formed optional expression is formed under weaker rules. -/
theorem Expr.formedOptional_mono (implies : rules.Implies wider) (value : Option Expr)
    (formed : Expr.FormedOptional rules value) :
    Expr.FormedOptional wider value := by
  cases value with
  | none => trivial
  | some value => exact value.formed_mono implies formed

mutual

/-- A formed statement is formed for whoever asks for less. -/
theorem Stmt.formed_mono (implies : rules.Implies wider) :
    ∀ statement : Stmt, statement.Formed rules → statement.Formed wider
  | .expression value, formed | .print _ value, formed => value.formed_mono implies formed
  | .declare name initializer, ⟨named, formed⟩ =>
    ⟨implies.named name named, Expr.formedOptional_mono implies initializer formed⟩
  | .block body, formed => Stmt.formedAll_mono implies body formed
  | .branch condition whenTrue none, ⟨first, second⟩ =>
    ⟨condition.formed_mono implies first, whenTrue.formed_mono implies second⟩
  | .branch condition whenTrue (some whenFalse), ⟨first, second, third⟩ =>
    ⟨condition.formed_mono implies first, whenTrue.formed_mono implies second,
      whenFalse.formed_mono implies third⟩
  | .loop condition body, ⟨first, second⟩ =>
    ⟨condition.formed_mono implies first, body.formed_mono implies second⟩
  | .function declaration, formed => declaration.formed_mono implies formed
  | .return _ value, formed => Expr.formedOptional_mono implies value formed
  | .class name superclass methods, ⟨named, parent, members⟩ =>
    ⟨implies.named name named, Expr.formedOptional_mono implies superclass parent,
      FunctionDecl.formedAll_mono implies methods members⟩

/-- Formed statements are formed for whoever asks for less. -/
theorem Stmt.formedAll_mono (implies : rules.Implies wider) :
    ∀ statements : List Stmt, Stmt.FormedAll rules statements → Stmt.FormedAll wider statements
  | [], _ => trivial
  | first :: rest, ⟨head, tail⟩ =>
    ⟨first.formed_mono implies head, Stmt.formedAll_mono implies rest tail⟩

/-- A formed function is formed for whoever asks for less. -/
theorem FunctionDecl.formed_mono (implies : rules.Implies wider) :
    ∀ declaration : FunctionDecl, declaration.Formed rules → declaration.Formed wider
  | .mk name _ body, ⟨named, parameters, formed⟩ =>
    ⟨implies.named name named,
      fun parameter member => implies.named parameter (parameters parameter member),
      Stmt.formedAll_mono implies body formed⟩

/-- Formed functions are formed for whoever asks for less. -/
theorem FunctionDecl.formedAll_mono (implies : rules.Implies wider) :
    ∀ declarations : List FunctionDecl, FunctionDecl.FormedAll rules declarations →
      FunctionDecl.FormedAll wider declarations
  | [], _ => trivial
  | first :: rest, ⟨head, tail⟩ =>
    ⟨first.formed_mono implies head, FunctionDecl.formedAll_mono implies rest tail⟩

end

end Implies

/-- An operator joins formed operands. -/
theorem Expr.Formed.combine {level : Level} {left right : Expr} {operator : Token}
    (mark : operator.kind ∈ level.operators) (first : left.Formed rules)
    (second : right.Formed rules) : (level.combine left operator right).Formed rules := by
  cases level with
  | disjunction | conjunction => exact ⟨first, second⟩
  | equality | comparison | sum | product =>
    refine ⟨?_, first, second⟩
    simp only [strictOperators, List.mem_append]
    grind

/-- The parts of a `for` loop make a formed statement. -/
theorem Stmt.Formed.forLoop {initializer : Option Stmt} {test increment : Option Expr} {body : Stmt}
    (first : Stmt.FormedAll rules initializer.toList) (condition : Expr.FormedOptional rules test)
    (step : Expr.FormedOptional rules increment) (inner : body.Formed rules) :
    (Parse.forLoop initializer test increment body).Formed rules := by
  have tested : (test.getD (.literal (.bool true))).Formed rules := by
    cases test with
    | none => trivial
    | some value => exact condition
  refine Stmt.formedAll_append.mpr ⟨first, ⟨tested, ?_⟩, trivial⟩
  cases increment with
  | none => exact inner
  | some value => exact ⟨inner, step, trivial⟩

end Formed

/-- What a reading asks of its tokens: they are genuine, and identifiers are names as asked for. -/
def Place.Spelled (named : Token → Prop) (place : Place) : Prop :=
  ∀ token ∈ place.remaining, token.Genuine ∧ (token.kind = .identifier → named token)

namespace Place.Spelled

variable {named : Token → Prop} {start after : Place} {token : Token} {rest : List Token}
  {nextId : Nat}

/-- Tokens further on are spelled, too. -/
theorem of_suffix (spelled : start.Spelled named) (suffix : after.remaining <:+ start.remaining) :
    after.Spelled named :=
  fun token member => spelled token (suffix.subset member)

/-- The tokens behind the first are spelled, too. -/
theorem tail (spelled : Place.Spelled named ⟨token :: rest, nextId⟩) :
    Place.Spelled named ⟨rest, nextId⟩ :=
  spelled.of_suffix (List.suffix_cons _ _)

/-- An identifier in front is named as it should be. -/
theorem name (spelled : Place.Spelled named ⟨token :: rest, nextId⟩)
    (identifier : token.kind = .identifier) : named token :=
  (spelled token List.mem_cons_self).2 identifier

/-- A keyword in front is spelled as it should be. -/
theorem keyword (spelled : Place.Spelled named ⟨token :: rest, nextId⟩) {word : Keyword}
    (mark : token.kind = .keyword word) : token.lexeme = word.spelling :=
  (spelled token List.mem_cons_self).1.keyword word mark

end Place.Spelled

/-- The trees of a phrase are formed, those of a rest if the tree before it is. -/
def ExprPhrase.Formed (rules : TreeRules) : ExprPhrase → Prop
  | .expression tree => tree.Formed rules
  | .chain _ tree => tree.Formed rules
  | .unary tree => tree.Formed rules
  | .primary tree => tree.Formed rules
  | .chainRest _ left tree => left.Formed rules → tree.Formed rules
  | .accesses object tree => object.Formed rules → tree.Formed rules
  | .arguments _ trees => Expr.FormedAll rules trees

/-- An operand is formed when the phrase of the level below is. -/
theorem ExprPhrase.formed_operand {rules : TreeRules} {level : Level} {tree : Expr} :
    (ExprPhrase.operand level tree).Formed rules ↔ tree.Formed rules := by
  cases level <;> exact Iff.rfl

/-- A reading of an expression makes a formed tree. -/
theorem ExprReads.formed {named : Token → Prop} {phrase : ExprPhrase} {start after : Place}
    (reads : ExprReads phrase start after) (spelled : start.Spelled named) :
    phrase.Formed ⟨named, fun _ => True⟩ := by
  induction reads with
  | plain _ _ found => exact found spelled
  | assign target _ _ foundTarget foundValue =>
    exact ⟨foundTarget spelled, foundValue (spelled.of_suffix target.suffix).tail⟩
  | set target _ _ foundTarget foundValue =>
    exact ⟨foundTarget spelled, foundValue (spelled.of_suffix target.suffix).tail⟩
  | chain operand _ foundOperand foundRest =>
    exact foundRest (spelled.of_suffix operand.suffix)
      (ExprPhrase.formed_operand.mp (foundOperand spelled))
  | chainEnd _ | accessesEnd _ _ => exact id
  | chainMore mark operand _ foundOperand foundMore =>
    intro left
    have right := ExprPhrase.formed_operand.mp (foundOperand spelled.tail)
    exact foundMore (spelled.tail.of_suffix operand.suffix) (left.combine mark right)
  | prefixed mark _ found =>
    exact ⟨by rcases mark with mark | mark <;> simp [mark, prefixOperators], found spelled.tail⟩
  | accessed head _ foundHead foundMore =>
    exact foundMore (spelled.of_suffix head.suffix) (foundHead spelled)
  | call _ list _ _ foundList foundMore =>
    intro object
    exact foundMore (spelled.tail.of_suffix list.suffix).tail ⟨object, foundList spelled.tail⟩
  | callEmpty _ _ _ found => exact fun object => found spelled.tail.tail ⟨object, trivial⟩
  | property _ _ _ found => exact fun object => found spelled.tail.tail object
  | lastArgument _ _ _ found | trailingArgument _ _ _ _ found => exact ⟨found spelled, trivial⟩
  | moreArguments _ entry _ _ foundEntry foundMore =>
    exact ⟨foundEntry spelled, foundMore (spelled.of_suffix entry.suffix).tail⟩
  | falseLiteral _ | trueLiteral _ | nilLiteral _ | number _ | string _ => trivial
  | this mark => exact ⟨spelled.keyword mark, trivial⟩
  | super mark _ _ => exact ⟨spelled.keyword mark, trivial⟩
  | reference mark => exact spelled.name mark
  | group _ _ _ found => exact found spelled.tail

/-- The trees of a phrase are formed. -/
def StmtPhrase.Formed (rules : TreeRules) : StmtPhrase → Prop
  | .optional _ value => Expr.FormedOptional rules value
  | .variable tree => tree.Formed rules
  | .simple tree => tree.Formed rules
  | .initializer clause => Stmt.FormedAll rules clause.toList
  | .parameters _ names => ∀ name ∈ names, rules.named name
  | .routine tree => tree.Formed rules
  | .superclass parent => Expr.FormedOptional rules parent
  | .methods trees => FunctionDecl.FormedAll rules trees
  | .declaration tree => tree.Formed rules
  | .statement tree => tree.Formed rules
  | .block trees => Stmt.FormedAll rules trees
  | .program trees => Stmt.FormedAll rules trees

/-- A reading of a statement or of a program makes formed trees. -/
theorem StmtReads.formed {named : Token → Prop} {phrase : StmtPhrase} {start after : Place}
    (reads : StmtReads phrase start after) (spelled : start.Spelled named) :
    phrase.Formed ⟨named, fun _ => True⟩ := by
  induction reads with
  | absent _ | noInitializer _ | noSuperclass _ | methodsEnd _ | blockEnd _ | programEnd => trivial
  | present _ inner => exact inner.formed spelled
  | undefined known _ => exact ⟨spelled.name known, trivial⟩
  | initialized known _ inner _ => exact ⟨spelled.name known, inner.formed spelled.tail.tail⟩
  | simple inner _ => exact inner.formed spelled
  | variableInitializer _ _ found => exact ⟨found spelled.tail, trivial⟩
  | simpleInitializer _ found => exact ⟨found spelled, trivial⟩
  | lastParameter _ known _ | trailingParameter _ known _ _ =>
    simpa [StmtPhrase.Formed] using spelled.name known
  | moreParameters _ known _ _ found =>
    exact List.forall_mem_cons.mpr ⟨spelled.name known, found spelled.tail.tail⟩
  | routine known _ list _ _ _ foundList foundBody =>
    exact ⟨spelled.name known, foundList spelled.tail.tail,
      foundBody (spelled.tail.tail.of_suffix list.suffix).tail.tail⟩
  | routineEmpty known _ _ _ _ found =>
    exact ⟨spelled.name known, List.forall_mem_nil _, found spelled.tail.tail.tail.tail⟩
  | superclass _ known => exact spelled.tail.name known
  | methodsMore head _ foundHead foundMore =>
    exact ⟨foundHead spelled, foundMore (spelled.of_suffix head.suffix)⟩
  | «class» _ known derived _ _ _ foundParent foundMembers =>
    exact ⟨spelled.tail.name known, foundParent spelled.tail.tail,
      foundMembers (spelled.tail.tail.of_suffix derived.suffix).tail⟩
  | function _ _ found => exact found spelled.tail
  | variableDeclaration _ _ found => exact found spelled.tail
  | plain _ found => exact found spelled
  | «for» _ _ first condition _ step _ _ foundFirst foundTest foundStep foundBody =>
    have atTest := spelled.tail.tail.of_suffix first.suffix
    have atStep := (atTest.of_suffix condition.suffix).tail
    exact .forLoop (foundFirst spelled.tail.tail) (foundTest atTest) (foundStep atStep)
      (foundBody (atStep.of_suffix step.suffix).tail)
  | «if» _ _ condition _ _ _ found =>
    exact ⟨condition.formed spelled.tail.tail,
      found (spelled.tail.tail.of_suffix condition.suffix).tail⟩
  | ifElse _ _ condition _ inner _ _ foundInner foundOuter =>
    have atInner := (spelled.tail.tail.of_suffix condition.suffix).tail
    exact ⟨condition.formed spelled.tail.tail, foundInner atInner,
      foundOuter (atInner.of_suffix inner.suffix).tail⟩
  | print _ inner _ => exact inner.formed spelled.tail
  | «return» _ _ _ found => exact found spelled.tail
  | «while» _ _ condition _ _ found =>
    exact ⟨condition.formed spelled.tail.tail,
      found (spelled.tail.tail.of_suffix condition.suffix).tail⟩
  | block _ _ found => exact found spelled.tail
  | expression _ found => exact found spelled
  | blockMore head _ foundHead foundMore | programMore head _ foundHead foundMore =>
    exact ⟨foundHead spelled, foundMore (spelled.of_suffix head.suffix)⟩

end LoxLang
