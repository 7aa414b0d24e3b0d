import LoxLang.Proofs.Grammar.Rule
import LoxLang.Proofs.Parsing.Reading

/-!
# Readings are derivations

The tokens that a reading takes are derivable from the rule of its phrase. An assignment is read as
a loose expression and looked at again afterwards, so the induction also tracks which tokens a tree
that can be assigned to stands for.
-/

namespace LoxLang

namespace Derives

variable {token : Token}

/-- A symbol derives a token of its kind. -/
theorem mark {symbol : Symbol} (shown : token.kind = .symbol symbol) :
    Derives (.mark symbol) [token] :=
  .token (by simp [Terminal.accepts, shown])

/-- A reserved word derives a token of its kind. -/
theorem word {keyword : Keyword} (shown : token.kind = .keyword keyword) :
    Derives (.word keyword) [token] :=
  .token (by simp [Terminal.accepts, shown])

/-- An identifier derives a name. -/
theorem name (shown : token.kind = .identifier) : Derives .name [token] :=
  .token (by simp [Terminal.accepts, shown])

end Derives

/-- A rule takes tokens up to a rest: it derives what stands in front of the rest. -/
def Takes (rule : Rule) (tokens rest : List Token) : Prop :=
  ∃ taken, tokens = taken ++ rest ∧ Derives rule taken

namespace Takes

variable {first second inner : Rule} {tokens middle rest : List Token} {token : Token}

/-- A rule that derives one token takes it. -/
theorem single (derives : Derives inner [token]) : Takes inner (token :: rest) rest :=
  ⟨[token], rfl, derives⟩

/-- A mark takes one token of its symbol. -/
theorem mark {symbol : Symbol} (shown : token.kind = .symbol symbol) :
    Takes (.mark symbol) (token :: rest) rest :=
  single (.mark shown)

/-- A word takes one token of its keyword. -/
theorem word {keyword : Keyword} (shown : token.kind = .keyword keyword) :
    Takes (.word keyword) (token :: rest) rest :=
  single (.word shown)

/-- A name takes one identifier. -/
theorem name (shown : token.kind = .identifier) : Takes .name (token :: rest) rest :=
  single (.name shown)

/-- One rule behind another takes what both take. -/
theorem sequence (head : Takes first tokens middle) (tail : Takes second middle rest) :
    Takes (first ++ second) tokens rest := by
  obtain ⟨before, rfl, head⟩ := head
  obtain ⟨behind, rfl, tail⟩ := tail
  exact ⟨before ++ behind, (List.append_assoc _ _ _).symm, .sequence head tail⟩

/-- A sequence takes what its parts take one behind the other. -/
theorem sequence_iff : Takes (first ++ second) tokens rest ↔
    ∃ middle, Takes first tokens middle ∧ Takes second middle rest := by
  constructor
  · rintro ⟨taken, rfl, derives⟩
    generalize whole : first ++ second = rule at derives
    cases derives with
    | @sequence _ _ before behind head tail =>
      obtain ⟨rfl, rfl⟩ := Rule.sequence.inj whole
      exact ⟨behind ++ rest, ⟨before, List.append_assoc _ _ _, head⟩, behind, rfl, tail⟩
    | _ => cases whole
  · rintro ⟨middle, head, tail⟩
    exact head.sequence tail

/-- A nonterminal takes what its right side takes. -/
theorem part_iff {name : Nonterminal} :
    Takes (.part name) tokens rest ↔ Takes (grammar name) tokens rest := by
  constructor
  · rintro ⟨taken, whole, derives⟩
    cases derives with
    | part right => exact ⟨taken, whole, right⟩
  · rintro ⟨taken, whole, right⟩
    exact ⟨taken, whole, .part right⟩

/-- A nonterminal takes what its rule takes. -/
theorem part {name : Nonterminal} (right : Takes (grammar name) tokens rest) :
    Takes (.part name) tokens rest :=
  part_iff.mpr right

/-- The first alternative may be chosen. -/
theorem left (chosen : Takes first tokens rest) : Takes (first ||| second) tokens rest := by
  obtain ⟨taken, whole, derives⟩ := chosen
  exact ⟨taken, whole, .left derives⟩

/-- The second alternative may be chosen. -/
theorem right (chosen : Takes second tokens rest) : Takes (first ||| second) tokens rest := by
  obtain ⟨taken, whole, derives⟩ := chosen
  exact ⟨taken, whole, .right derives⟩

/-- An optional rule may take nothing. -/
theorem absent : Takes (.optional inner) rest rest :=
  ⟨[], rfl, .absent⟩

/-- An optional rule may take what its rule takes. -/
theorem present (given : Takes inner tokens rest) : Takes (.optional inner) tokens rest := by
  obtain ⟨taken, whole, derives⟩ := given
  exact ⟨taken, whole, .present derives⟩

/-- A repetition may end at once. -/
theorem manyEnd : Takes (.many inner) rest rest :=
  ⟨[], rfl, .manyEnd⟩

/-- A repetition may go on after one round. -/
theorem manyMore (head : Takes inner tokens middle) (tail : Takes (.many inner) middle rest) :
    Takes (.many inner) tokens rest := by
  obtain ⟨before, rfl, head⟩ := head
  obtain ⟨behind, rfl, tail⟩ := tail
  exact ⟨before ++ behind, (List.append_assoc _ _ _).symm, .manyMore head tail⟩

/-- A bounded repetition may end at once. -/
theorem upToEnd {bound : Nat} : Takes (.upTo bound inner) rest rest :=
  ⟨[], rfl, .upToEnd⟩

/-- A bounded repetition may go on after one round, with one round fewer left. -/
theorem upToMore {bound : Nat} (head : Takes inner tokens middle)
    (tail : Takes (.upTo bound inner) middle rest) :
    Takes (.upTo (bound + 1) inner) tokens rest := by
  obtain ⟨before, rfl, head⟩ := head
  obtain ⟨behind, rfl, tail⟩ := tail
  exact ⟨before ++ behind, (List.append_assoc _ _ _).symm, .upToMore head tail⟩

end Takes

namespace Level

/-- The nonterminal of a level. -/
def nonterminal : Level → Nonterminal
  | disjunction => .logicOr
  | conjunction => .logicAnd
  | equality => .equality
  | comparison => .comparison
  | sum => .term
  | product => .factor

/-- The rule of the operands of a level. -/
def operand : Level → Rule
  | disjunction => .part .logicAnd
  | conjunction => .part .equality
  | equality => .part .comparison
  | comparison => .part .term
  | sum => .part .factor
  | product => .part .unary

open Rule in
/-- The rule of the operators of a level. -/
def operator : Level → Rule
  | disjunction => word .orWord
  | conjunction => word .andWord
  | equality => mark .bangEqual ||| mark .equalEqual
  | comparison => mark .greater ||| mark .greaterEqual ||| mark .less ||| mark .lessEqual
  | sum => mark .minus ||| mark .plus
  | product => mark .slash ||| mark .star

/-- The rule of a level is its operands with its operators between them. -/
theorem grammar_nonterminal (level : Level) :
    grammar level.nonterminal = .operands level.operand level.operator := by
  cases level <;> rfl

/-- An operator of a level is derivable from its rule. -/
theorem derives_operator {level : Level} {token : Token} (shown : token.kind ∈ level.operators) :
    Derives level.operator [token] := by
  cases level with
  | disjunction | conjunction => exact .word (by simpa [operators] using shown)
  | equality =>
    obtain shown | shown : token.kind = .symbol .bangEqual ∨ token.kind = .symbol .equalEqual := by
      simpa [operators] using shown
    · exact .left (.mark shown)
    · exact .right (.mark shown)
  | comparison =>
    obtain shown | shown | shown | shown : token.kind = .symbol .greater ∨
        token.kind = .symbol .greaterEqual ∨ token.kind = .symbol .less ∨
        token.kind = .symbol .lessEqual := by
      simpa [operators] using shown
    · exact .left (.left (.left (.mark shown)))
    · exact .left (.left (.right (.mark shown)))
    · exact .left (.right (.mark shown))
    · exact .right (.mark shown)
  | sum =>
    obtain shown | shown : token.kind = .symbol .minus ∨ token.kind = .symbol .plus := by
      simpa [operators] using shown
    · exact .left (.mark shown)
    · exact .right (.mark shown)
  | product =>
    obtain shown | shown : token.kind = .symbol .star ∨ token.kind = .symbol .slash := by
      simpa [operators] using shown
    · exact .right (.mark shown)
    · exact .left (.mark shown)

end Level

open Rule in
/-- What may follow the head of a call, once. -/
def callSuffix : Rule :=
  (mark .leftParen ++ optional (part .arguments) ++ mark .rightParen) ||| (mark .dot ++ name)

open Rule in
/-- The rule of the entries of a list behind `count` others. -/
def entriesFrom (count : Nat) (entry : Rule) : Rule :=
  entry ++ upTo (254 - count) (mark .comma ++ entry) ++ optional (mark .comma)

namespace Takes

variable {count : Nat} {entry : Rule} {tokens middle rest : List Token} {comma : Token}

/-- A last entry, with nothing or a comma behind it. -/
theorem lastEntry (head : Takes entry tokens middle)
    (trailing : Takes (.optional (.mark .comma)) middle rest) :
    Takes (entriesFrom count entry) tokens rest :=
  .sequence (.sequence head .upToEnd) trailing

/-- One more entry in front of a list with room for it. -/
theorem moreEntries (head : Takes entry tokens (comma :: middle))
    (mark : comma.kind = .symbol .comma)
    (more : Takes (entriesFrom (count + 1) entry) middle rest) (room : count + 1 < 255) :
    Takes (entriesFrom count entry) tokens rest := by
  obtain ⟨_, whole, last⟩ := sequence_iff.mp more
  obtain ⟨_, next, repeated⟩ := sequence_iff.mp whole
  have step : Takes (.upTo (254 - (count + 1) + 1) (.mark .comma ++ entry)) (comma :: middle) _ :=
    .upToMore (.sequence (.mark mark) next) repeated
  rw [show 254 - (count + 1) + 1 = 254 - count by omega] at step
  exact .sequence (.sequence head step) last

/-- A call is a primary expression and what follows it. -/
theorem call (head : Takes (.part .primary) tokens middle)
    (suffixes : Takes (.many callSuffix) middle rest) : Takes (.part .call) tokens rest :=
  .part (.sequence head suffixes)

/-- A property access ends in a point and a name, behind tokens of a rule. -/
def Property (rule : Rule) (name : Token) (tokens rest : List Token) : Prop :=
  ∃ dot, Takes rule tokens (dot :: name :: rest) ∧ dot.kind = .symbol .dot ∧
    name.kind = .identifier

end Takes

/-- The rule of a phrase. -/
def ExprPhrase.rule : ExprPhrase → Rule
  | .expression _ => .part .expression
  | .chain level _ => .part level.nonterminal
  | .chainRest level _ _ => .many (level.operator ++ level.operand)
  | .unary _ => .part .unary
  | .accesses _ _ => .many callSuffix
  | .arguments count _ => entriesFrom count (.part .expression)
  | .primary _ => .part .primary

/-- The rule of an operand is that of the next tighter level. -/
theorem ExprPhrase.rule_operand (level : Level) (tree : Expr) :
    (ExprPhrase.operand level tree).rule = level.operand := by
  cases level <;> rfl

/-- Whether a tree can be assigned to. -/
def Expr.assignable : Expr → Bool
  | .reference _ _ => true
  | .get _ _ => true
  | _ => false

/-- What an operator makes cannot be assigned to. -/
theorem Level.combine_not_assignable (level : Level) (left right : Expr) (operator : Token) :
    (level.combine left operator right).assignable = false := by
  cases level <;> rfl

/-- The tokens of a tree that can be assigned to: a name, or a property of a call. -/
def Expr.Target (tokens rest : List Token) : Expr → Prop
  | .reference _ name => tokens = name :: rest ∧ name.kind = .identifier
  | .get _ name => Takes.Property (.part .call) name tokens rest
  | _ => True

/-- There is nothing to show of the target of a tree that is none. -/
theorem Expr.target_of_not_assignable {tree : Expr} (other : tree.assignable = false)
    (tokens rest : List Token) : tree.Target tokens rest := by
  cases tree <;> trivial

/-- The tokens behind the head of a tree with at least one access. -/
def Expr.Accessed (tokens rest : List Token) : Expr → Prop
  | .reference _ _ => False
  | .get _ name => Takes.Property (.many callSuffix) name tokens rest
  | _ => True

/-- How the tokens of a phrase show in its tree. -/
def ExprPhrase.Shaped (tokens rest : List Token) : ExprPhrase → Prop
  | .chain _ tree => tree.Target tokens rest
  | .unary tree => tree.Target tokens rest
  | .primary tree => tree.Target tokens rest
  | .chainRest _ left tree => (tokens = rest ∧ tree = left) ∨ tree.assignable = false
  | .accesses object tree => (tokens = rest ∧ tree = object) ∨ tree.Accessed tokens rest
  | _ => True

/-- What is told of an operand is told of the phrase of the level below. -/
theorem ExprPhrase.shaped_operand {level : Level} {tree : Expr} {tokens rest : List Token} :
    (ExprPhrase.operand level tree).Shaped tokens rest ↔ tree.Target tokens rest := by
  cases level <;> exact Iff.rfl

namespace Expr.Accessed

variable {tree object : Expr} {tokens middle rest : List Token}

/-- Further accesses leave a tree accessed; the last one decides how it ends. -/
theorem cons (more : (middle = rest ∧ tree = object) ∨ tree.Accessed middle rest)
    (suffix : Takes callSuffix tokens middle) (first : object.Accessed tokens middle) :
    tree.Accessed tokens rest := by
  rcases more with ⟨rfl, rfl⟩ | accessed
  · exact first
  · cases tree with
    | reference => exact accessed
    | get object name =>
      obtain ⟨dot, suffixes, point, named⟩ := accessed
      exact ⟨dot, .manyMore suffix suffixes, point, named⟩
    | _ => trivial

/-- An accessed primary expression stands for a property of a call, if it can be assigned to. -/
theorem target (accessed : tree.Accessed middle rest)
    (head : Takes (.part .primary) tokens middle) : tree.Target tokens rest := by
  cases tree with
  | reference => exact accessed.elim
  | get object name =>
    obtain ⟨dot, suffixes, point, named⟩ := accessed
    exact ⟨dot, .call head suffixes, point, named⟩
  | _ => trivial

end Expr.Accessed

/-- What a reading takes is derivable from its rule and shows in its tree. -/
structure ExprPhrase.Derivable (phrase : ExprPhrase) (start after : Place) : Prop where
  takes : Takes phrase.rule start.remaining after.remaining
  shaped : phrase.Shaped start.remaining after.remaining

namespace ExprPhrase.Derivable

variable {level : Level} {object left right tree value : Expr} {arguments : List Expr}
  {name token opening closing : Token} {rest behind : List Token} {id count nextId laterId : Nat}
  {start middle after : Place}

/-- What an assignment stores is an assignment itself. -/
theorem stored (result : (ExprPhrase.expression value).Derivable start after) :
    Takes (.part .assignment) start.remaining after.remaining :=
  Takes.part_iff.mp result.takes

/-- An assignment to a variable. -/
theorem assign
    (target : (ExprPhrase.chain .disjunction (.reference id name)).Derivable start
      ⟨token :: rest, nextId⟩)
    (mark : token.kind = .symbol .equal)
    (result : (ExprPhrase.expression value).Derivable ⟨rest, nextId⟩ after) :
    (ExprPhrase.expression (.assign id name value)).Derivable start after := by
  obtain ⟨whole, named⟩ : start.remaining = name :: token :: rest ∧ name.kind = .identifier :=
    target.shaped
  refine ⟨.part (.part (.left ?_)), trivial⟩
  rw [whole]
  exact .sequence (.sequence (.sequence .absent (.name named)) (.mark mark)) result.stored

/-- An assignment to a property. -/
theorem set
    (target : (ExprPhrase.chain .disjunction (.get object name)).Derivable start
      ⟨token :: rest, nextId⟩)
    (mark : token.kind = .symbol .equal)
    (result : (ExprPhrase.expression value).Derivable ⟨rest, nextId⟩ after) :
    (ExprPhrase.expression (.set object name value)).Derivable start after := by
  obtain ⟨dot, head, point, named⟩ := target.shaped
  refine ⟨.part (.part (.left ?_)), trivial⟩
  exact .sequence (.sequence (.sequence (.present (.sequence head (.mark point))) (.name named))
    (.mark mark)) result.stored

/-- The operands of a level. -/
theorem chain (first : (ExprPhrase.operand level left).Derivable start middle)
    (more : (ExprPhrase.chainRest level left tree).Derivable middle after) :
    (ExprPhrase.chain level tree).Derivable start after := by
  have head := first.takes
  have target := first.shaped
  rw [ExprPhrase.rule_operand] at head
  rw [ExprPhrase.shaped_operand] at target
  refine ⟨.part ?_, ?_⟩
  · rw [level.grammar_nonterminal]
    exact .sequence head more.takes
  · rcases more.shaped with ⟨same, rfl⟩ | other
    · rwa [same] at target
    · exact Expr.target_of_not_assignable other _ _

/-- A further operand of a level; no tree with an operator can be assigned to. -/
theorem chainMore (mark : token.kind ∈ level.operators)
    (operand : (ExprPhrase.operand level right).Derivable ⟨rest, nextId⟩ middle)
    (more : (ExprPhrase.chainRest level (level.combine left token right) tree).Derivable middle
      after) :
    (ExprPhrase.chainRest level left tree).Derivable ⟨token :: rest, nextId⟩ after := by
  have head := operand.takes
  rw [ExprPhrase.rule_operand] at head
  refine ⟨.manyMore (.sequence (.single (level.derives_operator mark)) head) more.takes, .inr ?_⟩
  rcases more.shaped with ⟨_, rfl⟩ | other
  · exact level.combine_not_assignable left right token
  · exact other

/-- A prefix operator and its operand. -/
theorem prefixed (mark : token.kind = .symbol .bang ∨ token.kind = .symbol .minus)
    (operand : (ExprPhrase.unary tree).Derivable ⟨rest, nextId⟩ after) :
    (ExprPhrase.unary (.unary token tree)).Derivable ⟨token :: rest, nextId⟩ after := by
  have chosen : Derives (.mark .bang ||| .mark .minus) [token] := by
    rcases mark with bang | minus
    · exact .left (.mark bang)
    · exact .right (.mark minus)
  exact ⟨.part (.left (.sequence (.single chosen) operand.takes)), trivial⟩

/-- A call or an access. -/
theorem accessed (head : (ExprPhrase.primary object).Derivable start middle)
    (more : (ExprPhrase.accesses object tree).Derivable middle after) :
    (ExprPhrase.unary tree).Derivable start after := by
  refine ⟨.part (.right (.call head.takes more.takes)), ?_⟩
  rcases more.shaped with ⟨same, rfl⟩ | accessed
  · have target := head.shaped
    rwa [same] at target
  · exact accessed.target head.takes

/-- One more access in front of others. -/
theorem access {tokens : List Token} (suffix : Takes callSuffix start.remaining tokens)
    (more : (ExprPhrase.accesses right tree).Derivable ⟨tokens, nextId⟩ after)
    (first : right.Accessed start.remaining tokens) :
    (ExprPhrase.accesses left tree).Derivable start after :=
  ⟨.manyMore suffix more.takes, .inr (.cons more.shaped suffix first)⟩

/-- A call with arguments. -/
theorem call (opens : opening.kind = .symbol .leftParen)
    (list : (ExprPhrase.arguments 0 arguments).Derivable ⟨rest, nextId⟩
      ⟨closing :: behind, laterId⟩)
    (closes : closing.kind = .symbol .rightParen)
    (more : (ExprPhrase.accesses (.call object closing arguments) tree).Derivable
      ⟨behind, laterId⟩ after) :
    (ExprPhrase.accesses object tree).Derivable ⟨opening :: rest, nextId⟩ after := by
  refine .access (.left ?_) more trivial
  exact .sequence (.sequence (.mark opens) (.present (.part list.takes))) (.mark closes)

/-- A call without arguments. -/
theorem callEmpty (opens : opening.kind = .symbol .leftParen)
    (closes : closing.kind = .symbol .rightParen)
    (more : (ExprPhrase.accesses (.call object closing []) tree).Derivable ⟨rest, nextId⟩ after) :
    (ExprPhrase.accesses object tree).Derivable ⟨opening :: closing :: rest, nextId⟩ after :=
  .access (.left (.sequence (.sequence (.mark opens) .absent) (.mark closes))) more trivial

/-- A property access. -/
theorem property (mark : token.kind = .symbol .dot) (named : name.kind = .identifier)
    (more : (ExprPhrase.accesses (.get object name) tree).Derivable ⟨rest, nextId⟩ after) :
    (ExprPhrase.accesses object tree).Derivable ⟨token :: name :: rest, nextId⟩ after :=
  .access (.right (.sequence (.mark mark) (.name named))) more ⟨token, .manyEnd, mark, named⟩

/-- A single token as a primary expression. -/
theorem literal {literal : Literal} (derives : Derives (grammar .primary) [token]) :
    (ExprPhrase.primary (.literal literal)).Derivable ⟨token :: rest, nextId⟩ ⟨rest, nextId⟩ :=
  ⟨.single (.part derives), trivial⟩

/-- An expression in parentheses. -/
theorem group (opens : opening.kind = .symbol .leftParen)
    (enclosed : (ExprPhrase.expression value).Derivable ⟨rest, nextId⟩
      ⟨closing :: behind, laterId⟩)
    (closes : closing.kind = .symbol .rightParen) :
    (ExprPhrase.primary (.grouping value)).Derivable ⟨opening :: rest, nextId⟩
      ⟨behind, laterId⟩ := by
  refine ⟨.part (.left (.right ?_)), trivial⟩
  exact .sequence (.sequence (.mark opens) enclosed.takes) (.mark closes)

end ExprPhrase.Derivable

/-- Where arguments are read there is room for one. -/
theorem ExprReads.arguments_room {count : Nat} {trees : List Expr} {start after : Place}
    (reads : ExprReads (.arguments count trees) start after) : count < maxListLength := by
  cases reads <;> assumption

/-- The tokens of a part of an expression are derivable from its rule. -/
theorem ExprReads.derivable {phrase : ExprPhrase} {start after : Place}
    (reads : ExprReads phrase start after) : phrase.Derivable start after := by
  induction reads with
  | plain _ _ target => exact ⟨.part (.part (.right target.takes)), trivial⟩
  | assign _ mark _ target result => exact .assign target mark result
  | set _ mark _ target result => exact .set target mark result
  | chain _ _ first more => exact .chain first more
  | chainEnd _ | accessesEnd _ _ => exact ⟨.manyEnd, .inl ⟨rfl, rfl⟩⟩
  | chainMore mark _ _ operand more => exact .chainMore mark operand more
  | prefixed mark _ operand => exact .prefixed mark operand
  | accessed _ _ head more => exact .accessed head more
  | call opens _ closes _ list more => exact .call opens list closes more
  | callEmpty opens closes _ more => exact .callEmpty opens closes more
  | property mark named _ more => exact .property mark named more
  | lastArgument _ _ _ entry => exact ⟨.lastEntry entry.takes .absent, trivial⟩
  | trailingArgument _ _ mark _ entry =>
    exact ⟨.lastEntry entry.takes (.present (.mark mark)), trivial⟩
  | moreArguments _ _ mark more entry others =>
    exact ⟨.moreEntries entry.takes mark others.takes more.arguments_room, trivial⟩
  | falseLiteral mark =>
    exact .literal <| .left <| .left <| .left <| .left <| .left <| .right (.word mark)
  | trueLiteral mark =>
    exact .literal <| .left <| .left <| .left <| .left <| .left <| .left <| .right (.word mark)
  | nilLiteral mark => exact .literal <| .left <| .left <| .left <| .left <| .right (.word mark)
  | number mark =>
    have accepted : Derives (.token .number) _ := .token (by rw [mark]; rfl)
    exact .literal <| .left <| .left <| .left <| .left <| .left <| .left <| .left <| .left accepted
  | string mark =>
    have accepted : Derives (.token .string) _ := .token (by rw [mark]; rfl)
    exact .literal <| .left <| .left <| .left <| .left <| .left <| .left <| .left <| .right accepted
  | this mark => exact ⟨.part (.left (.left (.left (.right (.word mark))))), trivial⟩
  | super mark point named =>
    exact ⟨.part (.right (.sequence (.sequence (.word mark) (.mark point)) (.name named))), trivial⟩
  | reference mark => exact ⟨.part (.left (.left (.right (.name mark)))), rfl, mark⟩
  | group opens _ closes enclosed => exact .group opens enclosed closes

/-- Where parameters are read there is room for one. -/
theorem StmtReads.parameters_room {count : Nat} {names : List Token} {start after : Place}
    (reads : StmtReads (.parameters count names) start after) : count < maxListLength := by
  cases reads <;> assumption

open Rule in
/-- What a reading takes is derivable from the rule of its phrase. Variable declarations and blocks
are read from behind their first token on. -/
def StmtPhrase.Derivable (phrase : StmtPhrase) (start after : Place) : Prop :=
  match phrase with
  | .optional _ _ => Takes (.optional (part .expression)) start.remaining after.remaining
  | .variable _ =>
    ∀ keyword : Token, keyword.kind = .keyword .varWord →
      Takes (part .varDecl) (keyword :: start.remaining) after.remaining
  | .simple _ => Takes (part .exprStmt) start.remaining after.remaining
  | .initializer _ =>
    Takes (part .varDecl ||| part .exprStmt ||| mark .semicolon) start.remaining after.remaining
  | .parameters count _ => Takes (entriesFrom count name) start.remaining after.remaining
  | .routine _ => Takes (part .function) start.remaining after.remaining
  | .superclass _ => Takes (.optional (mark .less ++ name)) start.remaining after.remaining
  | .methods _ => Takes (many (part .function)) start.remaining after.remaining
  | .declaration _ => Takes (part .declaration) start.remaining after.remaining
  | .statement _ => Takes (part .statement) start.remaining after.remaining
  | .block _ =>
    ∃ closing, Takes (many (part .declaration)) start.remaining (closing :: after.remaining) ∧
      closing.kind = .symbol .rightBrace
  | .program _ => Takes (many (part .declaration)) start.remaining after.remaining

/-- A block is derivable from its opening brace on. -/
theorem StmtPhrase.Derivable.block {trees : List Stmt} {start after : Place} {opening : Token}
    (derivable : (StmtPhrase.block trees).Derivable start after)
    (opens : opening.kind = .symbol .leftBrace) :
    Takes (.part .block) (opening :: start.remaining) after.remaining := by
  obtain ⟨closing, declarations, closes⟩ := derivable
  exact .part (.sequence (.sequence (.mark opens) declarations) (.mark closes))

namespace Takes

variable {keyword opening closing semicolon : Token} {tokens middle second behind rest : List Token}

/-! ### Statements as the rules that the rule of statements chooses from -/

/-- A `for` statement is a statement. -/
theorem forStatement (right : Takes (grammar .forStmt) tokens rest) :
    Takes (.part .statement) tokens rest :=
  .part <| .left <| .left <| .left <| .left <| .left <| .right <| .part right

/-- An `if` statement is a statement. -/
theorem ifStatement (right : Takes (grammar .ifStmt) tokens rest) :
    Takes (.part .statement) tokens rest :=
  .part <| .left <| .left <| .left <| .left <| .right <| .part right

/-- A print statement is a statement. -/
theorem printStatement (right : Takes (grammar .printStmt) tokens rest) :
    Takes (.part .statement) tokens rest :=
  .part <| .left <| .left <| .left <| .right <| .part right

/-- A return statement is a statement. -/
theorem returnStatement (right : Takes (grammar .returnStmt) tokens rest) :
    Takes (.part .statement) tokens rest :=
  .part <| .left <| .left <| .right <| .part right

/-- A `while` statement is a statement. -/
theorem whileStatement (right : Takes (grammar .whileStmt) tokens rest) :
    Takes (.part .statement) tokens rest :=
  .part <| .left <| .right <| .part right

/-- An expression statement is a statement. -/
theorem simpleStatement (right : Takes (.part .exprStmt) tokens rest) :
    Takes (.part .statement) tokens rest :=
  .part <| .left <| .left <| .left <| .left <| .left <| .left right

/-- A function from its name to the end of its body. -/
theorem function {name : Token} (named : name.kind = .identifier)
    (opens : opening.kind = .symbol .leftParen)
    (parameters : Takes (.optional (.part .parameters)) tokens (closing :: middle))
    (closes : closing.kind = .symbol .rightParen) (body : Takes (.part .block) middle rest) :
    Takes (.part .function) (name :: opening :: tokens) rest :=
  have head := sequence (sequence (.name named) (.mark opens)) parameters
  .part (.sequence (.sequence head (.mark closes)) body)

/-- A condition in parentheses, behind the word that it belongs to. -/
theorem condition {word : Keyword} (mark : keyword.kind = .keyword word)
    (opens : opening.kind = .symbol .leftParen)
    (test : Takes (.part .expression) tokens (closing :: rest))
    (closes : closing.kind = .symbol .rightParen) :
    Takes (.word word ++ .mark .leftParen ++ .part .expression ++ .mark .rightParen)
      (keyword :: opening :: tokens) rest :=
  .sequence (.sequence (.sequence (.word mark) (.mark opens)) test) (.mark closes)

/-- The clauses of a `for` statement, up to their closing parenthesis. -/
theorem clauses (mark : keyword.kind = .keyword .forWord)
    (opens : opening.kind = .symbol .leftParen)
    (first : Takes (.part .varDecl ||| .part .exprStmt ||| .mark .semicolon) tokens middle)
    (test : Takes (.optional (.part .expression)) middle (semicolon :: second))
    (ends : semicolon.kind = .symbol .semicolon)
    (step : Takes (.optional (.part .expression)) second (closing :: rest))
    (closes : closing.kind = .symbol .rightParen) :
    Takes (.word .forWord ++ .mark .leftParen ++
      (.part .varDecl ||| .part .exprStmt ||| .mark .semicolon) ++ .optional (.part .expression) ++
        .mark .semicolon ++ .optional (.part .expression) ++ .mark .rightParen)
      (keyword :: opening :: tokens) rest :=
  have head := sequence (sequence (.word mark) (.mark opens)) first
  .sequence (.sequence (.sequence (.sequence head test) (.mark ends)) step) (.mark closes)

end Takes

open Takes in
/-- The tokens of a part of a statement or of a program are derivable from its rule. -/
theorem StmtReads.derivable {phrase : StmtPhrase} {start after : Place}
    (reads : StmtReads phrase start after) : phrase.Derivable start after := by
  induction reads with
  | absent _ | noSuperclass _ => exact .absent
  | present _ inner => exact .present inner.derivable.takes
  | undefined named ends =>
    exact fun keyword mark =>
      .part (.sequence (.sequence (.sequence (.word mark) (.name named)) .absent) (.mark ends))
  | initialized named mark inner ends =>
    have value := Takes.sequence (.mark mark) inner.derivable.takes
    exact fun keyword first => .part
      (.sequence (.sequence (.sequence (.word first) (.name named)) (.present value)) (.mark ends))
  | simple inner ends => exact .part (.sequence inner.derivable.takes (.mark ends))
  | noInitializer ends => exact .right (.mark ends)
  | variableInitializer mark _ clause => exact .left (.left (clause _ mark))
  | simpleInitializer _ clause => exact .left (.right clause)
  | lastParameter _ named _ => exact .lastEntry (.name named) .absent
  | trailingParameter _ named mark _ => exact .lastEntry (.name named) (.present (.mark mark))
  | moreParameters _ named mark more others =>
    exact .moreEntries (.name named) mark others more.parameters_room
  | routine named opens _ closes enters _ list body =>
    have parameters : Takes (.part .parameters) _ _ := .part list
    exact .function named opens (.present parameters) closes (body.block enters)
  | routineEmpty named opens closes enters _ body =>
    exact .function named opens .absent closes (body.block enters)
  | superclass less named => exact .present (.sequence (.mark less) (.name named))
  | methodsEnd _ | programEnd => exact .manyEnd
  | methodsMore _ _ head more | programMore _ _ head more => exact .manyMore head more
  | «class» mark named _ opens _ closes parent members =>
    have head := Takes.sequence (.sequence (.word mark) (.name named)) parent
    exact .part <| .left <| .left <| .left <| .part <|
      .sequence (.sequence (.sequence head (.mark opens)) members) (.mark closes)
  | function mark _ routine =>
    exact .part <| .left <| .left <| .right <| .part <| .sequence (.word mark) routine
  | variableDeclaration mark _ clause => exact .part (.left (.right (clause _ mark)))
  | plain _ statement => exact .part (.right statement)
  | «for» mark opens _ _ ends _ closes _ first test step body =>
    exact .forStatement (.sequence (.clauses mark opens first test ends step closes) body)
  | «if» mark opens test closes _ _ body =>
    exact .ifStatement
      (.sequence (.sequence (.condition mark opens test.derivable.takes closes) body) .absent)
  | ifElse mark opens test closes _ otherwise _ body other =>
    exact .ifStatement (.sequence
      (.sequence (.condition mark opens test.derivable.takes closes) body)
      (.present (.sequence (.word otherwise) other)))
  | print mark inner ends =>
    exact .printStatement (.sequence (.sequence (.word mark) inner.derivable.takes) (.mark ends))
  | «return» mark _ ends value =>
    exact .returnStatement (.sequence (.sequence (.word mark) value) (.mark ends))
  | «while» mark opens test closes _ body =>
    exact .whileStatement (.sequence (.condition mark opens test.derivable.takes closes) body)
  | block opens _ body => exact .part (.right (body.block opens))
  | expression _ simple => exact .simpleStatement simple
  | blockEnd closes => exact ⟨_, .manyEnd, closes⟩
  | blockMore _ _ head more =>
    obtain ⟨closing, rest, closes⟩ := more
    exact ⟨closing, .manyMore head rest, closes⟩

end LoxLang
