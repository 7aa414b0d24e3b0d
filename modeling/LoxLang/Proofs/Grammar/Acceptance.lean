import LoxLang.Proofs.Grammar.Readable

/-!
# Parsing accepts the grammar

Parsing a token list finds no violation exactly if the tokens up to the end marker derive from
`program`. Readings stand between the two: parsing without a violation is making a reading, and what
is readable is what is derivable.
-/

namespace LoxLang

/-- What it means for tokens to be readable as a nonterminal. -/
def Nonterminal.Readable : Nonterminal → List Token → Prop
  | program, tokens =>
    ∃ before marker, marker.kind = .eof ∧ tokens = before ++ [marker] ∧
      ∀ nextId, ∃ trees laterId, StmtReads (.program trees) ⟨before, nextId⟩ ⟨[], laterId⟩
  | declaration, tokens => StmtReadable .declaration (· ≠ some (.keyword .elseWord)) tokens
  | classDecl, tokens => StmtReadable .declaration Anything tokens
  | funDecl, tokens => StmtReadable .declaration Anything tokens
  | function, tokens => StmtReadable .routine Anything tokens
  | varDecl, tokens => VariableReadable tokens
  | statement, tokens => Closed tokens ∨ Dangling tokens
  | exprStmt, tokens => StmtReadable .simple Anything tokens
  | forStmt, tokens => Closed tokens ∨ Dangling tokens
  | ifStmt, tokens => Closed tokens ∨ Dangling tokens
  | printStmt, tokens => Closed tokens
  | returnStmt, tokens => Closed tokens
  | whileStmt, tokens => Closed tokens ∨ Dangling tokens
  | block, tokens => BlockReadable tokens
  | parameters, tokens =>
    StmtReadable (.parameters 0) (· = some (.symbol .rightParen)) tokens
  | expression, tokens => ExprReadable .expression Closes tokens
  | assignment, tokens => ExprReadable .expression Closes tokens
  | logicOr, tokens => ExprReadable (.chain .disjunction) (Stops 9) tokens
  | logicAnd, tokens => ExprReadable (.chain .conjunction) (Stops 8) tokens
  | equality, tokens => ExprReadable (.chain .equality) (Stops 7) tokens
  | comparison, tokens => ExprReadable (.chain .comparison) (Stops 6) tokens
  | term, tokens => ExprReadable (.chain .sum) (Stops 5) tokens
  | factor, tokens => ExprReadable (.chain .product) (Stops 4) tokens
  | unary, tokens => ExprReadable .unary (Stops 3) tokens
  | call, tokens => CallReadable tokens
  | arguments, tokens => ExprReadable (.arguments 0) (· = some (.symbol .rightParen)) tokens
  | primary, tokens => ExprReadable .primary Anything tokens

namespace Rule

variable {tokens : List Token}

/-- A sequence may be taken apart from its front. -/
theorem means_append_assoc {meaning : Nonterminal → List Token → Prop} {first second third : Rule} :
    (first ++ second ++ third).Means meaning tokens ↔
      (first ++ (second ++ third)).Means meaning tokens := by
  simp only [means_append]
  constructor
  · rintro ⟨_, last, ⟨before, behind, head, middle, rfl⟩, tail, rfl⟩
    exact ⟨before, behind ++ last, head, ⟨behind, last, middle, tail, rfl⟩, by simp⟩
  · rintro ⟨before, _, head, ⟨behind, last, middle, tail, rfl⟩, rfl⟩
    exact ⟨before ++ behind, last, ⟨before, behind, head, middle, rfl⟩, tail, by simp⟩

/-- A mark of the grammar means the one token of that symbol. -/
theorem means_mark {meaning : Nonterminal → List Token → Prop} {symbol : Symbol} :
    (mark symbol).Means meaning tokens ↔
      ∃ token, tokens = [token] ∧ token.kind = .symbol symbol := by
  simp [Means, Terminal.accepts]

/-- A word of the grammar means the one token of that keyword. -/
theorem means_word {meaning : Nonterminal → List Token → Prop} {keyword : Keyword} :
    (word keyword).Means meaning tokens ↔
      ∃ token, tokens = [token] ∧ token.kind = .keyword keyword := by
  simp [Means, Terminal.accepts]

/-- A name of the grammar means one identifier token. -/
theorem means_name {meaning : Nonterminal → List Token → Prop} :
    name.Means meaning tokens ↔ ∃ token, tokens = [token] ∧ token.kind = .identifier := by
  simp [Means, Terminal.accepts]

/-- An optional rule means no token at all or what its rule means. -/
theorem means_optional {meaning : Nonterminal → List Token → Prop} {inner : Rule} :
    (optional inner).Means meaning tokens ↔ tokens = [] ∨ inner.Means meaning tokens :=
  Iff.rfl

/-- A nonterminal inside a rule means whatever the meaning gives it. -/
theorem means_part {meaning : Nonterminal → List Token → Prop} {name : Nonterminal} :
    (part name).Means meaning tokens ↔ meaning name tokens :=
  Iff.rfl

end Rule

/-- The operands of a level are readable as such, and so is the level. -/
theorem Level.readable_of_means (level : Level) {tokens : List Token}
    (means : (grammar level.nonterminal).Means Nonterminal.Readable tokens) :
    ExprReadable (.chain level) (Stops (level.rank + 1)) tokens := by
  rw [level.grammar_nonterminal] at means
  obtain ⟨first, behind, head, ⟨parts, each, rfl⟩, rfl⟩ := means
  have operand {tokens : List Token} (means : level.operand.Means Nonterminal.Readable tokens) :
      ExprReadable (.operand level) (Stops level.rank) tokens := by
    cases level <;> exact means
  have operator {tokens : List Token} (means : level.operator.Means Nonterminal.Readable tokens) :
      ∃ token, tokens = [token] ∧ token.kind ∈ level.operators := by
    cases level <;>
      simp only [Level.operator, Rule.means_or, Rule.means_mark, Rule.means_word] at means <;>
      simp only [Level.operators, List.mem_cons, List.not_mem_nil, or_false] <;> grind
  refine .chain (operand head) fun part member => ?_
  obtain ⟨_, second, sign, right, rfl⟩ := each part member
  obtain ⟨token, rfl, shown⟩ := operator sign
  exact ⟨token, second, shown, operand right, rfl⟩

namespace Nonterminal

open Rule

variable {tokens : List Token}

/-- What the rule `program` derives is read as a program. -/
theorem readable_program (means : (grammar program).Means Readable tokens) :
    program.Readable tokens := by
  obtain ⟨_, _, ⟨parts, each, rfl⟩, ⟨marker, rfl, ended⟩, rfl⟩ := means
  refine ⟨parts.flatten, marker, by simpa [Terminal.accepts] using ended, rfl, fun nextId => ?_⟩
  exact StmtReadable.program each nextId

/-- What the rule `declaration` derives is read as a declaration: after a class, a function or a
variable, a statement. -/
theorem readable_declaration (means : (grammar declaration).Means Readable tokens) :
    declaration.Readable tokens := by
  rcases means with ((whole | whole) | ⟨keyword, rest, mark, inner, rfl⟩) | statement
  · exact fun rest nextId _ => whole rest nextId trivial
  · exact fun rest nextId _ => whole rest nextId trivial
  · intro behind nextId _
    obtain ⟨tree, laterId, reads⟩ := inner behind nextId trivial
    exact ⟨tree, laterId, .variableDeclaration mark reads⟩
  · intro rest nextId stop
    have readable : StmtReadable .statement (· ≠ some (.keyword .elseWord)) tokens :=
      statement.elim (fun closed rest nextId _ => closed rest nextId trivial) Dangling.readable
    obtain ⟨tree, laterId, reads⟩ := readable rest nextId stop
    exact ⟨tree, laterId, .plain reads⟩

/-- What the rule `classDecl` derives is read behind its keyword as a class. -/
theorem readable_classDecl (means : (grammar classDecl).Means Readable tokens) :
    classDecl.Readable tokens := by
  unfold grammar at means
  simp only [means_append_assoc] at means
  simp only [means_append, means_word, means_name, means_optional, means_mark] at means
  obtain ⟨_, _, ⟨keyword, rfl, mark⟩, ⟨_, _, ⟨name, rfl, named⟩, ⟨parent, _, derived,
    ⟨_, _, ⟨opening, rfl, opens⟩, ⟨_, _, ⟨parts, each, rfl⟩, ⟨closing, rfl, closes⟩, rfl⟩, rfl⟩,
    rfl⟩, rfl⟩, rfl⟩ := means
  refine StmtReadable.class mark named (derived.imp_right ?_) opens (.methods each) closes
  rintro ⟨_, _, ⟨less, rfl, sign⟩, ⟨super, rfl, known⟩, rfl⟩
  exact ⟨less, super, sign, known, rfl⟩

/-- What the rule `funDecl` derives is read behind its keyword as a function. -/
theorem readable_funDecl (means : (grammar funDecl).Means Readable tokens) :
    funDecl.Readable tokens := by
  unfold grammar at means
  simp only [means_append, means_word] at means
  obtain ⟨_, inner, ⟨keyword, rfl, mark⟩, readable, rfl⟩ := means
  intro rest nextId _
  obtain ⟨tree, laterId, reads⟩ := readable rest nextId trivial
  exact ⟨.function tree, laterId, .function mark reads⟩

/-- What the rule `function` derives is read as a name with parameters and a body. -/
theorem readable_function (means : (grammar function).Means Readable tokens) :
    function.Readable tokens := by
  unfold grammar at means
  simp only [means_append_assoc] at means
  simp only [means_append, means_name, means_optional, means_mark] at means
  obtain ⟨_, _, ⟨name, rfl, named⟩, ⟨_, _, ⟨opening, rfl, opens⟩, ⟨list, _, listed,
    ⟨_, body, ⟨closing, rfl, closes⟩, block, rfl⟩, rfl⟩, rfl⟩, rfl⟩ := means
  exact StmtReadable.routine named opens listed closes block

/-- What the rule `varDecl` derives is read behind its keyword as a variable. -/
theorem readable_varDecl (means : (grammar varDecl).Means Readable tokens) :
    varDecl.Readable tokens := by
  unfold grammar at means
  simp only [means_append_assoc] at means
  simp only [means_append, means_word, means_name, means_optional, means_mark] at means
  obtain ⟨_, _, ⟨keyword, rfl, mark⟩, ⟨_, _, ⟨name, rfl, named⟩, ⟨_, _, initializer,
    ⟨semicolon, rfl, ends⟩, rfl⟩, rfl⟩, rfl⟩ := means
  rcases initializer with rfl | ⟨_, value, ⟨equals, rfl, assigns⟩, readable, rfl⟩
  · exact VariableReadable.of_undefined mark named ends
  · exact VariableReadable.of_initialized mark named assigns readable ends

/-- What the rule `statement` derives is a closed statement or one that leaves room for an `else`.
-/
theorem readable_statement (means : (grammar statement).Means Readable tokens) :
    statement.Readable tokens := by
  rcases means with (((((simple | loop) | branch) | print) | «return») | loop) | block
  · refine .inl fun rest nextId _ => ?_
    obtain ⟨tree, laterId, reads⟩ := simple rest nextId trivial
    exact ⟨tree, laterId, .expression reads⟩
  · exact loop
  · exact branch
  · exact .inl print
  · exact .inl «return»
  · exact loop
  · obtain ⟨opening, inner, opens, readable, rfl⟩ := block
    refine .inl fun rest nextId _ => ?_
    obtain ⟨trees, laterId, reads⟩ := readable rest nextId trivial
    exact ⟨.block trees, laterId, .block opens reads⟩

/-- What the rule `exprStmt` derives is read as an expression statement. -/
theorem readable_exprStmt (means : (grammar exprStmt).Means Readable tokens) :
    exprStmt.Readable tokens := by
  unfold grammar at means
  simp only [means_append, means_mark] at means
  obtain ⟨value, _, readable, ⟨semicolon, rfl, ends⟩, rfl⟩ := means
  exact StmtReadable.simple readable ends

/-- What the rule `forStmt` derives is read as the loop a `for` stands for, closed or open as its
body is. -/
theorem readable_forStmt (means : (grammar forStmt).Means Readable tokens) :
    forStmt.Readable tokens := by
  unfold grammar at means
  simp only [means_append_assoc] at means
  simp only [means_append, means_word, means_optional, means_mark, means_or, means_part] at means
  obtain ⟨_, _, ⟨keyword, rfl, mark⟩, ⟨_, _, ⟨opening, rfl, opens⟩, ⟨first, _, initializer,
    ⟨test, _, condition, ⟨_, _, ⟨semicolon, rfl, ends⟩, ⟨step, _, increment, ⟨_, body,
    ⟨closing, rfl, closes⟩, repeated, rfl⟩, rfl⟩, rfl⟩, rfl⟩, rfl⟩, rfl⟩, rfl⟩ := means
  have clause : StmtReadable .initializer Anything first := by
    rcases initializer with (⟨word, inner, sign, readable, rfl⟩ | simple) | ⟨alone, rfl, ends⟩
    · intro rest nextId _
      obtain ⟨tree, laterId, reads⟩ := readable rest nextId trivial
      exact ⟨some tree, laterId, .variableInitializer sign reads⟩
    · intro rest nextId _
      obtain ⟨tree, laterId, reads⟩ := simple rest nextId trivial
      exact ⟨some tree, laterId, .simpleInitializer reads⟩
    · exact fun rest nextId _ => ⟨none, nextId, .noInitializer ends⟩
  have head := LoopHead.of_for mark opens clause (.optional (.inr (.inr rfl)) condition) ends
    (.optional (.inl rfl) increment) closes
  have whole := head.statement repeated
  unfold Readable
  simpa using whole

/-- What the rule `ifStmt` derives is read as a conditional; without an `else` of its own it is left
open to one. -/
theorem readable_ifStmt (means : (grammar ifStmt).Means Readable tokens) :
    ifStmt.Readable tokens := by
  unfold grammar at means
  simp only [means_append_assoc] at means
  simp only [means_append, means_word, means_optional, means_mark] at means
  obtain ⟨_, _, ⟨keyword, rfl, mark⟩, ⟨_, _, ⟨opening, rfl, opens⟩, ⟨test, _, condition,
    ⟨_, _, ⟨closing, rfl, closes⟩, ⟨body, last, inner, other, rfl⟩, rfl⟩, rfl⟩, rfl⟩, rfl⟩ := means
  have head := IfHead.of_condition mark opens condition closes
  rcases other with rfl | ⟨_, second, ⟨otherwise, rfl, sign⟩, outer, rfl⟩
  · have whole := head.statement inner
    exact .inr (by simpa using whole)
  · have whole := head.statement_else inner sign outer
    unfold Readable
    simpa using whole

/-- What the rule `printStmt` derives is read as a closed statement. -/
theorem readable_printStmt (means : (grammar printStmt).Means Readable tokens) :
    printStmt.Readable tokens := by
  unfold grammar at means
  simp only [means_append_assoc] at means
  simp only [means_append, means_word, means_mark] at means
  obtain ⟨_, _, ⟨keyword, rfl, mark⟩, ⟨value, _, readable, ⟨semicolon, rfl, ends⟩, rfl⟩,
    rfl⟩ := means
  exact Closed.of_print mark readable ends

/-- What the rule `returnStmt` derives is read as a closed statement. -/
theorem readable_returnStmt (means : (grammar returnStmt).Means Readable tokens) :
    returnStmt.Readable tokens := by
  unfold grammar at means
  simp only [means_append_assoc] at means
  simp only [means_append, means_word, means_optional, means_mark] at means
  obtain ⟨_, _, ⟨keyword, rfl, mark⟩, ⟨value, _, given, ⟨semicolon, rfl, ends⟩, rfl⟩, rfl⟩ := means
  exact Closed.of_return mark (.optional (.inr (.inr rfl)) given) ends

/-- What the rule `whileStmt` derives is read as a loop, closed or open as its body is. -/
theorem readable_whileStmt (means : (grammar whileStmt).Means Readable tokens) :
    whileStmt.Readable tokens := by
  unfold grammar at means
  simp only [means_append_assoc] at means
  simp only [means_append, means_word, means_mark] at means
  obtain ⟨_, _, ⟨keyword, rfl, mark⟩, ⟨_, _, ⟨opening, rfl, opens⟩, ⟨test, _, condition,
    ⟨_, body, ⟨closing, rfl, closes⟩, inner, rfl⟩, rfl⟩, rfl⟩, rfl⟩ := means
  have whole := (LoopHead.of_while mark opens condition closes).statement inner
  unfold Readable
  simpa using whole

/-- What the rule `block` derives is an opening brace and statements read up to the closing one. -/
theorem readable_block (means : (grammar block).Means Readable tokens) :
    block.Readable tokens := by
  unfold grammar at means
  simp only [means_append_assoc] at means
  simp only [means_append, means_mark] at means
  obtain ⟨_, _, ⟨opening, rfl, opens⟩, ⟨_, _, ⟨parts, each, rfl⟩, ⟨closing, rfl, closes⟩, rfl⟩,
    rfl⟩ := means
  exact ⟨opening, _, opens, .block each closes, rfl⟩

/-- A trailing comma is there or not. -/
theorem trailing_of_means {trailing : List Token}
    (means : (optional (mark .comma)).Means Readable trailing) :
    trailing = [] ∨ ∃ comma : Token, comma.kind = .symbol .comma ∧ trailing = [comma] := by
  refine Or.imp_right ?_ (means_optional.mp means)
  rintro given
  obtain ⟨comma, rfl, shown⟩ := means_mark.mp given
  exact ⟨comma, shown, rfl⟩

/-- What the rule `parameters` derives is read as a list of parameters within the bound. -/
theorem readable_parameters (means : (grammar parameters).Means Readable tokens) :
    parameters.Readable tokens := by
  obtain ⟨_, trailing, ⟨_, _, first, ⟨parts, each, room, rfl⟩, rfl⟩, ends, rfl⟩ := means
  obtain ⟨name, rfl, named⟩ := means_name.mp first
  refine StmtReadable.parameters named (fun part member => ?_) (by omega) (trailing_of_means ends)
  obtain ⟨_, _, sign, second, rfl⟩ := each part member
  obtain ⟨comma, rfl, shown⟩ := means_mark.mp sign
  obtain ⟨other, rfl, known⟩ := means_name.mp second
  exact ⟨comma, other, shown, known, rfl⟩

/-- What the rule `arguments` derives is read as a list of arguments within the bound. -/
theorem readable_arguments (means : (grammar arguments).Means Readable tokens) :
    arguments.Readable tokens := by
  obtain ⟨_, trailing, ⟨first, _, head, ⟨parts, each, room, rfl⟩, rfl⟩, ends, rfl⟩ := means
  refine ExprReadable.arguments head (fun part member => ?_) (by omega) (trailing_of_means ends)
  obtain ⟨_, entry, sign, second, rfl⟩ := each part member
  obtain ⟨comma, rfl, shown⟩ := means_mark.mp sign
  exact ⟨comma, entry, shown, second, rfl⟩

/-- What the rule `assignment` derives is read as an expression: an assignment to a variable or a
property, or an expression of the levels below. -/
theorem readable_assignment (means : (grammar assignment).Means Readable tokens) :
    assignment.Readable tokens := by
  unfold grammar at means
  simp only [means_append_assoc, means_or] at means
  simp only [means_append, means_name, means_optional, means_mark] at means
  rcases means with ⟨object, _, access, ⟨_, _, ⟨name, rfl, named⟩, ⟨_, value, ⟨equals, rfl, mark⟩,
    readable, rfl⟩, rfl⟩, rfl⟩ | plain
  · rcases access with rfl | ⟨call, _, head, ⟨dot, rfl, point⟩, rfl⟩
    · exact ExprReadable.assign named mark readable
    · have whole := ExprReadable.set head point named mark readable
      unfold Readable
      simpa using whole
  · exact ExprReadable.plain plain

/-- What the rule `unary` derives is read as a prefix expression. -/
theorem readable_unary (means : (grammar unary).Means Readable tokens) :
    unary.Readable tokens := by
  unfold grammar at means
  simp only [means_append, means_or, means_mark] at means
  rcases means with ⟨_, operand, ⟨bang, rfl, mark⟩ | ⟨minus, rfl, mark⟩, readable, rfl⟩ | call
  · exact ExprReadable.prefixed (.inl mark) readable
  · exact ExprReadable.prefixed (.inr mark) readable
  · exact CallReadable.unary call

/-- What the rule `call` derives is read as a primary expression with its trail of calls and
properties. -/
theorem readable_call (means : (grammar call).Means Readable tokens) :
    call.Readable tokens := by
  obtain ⟨head, _, primary, ⟨parts, each, rfl⟩, rfl⟩ := means
  refine CallReadable.of_primary primary (.flatten fun part member => ?_)
  have suffix := each part member
  simp only [means_or, means_append_assoc] at suffix
  simp only [means_append, means_name, means_optional, means_mark] at suffix
  rcases suffix with ⟨_, _, ⟨opening, rfl, opens⟩, ⟨list, _, listed, ⟨paren, rfl, closes⟩, rfl⟩,
    rfl⟩ | ⟨_, _, ⟨dot, rfl, point⟩, ⟨name, rfl, named⟩, rfl⟩
  · intro object rest nextId
    rcases listed with rfl | readable
    · exact ⟨_, nextId, fun tree after more => .callEmpty opens closes more⟩
    · obtain ⟨trees, laterId, reads⟩ := readable (paren :: rest) nextId (by simp [closes])
      refine ⟨.call object paren trees, laterId, fun tree after more => ?_⟩
      simpa using ExprReads.call opens reads closes more
  · exact fun object rest nextId => ⟨_, nextId, fun tree after more => .property point named more⟩

/-- What the rule `primary` derives is read as a primary expression. -/
theorem readable_primary (means : (grammar primary).Means Readable tokens) :
    primary.Readable tokens := by
  unfold grammar at means
  simp only [means_or, means_append_assoc] at means
  simp only [means_append, means_word, means_name, means_mark] at means
  rcases means with (((((((⟨token, rfl, shown⟩ | ⟨token, rfl, shown⟩) | ⟨token, rfl, mark⟩) |
    ⟨token, rfl, mark⟩) | ⟨token, rfl, mark⟩) | ⟨token, rfl, mark⟩) | ⟨token, rfl, mark⟩) |
    ⟨_, _, ⟨opening, rfl, opens⟩, ⟨inner, _, readable, ⟨closing, rfl, closes⟩, rfl⟩, rfl⟩) |
    ⟨_, _, ⟨token, rfl, mark⟩, ⟨_, _, ⟨dot, rfl, point⟩, ⟨name, rfl, named⟩, rfl⟩, rfl⟩
  · intro rest nextId _
    cases kind : token.kind <;> simp [kind, Terminal.accepts] at shown
    exact ⟨_, nextId, .number kind⟩
  · intro rest nextId _
    cases kind : token.kind <;> simp [kind, Terminal.accepts] at shown
    exact ⟨_, nextId, .string kind⟩
  · exact fun rest nextId _ => ⟨_, nextId, .trueLiteral mark⟩
  · exact fun rest nextId _ => ⟨_, nextId, .falseLiteral mark⟩
  · exact fun rest nextId _ => ⟨_, nextId, .nilLiteral mark⟩
  · exact fun rest nextId _ => ⟨_, nextId + 1, .this mark⟩
  · exact fun rest nextId _ => ⟨_, nextId + 1, .reference mark⟩
  · intro rest nextId _
    obtain ⟨tree, laterId, reads⟩ := readable (closing :: rest) nextId (.inl (by simp [closes]))
    refine ⟨.grouping tree, laterId, ?_⟩
    simpa using ExprReads.group opens reads closes
  · exact fun rest nextId _ => ⟨_, nextId + 1, .super mark point named⟩

/-- Whatever the right side of a rule allows can be read. -/
theorem readable_of_means (name : Nonterminal) (tokens : List Token)
    (means : (grammar name).Means Readable tokens) : name.Readable tokens := by
  cases name with
  | program => exact readable_program means
  | declaration => exact readable_declaration means
  | classDecl => exact readable_classDecl means
  | funDecl => exact readable_funDecl means
  | function => exact readable_function means
  | varDecl => exact readable_varDecl means
  | statement => exact readable_statement means
  | exprStmt => exact readable_exprStmt means
  | forStmt => exact readable_forStmt means
  | ifStmt => exact readable_ifStmt means
  | printStmt => exact readable_printStmt means
  | returnStmt => exact readable_returnStmt means
  | whileStmt => exact readable_whileStmt means
  | block => exact readable_block means
  | parameters => exact readable_parameters means
  | expression => exact means
  | assignment => exact readable_assignment means
  | logicOr => exact Level.readable_of_means .disjunction means
  | logicAnd => exact Level.readable_of_means .conjunction means
  | equality => exact Level.readable_of_means .equality means
  | comparison => exact Level.readable_of_means .comparison means
  | term => exact Level.readable_of_means .sum means
  | factor => exact Level.readable_of_means .product means
  | unary => exact readable_unary means
  | call => exact readable_call means
  | arguments => exact readable_arguments means
  | primary => exact readable_primary means

end Nonterminal

/-- Parsing finds no violation exactly in the token lists that derive from `program`. What stands
behind the first end marker is not looked at, and a list without one is taken to end in one. -/
theorem parse_accepts_grammar (tokens : List Token) (firstId : Nat) :
    (parse tokens firstId).errors = [] ↔
      Derives (.part .program) (tokens.takeWhile (·.kind ≠ .eof) ++ [Cursor.endOf tokens]) := by
  have ended : (Cursor.endOf tokens).kind = .eof := Cursor.start_regular tokens firstId
  rw [parse_errors_eq_nil_iff]
  constructor
  · rintro ⟨trees, after, reads⟩
    obtain ⟨taken, whole, derives⟩ := reads.derivable
    rw [reads.program_remaining, List.append_nil] at whole
    rw [show tokens.takeWhile (·.kind ≠ .eof) = taken from whole]
    exact .part (.sequence derives (.token (by simp [Terminal.accepts, ended])))
  · intro derives
    obtain ⟨before, marker, _, same, readable⟩ :=
      derives.means Nonterminal.readable_of_means
    obtain ⟨rfl, _⟩ := List.append_inj' same rfl
    obtain ⟨trees, laterId, reads⟩ := readable firstId
    exact ⟨trees, _, reads⟩

end LoxLang
