import LoxLang.Proofs.Parsing.Yields

/-!
# What the readers read

Every reader that reports nothing has made a reading of its phrase, by induction on its depth bound.
So a token list in which parsing finds no violation has a reading as a program.
-/

namespace LoxLang

/-- Entries that are read one by one are arguments, if there is room for them. -/
theorem ExprReads.ofEntries {count : Nat} {trees : List Expr} {start after : Place}
    (found : Parse.Yields.EntryMeaning (fun tree => ExprReads (.expression tree))
      (fun trees => ExprReads (.arguments (count + 1) trees)) trees start after)
    (room : count < maxListLength) : ExprReads (.arguments count trees) start after := by
  obtain ⟨first, middle, entry, ends | ⟨comma, behind, mark, rfl, closes | more⟩⟩ := found
  · obtain ⟨rfl, rfl, stop⟩ := ends
    exact .lastArgument room entry stop
  · obtain ⟨rfl, rfl, closes⟩ := closes
    exact .trailingArgument room entry mark closes
  · obtain ⟨others, rfl, rest⟩ := more
    exact .moreArguments room entry mark rest

/-- Names that are read one by one are parameters, if there is room for them. -/
theorem StmtReads.ofEntries {count : Nat} {names : List Token} {start after : Place}
    (found : Parse.Yields.EntryMeaning
      (fun name before behind => name.kind = .identifier ∧ before = Place.push behind name)
      (fun names => StmtReads (.parameters (count + 1) names)) names start after)
    (room : count < maxListLength) : StmtReads (.parameters count names) start after := by
  obtain ⟨first, middle, ⟨named, rfl⟩, ends | ⟨comma, behind, mark, rfl, closes | more⟩⟩ := found
  · obtain ⟨rfl, rfl, stop⟩ := ends
    exact .lastParameter room named stop
  · obtain ⟨rfl, rfl, closes⟩ := closes
    exact .trailingParameter room named mark closes
  · obtain ⟨others, rfl, rest⟩ := more
    exact .moreParameters room named mark rest

namespace Parse

namespace Yields

/-- A semicolon stands in front of what is left. -/
theorem semicolon {expectation : Expectation} : Yields (semicolon expectation) fun _ start after =>
    ∃ token, token.kind = .symbol .semicolon ∧ start = after.push token :=
  .bind .expect fun token => .pure fun _ _ step => ⟨token, step⟩

/-- A superclass is read as the rule says, or there is none. -/
theorem superclass? : Yields superclass? fun parent => StmtReads (.superclass parent) := by
  refine .bind .accept? fun mark => ?_
  split
  · refine .pure ?_
    rintro place _ ⟨rfl, stop⟩
    exact .noSuperclass stop
  · refine .bind .expect fun name => .bind .freshId fun id => .pure ?_
    rintro _ start ⟨rfl, rfl⟩ _ ⟨named, rfl⟩ _ ⟨less, rfl⟩
    exact .superclass less named

end Yields

/-- Readers that report nothing have made a reading of their phrase. -/
structure Sound (inner : Readers) : Prop where
  expression : Yields inner.expression fun tree => ExprReads (.expression tree)
  chain (level : Level) : Yields (inner.chain level) fun tree => ExprReads (.chain level tree)
  chainRest (level : Level) (left : Expr) :
    Yields (inner.chainRest level left) fun tree => ExprReads (.chainRest level left tree)
  unary : Yields inner.unary fun tree => ExprReads (.unary tree)
  accesses (object : Expr) :
    Yields (inner.accesses object) fun tree => ExprReads (.accesses object tree)
  arguments (count : Nat) :
    Yields (inner.arguments count) fun trees => ExprReads (.arguments count trees)
  primary : Yields inner.primary fun tree => ExprReads (.primary tree)
  parameters (count : Nat) :
    Yields (inner.parameters count) fun names => StmtReads (.parameters count names)
  methods {method : Parse FunctionDecl} :
    Yields method (fun declaration => StmtReads (.routine declaration)) →
      Yields (inner.methods method) fun declarations => StmtReads (.methods declarations)
  declaration : Yields inner.declaration fun tree => StmtReads (.declaration tree)
  statement : Yields inner.statement fun tree => StmtReads (.statement tree)
  block : Yields inner.block fun trees => StmtReads (.block trees)

namespace Sound

variable {inner : Readers}

/-- Where the depth has run out nothing is read. -/
theorem exhausted : Sound .exhausted where
  expression := .refuse
  chain := fun _ => .refuse
  chainRest := fun _ _ => .refuse
  unary := .refuse
  accesses := fun _ => .refuse
  arguments := fun _ => .refuse
  primary := .refuse
  parameters := fun _ => .refuse
  methods := fun _ => .refuse
  declaration := .refuse
  statement := .refuse
  block := .refuse

variable (smaller : Sound inner)
include smaller

/-- An operand is read by the reader of the next tighter level. -/
theorem operand (level : Level) :
    Yields (inner.operand level) fun tree => ExprReads (.operand level tree) := by
  cases level with
  | product => exact smaller.unary
  | _ => exact smaller.chain _

/-- An assignment is read as the rule says: its target is read as an expression first. -/
theorem assignment :
    Yields inner.assignment fun tree => ExprReads (.expression tree) := by
  refine .bind (smaller.chain .disjunction) fun target => ?_
  refine .bind .accept? fun equals => ?_
  split
  · refine .pure ?_
    rintro place _ ⟨rfl, stop⟩ start first
    exact .plain first stop
  · refine .bind smaller.expression fun value => ?_
    unfold assignTo
    split
    · refine .pure ?_
      rintro place _ result _ ⟨mark, rfl⟩ start first
      exact .assign first mark result
    · refine .pure ?_
      rintro place _ result _ ⟨mark, rfl⟩ start first
      exact .set first mark result
    · exact .bind .report fun _ => .pure fun _ _ absurd => absurd.elim

/-- A chain is read as the rule says, from its first operand on. -/
theorem operands (level : Level) :
    Yields (inner.operands level) fun tree => ExprReads (.chain level tree) := by
  refine .bind (smaller.operand level) fun first => (smaller.chainRest level first).mono ?_
  exact fun tree middle after rest start operand => .chain operand rest

/-- A chain goes on for as long as there are operators of its level. -/
theorem operandsBehind (level : Level) (left : Expr) :
    Yields (inner.operandsBehind level left) fun tree =>
      ExprReads (.chainRest level left tree) := by
  refine .bind (.acceptOperator? level) fun operator? => ?_
  split
  · refine .pure ?_
    rintro place _ ⟨rfl, stop⟩
    exact .chainEnd stop
  · refine .bind (smaller.operand level) fun right => (smaller.chainRest level _).mono ?_
    rintro tree middle after more start operand _ ⟨mark, rfl⟩
    exact .chainMore mark operand more

/-- A prefix expression is read as the rule says. -/
theorem prefixed : Yields inner.prefixed fun tree => ExprReads (.unary tree) := by
  refine .bind .acceptPrefixOperator? fun operator? => ?_
  split
  · refine .bind smaller.unary fun operand => .pure ?_
    rintro after place inner _ ⟨mark, rfl⟩
    exact .prefixed mark inner
  · refine .bind smaller.primary fun callee => (smaller.accesses callee).mono ?_
    rintro tree middle after more start head _ rfl
    exact .accessed head more

/-- Calls and properties are read as the rule says, for as long as there are any. -/
theorem accessed (object : Expr) :
    Yields (inner.accessed object) fun tree => ExprReads (.accesses object tree) := by
  refine .bind .current fun token => ?_
  split
  case h_1 opens =>
    refine .past opens nofun (.bind .check fun closed => ?_)
    split
    case isTrue found =>
      refine .bind .given fun arguments => ?_
      refine .bind .expect fun paren => (smaller.accesses _).mono ?_
      rintro tree middle after more _ ⟨closes, rfl⟩ _ ⟨rfl, rfl⟩ _ ⟨rfl, _⟩
      exact .callEmpty opens closes more
    case isFalse =>
      refine .bind (smaller.arguments 0) fun arguments => ?_
      refine .bind .expect fun paren => (smaller.accesses _).mono ?_
      rintro tree middle after more _ ⟨closes, rfl⟩ start list _ ⟨rfl, _⟩
      exact .call opens list closes more
  case h_2 mark =>
    refine .past mark nofun (.bind .expect fun name => (smaller.accesses _).mono ?_)
    rintro tree middle after more _ ⟨named, rfl⟩
    exact .property mark named more
  case h_3 noCall noProperty =>
    refine .pure ?_
    rintro place _ ⟨rfl, shows⟩
    exact .accessesEnd (shows.next?_ne noCall) (shows.next?_ne noProperty)

/-- Arguments are read as the rule says, with their count at hand. -/
theorem argumentList (count : Nat) :
    Yields (inner.argumentList count) fun trees =>
      ExprReads (.arguments count trees) := by
  have entry := (Yields.entries smaller.expression (smaller.arguments (count + 1))).mono
    fun _ _ _ found => ExprReads.ofEntries found
  unfold Readers.argumentList
  split
  case isTrue full =>
    refine .bind .current fun token => .bind .report fun _ => entry.mono ?_
    intro trees middle after _ start absurd
    exact absurd.elim
  case isFalse free =>
    exact entry.mono fun trees start after reads => reads (by omega)

/-- A primary expression is read as the rule says, whatever token it starts with. -/
theorem atom : Yields inner.atom fun tree => ExprReads (.primary tree) := by
  refine .bind .current fun token => ?_
  split
  case h_1 mark => exact .past mark nofun (.pure fun _ => .falseLiteral mark)
  case h_2 mark => exact .past mark nofun (.pure fun _ => .trueLiteral mark)
  case h_3 mark => exact .past mark nofun (.pure fun _ => .nilLiteral mark)
  case h_4 mark => exact .past mark nofun (.pure fun _ => .number mark)
  case h_5 mark => exact .past mark nofun (.pure fun _ => .string mark)
  case h_6 mark =>
    refine .past mark nofun (.bind .freshId fun id => .pure ?_)
    rintro _ start ⟨rfl, rfl⟩
    exact .this mark
  case h_7 mark =>
    refine .past mark nofun (.bind .expect fun dot => .bind .expect fun method => ?_)
    refine .bind .freshId fun id => .pure ?_
    rintro _ start ⟨rfl, rfl⟩ _ ⟨named, rfl⟩ _ ⟨point, rfl⟩
    exact .super mark point named
  case h_8 mark =>
    refine .past mark nofun (.bind .freshId fun id => .pure ?_)
    rintro _ start ⟨rfl, rfl⟩
    exact .reference mark
  case h_9 opens =>
    refine .past opens nofun (.bind smaller.expression fun inner => .bind .expect fun closing => ?_)
    refine .pure ?_
    rintro after _ ⟨closes, rfl⟩ start enclosed
    exact .group opens enclosed closes
  case h_10 => exact .refuse

/-- An expression is missing only in front of the closing token. -/
theorem expressionUnless {closing : Kind} :
    Yields (inner.expressionUnless closing) fun value => StmtReads (.optional closing value) := by
  refine .bind .check fun closed => ?_
  split
  case isTrue found =>
    refine .pure ?_
    rintro place _ ⟨rfl, closes⟩
    exact .absent (closes.mp found)
  case isFalse other =>
    refine .bind smaller.expression fun value => .pure ?_
    rintro after start inner _ ⟨rfl, closes⟩
    exact .present (fun same => other (closes.mpr same)) inner

/-- An expression statement is read as the rule says. -/
theorem expressionStatement :
    Yields inner.expressionStatement fun tree => StmtReads (.simple tree) := by
  refine .bind smaller.expression fun value => .bind .semicolon fun _ => .pure ?_
  rintro after _ ⟨token, ends, rfl⟩ start inner
  exact .simple inner ends

/-- A declared variable is read as the rule says, behind its keyword. -/
theorem variableDeclaration :
    Yields inner.variableDeclaration fun tree => StmtReads (.variable tree) := by
  refine .bind .expect fun name => .bind .accept? fun equals => ?_
  split
  · refine .bind .given fun initializer => .bind .semicolon fun _ => .pure ?_
    rintro after _ ⟨token, ends, rfl⟩ _ ⟨rfl, rfl⟩ _ ⟨rfl, _⟩ _ ⟨named, rfl⟩
    exact .undefined named ends
  · have some : Yields (some <$> inner.expression) fun given start after =>
        ∃ value, given = some value ∧ ExprReads (.expression value) start after :=
      .map (smaller.expression.mono fun value _ _ reads => ⟨value, rfl, reads⟩)
    refine .bind some fun initializer => .bind .semicolon fun _ => .pure ?_
    rintro after _ ⟨token, ends, rfl⟩ start ⟨value, rfl, inner⟩ _ ⟨mark, rfl⟩ _ ⟨named, rfl⟩
    exact .initialized named mark inner ends

/-- A condition is an expression between parentheses. -/
theorem condition {opening closing : Expectation} :
    Yields (inner.condition opening closing) fun test start after =>
      ∃ left right : Token, ∃ inside behind : Place, left.kind = .symbol .leftParen ∧
        ExprReads (.expression test) inside behind ∧ right.kind = .symbol .rightParen ∧
          start = inside.push left ∧ behind = after.push right := by
  refine .bind .expect fun left => .bind smaller.expression fun test => ?_
  refine .bind .expect fun right => .pure ?_
  rintro after _ ⟨closes, rfl⟩ start inner _ ⟨opens, rfl⟩
  exact ⟨left, right, start, _, opens, inner, closes, rfl, rfl⟩

/-- The first clause of a `for` loop is read as the rule says. -/
theorem forInitializer :
    Yields inner.forInitializer fun clause => StmtReads (.initializer clause) := by
  refine .bind .current fun token => ?_
  split
  case h_1 ends => exact .past ends nofun (.pure fun _ => .noInitializer ends)
  case h_2 mark =>
    refine .past mark nofun (.map (smaller.variableDeclaration.mono ?_))
    intro tree start after clause
    exact .variableInitializer mark clause
  case h_3 =>
    refine .map (smaller.expressionStatement.mono ?_)
    rintro tree start after clause _ ⟨rfl, _⟩
    exact .simpleInitializer clause

/-- Parameters are read as the rule says, with their count at hand. -/
theorem parameterList (count : Nat) :
    Yields (inner.parameterList count) fun names => StmtReads (.parameters count names) := by
  have name : Yields (Parse.expect .identifier .parameterName) _ := .expect
  have entry := (Yields.entries name (smaller.parameters (count + 1))).mono
    fun _ _ _ found => StmtReads.ofEntries found
  unfold Readers.parameterList
  split
  case isTrue full =>
    refine .bind .current fun token => .bind .report fun _ => entry.mono ?_
    intro names middle after _ start absurd
    exact absurd.elim
  case isFalse free =>
    exact entry.mono fun names start after reads => reads (by omega)

/-- A function is read as the rule says, whatever kind it is. -/
theorem routine {kind : RoutineKind} :
    Yields (inner.routine kind) fun declaration => StmtReads (.routine declaration) := by
  refine .bind .expect fun name => .bind .expect fun opening => .bind .check fun closed => ?_
  split
  case isTrue found =>
    refine .bind .given fun names => ?_
    refine .bind .expect fun closing => .bind .expect fun brace => ?_
    refine .bind smaller.block fun trees => .pure ?_
    rintro after start inner _ ⟨enters, rfl⟩ _ ⟨closes, rfl⟩ _ ⟨rfl, rfl⟩ _ ⟨rfl, _⟩
      _ ⟨opens, rfl⟩ _ ⟨named, rfl⟩
    exact .routineEmpty named opens closes enters inner
  case isFalse =>
    refine .bind (smaller.parameters 0) fun names => ?_
    refine .bind .expect fun closing => .bind .expect fun brace => ?_
    refine .bind smaller.block fun trees => .pure ?_
    rintro after start inner _ ⟨enters, rfl⟩ _ ⟨closes, rfl⟩ _ list _ ⟨rfl, _⟩
      _ ⟨opens, rfl⟩ _ ⟨named, rfl⟩
    exact .routine named opens list closes enters inner

/-- Methods are read as the rule says, up to the closing brace. -/
theorem members {method : Parse FunctionDecl}
    (member : Yields method fun declaration => StmtReads (.routine declaration)) :
    Yields (inner.members method) fun declarations => StmtReads (.methods declarations) := by
  refine .bind .check fun closed => .bind .isAtEnd fun ended => ?_
  split
  case isTrue found =>
    refine .pure ?_
    rintro place _ ⟨rfl, ends⟩ _ ⟨rfl, closes⟩
    exact .methodsEnd (by rwa [← closes, ← ends, ← Bool.or_eq_true])
  case isFalse =>
    refine .bind member fun first => .bind (smaller.methods member) fun others => .pure ?_
    rintro after middle more start head _ ⟨rfl, _⟩ _ ⟨rfl, _⟩
    exact .methodsMore head more

/-- A class is read as the rule says, behind its keyword. -/
theorem classDeclaration :
    Yields inner.classDeclaration fun tree start after =>
      ∀ keyword : Token, keyword.kind = .keyword .classWord →
        StmtReads (.declaration tree) (start.push keyword) after := by
  refine .bind .expect fun name => .bind .superclass? fun parent => .bind .expect fun opening => ?_
  refine .bind (smaller.methods smaller.routine) fun members => .bind .expect fun closing => ?_
  refine .pure ?_
  rintro after _ ⟨closes, rfl⟩ start inner _ ⟨opens, rfl⟩ place derived _ ⟨named, rfl⟩ keyword mark
  exact .class mark named derived opens inner closes

/-- A declaration is read as the rule says, whatever token it starts with. -/
theorem anyDeclaration :
    Yields inner.anyDeclaration fun tree => StmtReads (.declaration tree) := by
  refine .bind .current fun token => ?_
  split
  case h_1 mark =>
    exact .past mark nofun (smaller.classDeclaration.mono fun _ _ _ reads => reads token mark)
  case h_2 mark =>
    refine .past mark nofun (.bind smaller.routine fun declaration => .pure ?_)
    intro after start inner
    exact .function mark inner
  case h_3 mark =>
    refine .past mark nofun (smaller.variableDeclaration.mono ?_)
    intro tree start after inner
    exact .variableDeclaration mark inner
  case h_4 =>
    refine smaller.statement.mono ?_
    rintro tree start after inner _ ⟨rfl, _⟩
    exact .plain inner

/-- A `for` loop is read as the rule says, behind its keyword. -/
theorem forStatement :
    Yields inner.forStatement fun tree start after =>
      ∀ keyword : Token, keyword.kind = .keyword .forWord →
        StmtReads (.statement tree) (start.push keyword) after := by
  refine .bind .expect fun opening => .bind smaller.forInitializer fun initializer => ?_
  refine .bind smaller.expressionUnless fun test => .bind .semicolon fun _ => ?_
  refine .bind smaller.expressionUnless fun increment => .bind .expect fun closing => ?_
  refine .bind smaller.statement fun body => .pure ?_
  rintro after start inner _ ⟨closes, rfl⟩ second step _ ⟨semicolon, ends, rfl⟩ middle condition
    place first _ ⟨opens, rfl⟩ keyword mark
  exact .for mark opens first condition ends step closes inner

/-- A branch is read as the rule says, behind its keyword. -/
theorem ifStatement :
    Yields inner.ifStatement fun tree start after =>
      ∀ keyword : Token, keyword.kind = .keyword .ifWord →
        StmtReads (.statement tree) (start.push keyword) after := by
  refine .bind smaller.condition fun test => .bind smaller.statement fun whenTrue => ?_
  refine .bind .accept? fun other => ?_
  split
  · refine .pure ?_
    rintro place _ ⟨rfl, stop⟩ start inner _ ⟨left, right, _, _, opens, condition, closes, rfl, rfl⟩
      keyword mark
    exact .if mark opens condition closes inner stop
  · refine .bind smaller.statement fun whenFalse => .pure ?_
    rintro after second outer _ ⟨otherwise, rfl⟩ start inner
      _ ⟨left, right, _, _, opens, condition, closes, rfl, rfl⟩ keyword mark
    exact .ifElse mark opens condition closes inner otherwise outer

/-- A statement is read as the rule says, whatever token it starts with. -/
theorem anyStatement :
    Yields inner.anyStatement fun tree => StmtReads (.statement tree) := by
  refine .bind .current fun token => ?_
  split
  case h_1 mark =>
    exact .past mark nofun (smaller.forStatement.mono fun _ _ _ reads => reads token mark)
  case h_2 mark =>
    exact .past mark nofun (smaller.ifStatement.mono fun _ _ _ reads => reads token mark)
  case h_3 mark =>
    refine .past mark nofun (.bind smaller.expression fun value => ?_)
    refine .bind .semicolon fun _ => .pure ?_
    rintro after _ ⟨semicolon, ends, rfl⟩ start inner
    exact .print mark inner ends
  case h_4 mark =>
    refine .past mark nofun (.bind smaller.expressionUnless fun value => ?_)
    refine .bind .semicolon fun _ => .pure ?_
    rintro after _ ⟨semicolon, ends, rfl⟩ start inner
    exact .return mark inner ends
  case h_5 mark =>
    refine .past mark nofun (.bind smaller.condition fun test => ?_)
    refine .bind smaller.statement fun body => .pure ?_
    rintro after start inner _ ⟨left, right, _, _, opens, condition, closes, rfl, rfl⟩
    exact .while mark opens condition closes inner
  case h_6 opens =>
    refine .past opens nofun (.bind smaller.block fun body => .pure ?_)
    intro after start inner
    exact .block opens inner
  case h_7 =>
    refine smaller.expressionStatement.mono ?_
    rintro tree start after inner _ ⟨rfl, _⟩
    exact .expression inner

/-- A block is read as the rule says, up to its brace. -/
theorem blockRest :
    Yields inner.blockRest fun trees => StmtReads (.block trees) := by
  refine .bind .check fun closed => .bind .isAtEnd fun ended => ?_
  split
  · refine .bind .expect fun closing => .pure ?_
    rintro after _ ⟨closes, rfl⟩ _ ⟨rfl, _⟩ _ ⟨rfl, _⟩
    exact .blockEnd closes
  · refine .bind (.recovering smaller.declaration) fun first => ?_
    refine .bind smaller.block fun others => .pure ?_
    rintro after middle more start ⟨tree, rfl, head⟩ _ ⟨rfl, _⟩ _ ⟨rfl, _⟩
    exact .blockMore head more

/-- Readers that are unfolded once more read as the rules say. -/
theorem unfolded : Sound inner.unfolded where
  expression := smaller.assignment
  chain := smaller.operands
  chainRest := smaller.operandsBehind
  unary := smaller.prefixed
  accesses := smaller.accessed
  arguments := smaller.argumentList
  primary := smaller.atom
  parameters := smaller.parameterList
  methods := smaller.members
  declaration := smaller.anyDeclaration
  statement := smaller.anyStatement
  block := smaller.blockRest

end Sound

/-- The readers make readings at every depth bound. -/
theorem sound (depth : Nat) : Sound (readers depth) := by
  induction depth with
  | zero => exact .exhausted
  | succ depth smaller => exact smaller.unfolded

/-- Declarations that take a token each are all read before the depth bound runs out. -/
theorem program_yields (depth : Nat) :
    Yields (readers depth).program fun trees start after =>
      start.remaining.length ≤ depth → StmtReads (.program trees) start after := by
  induction depth with
  | zero =>
    refine Yields.pure fun place bounded => ?_
    obtain ⟨remaining, nextId⟩ := place
    obtain rfl : remaining = [] := List.eq_nil_of_length_eq_zero (Nat.le_zero.mp bounded)
    exact .programEnd
  | succ depth inductionHypothesis =>
    refine .bind .isAtEnd fun ended => ?_
    split
    case isTrue found =>
      refine .pure ?_
      rintro ⟨remaining, nextId⟩ _ ⟨rfl, ends⟩ _
      cases remaining with
      | nil => exact .programEnd
      | cons token rest => simp [found] at ends
    case isFalse =>
      refine .bind (.recovering (sound depth).declaration) fun first => ?_
      refine .bind inductionHypothesis fun rest => .pure ?_
      rintro after middle more start ⟨tree, rfl, head⟩ _ ⟨rfl, _⟩ bounded
      have shorter := (head.opens rfl).length_lt
      exact .programMore head (more (by omega))

end Parse

/-- The reading of a program goes to the end of the tokens. -/
theorem StmtReads.program_remaining {trees : List Stmt} {start after : Place}
    (reads : StmtReads (.program trees) start after) : after.remaining = [] := by
  generalize phrased : StmtPhrase.program trees = phrase at reads
  induction reads generalizing trees with
  | programEnd => rfl
  | programMore _ _ _ more => exact more rfl
  | _ => cases phrased

/-- The place of a whole token list, with identities handed out from a first one on. -/
def Place.ofTokens (tokens : List Token) (firstId : Nat) : Place :=
  ⟨tokens.takeWhile (·.kind ≠ .eof), firstId⟩

/-- Behind its tokens a fresh cursor has an end marker. -/
theorem Cursor.start_regular (tokens : List Token) (firstId : Nat) :
    (Cursor.start tokens firstId).Regular := by
  unfold Regular start endOf
  cases found : tokens.find? (·.kind = .eof) with
  | none => rfl
  | some marker => simpa using List.find?_some found

/-- There are no more tokens than nestings. -/
theorem length_le_parseDepth (tokens : List Token) (firstId : Nat) :
    (Cursor.start tokens firstId).remaining.length ≤ parseDepth tokens.length := by
  have shorter : (tokens.takeWhile (·.kind ≠ .eof)).length ≤ tokens.length :=
    (List.takeWhile_prefix _).length_le
  simp only [Cursor.start, parseDepth]
  omega

/-- A token list in which parsing finds no violation has a reading as a program. -/
theorem parse_reads {tokens : List Token} {firstId : Nat}
    (clean : (parse tokens firstId).errors = []) :
    StmtReads (.program (parse tokens firstId).statements) (.ofTokens tokens firstId)
      ⟨[], (parse tokens firstId).nextId⟩ := by
  unfold parse at clean ⊢
  have bounded := length_le_parseDepth tokens firstId
  generalize parseDepth tokens.length = depth at clean bounded ⊢
  have yields := Parse.program_yields depth
  rw [← Parse.always_program] at yields
  have ended : Parse.always (Parse.program depth) (Cursor.start tokens firstId) =
      .read (Parse.program depth (Cursor.start tokens firstId)).1
        (Parse.program depth (Cursor.start tokens firstId)).2 := rfl
  have reads := yields.meaning ended (Cursor.start_regular tokens firstId) clean bounded
  have ended := reads.program_remaining
  rw [show (Parse.program depth (Cursor.start tokens firstId)).2.place =
    ⟨[], (Parse.program depth (Cursor.start tokens firstId)).2.nextId⟩ from
    congrArg (Place.mk · _) ended] at reads
  exact reads

end LoxLang
