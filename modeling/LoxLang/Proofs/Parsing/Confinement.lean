import LoxLang.Proofs.Parsing.Surroundings

/-!
# Readers amid surroundings

All readers are confined once their depth bound suffices for the tokens that are left. What stands
below the bound does not matter then: it is not reached. With arbitrary readers at the lowest level,
`Readers.bounded` leaves open what happens where the bound runs out. So any two bounds that suffice
give the same, for declarations (`declaration_amid`) and for whole programs (`program_amid`), and
every program is read up to its end (`program_remaining`).
-/

namespace LoxLang

/-- The readers of a bound, above arbitrary ones that answer where it runs out. -/
def Readers.bounded (below : Readers) : Nat → Readers
  | 0 => below
  | depth + 1 => (below.bounded depth).unfolded

/-- The readers of a bound are those of a smaller one, unfolded. -/
theorem readers_add (depth extra : Nat) :
    readers (depth + extra) = (readers extra).bounded depth := by
  induction depth with
  | zero => rw [Nat.zero_add, Readers.bounded]
  | succ depth inductionHypothesis =>
    rw [Nat.succ_add, readers_succ, inductionHypothesis, Readers.bounded]

/-- The next tighter level is one nesting closer to its first token. -/
theorem Level.rank_tighter {level tighter : Level} (found : level.tighter? = some tighter) :
    tighter.rank + 1 = level.rank := by
  cases level <;> cases found <;> rfl

/-- An operand below every level is at least a prefix expression. -/
theorem Level.three_le_rank (level : Level) : 3 ≤ level.rank := by
  cases level <;> decide

namespace Parse

namespace Confined

variable {around : Surroundings} {cursor : Cursor}

/-- A semicolon is one token, or the step refuses. -/
theorem semicolon (expectation : Expectation) (regular : cursor.Regular) :
    Confined around (fun _ => 1) (semicolon expectation) (semicolon expectation) cursor :=
  bind regular (expect _ _) fun _ _ _ _ => pure rfl

/-- A class without a superclass takes no token here. -/
theorem superclass? (regular : cursor.Regular) :
    Confined around (fun _ => 0) superclass? superclass? cursor := by
  refine optional regular (accept? _) (fun _ _ _ => pure rfl) fun _ _ regular _ => ?_
  refine bind regular (expect _ _) fun name _ regular _ => ?_
  exact bind regular freshId fun _ _ _ _ => pure rfl

end Confined

/-- A reader of this rank is confined wherever its depth bound suffices for the tokens left. -/
def Confines {α : Type} (around : Surroundings) (depth rank taken : Nat) (step image : Parse α) :
    Prop :=
  ∀ cursor : Cursor, cursor.Regular → 16 * cursor.remaining.length + rank ≤ depth →
    Confined around (fun _ => taken) step image cursor

/-- Without a depth no reader has room. -/
theorem Confines.zero {α : Type} {around : Surroundings} {rank taken : Nat} {step image : Parse α}
    (ranked : 0 < rank) : Confines around 0 rank taken step image := by
  intro cursor _ room
  omega

/-- Readers are confined at a depth bound, with others as their images. The methods of a class are
counted by a bound of their own. -/
structure ReadersConfine (around : Surroundings) (depth : Nat) (step image : Readers) : Prop where
  expression : Confines around depth 9 0 step.expression image.expression
  chain : ∀ level : Level, Confines around depth level.rank 0 (step.chain level) (image.chain level)
  chainRest : ∀ (level : Level) (left : Expr),
    Confines around depth 1 0 (step.chainRest level left) (image.chainRest level left)
  unary : Confines around depth 2 0 step.unary image.unary
  accesses : ∀ object : Expr,
    Confines around depth 1 0 (step.accesses object) (image.accesses object)
  arguments : ∀ count : Nat,
    Confines around depth 10 0 (step.arguments count) (image.arguments count)
  primary : Confines around depth 1 0 step.primary image.primary
  parameters : ∀ count : Nat,
    Confines around depth 1 0 (step.parameters count) (image.parameters count)
  methods : ∀ {room : Nat} {method methodImage : Parse FunctionDecl},
    Confines around room 1 1 method methodImage → ∀ cursor : Cursor, cursor.Regular →
    16 * cursor.remaining.length + 1 ≤ room → 16 * cursor.remaining.length + 1 ≤ depth →
    Confined around (fun _ => 0) (step.methods method) (image.methods methodImage) cursor
  declaration : Confines around depth 11 1 step.declaration image.declaration
  statement : Confines around depth 10 1 step.statement image.statement
  block : Confines around depth 12 1 step.block image.block
  program : Confines around depth 12 0 step.program image.program

namespace ReadersConfine

variable {around : Surroundings} {depth : Nat} {step image : Readers}

/-- Without a depth nothing is read. -/
theorem zero (around : Surroundings) (step image : Readers) :
    ReadersConfine around 0 step image where
  expression := .zero (by decide)
  chain := fun level => .zero (by cases level <;> decide)
  chainRest := fun _ _ => .zero (by decide)
  unary := .zero (by decide)
  accesses := fun _ => .zero (by decide)
  arguments := fun _ => .zero (by decide)
  primary := .zero (by decide)
  parameters := fun _ => .zero (by decide)
  methods := by
    intro _ _ _ _ cursor _ _ room
    omega
  declaration := .zero (by decide)
  statement := .zero (by decide)
  block := .zero (by decide)
  program := .zero (by decide)

variable (smaller : ReadersConfine around depth step image)
include smaller

/-- An operand stands one nesting further in than its level. -/
theorem operand (level : Level) :
    Confines around depth (level.rank - 1) 0 (step.operand level) (image.operand level) := by
  have ranked := level.three_le_rank
  intro cursor regular room
  unfold Readers.operand
  split
  case h_1 tighter found =>
    have below := Level.rank_tighter found
    exact smaller.chain tighter cursor regular (by omega)
  case h_2 => exact smaller.unary cursor regular (by omega)

/-- An expression that may be missing need not take a token. -/
theorem expressionUnless (closing : Kind) :
    Confines around depth 9 0 (step.expressionUnless closing)
      (image.expressionUnless closing) := by
  intro cursor regular room
  refine .check closing ?_
  split
  · exact .pure rfl
  · exact .bind regular (smaller.expression cursor regular room) fun _ _ _ _ => .pure rfl

/-- An expression statement takes its semicolon at least. -/
theorem expressionStatement :
    Confines around depth 9 1 step.expressionStatement image.expressionStatement := by
  intro cursor regular room
  refine .bind regular (smaller.expression cursor regular room) fun value _ regular _ => ?_
  exact .bind regular (.semicolon _ regular) fun _ _ _ _ => .pure rfl

/-- A declared variable takes its name at least. -/
theorem variableDeclaration :
    Confines around depth 9 1 step.variableDeclaration image.variableDeclaration := by
  intro cursor regular room
  refine .bind regular (.expect _ _) fun name after regular shorter => ?_
  have rest (initializer : Option Expr) (after : Cursor) (regular : after.Regular) :
      Confined around (fun _ => 0)
        (do
          semicolon .declarationEnd
          return Stmt.declare name initializer)
        (do
          semicolon .declarationEnd
          return Stmt.declare name initializer) after :=
    .bind regular (.semicolon _ regular) fun _ _ _ _ => .pure rfl
  refine .optional regular (.accept? _) ?_ ?_
  · exact fun after regular _ => rest none after regular
  · intro equals after regular shorter
    have value : Confined around (fun _ => 0) _ _ after :=
      smaller.expression after regular (by omega)
    have given : Confined around (fun _ => 0) (some <$> _) (some <$> _) after :=
      .map regular value fun _ => Nat.le_refl _
    exact .bind regular given fun initializer after regular _ => rest initializer after regular

/-- A printed expression takes its semicolon at least. -/
theorem printStatement (keyword : Token) :
    Confines around depth 9 1 (step.printStatement keyword) (image.printStatement keyword) := by
  intro cursor regular room
  refine .bind regular (smaller.expression cursor regular room) fun value _ regular _ => ?_
  exact .bind regular (.semicolon _ regular) fun _ _ _ _ => .pure rfl

/-- A `return` takes its semicolon at least. -/
theorem returnStatement (keyword : Token) :
    Confines around depth 9 1 (step.returnStatement keyword) (image.returnStatement keyword) := by
  intro cursor regular room
  refine .bind regular (smaller.expressionUnless _ cursor regular room) ?_
  intro value _ regular _
  exact .bind regular (.semicolon _ regular) fun _ _ _ _ => .pure rfl

/-- A condition takes its parentheses at least. -/
theorem condition (opening closing : Expectation) :
    Confines around depth 9 1 (step.condition opening closing)
      (image.condition opening closing) := by
  intro cursor regular room
  refine .bind regular (.expect _ _) fun _ after regular shorter => ?_
  refine .bind regular (smaller.expression after regular (by omega)) fun value _ regular _ => ?_
  exact .bind regular (.expect _ _) fun _ _ _ _ => .pure rfl

/-- A branch takes its condition, so that the statement inside has fewer tokens left. -/
theorem ifStatement : Confines around depth 9 1 step.ifStatement image.ifStatement := by
  intro cursor regular room
  refine .bind regular (smaller.condition _ _ cursor regular room) ?_
  intro test after regular shorter
  refine .bind regular (smaller.statement after regular (by omega)) ?_
  intro whenTrue after regular shorter
  refine .optional regular (.accept? _) (fun _ _ _ => .pure rfl) ?_
  intro _ after regular shorter
  exact .bind regular (smaller.statement after regular (by omega)) fun _ _ _ _ => .pure rfl

/-- A loop takes its condition, so that its body has fewer tokens left. -/
theorem whileStatement : Confines around depth 9 1 step.whileStatement image.whileStatement := by
  intro cursor regular room
  refine .bind regular (smaller.condition _ _ cursor regular room) ?_
  intro test after regular shorter
  exact .bind regular (smaller.statement after regular (by omega)) fun _ _ _ _ => .pure rfl

/-- The first clause of a `for` loop may be missing. -/
theorem forInitializer : Confines around depth 9 0 step.forInitializer image.forInitializer := by
  intro cursor regular room
  refine .look ?_
  split
  case h_1 shown => exact .past regular (by simp [shown]) fun _ _ _ => .pure rfl
  case h_2 shown =>
    refine .past regular (by simp [shown]) fun after regular shorter => ?_
    exact .map regular (smaller.variableDeclaration after regular (by omega))
      fun _ => Nat.zero_le _
  case h_3 =>
    exact .map regular (smaller.expressionStatement cursor regular room) fun _ => Nat.zero_le _

/-- A `for` loop takes its parentheses, so that its body has fewer tokens left. -/
theorem forStatement : Confines around depth 9 1 step.forStatement image.forStatement := by
  intro cursor regular room
  refine .bind regular (.expect _ _) fun _ after regular _ => ?_
  refine .bind regular (smaller.forInitializer after regular (by omega)) ?_
  intro initializer after regular _
  refine .bind regular (smaller.expressionUnless _ after regular (by omega)) ?_
  intro test after regular _
  refine .bind regular (.semicolon _ regular) fun _ after regular _ => ?_
  refine .bind regular (smaller.expressionUnless _ after regular (by omega)) ?_
  intro increment after regular _
  refine .bind regular (.expect _ _) fun _ after regular _ => ?_
  exact .bind regular (smaller.statement after regular (by omega)) fun _ _ _ _ => .pure rfl

/-- A function takes its name and its parentheses, so that its body has fewer tokens left. -/
theorem routine (kind : RoutineKind) :
    Confines around depth 1 1 (step.routine kind) (image.routine kind) := by
  intro cursor regular room
  refine .bind regular (.expect _ _) fun name after regular _ => ?_
  refine .bind regular (.expect _ _) fun _ after regular _ => .check _ ?_
  have rest (names : List Token) (after : Cursor) (regular : after.Regular)
      (shorter : after.remaining.length + 2 ≤ cursor.remaining.length) :
      Confined around (fun _ => 0)
        (do
          let _ ← expect (.symbol .rightParen) .parametersEnd
          let _ ← expect (.symbol .leftBrace) (.routineBodyOpening kind)
          return FunctionDecl.mk name names (← step.block))
        (do
          let _ ← expect (.symbol .rightParen) .parametersEnd
          let _ ← expect (.symbol .leftBrace) (.routineBodyOpening kind)
          return FunctionDecl.mk name names (← image.block)) after := by
    refine .bind regular (.expect _ _) fun _ after regular _ => ?_
    refine .bind regular (.expect _ _) fun _ after regular _ => ?_
    exact .bind regular (smaller.block after regular (by omega)) fun _ _ _ _ => .pure rfl
  split
  · exact rest [] after regular (by omega)
  · exact .bind regular (smaller.parameters 0 after regular (by omega))
      fun names after regular _ => rest names after regular (by omega)

/-- A class takes its name and its brace, so that its methods have fewer tokens left. -/
theorem classDeclaration :
    Confines around depth 1 1 step.classDeclaration image.classDeclaration := by
  intro cursor regular room
  refine .bind regular (.expect _ _) fun name after regular _ => ?_
  refine .bind regular (.superclass? regular) fun parent after regular _ => ?_
  refine .bind regular (.expect _ _) fun _ after regular _ => ?_
  refine .bind regular
    (smaller.methods (smaller.routine .method) after regular (by omega) (by omega)) ?_
  intro members after regular _
  exact .bind regular (.expect _ _) fun _ _ _ _ => .pure rfl

/-- The target of an assignment is a disjunction, one nesting further in. -/
theorem assignment :
    Confines around (depth + 1) 9 0 step.assignment image.assignment := by
  intro cursor regular room
  have ranked : Level.disjunction.rank = 8 := rfl
  refine .bind regular (smaller.chain .disjunction cursor regular (by omega)) ?_
  intro target after regular shorter
  refine .optional regular (.accept? _) (fun _ _ _ => .pure rfl) ?_
  intro equals after regular shorter
  refine .bind regular (smaller.expression after regular (by omega)) ?_
  intro value after regular shorter
  exact .assignTo target equals value regular

/-- The first operand of a chain is one nesting further in. -/
theorem operands (level : Level) :
    Confines around (depth + 1) level.rank 0 (step.operands level)
      (image.operands level) := by
  intro cursor regular room
  have ranked := level.three_le_rank
  refine .bind regular (smaller.operand level cursor regular (by omega)) ?_
  exact fun first after regular shorter => smaller.chainRest level first after regular (by omega)

/-- Another operand comes behind an operator, which has been taken. -/
theorem operandsBehind (level : Level) (left : Expr) :
    Confines around (depth + 1) 1 0 (step.operandsBehind level left)
      (image.operandsBehind level left) := by
  intro cursor regular room
  refine .optional regular (.acceptOperator? level regular) (fun _ _ _ => .pure rfl) ?_
  intro operator after regular shorter
  have bounded := level.rank_le
  refine .bind regular (smaller.operand level after regular (by omega)) ?_
  exact fun right after regular shorter => smaller.chainRest level _ after regular (by omega)

/-- A prefix expression comes behind its operator, or is a call. -/
theorem prefixed :
    Confines around (depth + 1) 2 0 step.prefixed image.prefixed := by
  intro cursor regular room
  refine .optional regular (.acceptPrefixOperator? regular) ?_ ?_
  · intro after regular shorter
    refine .bind regular (smaller.primary after regular (by omega)) ?_
    intro callee after regular shorter
    exact smaller.accesses callee after regular (by omega)
  · intro operator after regular shorter
    refine .bind regular (smaller.unary after regular (by omega)) ?_
    exact fun operand _ _ _ => .pure rfl

/-- Another call or property comes behind a token that has been taken. -/
theorem accessed (object : Expr) :
    Confines around (depth + 1) 1 0 (step.accessed object)
      (image.accessed object) := by
  intro cursor regular room
  refine .look ?_
  split
  case h_1 opens =>
    refine .past regular (by simp [opens]) fun after regular shorter => .check _ ?_
    have rest (list : List Expr) (after : Cursor) (regular : after.Regular)
        (shorter : after.remaining.length + 1 ≤ cursor.remaining.length) :
        Confined around (fun _ => 0)
          (do
            let paren ← expect (.symbol .rightParen) .argumentsEnd
            step.accesses (.call object paren list))
          (do
            let paren ← expect (.symbol .rightParen) .argumentsEnd
            image.accesses (.call object paren list)) after :=
      .bind regular (.expect _ _) fun paren after regular shorter =>
        smaller.accesses _ after regular (by omega)
    split
    · exact rest [] after regular (by omega)
    · exact .bind regular (smaller.arguments 0 after regular (by omega))
        fun list after regular shorter => rest list after regular (by omega)
  case h_2 opens =>
    refine .past regular (by simp [opens]) fun after regular shorter => ?_
    refine .bind regular (.expect _ _) fun name after regular shorter => ?_
    exact smaller.accesses _ after regular (by omega)
  case h_3 => exact .pure rfl

/-- An argument comes behind a parenthesis or a comma, which has been taken. -/
theorem argumentList (count : Nat) :
    Confines around (depth + 1) 10 0 (step.argumentList count)
      (image.argumentList count) := by
  intro cursor regular room
  have list (cursor : Cursor) (regular : cursor.Regular)
      (room : 16 * cursor.remaining.length + 10 ≤ depth + 1) :=
    Confined.entries regular (smaller.expression cursor regular (by omega))
      fun after regular shorter => smaller.arguments (count + 1) after regular (by omega)
  unfold Readers.argumentList
  dsimp only
  split
  · refine .look (.bind regular (.report _) fun _ after regular shorter => ?_)
    exact list after regular (by omega)
  · exact list cursor regular room

/-- A grouping holds an expression behind its parenthesis. -/
theorem atom :
    Confines around (depth + 1) 1 0 step.atom image.atom := by
  intro cursor regular room
  refine .look ?_
  split
  case h_10 => exact .refuse _
  case h_6 shown | h_8 shown =>
    refine .past regular (by simp [shown]) fun after regular _ => ?_
    exact .bind regular .freshId fun id _ _ _ => .pure rfl
  case h_7 shown =>
    exact .past regular (by simp [shown]) fun after regular _ => .superAccess _ regular
  case h_9 shown =>
    refine .past regular (by simp [shown]) fun after regular shorter => ?_
    refine .bind regular (smaller.expression after regular (by omega)) ?_
    intro inner after regular shorter
    exact .bind regular (.expect _ _) fun _ _ _ _ => .pure rfl
  all_goals
    rename_i shown
    exact .past regular (by simp [shown]) fun _ _ _ => .pure rfl

/-- A parameter comes behind a parenthesis or a comma, which has been taken. -/
theorem parameterList (count : Nat) :
    Confines around (depth + 1) 1 0 (step.parameterList count)
      (image.parameterList count) := by
  intro cursor regular room
  have list (cursor : Cursor) (regular : cursor.Regular)
      (room : 16 * cursor.remaining.length + 1 ≤ depth + 1) := by
    have name : Confined around (fun _ => 1) _ _ cursor := .expect .identifier .parameterName
    exact Confined.entries regular name fun after regular shorter =>
      smaller.parameters (count + 1) after regular (by omega)
  unfold Readers.parameterList
  dsimp only
  split
  · refine .look (.bind regular (.report _) fun _ after regular shorter => ?_)
    exact list after regular (by omega)
  · exact list cursor regular room

/-- The methods of a class are read as far as their brace; each takes its name at least. -/
theorem members {room : Nat} {method methodImage : Parse FunctionDecl}
    (inner : Confines around room 1 1 method methodImage) (cursor : Cursor)
    (regular : cursor.Regular) (enough : 16 * cursor.remaining.length + 1 ≤ room)
    (counted : 16 * cursor.remaining.length + 1 ≤ depth + 1) :
    Confined around (fun _ => 0) (step.members method)
      (image.members methodImage) cursor := by
  refine .check _ (.isAtEnd ?_)
  split
  · exact .pure rfl
  · refine .bind regular (inner cursor regular enough) fun first after regular shorter => ?_
    refine .bind regular (smaller.methods inner after regular (by omega) (by omega)) ?_
    exact fun others _ _ _ => .pure rfl

/-- A declaration takes a token unless the tokens have ended. -/
theorem anyDeclaration :
    Confines around (depth + 1) 11 1 step.anyDeclaration image.anyDeclaration := by
  intro cursor regular room
  refine .look ?_
  split
  case h_1 shown =>
    refine .past regular (by simp [shown]) fun after regular shorter => ?_
    exact (smaller.classDeclaration after regular (by omega)).mono fun _ => Nat.zero_le _
  case h_2 shown =>
    refine .past regular (by simp [shown]) fun after regular shorter => ?_
    exact .bind regular (smaller.routine _ after regular (by omega)) fun _ _ _ _ => .pure rfl
  case h_3 shown =>
    refine .past regular (by simp [shown]) fun after regular shorter => ?_
    exact (smaller.variableDeclaration after regular (by omega)).mono fun _ => Nat.zero_le _
  case h_4 => exact smaller.statement cursor regular (by omega)

/-- A statement takes a token unless the tokens have ended. -/
theorem anyStatement :
    Confines around (depth + 1) 10 1 step.anyStatement image.anyStatement := by
  intro cursor regular room
  refine .look ?_
  split
  case h_7 => exact smaller.expressionStatement cursor regular (by omega)
  case h_1 shown =>
    refine .past regular (by simp [shown]) fun after regular shorter => ?_
    exact (smaller.forStatement after regular (by omega)).mono fun _ => Nat.zero_le _
  case h_2 shown =>
    refine .past regular (by simp [shown]) fun after regular shorter => ?_
    exact (smaller.ifStatement after regular (by omega)).mono fun _ => Nat.zero_le _
  case h_3 shown =>
    refine .past regular (by simp [shown]) fun after regular shorter => ?_
    exact (smaller.printStatement _ after regular (by omega)).mono fun _ => Nat.zero_le _
  case h_4 shown =>
    refine .past regular (by simp [shown]) fun after regular shorter => ?_
    exact (smaller.returnStatement _ after regular (by omega)).mono fun _ => Nat.zero_le _
  case h_5 shown =>
    refine .past regular (by simp [shown]) fun after regular shorter => ?_
    exact (smaller.whileStatement after regular (by omega)).mono fun _ => Nat.zero_le _
  case h_6 shown =>
    refine .past regular (by simp [shown]) fun after regular shorter => ?_
    exact .bind regular (smaller.block after regular (by omega)) fun _ _ _ _ => .pure rfl

/-- The rest of a block takes its brace at least. -/
theorem blockRest :
    Confines around (depth + 1) 12 1 step.blockRest image.blockRest := by
  intro cursor regular room
  refine .check _ (.isAtEnd ?_)
  split
  case isTrue => exact .bind regular (.expect _ _) fun _ _ _ _ => .pure rfl
  case isFalse further =>
    have inside : cursor.isAtEnd = false := by
      cases ended : cursor.isAtEnd with
      | false => rfl
      | true => simp [ended] at further
    have head := smaller.declaration cursor regular (by omega)
    refine .bind regular (head.recovering inside) fun first after regular shorter => ?_
    refine .bind regular (smaller.block after regular (by omega)) fun rest _ _ _ => ?_
    exact .pure rfl

/-- The rest of a program may be empty. -/
theorem declarations :
    Confines around (depth + 1) 12 0 step.declarations image.declarations := by
  intro cursor regular room
  refine .isAtEnd ?_
  split
  case isTrue => exact .pure rfl
  case isFalse further =>
    have inside : cursor.isAtEnd = false := by simpa using further
    have head := smaller.declaration cursor regular (by omega)
    refine .bind regular (head.recovering inside) fun first after regular shorter => ?_
    refine .bind regular (smaller.program after regular (by omega)) fun rest _ _ _ => ?_
    exact .pure rfl

/-- One more nesting than all readers need is enough for what they start. -/
theorem unfolded : ReadersConfine around (depth + 1) step.unfolded image.unfolded where
  expression := smaller.assignment
  chain := smaller.operands
  chainRest := smaller.operandsBehind
  unary := smaller.prefixed
  accesses := smaller.accessed
  arguments := smaller.argumentList
  primary := smaller.atom
  parameters := smaller.parameterList
  methods := smaller.members
  declaration := smaller.anyDeclaration
  statement := smaller.anyStatement
  block := smaller.blockRest
  program := smaller.declarations

end ReadersConfine

/-- The readers of a bound are confined whatever stands below the bound, and do the same above
anything else. -/
theorem bounded_confine (around : Surroundings) (below other : Readers) (depth : Nat) :
    ReadersConfine around depth (below.bounded depth) (other.bounded depth) := by
  induction depth with
  | zero => exact .zero around below other
  | succ depth inductionHypothesis => exact inductionHypothesis.unfolded

/-- All readers are confined, whatever the deeper bound. -/
theorem readers_confine (around : Surroundings) {depth deeper : Nat} (more : depth ≤ deeper) :
    ReadersConfine around depth (readers depth) (readers deeper) := by
  obtain ⟨extra, rfl⟩ := Nat.exists_eq_add_of_le more
  have lower : readers depth = (readers 0).bounded depth := readers_add depth 0
  rw [readers_add depth extra, lower]
  exact bounded_confine around (readers 0) (readers extra) depth

/-- A declaration is confined. -/
theorem declaration_confines (around : Surroundings) {depth deeper : Nat}
    (more : depth ≤ deeper) :
    Confines around depth 11 1 (declaration depth) (declaration deeper) :=
  (readers_confine around more).declaration

/-- A program is confined. -/
theorem program_confines (around : Surroundings) {depth deeper : Nat} (more : depth ≤ deeper) :
    Confines around depth 12 0 (always (program depth)) (always (program deeper)) := by
  rw [always_program, always_program]
  exact (readers_confine around more).program

/-! ### Depth bounds that suffice -/

variable {around : Surroundings} {depth deeper : Nat}

/-- Without surroundings, what is confined is the same. -/
theorem Confined.eq {α : Type} {taken : α → Nat} {step image : Parse α} {cursor : Cursor}
    (confined : Confined ⟨[], cursor.endMarker, []⟩ taken step image cursor) :
    image cursor = step cursor := by
  have alone : ∀ other : Cursor, other.endMarker = cursor.endMarker →
      other.amid ⟨[], cursor.endMarker, []⟩ = other := by
    rintro ⟨remaining, marker, nextId, reported⟩ rfl
    simp [Cursor.amid]
  have marker := confined.advances.endMarker
  have same := confined.same (.inr ⟨rfl, marker.symm⟩)
  rw [alone cursor rfl] at same
  rw [same]
  cases ended : step cursor with
  | read result after | refused error after =>
    rw [ended] at marker
    simp only [Parsed.amid, alone after marker]

/-- Amid surroundings that it does not see, a reader does what it does alone, with any two depth
bounds that suffice. -/
theorem Confines.amid {α : Type} {reader : Nat → Parse α} {rank taken : Nat}
    (confines : ∀ (around : Surroundings) {depth deeper : Nat}, depth ≤ deeper →
      Confines around depth rank taken (reader depth) (reader deeper))
    {cursor : Cursor} (regular : cursor.Regular)
    (room : 16 * cursor.remaining.length + rank ≤ depth)
    (other : 16 * cursor.remaining.length + rank ≤ deeper)
    (screens : (reader depth cursor).cursor.Screens around) :
    reader deeper (cursor.amid around) = (reader depth cursor).amid around := by
  have least := (confines ⟨[], cursor.endMarker, []⟩ room cursor regular (Nat.le_refl _)).eq
  rw [least] at screens ⊢
  exact (confines around other cursor regular (Nat.le_refl _)).same screens

/-- A declaration is read amid surroundings as it is alone. -/
theorem declaration_amid {cursor : Cursor} (regular : cursor.Regular)
    (room : 16 * cursor.remaining.length + 11 ≤ depth)
    (other : 16 * cursor.remaining.length + 11 ≤ deeper)
    (screens : (declaration depth cursor).cursor.Screens around) :
    declaration deeper (cursor.amid around) = (declaration depth cursor).amid around :=
  Confines.amid (fun around _ _ more => declaration_confines around more) regular room other
    screens

/-- A declaration moves strictly forward unless the tokens have ended, whether or not it can be
read. -/
theorem recovering_advances {cursor : Cursor} (regular : cursor.Regular)
    (room : 16 * cursor.remaining.length + 11 ≤ depth) (further : cursor.isAtEnd = false) :
    cursor.Advances (recovering (declaration depth) cursor).2 ∧
      (recovering (declaration depth) cursor).2.remaining.length < cursor.remaining.length := by
  have inner := declaration_confines ⟨[], cursor.endMarker, []⟩ (Nat.le_refl depth) cursor regular
    room
  have confined := inner.recovering further
  exact ⟨confined.advances, confined.takes _ _ rfl⟩

/-- What is the same as a reading step is the same step. -/
theorem always_inj {α : Type} {step other : Cursor → α × Cursor} {cursor : Cursor}
    (same : always step cursor = always other cursor) : step cursor = other cursor := by
  obtain ⟨result, after⟩ := Parsed.read.inj same
  exact Prod.ext result after

/-- A program is read up to its end. -/
theorem program_remaining {cursor : Cursor} (regular : cursor.Regular)
    (room : 16 * cursor.remaining.length + 12 ≤ depth) :
    (program depth cursor).2.remaining = [] := by
  induction depth generalizing cursor with
  | zero => omega
  | succ depth inductionHypothesis =>
    cases ended : cursor.isAtEnd with
    | true =>
      rw [program_ended ended]
      exact List.isEmpty_iff.mp ended
    | false =>
      have less : 16 * cursor.remaining.length + 11 ≤ depth := by omega
      obtain ⟨moved, shorter⟩ := recovering_advances regular less ended
      rw [program_inside ended]
      exact inductionHypothesis (moved.regular regular) (by omega)

/-- Behind earlier violations a program is read as it is alone, with any two depth bounds that
suffice. -/
theorem program_amid {cursor : Cursor} (regular : cursor.Regular)
    (room : 16 * cursor.remaining.length + 12 ≤ depth)
    (other : 16 * cursor.remaining.length + 12 ≤ deeper) (earlier : List ParseError) :
    program deeper (cursor.amid ⟨[], cursor.endMarker, earlier⟩) =
      ((program depth cursor).1,
        (program depth cursor).2.amid ⟨[], cursor.endMarker, earlier⟩) := by
  have confined := program_confines ⟨[], cursor.endMarker, earlier⟩ (Nat.le_refl depth) cursor
    regular room
  have unseen : (program depth cursor).2.Screens ⟨[], cursor.endMarker, earlier⟩ :=
    .inr ⟨rfl, confined.advances.endMarker.symm⟩
  have same := Confines.amid (fun around _ _ more => program_confines around more) regular room
    other unseen
  obtain ⟨statements, final⟩ := Parsed.read.inj same
  exact Prod.ext statements final

end Parse

end LoxLang
