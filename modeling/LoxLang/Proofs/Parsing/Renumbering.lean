import LoxLang.Proofs.Parsing.Joining
import LoxLang.Proofs.Parsing.Progress
import LoxLang.Program

/-!
# Readers do not look at identities

Whatever a reader meets, a violation or not, it does the same if identities are handed out from a
later one on: it goes to the same place, reports the same violations and reads the same trees, with
later identities. `renumbering` says so for all readers at once, by induction on their depth bound.
-/

namespace LoxLang

/-- The same cursor, from which later identities are handed out. -/
def Cursor.later (ids : Nat) (cursor : Cursor) : Cursor :=
  { cursor with nextId := cursor.nextId + ids }

/-- The same ending of a reading step, with later identities. -/
def Parsed.later {α : Type} (ids : Nat) (moved : α → α) : Parsed α → Parsed α
  | .read result after => .read (moved result) (after.later ids)
  | .refused error after => .refused error (after.later ids)

namespace Parse

variable {α β : Type} {ids : Nat}

/-- A step that does from a later cursor what another one does from the cursor itself. -/
def Renumbers (ids : Nat) (moved : α → α) (step image : Parse α) : Prop :=
  ∀ cursor : Cursor, image (cursor.later ids) = (step cursor).later ids moved

namespace Renumbers

variable {moved : α → α} {further : β → β}

/-- Renumbered steps one behind the other, the second one started with the renumbered result. -/
theorem bind {first firstImage : Parse α} {next nextImage : α → Parse β}
    (head : Renumbers ids moved first firstImage)
    (tail : ∀ result, Renumbers ids further (next result) (nextImage (moved result))) :
    Renumbers ids further (first >>= next) (firstImage >>= nextImage) := by
  intro cursor
  rw [bind_apply, bind_apply, head cursor]
  cases first cursor with
  | read result after => exact tail result after
  | refused error after => rfl

/-- A result is renumbered by itself. -/
theorem pure {result image : α} (same : image = moved result) :
    Renumbers ids moved (pure result) (pure image) :=
  fun _ => same ▸ rfl

/-- A result is renumbered before or after a change that takes no notice of identities. -/
theorem map {step image : Parse α} {change : α → β}
    (head : Renumbers ids moved step image)
    (commutes : ∀ result, change (moved result) = further (change result)) :
    Renumbers ids further (change <$> step) (change <$> image) :=
  bind head fun result => pure (commutes result)

/-- A refusal is the same from every first identity. -/
theorem refuse (expectation : Expectation) :
    Renumbers ids moved (refuse expectation) (refuse expectation) :=
  fun _ => rfl

theorem current : Renumbers ids id current current :=
  fun _ => rfl

theorem isAtEnd : Renumbers ids id isAtEnd isAtEnd :=
  fun _ => rfl

theorem check (kind : Kind) : Renumbers ids id (check kind) (check kind) :=
  fun _ => rfl

/-- Going on to the next token takes no notice of identities. -/
theorem advance : Renumbers ids id advance advance :=
  fun _ => rfl

/-- A diagnostic takes no notice of identities. -/
theorem report (error : ParseError) : Renumbers ids id (report error) (report error) :=
  fun _ => rfl

/-- Whether a token is passed does not depend on identities. -/
theorem accept? (kind : Kind) : Renumbers ids id (accept? kind) (accept? kind) := by
  intro cursor
  have same : (cursor.later ids).check kind = cursor.check kind := rfl
  unfold Parse.accept?
  rw [same]
  split <;> rfl

/-- Whether a token is as expected does not depend on identities. -/
theorem expect (kind : Kind) (expectation : Expectation) :
    Renumbers ids id (expect kind expectation) (expect kind expectation) := by
  intro cursor
  have same : (cursor.later ids).check kind = cursor.check kind := rfl
  unfold Parse.expect
  rw [same]
  split <;> rfl

/-- The identity that is handed out is as much later as the first one. -/
theorem freshId : Renumbers ids (· + ids) freshId freshId := by
  intro cursor
  simp only [Parse.freshId, Cursor.later, Parsed.later]
  rw [Nat.add_right_comm]

/-- A statement that is given up has no identities, and recovery looks at tokens only. -/
theorem recovering {statement image : Parse Stmt}
    (head : Renumbers ids (Stmt.moved ⟨0, ids⟩) statement image) :
    Renumbers ids (Option.map (Stmt.moved ⟨0, ids⟩)) (always (recovering statement))
      (always (recovering image)) := by
  intro cursor
  unfold always Parse.recovering
  rw [head cursor]
  cases statement cursor with
  | read result after => rfl
  | refused error after => rfl

/-- The entries of a list in front of a closing parenthesis. -/
theorem entries {entry : Parse α} {more : Parse (List α)} {movedAll : List α → List α}
    (head : Renumbers ids moved entry entry) (tail : Renumbers ids movedAll more more)
    (single : ∀ first, movedAll [first] = [moved first])
    (several : ∀ first others, movedAll (first :: others) = moved first :: movedAll others) :
    let list : Parse (List α) := do
      let first ← entry
      match ← Parse.accept? (.symbol .comma) with
      | none => return [first]
      | some _ =>
        if ← Parse.check (.symbol .rightParen) then return [first]
        else return first :: (← more)
    Renumbers ids movedAll list list := by
  refine bind head fun first => bind (accept? _) fun comma => ?_
  cases comma with
  | none => exact pure (single first).symm
  | some _ =>
    refine bind (check _) fun closed => ?_
    dsimp only [id]
    split
    · exact pure (single first).symm
    · exact bind tail fun others => pure (several first others).symm

/-- Whether an operator is passed does not depend on identities. -/
theorem acceptOperator? (level : Level) :
    Renumbers ids id (acceptOperator? level) (acceptOperator? level) := by
  refine bind current fun token => ?_
  change Renumbers ids id _ (if level.operators.contains token.kind then _ else _)
  split
  · exact bind advance fun _ => pure rfl
  · exact pure rfl

/-- Whether a prefix operator is passed does not depend on identities. -/
theorem acceptPrefixOperator? :
    Renumbers ids id acceptPrefixOperator? acceptPrefixOperator? := by
  refine bind (accept? _) fun found => ?_
  cases found with
  | some token => exact pure rfl
  | none => exact accept? _

/-- An occurrence of `super` is renumbered. -/
theorem superAccess (keyword : Token) :
    Renumbers ids (Expr.moved ⟨0, ids⟩) (superAccess keyword) (superAccess keyword) :=
  bind (expect _ _) fun _ => bind (expect _ _) fun _ => bind freshId fun _ => pure rfl

/-- A target is a target with later identities too. -/
theorem assignTo (target : Expr) (equals : Token) (value : Expr) :
    Renumbers ids (Expr.moved ⟨0, ids⟩) (assignTo target equals value)
      (assignTo (target.moved ⟨0, ids⟩) equals (value.moved ⟨0, ids⟩)) := by
  cases target with
  | reference id name => exact pure rfl
  | get object name => exact pure rfl
  | _ => exact bind (report _) fun _ => pure rfl

theorem semicolon (expectation : Expectation) :
    Renumbers ids id (semicolon expectation) (semicolon expectation) :=
  bind (expect _ _) fun _ => pure rfl

/-- The occurrence of a superclass is renumbered. -/
theorem superclass? :
    Renumbers ids (Option.map (Expr.moved ⟨0, ids⟩)) superclass? superclass? := by
  refine bind (accept? _) fun found => ?_
  cases found with
  | none => exact pure rfl
  | some _ => exact bind (expect _ _) fun name => bind freshId fun _ => pure rfl

end Renumbers

/-- A statement that was read, or none, in front of others. -/
theorem movedAll_toList_append (shift : Shift) (first : Option Stmt) (rest : List Stmt) :
    Stmt.movedAll shift (first.toList ++ rest) =
      (first.map (Stmt.moved shift)).toList ++ Stmt.movedAll shift rest := by
  cases first <;> rfl

/-- Readers that do not look at identities. -/
structure Renumbering (ids : Nat) (inner : Readers) : Prop where
  expression : Renumbers ids (Expr.moved ⟨0, ids⟩) inner.expression inner.expression
  chain (level : Level) :
    Renumbers ids (Expr.moved ⟨0, ids⟩) (inner.chain level) (inner.chain level)
  chainRest (level : Level) (left : Expr) :
    Renumbers ids (Expr.moved ⟨0, ids⟩) (inner.chainRest level left)
      (inner.chainRest level (left.moved ⟨0, ids⟩))
  unary : Renumbers ids (Expr.moved ⟨0, ids⟩) inner.unary inner.unary
  accesses (object : Expr) :
    Renumbers ids (Expr.moved ⟨0, ids⟩) (inner.accesses object)
      (inner.accesses (object.moved ⟨0, ids⟩))
  arguments (count : Nat) :
    Renumbers ids (Expr.movedAll ⟨0, ids⟩) (inner.arguments count) (inner.arguments count)
  primary : Renumbers ids (Expr.moved ⟨0, ids⟩) inner.primary inner.primary
  parameters (count : Nat) : Renumbers ids id (inner.parameters count) (inner.parameters count)
  methods {method : Parse FunctionDecl} :
    Renumbers ids (FunctionDecl.moved ⟨0, ids⟩) method method →
      Renumbers ids (FunctionDecl.movedAll ⟨0, ids⟩) (inner.methods method) (inner.methods method)
  declaration : Renumbers ids (Stmt.moved ⟨0, ids⟩) inner.declaration inner.declaration
  statement : Renumbers ids (Stmt.moved ⟨0, ids⟩) inner.statement inner.statement
  block : Renumbers ids (Stmt.movedAll ⟨0, ids⟩) inner.block inner.block
  program : Renumbers ids (Stmt.movedAll ⟨0, ids⟩) inner.program inner.program

namespace Renumbering

open Renumbers (bind pure map)

variable {inner : Readers}

/-- Readers that refuse do the same from every identity on. -/
theorem exhausted : Renumbering ids .exhausted where
  expression := .refuse _
  chain := fun _ => .refuse _
  chainRest := fun _ _ => .refuse _
  unary := .refuse _
  accesses := fun _ => .refuse _
  arguments := fun _ => .refuse _
  primary := .refuse _
  parameters := fun _ => .refuse _
  methods := fun _ => .refuse _
  declaration := .refuse _
  statement := .refuse _
  block := .refuse _
  program := .pure rfl

variable (smaller : Renumbering ids inner)
include smaller

/-! ### Expressions -/

/-- An operand is a chain of the next level, or a prefixed expression. -/
theorem operand (level : Level) :
    Renumbers ids (Expr.moved ⟨0, ids⟩) (inner.operand level) (inner.operand level) := by
  unfold Readers.operand
  split
  · exact smaller.chain _
  · exact smaller.unary

/-- The kind of the target, which decides about a violation, stays as it is. -/
theorem assignment : Renumbers ids (Expr.moved ⟨0, ids⟩) inner.assignment inner.assignment := by
  refine bind (smaller.chain .disjunction) fun target => bind (.accept? _) fun found => ?_
  cases found with
  | none => exact pure rfl
  | some equals => exact bind smaller.expression fun value => .assignTo target equals value

/-- A chain starts with a renumbered operand. -/
theorem operands (level : Level) :
    Renumbers ids (Expr.moved ⟨0, ids⟩) (inner.operands level) (inner.operands level) :=
  bind (smaller.operand level) fun first => smaller.chainRest level first

/-- A level goes on from the same operand with later identities. -/
theorem operandsBehind (level : Level) (left : Expr) :
    Renumbers ids (Expr.moved ⟨0, ids⟩) (inner.operandsBehind level left)
      (inner.operandsBehind level (left.moved ⟨0, ids⟩)) := by
  refine bind (.acceptOperator? level) fun found => ?_
  cases found with
  | none => exact pure rfl
  | some operator =>
    refine bind (smaller.operand level) fun right => ?_
    have further := smaller.chainRest level (level.combine left operator right)
    rwa [Level.moved_combine] at further

/-- The operand of a prefix operator is renumbered. -/
theorem prefixed : Renumbers ids (Expr.moved ⟨0, ids⟩) inner.prefixed inner.prefixed := by
  refine bind .acceptPrefixOperator? fun found => ?_
  cases found with
  | some operator => exact bind smaller.unary fun operand => pure rfl
  | none => exact bind smaller.primary fun callee => smaller.accesses callee

/-- Accesses go on from the same object with later identities. -/
theorem accessed (object : Expr) :
    Renumbers ids (Expr.moved ⟨0, ids⟩) (inner.accessed object)
      (inner.accessed (object.moved ⟨0, ids⟩)) := by
  refine bind .current fun token => ?_
  dsimp only [id]
  split
  · refine bind .advance fun _ => bind (.check _) fun closed => ?_
    have rest (arguments : List Expr) : Renumbers ids (Expr.moved ⟨0, ids⟩)
        (do
          let paren ← Parse.expect (.symbol .rightParen) .argumentsEnd
          inner.accesses (.call object paren arguments))
        (do
          let paren ← Parse.expect (.symbol .rightParen) .argumentsEnd
          inner.accesses
            (.call (object.moved ⟨0, ids⟩) paren (Expr.movedAll ⟨0, ids⟩ arguments))) :=
      bind (.expect _ _) fun paren => smaller.accesses (.call object paren arguments)
    dsimp only [id]
    split
    · exact bind (pure rfl) rest
    · exact bind (smaller.arguments 0) rest
  · refine bind .advance fun _ => bind (.expect _ _) fun name => ?_
    exact smaller.accesses (.get object name)
  · exact pure rfl

/-- The arguments are renumbered; how many there are stays as it is. -/
theorem argumentList (count : Nat) :
    Renumbers ids (Expr.movedAll ⟨0, ids⟩) (inner.argumentList count)
      (inner.argumentList count) := by
  have list := Renumbers.entries smaller.expression (smaller.arguments (count + 1))
    (fun _ => rfl) fun _ _ => rfl
  unfold Readers.argumentList
  dsimp only
  split
  · exact bind .current fun token => bind (.report _) fun _ => list
  · exact list

/-- The identity of an occurrence is renumbered, and the literals have none. -/
theorem atom : Renumbers ids (Expr.moved ⟨0, ids⟩) inner.atom inner.atom := by
  refine bind .current fun token => ?_
  dsimp only [id]
  split
  iterate 5 exact bind .advance fun _ => pure rfl
  · exact bind .advance fun _ => bind .freshId fun _ => pure rfl
  · exact bind .advance fun _ => .superAccess token
  · exact bind .advance fun _ => bind .freshId fun _ => pure rfl
  · refine bind .advance fun _ => bind smaller.expression fun inner => ?_
    exact bind (.expect _ _) fun _ => pure rfl
  · exact .refuse _

/-! ### Statements -/

/-- An expression that may be missing is renumbered if it is there. -/
theorem expressionUnless (closing : Kind) :
    Renumbers ids (Option.map (Expr.moved ⟨0, ids⟩)) (inner.expressionUnless closing)
      (inner.expressionUnless closing) := by
  refine bind (.check closing) fun closed => ?_
  dsimp only [id]
  split
  · exact pure rfl
  · exact bind smaller.expression fun _ => pure rfl

/-- The expression of a statement is renumbered. -/
theorem expressionStatement :
    Renumbers ids (Stmt.moved ⟨0, ids⟩) inner.expressionStatement inner.expressionStatement :=
  bind smaller.expression fun _ => bind (.semicolon _) fun _ => pure rfl

/-- The initializer of a variable is renumbered. -/
theorem variableDeclaration :
    Renumbers ids (Stmt.moved ⟨0, ids⟩) inner.variableDeclaration inner.variableDeclaration := by
  refine bind (.expect _ _) fun name => bind (.accept? _) fun found => ?_
  have rest (initializer : Option Expr) : Renumbers ids (Stmt.moved ⟨0, ids⟩)
      (do
        Parse.semicolon .declarationEnd
        return .declare name initializer)
      (do
        Parse.semicolon .declarationEnd
        return .declare name (initializer.map (Expr.moved ⟨0, ids⟩))) :=
    bind (.semicolon _) fun _ => pure rfl
  cases found with
  | none => exact bind (pure rfl) rest
  | some _ => exact bind (map smaller.expression fun _ => rfl) rest

/-- The printed expression is renumbered. -/
theorem printStatement (keyword : Token) :
    Renumbers ids (Stmt.moved ⟨0, ids⟩) (inner.printStatement keyword)
      (inner.printStatement keyword) :=
  bind smaller.expression fun _ => bind (.semicolon _) fun _ => pure rfl

/-- The returned expression is renumbered. -/
theorem returnStatement (keyword : Token) :
    Renumbers ids (Stmt.moved ⟨0, ids⟩) (inner.returnStatement keyword)
      (inner.returnStatement keyword) :=
  bind (smaller.expressionUnless _) fun _ => bind (.semicolon _) fun _ => pure rfl

/-- The condition is renumbered between its parentheses. -/
theorem condition (opening closing : Expectation) :
    Renumbers ids (Expr.moved ⟨0, ids⟩) (inner.condition opening closing)
      (inner.condition opening closing) :=
  bind (.expect _ _) fun _ => bind smaller.expression fun _ => bind (.expect _ _) fun _ => pure rfl

/-- The condition and both branches are renumbered. -/
theorem ifStatement : Renumbers ids (Stmt.moved ⟨0, ids⟩) inner.ifStatement inner.ifStatement := by
  refine bind (smaller.condition _ _) fun test => bind smaller.statement fun whenTrue => ?_
  refine bind (.accept? _) fun found => ?_
  cases found with
  | none => exact pure rfl
  | some _ => exact bind smaller.statement fun whenFalse => pure rfl

/-- The condition and the body are renumbered. -/
theorem whileStatement :
    Renumbers ids (Stmt.moved ⟨0, ids⟩) inner.whileStatement inner.whileStatement :=
  bind (smaller.condition _ _) fun _ => bind smaller.statement fun _ => pure rfl

/-- The first clause of a `for` loop is renumbered. -/
theorem forInitializer :
    Renumbers ids (Option.map (Stmt.moved ⟨0, ids⟩)) inner.forInitializer
      inner.forInitializer := by
  refine bind .current fun token => ?_
  dsimp only [id]
  split
  · exact bind .advance fun _ => pure rfl
  · exact bind .advance fun _ => map smaller.variableDeclaration fun _ => rfl
  · exact map smaller.expressionStatement fun _ => rfl

/-- A `for` loop is put together from renumbered clauses, which renumbers it. -/
theorem forStatement :
    Renumbers ids (Stmt.moved ⟨0, ids⟩) inner.forStatement inner.forStatement := by
  refine bind (.expect _ _) fun _ => bind smaller.forInitializer fun initializer => ?_
  refine bind (smaller.expressionUnless _) fun test => bind (.semicolon _) fun _ => ?_
  refine bind (smaller.expressionUnless _) fun increment => bind (.expect _ _) fun _ => ?_
  exact bind smaller.statement fun body =>
    pure (moved_forLoop _ initializer test increment body).symm

/-- Parameters have no identities. -/
theorem parameterList (count : Nat) :
    Renumbers ids id (inner.parameterList count) (inner.parameterList count) := by
  have list := Renumbers.entries (.expect .identifier .parameterName)
    (smaller.parameters (count + 1)) (fun _ => rfl) fun _ _ => rfl
  unfold Readers.parameterList
  dsimp only
  split
  · exact bind .current fun token => bind (.report _) fun _ => list
  · exact list

/-- The body of a function is renumbered. -/
theorem routine (kind : RoutineKind) :
    Renumbers ids (FunctionDecl.moved ⟨0, ids⟩) (inner.routine kind) (inner.routine kind) := by
  refine bind (.expect _ _) fun name => bind (.expect _ _) fun _ => bind (.check _) fun closed => ?_
  have rest (names : List Token) : Renumbers ids (FunctionDecl.moved ⟨0, ids⟩)
      (do
        let _ ← Parse.expect (.symbol .rightParen) .parametersEnd
        let _ ← Parse.expect (.symbol .leftBrace) (.routineBodyOpening kind)
        return .mk name names (← inner.block))
      (do
        let _ ← Parse.expect (.symbol .rightParen) .parametersEnd
        let _ ← Parse.expect (.symbol .leftBrace) (.routineBodyOpening kind)
        return .mk name names (← inner.block)) := by
    refine bind (.expect _ _) fun _ => bind (.expect _ _) fun _ => ?_
    refine bind smaller.block fun trees => pure ?_
    exact congrArg (FunctionDecl.mk name · _) (Token.map_moved_zero names).symm
  have none : Renumbers ids id (Pure.pure ([] : List Token)) (Pure.pure []) := pure rfl
  dsimp only [id]
  split
  · exact bind none rest
  · exact bind (smaller.parameters 0) rest

/-- The methods of a class are renumbered one by one. -/
theorem members {method : Parse FunctionDecl}
    (member : Renumbers ids (FunctionDecl.moved ⟨0, ids⟩) method method) :
    Renumbers ids (FunctionDecl.movedAll ⟨0, ids⟩) (inner.members method)
      (inner.members method) := by
  refine bind (.check _) fun closed => bind .isAtEnd fun ended => ?_
  dsimp only [id]
  split
  · exact pure rfl
  · exact bind member fun first => bind (smaller.methods member) fun others => pure rfl

/-- The superclass and the methods are renumbered. -/
theorem classDeclaration :
    Renumbers ids (Stmt.moved ⟨0, ids⟩) inner.classDeclaration inner.classDeclaration := by
  refine bind (.expect _ _) fun name => bind .superclass? fun parent => ?_
  refine bind (.expect _ _) fun _ => bind (smaller.methods (smaller.routine _)) fun members => ?_
  exact bind (.expect _ _) fun _ => pure rfl

/-- Whatever a declaration is, it is renumbered. -/
theorem anyDeclaration :
    Renumbers ids (Stmt.moved ⟨0, ids⟩) inner.anyDeclaration inner.anyDeclaration := by
  refine bind .current fun token => ?_
  dsimp only [id]
  split
  · exact bind .advance fun _ => smaller.classDeclaration
  · exact bind .advance fun _ => bind (smaller.routine _) fun _ => pure rfl
  · exact bind .advance fun _ => smaller.variableDeclaration
  · exact smaller.statement

/-- Whatever a statement is, it is renumbered. -/
theorem anyStatement :
    Renumbers ids (Stmt.moved ⟨0, ids⟩) inner.anyStatement inner.anyStatement := by
  refine bind .current fun token => ?_
  dsimp only [id]
  split
  · exact bind .advance fun _ => smaller.forStatement
  · exact bind .advance fun _ => smaller.ifStatement
  · exact bind .advance fun _ => smaller.printStatement token
  · exact bind .advance fun _ => smaller.returnStatement token
  · exact bind .advance fun _ => smaller.whileStatement
  · exact bind .advance fun _ => bind smaller.block fun _ => pure rfl
  · exact smaller.expressionStatement

/-- The statements of a block are renumbered up to its closing brace. -/
theorem blockRest : Renumbers ids (Stmt.movedAll ⟨0, ids⟩) inner.blockRest inner.blockRest := by
  refine bind (.check _) fun closed => bind .isAtEnd fun ended => ?_
  dsimp only [id]
  split
  · exact bind (.expect _ _) fun _ => pure rfl
  · refine bind (.recovering smaller.declaration) fun first => bind smaller.block fun rest => ?_
    exact pure (movedAll_toList_append _ first rest).symm

/-- The statements of a program are renumbered up to its end. -/
theorem declarations :
    Renumbers ids (Stmt.movedAll ⟨0, ids⟩) inner.declarations inner.declarations := by
  refine bind .isAtEnd fun ended => ?_
  dsimp only [id]
  split
  · exact pure rfl
  · refine bind (.recovering smaller.declaration) fun first => bind smaller.program fun rest => ?_
    exact pure (movedAll_toList_append _ first rest).symm

/-- One more level does not look at identities either. -/
theorem unfolded : Renumbering ids inner.unfolded where
  expression := smaller.assignment
  chain := smaller.operands
  chainRest := smaller.operandsBehind
  unary := smaller.prefixed
  accesses := smaller.accessed
  arguments := smaller.argumentList
  primary := smaller.atom
  parameters := smaller.parameterList
  methods := smaller.members
  declaration := smaller.anyDeclaration
  statement := smaller.anyStatement
  block := smaller.blockRest
  program := smaller.declarations

end Renumbering

/-- No reader looks at identities, whatever its depth bound. -/
theorem renumbering (ids depth : Nat) : Renumbering ids (readers depth) := by
  induction depth with
  | zero => exact .exhausted
  | succ depth smaller => exact smaller.unfolded

/-- A program is read as the same trees with later identities. -/
theorem program_later (ids depth : Nat) (cursor : Cursor) :
    program depth (cursor.later ids) =
      (Stmt.movedAll ⟨0, ids⟩ (program depth cursor).1, (program depth cursor).2.later ids) := by
  have same := (renumbering ids depth).program
  rw [← always_program] at same
  obtain ⟨statements, after⟩ := Parsed.read.inj (same cursor)
  exact Prod.ext statements after

end Parse

/-- A later first identity renumbers the trees, moves the next unused identity and changes nothing
else. -/
theorem parse_later (tokens : List Token) (firstId : Nat) :
    parse tokens firstId =
      { statements := Stmt.movedAll ⟨0, firstId⟩ (parse tokens 0).statements
        errors := (parse tokens 0).errors
        nextId := (parse tokens 0).nextId + firstId } := by
  have start : Cursor.start tokens firstId = (Cursor.start tokens 0).later firstId := by
    simp [Cursor.start, Cursor.later]
  unfold parse
  rw [start, Parse.program_later]
  rfl

/-- A text that gets later identities is read as the same trees with later identities, and with the
same diagnostics. -/
theorem Program.ofSource_renumbered (source : String) (firstId : Nat) :
    ofSource source firstId =
      { statements := Stmt.movedAll ⟨0, firstId⟩ (ofSource source 0).statements
        diagnostics := (ofSource source 0).diagnostics
        nextId := (ofSource source 0).nextId + firstId } := by
  simp only [ofSource, parse_later _ firstId]

end LoxLang
