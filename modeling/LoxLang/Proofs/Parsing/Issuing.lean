import Mathlib.Data.List.Perm.Subperm
import LoxLang.Proofs.Parsing.Progress
import LoxLang.Proofs.Scope.Identities

/-!
# Identities are handed out once

A reader hands out identities in the middle of rules that may still refuse, moves them from one tree
to another and loses them with the trees that it gives up. `Parse.Issues` follows the identities in
the trees that are held while a step is taken: they differ from each other, and each of them was
handed out since a count that was fixed before. No identity is ever taken back, also where a step
refuses, so this carries over to whatever is read behind a violation.
-/

namespace LoxLang

/-- Identities that were handed out between two counts, each of them once. -/
structure IssuedOnce (low high : Nat) (ids : List Nat) : Prop where
  ordered : low ≤ high
  distinct : ids.Nodup
  bounds : ∀ id ∈ ids, low ≤ id ∧ id < high

namespace IssuedOnce

variable {low middle high : Nat} {ids fewer : List Nat}

/-- Where nothing is held, nothing has been handed out twice. -/
theorem nil (ordered : low ≤ high) : IssuedOnce low high [] :=
  ⟨ordered, List.nodup_nil, nofun⟩

/-- Identities may be dropped and listed in another order. -/
theorem subperm (issued : IssuedOnce low high ids) (kept : fewer.Subperm ids) :
    IssuedOnce low high fewer where
  ordered := issued.ordered
  distinct := by
    obtain ⟨listed, same, inside⟩ := kept
    exact same.nodup_iff.mp (issued.distinct.sublist inside)
  bounds := fun id member => issued.bounds id (kept.subset member)

/-- What is handed out later differs from what was handed out before. -/
theorem append (before : IssuedOnce low middle ids) (behind : IssuedOnce middle high fewer) :
    IssuedOnce low high (ids ++ fewer) where
  ordered := Nat.le_trans before.ordered behind.ordered
  distinct := by
    apply List.nodup_append.mpr
    refine ⟨before.distinct, behind.distinct, fun id early other late same => ?_⟩
    have below := (before.bounds id early).2
    have above := (behind.bounds other late).1
    omega
  bounds := by
    intro id member
    have first := before.ordered
    have second := behind.ordered
    rcases List.mem_append.mp member with early | late
    · have bounds := before.bounds id early
      omega
    · have bounds := behind.bounds id late
      omega

end IssuedOnce

/-- A reading step has ended with trees whose identities were handed out once since a count; where
it has refused, no trees are left. -/
def Parsed.Issued {α : Type} (low : Nat) (ids : α → List Nat) : Parsed α → Prop
  | .read result after => IssuedOnce low after.nextId (ids result)
  | .refused _ after => low ≤ after.nextId

namespace Parse

variable {α β : Type} {held : List Nat} {ids : α → List Nat} {later : β → List Nat}

/-- A step that is taken while trees with some identities are held, and that ends with trees with
others. -/
def Issues (held : List Nat) (step : Parse α) (ids : α → List Nat) : Prop :=
  ∀ low (cursor : Cursor), IssuedOnce low cursor.nextId held → (step cursor).Issued low ids

/-- A step that hands nothing out: whatever is held stays as it is. -/
def Quiet (step : Parse α) : Prop :=
  ∀ held, Issues held step fun _ => held

namespace Issues

/-- What the first step holds in its trees is held while the second one is taken. -/
theorem bind {first : Parse α} {next : α → Parse β} (head : Issues held first ids)
    (tail : ∀ result, Issues (ids result) (next result) later) :
    Issues held (first >>= next) later := by
  intro low cursor issued
  have started := head low cursor issued
  rw [bind_apply]
  cases ending : first cursor with
  | read result after =>
    rw [ending] at started
    exact tail result low after started
  | refused error after =>
    rw [ending] at started
    exact started

/-- A result may drop identities of the trees that are held. -/
theorem pure {result : α} (kept : (ids result).Subperm held) : Issues held (pure result) ids :=
  fun _ _ issued => issued.subperm kept

/-- A refusal leaves no trees. -/
theorem refuse (expectation : Expectation) : Issues held (refuse expectation) ids :=
  fun _ _ issued => issued.ordered

/-- A step does not touch the trees that are held besides its own. -/
theorem beside {step : Parse α} (alone : Issues [] step ids) (held : List Nat) :
    Issues held step fun result => held ++ ids result := by
  intro low cursor issued
  have started := alone cursor.nextId cursor (.nil (Nat.le_refl _))
  cases ending : step cursor with
  | read result after =>
    rw [ending] at started
    exact issued.append started
  | refused error after =>
    rw [ending] at started
    exact Nat.le_trans issued.ordered started

/-- The trees of a first step are held while the second one is taken. -/
theorem andThen {first : Parse α} {next : α → Parse β} (head : Issues [] first ids)
    (tail : ∀ result, Issues (held ++ ids result) (next result) later) :
    Issues held (first >>= next) later :=
  bind (head.beside held) tail

/-- A step behind one that hands nothing out. -/
theorem after {first : Parse α} {next : α → Parse β} (quiet : Quiet first)
    (tail : ∀ result, Issues held (next result) later) : Issues held (first >>= next) later :=
  bind (quiet held) tail

/-- The next unused identity is handed out, and is in no tree that is held. -/
theorem freshId : Issues [] freshId fun id => [id] := by
  intro low cursor issued
  have ordered := issued.ordered
  constructor
  · change low ≤ cursor.nextId + 1
    omega
  · exact List.pairwise_singleton _ _
  · intro id member
    obtain rfl := List.mem_singleton.mp member
    change low ≤ cursor.nextId ∧ cursor.nextId < cursor.nextId + 1
    omega

/-- A statement that is given up takes its trees with it. -/
theorem recovering {statement : Parse Stmt} (whole : Issues [] statement Stmt.ids) :
    Issues [] (always (recovering statement)) fun first => Stmt.idsAll first.toList := by
  intro low cursor issued
  have started := whole low cursor issued
  unfold always Parse.recovering
  cases ending : statement cursor with
  | read result after =>
    rw [ending] at started
    exact started.subperm (List.Perm.of_eq (List.append_nil _)).subperm
  | refused error after =>
    rw [ending] at started
    exact .nil started

end Issues

namespace Quiet

variable {step : Parse α}

/-- A step after which the next identity is the same. -/
theorem of_nextId (same : ∀ cursor, (step cursor).cursor.nextId = cursor.nextId) : Quiet step := by
  intro held low cursor issued
  have counted := same cursor
  cases ending : step cursor with
  | read result after =>
    rw [ending] at counted
    change IssuedOnce low after.nextId held
    rw [show after.nextId = cursor.nextId from counted]
    exact issued
  | refused error after =>
    rw [ending] at counted
    exact Nat.le_trans issued.ordered (Nat.le_of_eq counted.symm)

theorem pure (result : α) : Quiet (pure result) :=
  fun held => .pure (.refl held)

/-- Quiet steps one behind the other are quiet. -/
theorem bind {first : Parse α} {next : α → Parse β} (head : Quiet first)
    (tail : ∀ result, Quiet (next result)) : Quiet (first >>= next) :=
  fun held => .bind (head held) fun result => tail result held

theorem current : Quiet current :=
  of_nextId fun _ => rfl

theorem isAtEnd : Quiet isAtEnd :=
  of_nextId fun _ => rfl

theorem check (kind : Kind) : Quiet (check kind) :=
  of_nextId fun _ => rfl

/-- Going on to the next token hands nothing out. -/
theorem advance : Quiet advance :=
  of_nextId fun _ => rfl

/-- A diagnostic holds no tree. -/
theorem report (error : ParseError) : Quiet (report error) :=
  of_nextId fun _ => rfl

/-- A token may be passed, which hands nothing out. -/
theorem accept? (kind : Kind) : Quiet (accept? kind) := by
  apply of_nextId
  intro cursor
  unfold Parse.accept?
  split <;> rfl

/-- An expected token hands nothing out, and neither does its absence. -/
theorem expect (kind : Kind) (expectation : Expectation) : Quiet (expect kind expectation) := by
  apply of_nextId
  intro cursor
  unfold Parse.expect
  split <;> rfl

theorem semicolon (expectation : Expectation) : Quiet (semicolon expectation) :=
  bind (expect _ _) fun _ => pure ()

/-- An operator of a level has no identity. -/
theorem acceptOperator? (level : Level) : Quiet (acceptOperator? level) := by
  apply bind current
  intro token
  split
  · exact bind advance fun _ => pure _
  · exact pure _

/-- A prefix operator has no identity. -/
theorem acceptPrefixOperator? : Quiet acceptPrefixOperator? := by
  apply bind (accept? _)
  intro found
  cases found with
  | some token => exact pure _
  | none => exact accept? _

end Quiet

namespace Issues

/-- The entries of a list in front of a closing parenthesis. -/
theorem entries {entry : Parse α} {more : Parse (List α)} {idsAll : List α → List Nat}
    (head : Issues [] entry ids) (tail : Issues [] more idsAll)
    (single : ∀ first, (idsAll [first]).Subperm (ids first))
    (several : ∀ first others, (idsAll (first :: others)).Subperm (ids first ++ idsAll others)) :
    Issues [] (do
      let first ← entry
      match ← Parse.accept? (.symbol .comma) with
      | none => return [first]
      | some _ =>
        if ← Parse.check (.symbol .rightParen) then return [first]
        else return first :: (← more)) idsAll := by
  apply andThen head
  intro first
  apply after (.accept? _)
  intro comma
  cases comma with
  | none => exact pure (single first)
  | some _ =>
    apply after (.check _)
    intro closed
    split
    · exact pure (single first)
    · exact andThen tail fun others => pure (several first others)

/-- An occurrence of `super` has an identity of its own. -/
theorem superAccess (keyword : Token) : Issues [] (superAccess keyword) Expr.ids := by
  apply after (.expect _ _)
  intro _
  apply after (.expect _ _)
  intro method
  exact andThen freshId fun id => pure (.refl [id])

/-- A target that becomes an assignment keeps its identity; one that cannot be assigned to stays as
it is, and the value is lost. -/
theorem assignTo (target : Expr) (equals : Token) (value : Expr) :
    Issues (target.ids ++ value.ids) (assignTo target equals value) Expr.ids := by
  cases target with
  | reference id name => exact pure List.perm_append_comm.subperm
  | get object name => exact pure List.perm_append_comm.subperm
  | _ => exact after (.report _) fun _ => pure (List.sublist_append_left _ _).subperm

end Issues

end Parse

/-- Both sides of an operator keep their identities. -/
theorem Level.ids_combine (level : Level) (left right : Expr) (operator : Token) :
    (level.combine left operator right).ids = left.ids ++ right.ids := by
  cases level <;> rfl

/-- The identities of statements are those of each of them in turn. -/
theorem Stmt.idsAll_append (before behind : List Stmt) :
    Stmt.idsAll (before ++ behind) = Stmt.idsAll before ++ Stmt.idsAll behind := by
  induction before with
  | nil => rfl
  | cons first rest inductionHypothesis =>
    simp only [List.cons_append, Stmt.idsAll, inductionHypothesis, List.append_assoc]

/-- The clauses of a `for` loop are in its tree, if not in the order in which they were read. -/
theorem Parse.ids_forLoop (initializer : Option Stmt) (test increment : Option Expr) (body : Stmt) :
    (forLoop initializer test increment body).ids.Subperm
      (Stmt.idsAll initializer.toList ++ Expr.idsOptional test ++ Expr.idsOptional increment ++
        body.ids) := by
  have tested : (test.getD (.literal (.bool true))).ids = Expr.idsOptional test := by
    cases test <;> rfl
  apply List.Perm.subperm
  simp only [forLoop, Stmt.ids, Stmt.idsAll, Stmt.idsAll_append, tested, List.append_nil,
    List.append_assoc]
  apply List.Perm.append_left
  apply List.Perm.append_left
  cases increment with
  | none => exact .refl _
  | some step =>
    simp only [Stmt.ids, Stmt.idsAll, List.append_nil]
    exact List.perm_append_comm

namespace Parse

/-- No superclass has an identity but the one named. -/
theorem Issues.superclass? : Issues [] superclass? Expr.idsOptional := by
  apply after (.accept? _)
  intro found
  cases found with
  | none => exact pure (.refl _)
  | some _ => exact after (.expect _ _) fun name => andThen freshId fun id => pure (.refl [id])

/-- Readers that hand out identities once. Parameters are names and have none. -/
structure Issuing (inner : Readers) : Prop where
  expression : Issues [] inner.expression Expr.ids
  chain (level : Level) : Issues [] (inner.chain level) Expr.ids
  chainRest (level : Level) (left : Expr) : Issues left.ids (inner.chainRest level left) Expr.ids
  unary : Issues [] inner.unary Expr.ids
  accesses (object : Expr) : Issues object.ids (inner.accesses object) Expr.ids
  arguments (count : Nat) : Issues [] (inner.arguments count) Expr.idsAll
  primary : Issues [] inner.primary Expr.ids
  parameters (count : Nat) : Issues [] (inner.parameters count) fun _ => []
  methods {method : Parse FunctionDecl} :
    Issues [] method FunctionDecl.ids → Issues [] (inner.methods method) FunctionDecl.idsAll
  declaration : Issues [] inner.declaration Stmt.ids
  statement : Issues [] inner.statement Stmt.ids
  block : Issues [] inner.block Stmt.idsAll
  program : Issues [] inner.program Stmt.idsAll

namespace Issuing

open Issues (after andThen pure)

variable {inner : Readers}

/-- Readers that refuse hand out nothing. -/
theorem exhausted : Issuing .exhausted where
  expression := .refuse _
  chain := fun _ => .refuse _
  chainRest := fun _ _ => .refuse _
  unary := .refuse _
  accesses := fun _ => .refuse _
  arguments := fun _ => .refuse _
  primary := .refuse _
  parameters := fun _ => .refuse _
  methods := fun _ => .refuse _
  declaration := .refuse _
  statement := .refuse _
  block := .refuse _
  program := .pure (.refl _)

variable (smaller : Issuing inner)
include smaller

/-! ### Expressions -/

/-- An operand is a chain of the next level, or a prefixed expression. -/
theorem operand (level : Level) : Issues [] (inner.operand level) Expr.ids := by
  unfold Readers.operand
  split
  · exact smaller.chain _
  · exact smaller.unary

/-- The identity of the target is issued before those of the value. -/
theorem assignment : Issues [] inner.assignment Expr.ids := by
  apply andThen (smaller.chain .disjunction)
  intro target
  apply after (.accept? _)
  intro found
  cases found with
  | none => exact pure (.refl _)
  | some equals => exact andThen smaller.expression fun value => .assignTo target equals value

/-- A chain starts with an operand, whose tree is held while the rest is read. -/
theorem operands (level : Level) : Issues [] (inner.operands level) Expr.ids :=
  andThen (smaller.operand level) fun first => smaller.chainRest level first

/-- The left side is held while an operator and another operand are read. -/
theorem operandsBehind (level : Level) (left : Expr) :
    Issues left.ids (inner.operandsBehind level left) Expr.ids := by
  apply after (.acceptOperator? level)
  intro found
  cases found with
  | none => exact pure (.refl _)
  | some operator =>
    apply andThen (smaller.operand level)
    intro right
    rw [← level.ids_combine left right operator]
    exact smaller.chainRest level _

/-- A prefix operator stands in front of the identities of its operand. -/
theorem prefixed : Issues [] inner.prefixed Expr.ids := by
  apply after .acceptPrefixOperator?
  intro found
  cases found with
  | some operator => exact andThen smaller.unary fun operand => pure (.refl _)
  | none => exact andThen smaller.primary fun callee => smaller.accesses callee

/-- The tree of the object is held while its arguments or properties are read. -/
theorem accessed (object : Expr) : Issues object.ids (inner.accessed object) Expr.ids := by
  apply after .current
  intro token
  split
  · apply after .advance
    intro _
    apply after (.check _)
    intro closed
    have rest (arguments : List Expr) : Issues (object.ids ++ Expr.idsAll arguments)
        (do
          let paren ← Parse.expect (.symbol .rightParen) .argumentsEnd
          inner.accesses (.call object paren arguments)) Expr.ids :=
      after (.expect _ _) fun paren => smaller.accesses (.call object paren arguments)
    split
    · exact andThen (pure (.refl _)) rest
    · exact andThen (smaller.arguments 0) rest
  · apply after .advance
    intro _
    exact after (.expect _ _) fun name => smaller.accesses (.get object name)
  · exact pure (.refl _)

/-- The arguments are held while more of them are read, also when there are too many. -/
theorem argumentList (count : Nat) : Issues [] (inner.argumentList count) Expr.idsAll := by
  have list := Issues.entries smaller.expression (smaller.arguments (count + 1))
    (fun _ => (List.Perm.of_eq (List.append_nil _)).subperm) fun _ _ => .refl _
  unfold Readers.argumentList
  dsimp only
  split
  · exact after .current fun token => after (.report _) fun _ => list
  · exact list

/-- Only an occurrence of a name, of `this` or of `super` uses an identity up. -/
theorem atom : Issues [] inner.atom Expr.ids := by
  apply after .current
  intro token
  split
  iterate 5 exact after .advance fun _ => pure (.refl _)
  · exact after .advance fun _ => andThen .freshId fun id => pure (.refl [id])
  · exact after .advance fun _ => .superAccess token
  · exact after .advance fun _ => andThen .freshId fun id => pure (.refl [id])
  · apply after .advance
    intro _
    apply andThen smaller.expression
    intro inner
    exact after (.expect _ _) fun _ => pure (.refl _)
  · exact .refuse _

/-! ### Statements -/

/-- An expression that may be missing has no identities then. -/
theorem expressionUnless (closing : Kind) :
    Issues [] (inner.expressionUnless closing) Expr.idsOptional := by
  apply after (.check closing)
  intro closed
  split
  · exact pure (.refl _)
  · exact andThen smaller.expression fun _ => pure (.refl _)

/-- The semicolon behind an expression takes nothing from its tree. -/
theorem expressionStatement : Issues [] inner.expressionStatement Stmt.ids :=
  andThen smaller.expression fun _ => after (.semicolon _) fun _ => pure (.refl _)

/-- A declared variable has no identity; its initializer has those of its tree. -/
theorem variableDeclaration : Issues [] inner.variableDeclaration Stmt.ids := by
  apply after (.expect _ _)
  intro name
  apply after (.accept? _)
  intro found
  have rest (initializer : Option Expr) : Issues (Expr.idsOptional initializer)
      (do
        Parse.semicolon .declarationEnd
        return .declare name initializer) Stmt.ids :=
    after (.semicolon _) fun _ => pure (.refl _)
  cases found with
  | none => exact andThen (pure (.refl _)) rest
  | some _ => exact andThen (andThen smaller.expression fun _ => pure (.refl _)) rest

/-- A printed expression keeps its identities. -/
theorem printStatement (keyword : Token) : Issues [] (inner.printStatement keyword) Stmt.ids :=
  andThen smaller.expression fun _ => after (.semicolon _) fun _ => pure (.refl _)

/-- A returned expression keeps its identities. -/
theorem returnStatement (keyword : Token) : Issues [] (inner.returnStatement keyword) Stmt.ids :=
  andThen (smaller.expressionUnless _) fun _ => after (.semicolon _) fun _ => pure (.refl _)

/-- The parentheses around a condition have no identities. -/
theorem condition (opening closing : Expectation) :
    Issues [] (inner.condition opening closing) Expr.ids := by
  apply after (.expect _ _)
  intro _
  apply andThen smaller.expression
  intro value
  exact after (.expect _ _) fun _ => pure (.refl _)

/-- The condition and the first branch are held while the second one is read. -/
theorem ifStatement : Issues [] inner.ifStatement Stmt.ids := by
  apply andThen (smaller.condition _ _)
  intro test
  apply andThen smaller.statement
  intro whenTrue
  apply after (.accept? _)
  intro found
  cases found with
  | none => exact pure (.refl _)
  | some _ => exact andThen smaller.statement fun whenFalse => pure (.refl _)

/-- The condition is held while the body is read. -/
theorem whileStatement : Issues [] inner.whileStatement Stmt.ids :=
  andThen (smaller.condition _ _) fun _ => andThen smaller.statement fun _ => pure (.refl _)

/-- The first clause of a `for` loop is a statement, or missing. -/
theorem forInitializer :
    Issues [] inner.forInitializer fun clause => Stmt.idsAll clause.toList := by
  have clause {step : Parse Stmt} (read : Issues [] step Stmt.ids) :
      Issues [] (some <$> step) fun clause => Stmt.idsAll clause.toList :=
    andThen read fun _ => pure (List.Perm.of_eq (List.append_nil _)).subperm
  apply after .current
  intro token
  split
  · exact after .advance fun _ => pure (.refl _)
  · exact after .advance fun _ => clause smaller.variableDeclaration
  · exact clause smaller.expressionStatement

/-- The clauses of a `for` loop are held while its body is read; the tree lists them in another
order. -/
theorem forStatement : Issues [] inner.forStatement Stmt.ids := by
  apply after (.expect _ _)
  intro _
  apply andThen smaller.forInitializer
  intro initializer
  apply andThen (smaller.expressionUnless _)
  intro test
  apply after (.semicolon _)
  intro _
  apply andThen (smaller.expressionUnless _)
  intro increment
  apply after (.expect _ _)
  intro _
  apply andThen smaller.statement
  intro body
  exact pure (ids_forLoop initializer test increment body)

omit smaller in
/-- What recovers and what follows it are read one behind the other. -/
theorem declarationsBehind {declaration : Parse Stmt} {more : Parse (List Stmt)}
    (head : Issues [] declaration Stmt.ids) (tail : Issues [] more Stmt.idsAll) :
    Issues [] (do
      let first ← always (recovering declaration)
      let rest ← more
      return first.toList ++ rest) Stmt.idsAll := by
  apply andThen (.recovering head)
  intro first
  apply andThen tail
  intro rest
  apply Issues.pure
  rw [Stmt.idsAll_append]
  exact .refl _

/-- Parameters have no identities. -/
theorem parameterList (count : Nat) : Issues [] (inner.parameterList count) fun _ => [] := by
  have list := Issues.entries (Quiet.expect .identifier .parameterName [])
    (smaller.parameters (count + 1)) (fun _ => .refl _) fun _ _ => .refl _
  unfold Readers.parameterList
  dsimp only
  split
  · exact after .current fun token => after (.report _) fun _ => list
  · exact list

/-- A function has the identities of its body. -/
theorem routine (kind : RoutineKind) : Issues [] (inner.routine kind) FunctionDecl.ids := by
  apply after (.expect _ _)
  intro name
  apply after (.expect _ _)
  intro _
  apply after (.check _)
  intro closed
  have rest (names : List Token) : Issues []
      (do
        let _ ← Parse.expect (.symbol .rightParen) .parametersEnd
        let _ ← Parse.expect (.symbol .leftBrace) (.routineBodyOpening kind)
        return .mk name names (← inner.block)) FunctionDecl.ids :=
    after (.expect _ _) fun _ => after (.expect _ _) fun _ =>
      andThen smaller.block fun trees => pure (.refl _)
  split
  · exact after (.pure _) rest
  · exact andThen (smaller.parameters 0) rest

/-- The methods that were read are held while more of them are read. -/
theorem members {method : Parse FunctionDecl} (member : Issues [] method FunctionDecl.ids) :
    Issues [] (inner.members method) FunctionDecl.idsAll := by
  apply after (.check _)
  intro closed
  apply after .isAtEnd
  intro ended
  split
  · exact pure (.refl _)
  · exact andThen member fun first => andThen (smaller.methods member) fun others => pure (.refl _)

/-- The occurrence of the superclass is held while the methods are read. -/
theorem classDeclaration : Issues [] inner.classDeclaration Stmt.ids := by
  apply after (.expect _ _)
  intro name
  apply andThen .superclass?
  intro parent
  apply after (.expect _ _)
  intro _
  apply andThen (smaller.methods (smaller.routine _))
  intro members
  exact after (.expect _ _) fun _ => pure (.refl _)

/-- Whatever a declaration is, its identities are new. -/
theorem anyDeclaration : Issues [] inner.anyDeclaration Stmt.ids := by
  apply after .current
  intro token
  split
  · exact after .advance fun _ => smaller.classDeclaration
  · exact after .advance fun _ => andThen (smaller.routine _) fun _ => pure (.refl _)
  · exact after .advance fun _ => smaller.variableDeclaration
  · exact smaller.statement

/-- Whatever a statement is, its identities are new. -/
theorem anyStatement : Issues [] inner.anyStatement Stmt.ids := by
  apply after .current
  intro token
  split
  · exact after .advance fun _ => smaller.forStatement
  · exact after .advance fun _ => smaller.ifStatement
  · exact after .advance fun _ => smaller.printStatement token
  · exact after .advance fun _ => smaller.returnStatement token
  · exact after .advance fun _ => smaller.whileStatement
  · exact after .advance fun _ => andThen smaller.block fun _ => pure (.refl _)
  · exact smaller.expressionStatement

/-- The statements of a block are held while the rest of it is read. -/
theorem blockRest : Issues [] inner.blockRest Stmt.idsAll := by
  apply after (.check _)
  intro closed
  apply after .isAtEnd
  intro ended
  split
  · exact after (.expect _ _) fun _ => pure (.refl _)
  · exact declarationsBehind smaller.declaration smaller.block

/-- The statements of a program are held while the rest of it is read. -/
theorem declarations : Issues [] inner.declarations Stmt.idsAll := by
  apply after .isAtEnd
  intro ended
  split
  · exact pure (.refl _)
  · exact declarationsBehind smaller.declaration smaller.program

/-- One more level hands out identities once as well. -/
theorem unfolded : Issuing inner.unfolded where
  expression := smaller.assignment
  chain := smaller.operands
  chainRest := smaller.operandsBehind
  unary := smaller.prefixed
  accesses := smaller.accessed
  arguments := smaller.argumentList
  primary := smaller.atom
  parameters := smaller.parameterList
  methods := smaller.members
  declaration := smaller.anyDeclaration
  statement := smaller.anyStatement
  block := smaller.blockRest
  program := smaller.declarations

end Issuing

/-- Every reader hands out identities once, whatever it meets. -/
theorem issuing (depth : Nat) : Issuing (readers depth) := by
  induction depth with
  | zero => exact .exhausted
  | succ depth smaller => exact smaller.unfolded

/-- The statements of a program that could be read, whatever stood between them. -/
theorem program_issued (depth : Nat) (cursor : Cursor) :
    IssuedOnce cursor.nextId (program depth cursor).2.nextId
      (Stmt.idsAll (program depth cursor).1) := by
  have issued := (issuing depth).program
  rw [← always_program] at issued
  exact issued cursor.nextId cursor (.nil (Nat.le_refl _))

end Parse

/-- The identities in the statements that are read from a token list are handed out once, from the
first one on, also where violations are reported. -/
theorem parse_issued (tokens : List Token) (firstId : Nat) :
    IssuedOnce firstId (parse tokens firstId).nextId
      (Stmt.idsAll (parse tokens firstId).statements) :=
  Parse.program_issued (parseDepth tokens.length) (Cursor.start tokens firstId)

end LoxLang
