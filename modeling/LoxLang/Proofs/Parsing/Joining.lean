import LoxLang.Proofs.Parsing.Complete
import LoxLang.Proofs.Tree.Moved

/-!
# Readings of joined texts

A reading looks at the kinds of tokens only, and at no token behind its last one, except that a
branch looks for an `else`. So it is a reading further down as well, with later identities and with
other tokens behind, and the readings of two programs can be put one behind the other.
-/

namespace LoxLang

/-- The same place further down, with later identities and with more tokens behind. -/
def Place.moved (shift : Shift) (behind : List Token) (place : Place) : Place :=
  ⟨place.remaining.map (Token.moved shift.lines) ++ behind, place.nextId + shift.ids⟩

/-- Issuing an id and moving a place commute. -/
theorem Place.moved_succ (shift : Shift) (behind rest : List Token) (nextId : Nat) :
    Place.moved shift behind ⟨rest, nextId + 1⟩ =
      ⟨rest.map (Token.moved shift.lines) ++ behind, nextId + shift.ids + 1⟩ :=
  congrArg (Place.mk _) (Nat.add_right_comm _ _ _)

/-- More tokens behind a place are not looked at from there. -/
def Place.Settled (behind : List Token) (place : Place) : Prop :=
  place.remaining ≠ [] ∨ behind = []

namespace Place

variable {behind : List Token} {place after : Place}

/-- With a token in front a place does not see what stands behind. -/
theorem settled_cons (behind : List Token) (token : Token) (rest : List Token) (nextId : Nat) :
    Settled behind ⟨token :: rest, nextId⟩ :=
  .inl (List.cons_ne_nil _ _)

/-- A place further back sees no more of what stands behind. -/
theorem Settled.of_suffix (settled : after.Settled behind)
    (suffix : after.remaining <:+ place.remaining) : place.Settled behind := by
  refine settled.imp_left fun further ended => further ?_
  rw [ended] at suffix
  exact List.suffix_nil.mp suffix

/-- A settled place shows the same kind when it is moved. -/
theorem Settled.next? (settled : place.Settled behind) (shift : Shift) :
    (place.moved shift behind).next? = place.next? := by
  obtain ⟨remaining, nextId⟩ := place
  cases remaining with
  | nil =>
    rcases settled with further | rfl
    · exact absurd rfl further
    · rfl
  | cons token rest => rfl

/-- A place with a kind in front is settled. -/
theorem settled_of_next? {kind : Kind} (found : place.next? = some kind) :
    place.Settled behind := by
  obtain ⟨remaining, nextId⟩ := place
  cases remaining with
  | nil => cases found
  | cons token rest => exact settled_cons behind token rest nextId

end Place

/-- The same phrase further down. -/
def ExprPhrase.moved (shift : Shift) : ExprPhrase → ExprPhrase
  | .expression tree => .expression (tree.moved shift)
  | .chain level tree => .chain level (tree.moved shift)
  | .chainRest level left tree => .chainRest level (left.moved shift) (tree.moved shift)
  | .unary tree => .unary (tree.moved shift)
  | .accesses object tree => .accesses (object.moved shift) (tree.moved shift)
  | .arguments count trees => .arguments count (Expr.movedAll shift trees)
  | .primary tree => .primary (tree.moved shift)

/-- An operand moves as the phrase of the level below. -/
theorem ExprPhrase.moved_operand (shift : Shift) (level : Level) (tree : Expr) :
    (ExprPhrase.operand level tree).moved shift = .operand level (tree.moved shift) := by
  cases level <;> rfl

/-- An operation moves with its parts. -/
theorem Level.moved_combine (shift : Shift) (level : Level) (left : Expr) (operator : Token)
    (right : Expr) :
    (level.combine left operator right).moved shift =
      level.combine (left.moved shift) (operator.moved shift.lines) (right.moved shift) := by
  cases level <;> rfl

/-- A reading of an expression is one further down as well, whatever stands behind. -/
theorem ExprReads.moved {phrase : ExprPhrase} {start after : Place}
    (reads : ExprReads phrase start after) (shift : Shift) {behind : List Token}
    (settled : after.Settled behind) :
    ExprReads (phrase.moved shift) (start.moved shift behind) (after.moved shift behind) := by
  have settledCons := Place.settled_cons behind
  induction reads with
  | plain target stop foundTarget =>
    exact .plain (foundTarget settled) (by rwa [settled.next? shift])
  | assign target mark result foundTarget foundResult =>
    exact .assign (foundTarget (settledCons _ _ _)) mark (foundResult settled)
  | set target mark result foundTarget foundResult =>
    exact .set (foundTarget (settledCons _ _ _)) mark (foundResult settled)
  | chain operand rest foundOperand foundRest =>
    have first := foundOperand (settled.of_suffix rest.suffix)
    rw [ExprPhrase.moved_operand] at first
    exact .chain first (foundRest settled)
  | chainEnd stop => exact .chainEnd (by rwa [settled.next? shift])
  | chainMore mark operand more foundOperand foundMore =>
    have second := foundOperand (settled.of_suffix more.suffix)
    have rest := foundMore settled
    rw [ExprPhrase.moved_operand] at second
    rw [ExprPhrase.moved, Level.moved_combine] at rest
    exact .chainMore mark second rest
  | prefixed mark inner found => exact .prefixed mark (found settled)
  | accessed head more foundHead foundMore =>
    exact .accessed (foundHead (settled.of_suffix more.suffix)) (foundMore settled)
  | accessesEnd noCall noProperty =>
    exact .accessesEnd (by rwa [settled.next? shift]) (by rwa [settled.next? shift])
  | call opens list closes more foundList foundMore =>
    exact .call opens (foundList (settledCons _ _ _)) closes (foundMore settled)
  | callEmpty opens closes more found => exact .callEmpty opens closes (found settled)
  | property mark named more found => exact .property mark named (found settled)
  | lastArgument room entry stop found =>
    exact .lastArgument room (found settled) (by rwa [settled.next? shift])
  | trailingArgument room entry mark closes found =>
    refine .trailingArgument room (found (settledCons _ _ _)) mark ?_
    have next := settled.next? shift
    rwa [closes] at next
  | moreArguments room entry mark more foundEntry foundMore =>
    exact .moreArguments room (foundEntry (settledCons _ _ _)) mark (foundMore settled)
  | falseLiteral mark => exact .falseLiteral mark
  | trueLiteral mark => exact .trueLiteral mark
  | nilLiteral mark => exact .nilLiteral mark
  | number mark => exact .number mark
  | string mark => exact .string mark
  | this mark =>
    rw [Place.moved_succ]
    exact .this mark
  | super mark point named =>
    rw [Place.moved_succ]
    exact .super mark point named
  | reference mark =>
    rw [Place.moved_succ]
    exact .reference mark
  | group opens enclosed closes found => exact .group opens (found (settledCons _ _ _)) closes

/-- The same phrase further down. -/
def StmtPhrase.moved (shift : Shift) : StmtPhrase → StmtPhrase
  | .optional closing value => .optional closing (value.map (Expr.moved shift))
  | .variable tree => .variable (tree.moved shift)
  | .simple tree => .simple (tree.moved shift)
  | .initializer clause => .initializer (clause.map (Stmt.moved shift))
  | .parameters count names => .parameters count (names.map (Token.moved shift.lines))
  | .routine tree => .routine (tree.moved shift)
  | .superclass parent => .superclass (parent.map (Expr.moved shift))
  | .methods trees => .methods (FunctionDecl.movedAll shift trees)
  | .declaration tree => .declaration (tree.moved shift)
  | .statement tree => .statement (tree.moved shift)
  | .block trees => .block (Stmt.movedAll shift trees)
  | .program trees => .program (Stmt.movedAll shift trees)

/-- The loop that a `for` stands for moves with its clauses. -/
theorem Parse.moved_forLoop (shift : Shift) (initializer : Option Stmt)
    (test increment : Option Expr) (body : Stmt) :
    (Parse.forLoop initializer test increment body).moved shift =
      Parse.forLoop (initializer.map (Stmt.moved shift)) (test.map (Expr.moved shift))
        (increment.map (Expr.moved shift)) (body.moved shift) := by
  cases initializer <;> cases test <;> cases increment <;> rfl

/-- The phrases that end with a token of their own, behind which at most an `else` matters. -/
def StmtPhrase.endsItself : StmtPhrase → Bool
  | .variable _ => true
  | .simple _ => true
  | .initializer _ => true
  | .routine _ => true
  | .declaration _ => true
  | .statement _ => true
  | .block _ => true
  | _ => false

/-- More tokens behind a phrase that was read up to a place leave it as it is. -/
def StmtPhrase.Settled (behind : List Token) (after : Place) (phrase : StmtPhrase) : Prop :=
  after.Settled behind ∨
    phrase.endsItself = true ∧ behind.head?.map Token.kind ≠ some (.keyword .elseWord)

namespace StmtPhrase.Settled

variable {shift : Shift} {behind : List Token} {after : Place} {phrase other : StmtPhrase}

/-- A phrase that ends with another one is as settled as that one. -/
theorem inner (settled : phrase.Settled behind after) (ends : other.endsItself = true) :
    other.Settled behind after :=
  settled.imp_right fun outer => ⟨ends, outer.2⟩

/-- A settled phrase that does not end itself ends at a settled place. -/
theorem place (settled : phrase.Settled behind after) (unended : phrase.endsItself = false) :
    after.Settled behind := by
  rcases settled with settled | ⟨ends, _⟩
  · exact settled
  · rw [unended] at ends
    cases ends

/-- No `else` comes up behind a settled phrase by moving it. -/
theorem next?_ne_else (settled : phrase.Settled behind after)
    (stop : after.next? ≠ some (.keyword .elseWord)) :
    (after.moved shift behind).next? ≠ some (.keyword .elseWord) := by
  rcases settled with settled | ⟨_, noElse⟩
  · rwa [settled.next? shift]
  · obtain ⟨remaining, nextId⟩ := after
    cases remaining with
    | nil => exact noElse
    | cons token rest => exact stop

end StmtPhrase.Settled

/-- A reading of a statement or of a program is one further down as well, whatever stands behind. -/
theorem StmtReads.moved {phrase : StmtPhrase} {start after : Place}
    (reads : StmtReads phrase start after) (shift : Shift) {behind : List Token}
    (settled : phrase.Settled behind after) :
    StmtReads (phrase.moved shift) (start.moved shift behind) (after.moved shift behind) := by
  have settledCons := Place.settled_cons behind
  have atToken {phrase : StmtPhrase} {token : Token} {rest : List Token} {nextId : Nat} :
      phrase.Settled behind ⟨token :: rest, nextId⟩ := .inl (settledCons token rest nextId)
  induction reads with
  | absent closed => exact .absent (by rw [(Place.settled_of_next? closed).next? shift, closed])
  | present opened inner =>
    have there := settled.place rfl
    refine .present ?_ (inner.moved shift there)
    rwa [(there.of_suffix inner.suffix).next? shift]
  | undefined named ends => exact .undefined named ends
  | initialized named mark inner ends =>
    exact .initialized named mark (inner.moved shift (settledCons _ _ _)) ends
  | simple inner ends => exact .simple (inner.moved shift (settledCons _ _ _)) ends
  | noInitializer ends => exact .noInitializer ends
  | variableInitializer mark clause found =>
    exact .variableInitializer mark (found (settled.inner rfl))
  | simpleInitializer clause found => exact .simpleInitializer (found (settled.inner rfl))
  | lastParameter room named stop =>
    refine .lastParameter room named ?_
    have next := (settled.place rfl).next? shift
    rwa [← next] at stop
  | trailingParameter room named mark closes =>
    refine .trailingParameter room named mark ?_
    have next := (settled.place rfl).next? shift
    rwa [← next] at closes
  | moreParameters room named mark more found =>
    exact .moreParameters room named mark (found (.inl (settled.place rfl)))
  | routine named opens list closes enters block foundList foundBlock =>
    exact .routine named opens (foundList atToken) closes enters (foundBlock (settled.inner rfl))
  | routineEmpty named opens closes enters block found =>
    exact .routineEmpty named opens closes enters (found (settled.inner rfl))
  | noSuperclass stop => exact .noSuperclass (by rwa [(settled.place rfl).next? shift])
  | superclass less named =>
    rw [Place.moved_succ]
    exact .superclass less named
  | methodsEnd stop => exact .methodsEnd (by rwa [(settled.place rfl).next? shift])
  | methodsMore head more foundHead foundMore =>
    have there := settled.place rfl
    exact .methodsMore (foundHead (.inl (there.of_suffix more.suffix))) (foundMore (.inl there))
  | «class» mark named derived opens members closes foundParent foundMembers =>
    exact .class mark named (foundParent atToken) opens (foundMembers atToken) closes
  | function mark inner found => exact .function mark (found (settled.inner rfl))
  | variableDeclaration mark inner found =>
    exact .variableDeclaration mark (found (settled.inner rfl))
  | plain inner found => exact .plain (found (settled.inner rfl))
  | «for» mark opens first condition ends step closes inner foundFirst foundTest foundStep
      foundBody =>
    have tested := foundTest atToken
    have started := foundFirst (.inl ((settledCons _ _ _).of_suffix condition.suffix))
    rw [StmtPhrase.moved, Parse.moved_forLoop]
    exact .for mark opens started tested ends (foundStep atToken) closes
      (foundBody (settled.inner rfl))
  | «if» mark opens condition closes inner stop found =>
    exact .if mark opens (condition.moved shift (settledCons _ _ _)) closes
      (found (settled.inner rfl)) (settled.next?_ne_else stop)
  | ifElse mark opens condition closes inner otherwise outer foundInner foundOuter =>
    exact .ifElse mark opens (condition.moved shift (settledCons _ _ _)) closes
      (foundInner atToken) otherwise (foundOuter (settled.inner rfl))
  | print mark inner ends => exact .print mark (inner.moved shift (settledCons _ _ _)) ends
  | «return» mark inner ends found => exact .return mark (found atToken) ends
  | «while» mark opens condition closes inner found =>
    exact .while mark opens (condition.moved shift (settledCons _ _ _)) closes
      (found (settled.inner rfl))
  | block opens inner found => exact .block opens (found (settled.inner rfl))
  | expression inner found => exact .expression (found (settled.inner rfl))
  | blockEnd closes => exact .blockEnd closes
  | blockMore head more foundHead foundMore =>
    have further := List.ne_nil_of_length_pos (Nat.zero_lt_of_lt (more.opens rfl).length_lt)
    exact .blockMore (foundHead (.inl (.inl further))) (foundMore (settled.inner rfl))
  | programEnd =>
    rcases settled.place rfl with further | rfl
    · exact absurd rfl further
    · exact .programEnd
  | programMore head more foundHead foundMore =>
    have there := settled.place rfl
    exact .programMore (foundHead (.inl (there.of_suffix more.suffix))) (foundMore (.inl there))

/-- A place that is not moved only gains the tokens behind. -/
theorem Place.moved_none (behind : List Token) (place : Place) :
    place.moved .none behind = ⟨place.remaining ++ behind, place.nextId⟩ :=
  congrArg (Place.mk · _) (congrArg (· ++ behind) (Token.map_moved_zero place.remaining))

/-- A program does not start with an `else`. -/
theorem StmtReads.program_head? {trees : List Stmt} {tokens : List Token} {nextId : Nat}
    {after : Place} (reads : StmtReads (.program trees) ⟨tokens, nextId⟩ after) :
    tokens.head?.map Token.kind ≠ some (.keyword .elseWord) := by
  cases reads with
  | programEnd => nofun
  | programMore head _ =>
    obtain ⟨token, rest, same, opens, _⟩ := head.opens rfl
    obtain rfl : tokens = token :: rest := same
    intro found
    rw [Option.some.inj found] at opens
    cases opens

/-- The readings of two programs one behind the other. -/
theorem StmtReads.program_append {trees others : List Stmt} {start after last : Place}
    {behind : List Token} (first : StmtReads (.program trees) start after)
    (second : StmtReads (.program others) ⟨behind, after.nextId⟩ last) :
    StmtReads (.program (trees ++ others)) ⟨start.remaining ++ behind, start.nextId⟩ last := by
  induction trees generalizing start with
  | nil =>
    cases first with
    | programEnd => exact second
  | cons tree trees inductionHypothesis =>
    cases first with
    | programMore head more =>
      have moved := head.moved .none (.inr ⟨rfl, second.program_head?⟩)
      rw [Place.moved_none, Place.moved_none, StmtPhrase.moved, Stmt.moved_none] at moved
      exact .programMore moved (inductionHypothesis more)

end LoxLang
