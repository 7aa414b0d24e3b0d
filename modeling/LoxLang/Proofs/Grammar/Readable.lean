import LoxLang.Proofs.Grammar.Derivable
import LoxLang.Proofs.Parsing.Complete

/-!
# Derivations are readings

A derivation splits its tokens anywhere its rule allows; a reading takes as many as it can. Both
come to the same ends, because what follows a phrase in the grammar never continues it: the meaning
of a nonterminal here is that its tokens can be read in front of such a continuation. The exception
is an `if` without an `else`. A statement that ends in one takes an `else` that follows it, so the
tokens are read as another statement than they were derived as.
-/

namespace LoxLang

/-- The kind of the first token. -/
def nextKind (tokens : List Token) : Option Kind :=
  tokens.head?.map Token.kind

/-- The next kind is that of the first token. -/
@[simp] theorem nextKind_cons (token : Token) (rest : List Token) :
    nextKind (token :: rest) = some token.kind :=
  rfl

/-- What comes next at a place is the kind of its first token. -/
theorem Place.next?_eq_nextKind (tokens : List Token) (nextId : Nat) :
    Place.next? ⟨tokens, nextId⟩ = nextKind tokens :=
  rfl

/-- Tokens that are read as a phrase in front of an allowed continuation. -/
def ExprReadable {α : Type} (phrase : α → ExprPhrase) (allowed : Option Kind → Prop)
    (tokens : List Token) : Prop :=
  ∀ rest nextId, allowed (nextKind rest) →
    ∃ tree laterId, ExprReads (phrase tree) ⟨tokens ++ rest, nextId⟩ ⟨rest, laterId⟩

/-- Tokens that are read as a phrase in front of an allowed continuation. -/
def StmtReadable {α : Type} (phrase : α → StmtPhrase) (allowed : Option Kind → Prop)
    (tokens : List Token) : Prop :=
  ∀ rest nextId, allowed (nextKind rest) →
    ∃ tree laterId, StmtReads (phrase tree) ⟨tokens ++ rest, nextId⟩ ⟨rest, laterId⟩

/-- Any continuation. -/
def Anything (_ : Option Kind) : Prop :=
  True

/-- What follows a complete expression in the grammar. -/
def Closes (next : Option Kind) : Prop :=
  next = some (.symbol .rightParen) ∨ next = some (.symbol .comma) ∨
    next = some (.symbol .semicolon)

/-- No operator belongs to two levels. -/
theorem Level.eq_of_mem_operators {level other : Level} {kind : Kind}
    (first : kind ∈ level.operators) (second : kind ∈ other.operators) : level = other := by
  cases level <;> cases other <;> first | rfl | (simp [Level.operators] at first second; grind)

/-- A continuation that is no access, and no operator of a level below a rank. -/
structure Stops (bound : Nat) (next : Option Kind) : Prop where
  noCall : next ≠ some (.symbol .leftParen)
  noProperty : next ≠ some (.symbol .dot)
  noOperator : ∀ level : Level, level.rank < bound → ∀ kind ∈ level.operators, next ≠ some kind

namespace Stops

variable {bound smaller : Nat} {next : Option Kind}

/-- What stops a bound stops smaller ones. -/
theorem mono (stops : Stops bound next) (less : smaller ≤ bound) : Stops smaller next where
  noCall := stops.noCall
  noProperty := stops.noProperty
  noOperator := fun level below => stops.noOperator level (Nat.lt_of_lt_of_le below less)

/-- What closes an expression stops every bound. -/
theorem of_closes (closes : Closes next) : Stops bound next := by
  rcases closes with rfl | rfl | rfl
  all_goals
    refine ⟨by simp, by simp, fun level _ kind member same => ?_⟩
    obtain rfl := Option.some.inj same
    cases level <;> simp [Level.operators] at member

/-- An equals sign is no operator of a chain. -/
theorem equal : Stops bound (some (.symbol .equal)) := by
  refine ⟨nofun, nofun, fun level _ kind member same => ?_⟩
  obtain rfl := Option.some.inj same
  cases level <;> simp [Level.operators] at member

/-- An operator of a level ends its operands. -/
theorem operator {level : Level} {kind : Kind} (member : kind ∈ level.operators) :
    Stops level.rank (some kind) := by
  refine ⟨?_, ?_, ?_⟩
  · rintro ⟨⟩
    cases level <;> simp [Level.operators] at member
  · rintro ⟨⟩
    cases level <;> simp [Level.operators] at member
  · rintro tighter below other second ⟨⟩
    have same := Level.eq_of_mem_operators member second
    exact absurd below (by simp [same])

end Stops

/-- What closes an expression does not assign to it. -/
theorem Closes.ne_equal {next : Option Kind} (closes : Closes next) :
    next ≠ some (.symbol .equal) := by
  rcases closes with rfl | rfl | rfl <;> nofun

/-- Operators and operands behind a first one are read in front of a continuation that stops their
level. -/
theorem ExprReadable.chainRest {level : Level} {parts : List (List Token)}
    (each : ∀ part ∈ parts, ∃ operator operand, operator.kind ∈ level.operators ∧
      ExprReadable (.operand level) (Stops level.rank) operand ∧ part = operator :: operand)
    (left : Expr) :
    ExprReadable (.chainRest level left) (Stops (level.rank + 1)) parts.flatten := by
  induction parts generalizing left with
  | nil =>
    intro rest nextId stops
    exact ⟨left, nextId, .chainEnd (stops.noOperator level (Nat.lt_succ_self _))⟩
  | cons part parts inductionHypothesis =>
    intro rest nextId stops
    obtain ⟨⟨operator, operand, mark, readable, rfl⟩, others⟩ := List.forall_mem_cons.mp each
    have behind : Stops level.rank (nextKind (parts.flatten ++ rest)) := by
      cases parts with
      | nil => exact stops.mono (Nat.le_succ _)
      | cons next parts =>
        obtain ⟨second, _, member, _, rfl⟩ := others next List.mem_cons_self
        exact .operator member
    obtain ⟨right, middleId, first⟩ := readable (parts.flatten ++ rest) nextId behind
    obtain ⟨tree, laterId, more⟩ :=
      inductionHypothesis others (level.combine left operator right) rest middleId stops
    refine ⟨tree, laterId, ?_⟩
    simpa using ExprReads.chainMore mark first more

/-- A chain is read from its first operand and the operators with theirs. -/
theorem ExprReadable.chain {level : Level} {first : List Token} {parts : List (List Token)}
    (head : ExprReadable (.operand level) (Stops level.rank) first)
    (each : ∀ part ∈ parts, ∃ operator operand, operator.kind ∈ level.operators ∧
      ExprReadable (.operand level) (Stops level.rank) operand ∧ part = operator :: operand) :
    ExprReadable (.chain level) (Stops (level.rank + 1)) (first ++ parts.flatten) := by
  intro rest nextId stops
  have behind : Stops level.rank (nextKind (parts.flatten ++ rest)) := by
    cases parts with
    | nil => exact stops.mono (Nat.le_succ _)
    | cons next parts =>
      obtain ⟨second, _, member, _, rfl⟩ := each next List.mem_cons_self
      exact .operator member
  obtain ⟨operand, middleId, reads⟩ := head (parts.flatten ++ rest) nextId behind
  obtain ⟨tree, laterId, more⟩ := ExprReadable.chainRest each operand rest middleId stops
  refine ⟨tree, laterId, ?_⟩
  rw [List.append_assoc]
  exact .chain reads more

/-- A prefix expression is a chain of every level without an operator in it. -/
theorem ExprReads.chain_of_unary {tree : Expr} {start after : Place} (level : Level)
    (reads : ExprReads (.unary tree) start after) (stops : Stops (level.rank + 1) after.next?) :
    ExprReads (.chain level tree) start after := by
  have single (level : Level) (operand : ExprReads (.operand level tree) start after)
      (stops : Stops (level.rank + 1) after.next?) : ExprReads (.chain level tree) start after :=
    .chain operand (.chainEnd (stops.noOperator level (Nat.lt_succ_self _)))
  have product (stops : Stops 4 after.next?) : ExprReads (.chain .product tree) start after :=
    single .product reads stops
  have sum (stops : Stops 5 after.next?) : ExprReads (.chain .sum tree) start after :=
    single .sum (product (stops.mono (by decide))) stops
  have comparison (stops : Stops 6 after.next?) : ExprReads (.chain .comparison tree) start after :=
    single .comparison (sum (stops.mono (by decide))) stops
  have equality (stops : Stops 7 after.next?) : ExprReads (.chain .equality tree) start after :=
    single .equality (comparison (stops.mono (by decide))) stops
  have conjunction (stops : Stops 8 after.next?) :
      ExprReads (.chain .conjunction tree) start after :=
    single .conjunction (equality (stops.mono (by decide))) stops
  cases level with
  | disjunction => exact single .disjunction (conjunction (stops.mono (by decide))) stops
  | conjunction => exact conjunction stops
  | equality => exact equality stops
  | comparison => exact comparison stops
  | sum => exact sum stops
  | product => exact product stops

/-- Tokens that are read as the start of a call, whatever accesses follow. -/
def CallReadable (tokens : List Token) : Prop :=
  ∀ rest nextId, ∃ object laterId, ∀ tree after,
    ExprReads (.accesses object tree) ⟨rest, laterId⟩ after →
      ExprReads (.unary tree) ⟨tokens ++ rest, nextId⟩ after

/-- Tokens that are read as one access. -/
def AccessReadable (tokens : List Token) : Prop :=
  ∀ object rest nextId, ∃ accessed laterId, ∀ tree after,
    ExprReads (.accesses accessed tree) ⟨rest, laterId⟩ after →
      ExprReads (.accesses object tree) ⟨tokens ++ rest, nextId⟩ after

/-- Calls and properties are read one behind the other. -/
theorem AccessReadable.flatten {parts : List (List Token)}
    (each : ∀ part ∈ parts, AccessReadable part) : AccessReadable parts.flatten := by
  induction parts with
  | nil => exact fun object rest nextId => ⟨object, nextId, fun tree after reads => reads⟩
  | cons part parts inductionHypothesis =>
    obtain ⟨first, others⟩ := List.forall_mem_cons.mp each
    intro object rest nextId
    obtain ⟨between, middleId, head⟩ := first object (parts.flatten ++ rest) nextId
    obtain ⟨accessed, laterId, more⟩ := inductionHypothesis others between rest middleId
    refine ⟨accessed, laterId, fun tree after reads => ?_⟩
    simpa using head tree after (more tree after reads)

/-- A primary expression is called and accessed. -/
theorem CallReadable.of_primary {before behind : List Token}
    (head : ExprReadable .primary Anything before) (accesses : AccessReadable behind) :
    CallReadable (before ++ behind) := by
  intro rest nextId
  obtain ⟨object, middleId, reads⟩ := head (behind ++ rest) nextId trivial
  obtain ⟨accessed, laterId, more⟩ := accesses object rest middleId
  refine ⟨accessed, laterId, fun tree after further => ?_⟩
  rw [List.append_assoc]
  exact .accessed reads (more tree after further)

/-- A call is a prefix expression without an operator. -/
theorem CallReadable.unary {tokens : List Token} (call : CallReadable tokens) :
    ExprReadable .unary (Stops 3) tokens := by
  intro rest nextId stops
  obtain ⟨object, laterId, reads⟩ := call rest nextId
  exact ⟨object, laterId, reads object _ (.accessesEnd stops.noCall stops.noProperty)⟩

/-- A prefix operator stands in front of a prefix expression. -/
theorem ExprReadable.prefixed {operator : Token} {tokens : List Token}
    (mark : operator.kind = .symbol .bang ∨ operator.kind = .symbol .minus)
    (operand : ExprReadable .unary (Stops 3) tokens) :
    ExprReadable .unary (Stops 3) (operator :: tokens) := by
  intro rest nextId stops
  obtain ⟨tree, laterId, reads⟩ := operand rest nextId stops
  exact ⟨_, laterId, .prefixed mark reads⟩

/-- A loose expression is an expression where nothing is assigned to it. -/
theorem ExprReadable.plain {tokens : List Token}
    (target : ExprReadable (.chain .disjunction) (Stops 9) tokens) :
    ExprReadable .expression Closes tokens := by
  intro rest nextId closes
  obtain ⟨tree, laterId, reads⟩ := target rest nextId (.of_closes closes)
  exact ⟨tree, laterId, .plain reads closes.ne_equal⟩

/-- A variable is assigned to. -/
theorem ExprReadable.assign {name equals : Token} {tokens : List Token}
    (named : name.kind = .identifier) (mark : equals.kind = .symbol .equal)
    (value : ExprReadable .expression Closes tokens) :
    ExprReadable .expression Closes (name :: equals :: tokens) := by
  intro rest nextId closes
  obtain ⟨result, laterId, reads⟩ := value rest (nextId + 1) closes
  have stops : Stops 9 (Place.next? ⟨equals :: (tokens ++ rest), nextId + 1⟩) := by
    rw [Place.next?_cons, mark]
    exact .equal
  have target : ExprReads (.unary (.reference nextId name))
      ⟨name :: equals :: (tokens ++ rest), nextId⟩ ⟨equals :: (tokens ++ rest), nextId + 1⟩ :=
    .accessed (.reference named) (.accessesEnd stops.noCall stops.noProperty)
  exact ⟨_, laterId, .assign (target.chain_of_unary .disjunction stops) mark reads⟩

/-- A property is set, whatever object it is a property of. -/
theorem ExprReadable.set {object tokens : List Token} {dot name equals : Token}
    (call : CallReadable object) (point : dot.kind = .symbol .dot) (named : name.kind = .identifier)
    (mark : equals.kind = .symbol .equal) (value : ExprReadable .expression Closes tokens) :
    ExprReadable .expression Closes (object ++ dot :: name :: equals :: tokens) := by
  intro rest nextId closes
  obtain ⟨accessed, middleId, access⟩ := call (dot :: name :: equals :: (tokens ++ rest)) nextId
  obtain ⟨result, laterId, reads⟩ := value rest middleId closes
  have stops : Stops 9 (Place.next? ⟨equals :: (tokens ++ rest), middleId⟩) := by
    rw [Place.next?_cons, mark]
    exact .equal
  have target := access (.get accessed name) _
    (.property point named (.accessesEnd stops.noCall stops.noProperty))
  refine ⟨.set accessed name result, laterId, ?_⟩
  simpa using ExprReads.set (target.chain_of_unary .disjunction stops) mark reads

/-- Arguments behind others are read in front of the closing parenthesis, if there is room for all
of them. -/
theorem ExprReadable.arguments {first trailing : List Token} {parts : List (List Token)}
    {count : Nat}
    (head : ExprReadable .expression Closes first)
    (each : ∀ part ∈ parts, ∃ comma entry, comma.kind = .symbol .comma ∧
      ExprReadable .expression Closes entry ∧ part = comma :: entry)
    (room : count + parts.length ≤ 254)
    (ends : trailing = [] ∨ ∃ comma : Token, comma.kind = .symbol .comma ∧ trailing = [comma]) :
    ExprReadable (.arguments count) (· = some (.symbol .rightParen))
      (first ++ parts.flatten ++ trailing) := by
  induction parts generalizing first count with
  | nil =>
    intro rest nextId closes
    have free : count < maxListLength := Nat.lt_succ_of_le (by simpa using room)
    rcases ends with rfl | ⟨comma, mark, rfl⟩
    · obtain ⟨argument, laterId, reads⟩ := head rest nextId (.inl closes)
      refine ⟨[argument], laterId, ?_⟩
      simpa using ExprReads.lastArgument free reads (by
        rw [Place.next?_eq_nextKind, closes]
        nofun)
    · obtain ⟨argument, laterId, reads⟩ :=
        head (comma :: rest) nextId (.inr (.inl (by simp [mark])))
      refine ⟨[argument], laterId, ?_⟩
      simpa using ExprReads.trailingArgument free reads mark closes
  | cons part parts inductionHypothesis =>
    intro rest nextId closes
    obtain ⟨⟨comma, entry, mark, readable, rfl⟩, others⟩ := List.forall_mem_cons.mp each
    have free : count < maxListLength := by
      simp only [List.length_cons] at room
      unfold maxListLength
      omega
    obtain ⟨argument, middleId, reads⟩ := head
      (comma :: (entry ++ parts.flatten ++ trailing ++ rest)) nextId (.inr (.inl (by simp [mark])))
    have fewer : count + 1 + parts.length ≤ 254 := by
      simp only [List.length_cons] at room
      omega
    obtain ⟨arguments, laterId, more⟩ :=
      inductionHypothesis readable others fewer rest middleId closes
    refine ⟨argument :: arguments, laterId, ?_⟩
    simpa using ExprReads.moreArguments free reads mark more

/-- Tokens that are read as a statement, whatever follows. -/
def Closed (tokens : List Token) : Prop :=
  StmtReadable .statement Anything tokens

/-- Tokens that turn the statement behind them into a loop. -/
def LoopHead (tokens : List Token) : Prop :=
  ∀ rest nextId, ∃ (loop : Stmt → Stmt) (laterId : Nat), ∀ body after,
    StmtReads (.statement body) ⟨rest, laterId⟩ after →
      StmtReads (.statement (loop body)) ⟨tokens ++ rest, nextId⟩ after

/-- Tokens that make the statement behind them conditional. -/
def IfHead (tokens : List Token) : Prop :=
  ∀ rest nextId, ∃ laterId, ∀ whenTrue after,
    StmtReads (.statement whenTrue) ⟨rest, laterId⟩ after →
    (after.next? ≠ some (.keyword .elseWord) →
      ∃ tree, StmtReads (.statement tree) ⟨tokens ++ rest, nextId⟩ after) ∧
    ∀ otherwise second middleId whenFalse final, after = ⟨otherwise :: second, middleId⟩ →
      otherwise.kind = .keyword .elseWord →
      StmtReads (.statement whenFalse) ⟨second, middleId⟩ final →
      ∃ tree, StmtReads (.statement tree) ⟨tokens ++ rest, nextId⟩ final

/-- Statements that end in an `if` without an `else`. -/
inductive Dangling : List Token → Prop where
  | loop {before behind : List Token} (head : LoopHead before) (body : Dangling behind) :
      Dangling (before ++ behind)
  | bare {before behind : List Token} (head : IfHead before) (body : Closed behind) :
      Dangling (before ++ behind)
  | inner {before behind : List Token} (head : IfHead before) (body : Dangling behind) :
      Dangling (before ++ behind)
  | other {before middle behind : List Token} {otherwise : Token} (head : IfHead before)
      (body : Closed middle) (mark : otherwise.kind = .keyword .elseWord)
      (last : Dangling behind) : Dangling (before ++ (middle ++ otherwise :: behind))

/-- A loop with a closed body is closed. -/
theorem LoopHead.closed {before behind : List Token} (head : LoopHead before)
    (body : Closed behind) : Closed (before ++ behind) := by
  intro rest nextId _
  obtain ⟨loop, middleId, build⟩ := head (behind ++ rest) nextId
  obtain ⟨tree, laterId, reads⟩ := body rest middleId trivial
  refine ⟨loop tree, laterId, ?_⟩
  rw [List.append_assoc]
  exact build tree _ reads

/-- A branch with `else` is closed if its last statement is. -/
theorem IfHead.closed {before middle behind : List Token} {otherwise : Token} (head : IfHead before)
    (body : Closed middle) (mark : otherwise.kind = .keyword .elseWord) (last : Closed behind) :
    Closed (before ++ (middle ++ otherwise :: behind)) := by
  intro rest nextId _
  obtain ⟨bodyId, build⟩ := head (middle ++ otherwise :: (behind ++ rest)) nextId
  obtain ⟨whenTrue, middleId, reads⟩ := body (otherwise :: (behind ++ rest)) bodyId trivial
  obtain ⟨whenFalse, laterId, second⟩ := last rest middleId trivial
  obtain ⟨tree, whole⟩ := (build whenTrue _ reads).2 _ _ _ whenFalse _ rfl mark second
  refine ⟨tree, laterId, ?_⟩
  simpa using whole

namespace Dangling

/-- A statement that ends in an open `if` is read in front of anything but an `else`. -/
theorem readable {tokens : List Token} (dangling : Dangling tokens) :
    StmtReadable .statement (· ≠ some (.keyword .elseWord)) tokens := by
  induction dangling with
  | @loop before behind head _ body =>
    intro rest nextId stop
    obtain ⟨loop, middleId, build⟩ := head (behind ++ rest) nextId
    obtain ⟨tree, laterId, reads⟩ := body rest middleId stop
    refine ⟨loop tree, laterId, ?_⟩
    rw [List.append_assoc]
    exact build tree _ reads
  | @bare before behind head body =>
    intro rest nextId stop
    obtain ⟨middleId, build⟩ := head (behind ++ rest) nextId
    obtain ⟨whenTrue, laterId, reads⟩ := body rest middleId trivial
    obtain ⟨tree, whole⟩ := (build whenTrue _ reads).1 stop
    refine ⟨tree, laterId, ?_⟩
    rwa [List.append_assoc]
  | @inner before behind head _ body =>
    intro rest nextId stop
    obtain ⟨middleId, build⟩ := head (behind ++ rest) nextId
    obtain ⟨whenTrue, laterId, reads⟩ := body rest middleId stop
    obtain ⟨tree, whole⟩ := (build whenTrue _ reads).1 stop
    refine ⟨tree, laterId, ?_⟩
    rwa [List.append_assoc]
  | @other before middle behind otherwise head body mark _ last =>
    intro rest nextId stop
    obtain ⟨bodyId, build⟩ := head (middle ++ otherwise :: (behind ++ rest)) nextId
    obtain ⟨whenTrue, middleId, reads⟩ := body (otherwise :: (behind ++ rest)) bodyId trivial
    obtain ⟨whenFalse, laterId, second⟩ := last rest middleId stop
    obtain ⟨tree, whole⟩ := (build whenTrue _ reads).2 _ _ _ whenFalse _ rfl mark second
    refine ⟨tree, laterId, ?_⟩
    simpa using whole

/-- A statement that ends in an open `if` takes an `else` that follows it. -/
theorem absorb {tokens last : List Token} {otherwise : Token} (dangling : Dangling tokens)
    (mark : otherwise.kind = .keyword .elseWord) (behind : Closed last ∨ Dangling last) :
    Closed (tokens ++ otherwise :: last) ∨ Dangling (tokens ++ otherwise :: last) := by
  induction dangling with
  | loop head _ body =>
    rw [List.append_assoc]
    exact body.imp head.closed (.loop head)
  | bare head body =>
    rw [List.append_assoc]
    exact behind.imp (head.closed body mark) (.other head body mark)
  | inner head _ body =>
    rw [List.append_assoc]
    exact .inr (body.elim (.bare head) (.inner head))
  | @other before middle inside between head body first _ taken =>
    rw [List.append_assoc, List.append_assoc, List.cons_append]
    exact taken.imp (head.closed body first) (.other head body first)

end Dangling

/-- A loop dangles if its body does. -/
theorem LoopHead.statement {before behind : List Token} (head : LoopHead before)
    (body : Closed behind ∨ Dangling behind) :
    Closed (before ++ behind) ∨ Dangling (before ++ behind) :=
  body.imp head.closed (.loop head)

/-- A branch without `else` dangles. -/
theorem IfHead.statement {before behind : List Token} (head : IfHead before)
    (body : Closed behind ∨ Dangling behind) : Dangling (before ++ behind) :=
  body.elim (.bare head) (.inner head)

/-- An `else` goes to the statement in front of it, if that is open, and to the `if` otherwise. -/
theorem IfHead.statement_else {before middle behind : List Token} {otherwise : Token}
    (head : IfHead before) (body : Closed middle ∨ Dangling middle)
    (mark : otherwise.kind = .keyword .elseWord) (last : Closed behind ∨ Dangling behind) :
    Closed (before ++ (middle ++ otherwise :: behind)) ∨
      Dangling (before ++ (middle ++ otherwise :: behind)) := by
  rcases body with closed | dangling
  · exact last.imp (head.closed closed mark) (.other head closed mark)
  · exact .inr (head.statement (dangling.absorb mark last))

/-- The head of a `while` loop is read up to its parenthesis. -/
theorem LoopHead.of_while {keyword opening closing : Token} {test : List Token}
    (mark : keyword.kind = .keyword .whileWord) (opens : opening.kind = .symbol .leftParen)
    (condition : ExprReadable .expression Closes test)
    (closes : closing.kind = .symbol .rightParen) :
    LoopHead (keyword :: opening :: (test ++ [closing])) := by
  intro rest nextId
  obtain ⟨tree, laterId, reads⟩ := condition (closing :: rest) nextId (.inl (by simp [closes]))
  refine ⟨.loop tree, laterId, fun body after inner => ?_⟩
  simpa using StmtReads.while mark opens reads closes inner

/-- The head of a branch is read up to its parenthesis. -/
theorem IfHead.of_condition {keyword opening closing : Token} {test : List Token}
    (mark : keyword.kind = .keyword .ifWord) (opens : opening.kind = .symbol .leftParen)
    (condition : ExprReadable .expression Closes test)
    (closes : closing.kind = .symbol .rightParen) :
    IfHead (keyword :: opening :: (test ++ [closing])) := by
  intro rest nextId
  obtain ⟨tree, laterId, reads⟩ := condition (closing :: rest) nextId (.inl (by simp [closes]))
  refine ⟨laterId, fun whenTrue after inner => ⟨fun stop => ?_, ?_⟩⟩
  · refine ⟨.branch tree whenTrue none, ?_⟩
    simpa using StmtReads.if mark opens reads closes inner stop
  · rintro otherwise second middleId whenFalse final rfl other outer
    refine ⟨.branch tree whenTrue (some whenFalse), ?_⟩
    simpa using StmtReads.ifElse mark opens reads closes inner other outer

/-- An expression may be missing in front of what closes it. -/
theorem StmtReadable.optional {closing : Kind} {tokens : List Token}
    (closes : Closes (some closing))
    (value : tokens = [] ∨ ExprReadable .expression Closes tokens) :
    StmtReadable (.optional closing) (· = some closing) tokens := by
  intro rest nextId next
  rcases value with rfl | readable
  · exact ⟨none, nextId, .absent next⟩
  · obtain ⟨tree, laterId, reads⟩ := readable rest nextId (next ▸ closes)
    have opened := reads.next?_ne closing rfl (by
      rcases closes with ⟨⟨⟩⟩ | ⟨⟨⟩⟩ | ⟨⟨⟩⟩ <;> rfl)
    exact ⟨some tree, laterId, .present opened reads⟩

/-- The head of a `for` loop is read up to its parenthesis. -/
theorem LoopHead.of_for {keyword opening semicolon closing : Token}
    {first test step : List Token} (mark : keyword.kind = .keyword .forWord)
    (opens : opening.kind = .symbol .leftParen)
    (initializer : StmtReadable .initializer Anything first)
    (condition : StmtReadable (.optional (.symbol .semicolon)) (· = some (.symbol .semicolon)) test)
    (ends : semicolon.kind = .symbol .semicolon)
    (increment :
      StmtReadable (.optional (.symbol .rightParen)) (· = some (.symbol .rightParen)) step)
    (closes : closing.kind = .symbol .rightParen) :
    LoopHead (keyword :: opening :: (first ++ test ++ semicolon :: (step ++ [closing]))) := by
  intro rest nextId
  obtain ⟨clause, testId, firstReads⟩ :=
    initializer (test ++ semicolon :: (step ++ closing :: rest)) nextId trivial
  obtain ⟨tested, stepId, testReads⟩ :=
    condition (semicolon :: (step ++ closing :: rest)) testId (by simp [ends])
  obtain ⟨stepped, laterId, stepReads⟩ := increment (closing :: rest) stepId (by simp [closes])
  refine ⟨Parse.forLoop clause tested stepped, laterId, fun body after inner => ?_⟩
  simpa using StmtReads.for mark opens firstReads testReads ends stepReads closes inner

/-- Tokens behind `var` that are read as a declaration, whatever follows. -/
def VariableReadable (tokens : List Token) : Prop :=
  ∃ keyword rest, keyword.kind = .keyword .varWord ∧ StmtReadable .variable Anything rest ∧
    tokens = keyword :: rest

/-- A variable is declared without an initializer. -/
theorem VariableReadable.of_undefined {keyword name semicolon : Token}
    (mark : keyword.kind = .keyword .varWord) (named : name.kind = .identifier)
    (ends : semicolon.kind = .symbol .semicolon) : VariableReadable [keyword, name, semicolon] :=
  ⟨keyword, _, mark, fun _ nextId _ => ⟨_, nextId, .undefined named ends⟩, rfl⟩

/-- A variable is declared with an initializer. -/
theorem VariableReadable.of_initialized {keyword name equals semicolon : Token}
    {tokens : List Token} (mark : keyword.kind = .keyword .varWord)
    (named : name.kind = .identifier) (assigns : equals.kind = .symbol .equal)
    (value : ExprReadable .expression Closes tokens)
    (ends : semicolon.kind = .symbol .semicolon) :
    VariableReadable (keyword :: name :: equals :: (tokens ++ [semicolon])) := by
  refine ⟨keyword, _, mark, fun rest nextId _ => ?_, rfl⟩
  obtain ⟨tree, laterId, reads⟩ :=
    value (semicolon :: rest) nextId (.inr (.inr (by simp [ends])))
  refine ⟨.declare name (some tree), laterId, ?_⟩
  simpa using StmtReads.initialized named assigns reads ends

/-- An expression with a semicolon behind it is a statement. -/
theorem StmtReadable.simple {tokens : List Token} {semicolon : Token}
    (value : ExprReadable .expression Closes tokens)
    (ends : semicolon.kind = .symbol .semicolon) :
    StmtReadable .simple Anything (tokens ++ [semicolon]) := by
  intro rest nextId _
  obtain ⟨tree, laterId, reads⟩ :=
    value (semicolon :: rest) nextId (.inr (.inr (by simp [ends])))
  refine ⟨.expression tree, laterId, ?_⟩
  simpa using StmtReads.simple reads ends

/-- A `print` statement is closed by its semicolon. -/
theorem Closed.of_print {keyword semicolon : Token} {tokens : List Token}
    (mark : keyword.kind = .keyword .printWord) (value : ExprReadable .expression Closes tokens)
    (ends : semicolon.kind = .symbol .semicolon) : Closed (keyword :: (tokens ++ [semicolon])) := by
  intro rest nextId _
  obtain ⟨tree, laterId, reads⟩ :=
    value (semicolon :: rest) nextId (.inr (.inr (by simp [ends])))
  refine ⟨.print keyword tree, laterId, ?_⟩
  simpa using StmtReads.print mark reads ends

/-- A `return` statement is closed by its semicolon. -/
theorem Closed.of_return {keyword semicolon : Token} {tokens : List Token}
    (mark : keyword.kind = .keyword .returnWord)
    (value : StmtReadable (.optional (.symbol .semicolon)) (· = some (.symbol .semicolon)) tokens)
    (ends : semicolon.kind = .symbol .semicolon) : Closed (keyword :: (tokens ++ [semicolon])) := by
  intro rest nextId _
  obtain ⟨tree, laterId, reads⟩ := value (semicolon :: rest) nextId (by simp [ends])
  refine ⟨.return keyword tree, laterId, ?_⟩
  simpa using StmtReads.return mark reads ends

/-- No block starts with `else`. -/
theorem StmtReads.block_next? {trees : List Stmt} {start after : Place}
    (reads : StmtReads (.block trees) start after) :
    start.next? ≠ some (.keyword .elseWord) := by
  cases reads with
  | blockEnd closes => simp [closes]
  | blockMore head _ => exact head.next?_ne _ rfl rfl

/-- No program starts with `else`. -/
theorem StmtReads.program_next? {trees : List Stmt} {start after : Place}
    (reads : StmtReads (.program trees) start after) :
    start.next? ≠ some (.keyword .elseWord) := by
  cases reads with
  | programEnd => simp
  | programMore head _ => exact head.next?_ne _ rfl rfl

/-- Declarations in a row are read up to the closing brace, as none of them starts with `else`. -/
theorem StmtReadable.block {parts : List (List Token)} {closing : Token}
    (each : ∀ part ∈ parts, StmtReadable .declaration (· ≠ some (.keyword .elseWord)) part)
    (closes : closing.kind = .symbol .rightBrace) :
    StmtReadable .block Anything (parts.flatten ++ [closing]) := by
  induction parts with
  | nil => exact fun rest nextId _ => ⟨[], nextId, .blockEnd closes⟩
  | cons part parts inductionHypothesis =>
    obtain ⟨first, others⟩ := List.forall_mem_cons.mp each
    intro rest nextId _
    obtain ⟨_, _, some⟩ := inductionHypothesis others rest nextId trivial
    obtain ⟨tree, middleId, head⟩ :=
      first (parts.flatten ++ [closing] ++ rest) nextId some.block_next?
    obtain ⟨trees, laterId, more⟩ := inductionHypothesis others rest middleId trivial
    refine ⟨tree :: trees, laterId, ?_⟩
    simpa using StmtReads.blockMore head (by simpa using more)

/-- Declarations in a row are read up to the end of the tokens. -/
theorem StmtReadable.program {parts : List (List Token)}
    (each : ∀ part ∈ parts, StmtReadable .declaration (· ≠ some (.keyword .elseWord)) part)
    (nextId : Nat) :
    ∃ trees laterId, StmtReads (.program trees) ⟨parts.flatten, nextId⟩ ⟨[], laterId⟩ := by
  induction parts generalizing nextId with
  | nil => exact ⟨[], nextId, .programEnd⟩
  | cons part parts inductionHypothesis =>
    obtain ⟨first, others⟩ := List.forall_mem_cons.mp each
    obtain ⟨_, _, some⟩ := inductionHypothesis others nextId
    obtain ⟨tree, middleId, head⟩ := first parts.flatten nextId some.program_next?
    obtain ⟨trees, laterId, more⟩ := inductionHypothesis others middleId
    exact ⟨tree :: trees, laterId, .programMore head more⟩

/-- Methods are read one behind the other up to the closing brace. -/
theorem StmtReadable.methods {parts : List (List Token)}
    (each : ∀ part ∈ parts, StmtReadable .routine Anything part) :
    StmtReadable .methods (· = some (.symbol .rightBrace)) parts.flatten := by
  induction parts with
  | nil => exact fun rest nextId closes => ⟨[], nextId, .methodsEnd (.inl closes)⟩
  | cons part parts inductionHypothesis =>
    obtain ⟨first, others⟩ := List.forall_mem_cons.mp each
    intro rest nextId closes
    obtain ⟨tree, middleId, head⟩ := first (parts.flatten ++ rest) nextId trivial
    obtain ⟨trees, laterId, more⟩ := inductionHypothesis others rest middleId closes
    refine ⟨tree :: trees, laterId, ?_⟩
    simpa using StmtReads.methodsMore head more

/-- Parameters behind others are read in front of the closing parenthesis, if there is room for all
of them. -/
theorem StmtReadable.parameters {first : Token} {trailing : List Token} {parts : List (List Token)}
    {count : Nat} (named : first.kind = .identifier)
    (each : ∀ part ∈ parts, ∃ comma name : Token, comma.kind = .symbol .comma ∧
      name.kind = .identifier ∧ part = [comma, name])
    (room : count + parts.length ≤ 254)
    (ends : trailing = [] ∨ ∃ comma : Token, comma.kind = .symbol .comma ∧ trailing = [comma]) :
    StmtReadable (.parameters count) (· = some (.symbol .rightParen))
      (first :: (parts.flatten ++ trailing)) := by
  induction parts generalizing first count with
  | nil =>
    intro rest nextId closes
    have free : count < maxListLength := Nat.lt_succ_of_le (by simpa using room)
    rcases ends with rfl | ⟨comma, mark, rfl⟩
    · have stop : Place.next? ⟨rest, nextId⟩ ≠ some (.symbol .comma) := by
        rw [Place.next?_eq_nextKind, closes]
        nofun
      exact ⟨[first], nextId, .lastParameter free named stop⟩
    · exact ⟨[first], nextId, .trailingParameter free named mark closes⟩
  | cons part parts inductionHypothesis =>
    intro rest nextId closes
    obtain ⟨⟨comma, name, mark, second, rfl⟩, others⟩ := List.forall_mem_cons.mp each
    simp only [List.length_cons] at room
    have free : count < maxListLength := by
      unfold maxListLength
      omega
    have fewer : count + 1 + parts.length ≤ 254 := by omega
    obtain ⟨names, laterId, more⟩ := inductionHypothesis second others fewer rest nextId closes
    refine ⟨first :: names, laterId, ?_⟩
    simpa using StmtReads.moreParameters free named mark more

/-- Tokens of a block from its opening brace on. -/
def BlockReadable (tokens : List Token) : Prop :=
  ∃ opening rest, opening.kind = .symbol .leftBrace ∧ StmtReadable .block Anything rest ∧
    tokens = opening :: rest

/-- A function is read from its name, its parameters and its body. -/
theorem StmtReadable.routine {name opening closing : Token} {list body : List Token}
    (named : name.kind = .identifier) (opens : opening.kind = .symbol .leftParen)
    (names : list = [] ∨
      StmtReadable (.parameters 0) (· = some (.symbol .rightParen)) list)
    (closes : closing.kind = .symbol .rightParen) (block : BlockReadable body) :
    StmtReadable .routine Anything (name :: opening :: (list ++ closing :: body)) := by
  obtain ⟨brace, inner, enters, readable, rfl⟩ := block
  intro rest nextId _
  rcases names with rfl | listed
  · obtain ⟨trees, laterId, reads⟩ := readable rest nextId trivial
    exact ⟨.mk name [] trees, laterId, .routineEmpty named opens closes enters reads⟩
  · obtain ⟨parameters, middleId, first⟩ :=
      listed (closing :: brace :: (inner ++ rest)) nextId (by simp [closes])
    obtain ⟨trees, laterId, reads⟩ := readable rest middleId trivial
    refine ⟨.mk name parameters trees, laterId, ?_⟩
    simpa using StmtReads.routine named opens first closes enters reads

/-- A class is read from its name, its superclass and its methods. -/
theorem StmtReadable.class {keyword name opening closing : Token} {parent members : List Token}
    (mark : keyword.kind = .keyword .classWord) (named : name.kind = .identifier)
    (derived : parent = [] ∨ ∃ less super : Token, less.kind = .symbol .less ∧
      super.kind = .identifier ∧ parent = [less, super])
    (opens : opening.kind = .symbol .leftBrace)
    (methods : StmtReadable .methods (· = some (.symbol .rightBrace)) members)
    (closes : closing.kind = .symbol .rightBrace) :
    StmtReadable .declaration Anything
      (keyword :: name :: (parent ++ opening :: (members ++ [closing]))) := by
  intro rest nextId _
  rcases derived with rfl | ⟨less, super, sign, known, rfl⟩
  · obtain ⟨trees, laterId, reads⟩ := methods (closing :: rest) nextId (by simp [closes])
    have parentless : Place.next? ⟨opening :: (members ++ closing :: rest), nextId⟩ ≠
        some (.symbol .less) := by
      simp [opens]
    refine ⟨.class name none trees, laterId, ?_⟩
    simpa using StmtReads.class mark named (.noSuperclass parentless) opens reads closes
  · obtain ⟨trees, laterId, reads⟩ := methods (closing :: rest) (nextId + 1) (by simp [closes])
    refine ⟨.class name (some (.reference nextId super)) trees, laterId, ?_⟩
    simpa using StmtReads.class mark named (.superclass sign known) opens reads closes

end LoxLang
