import LoxLang.Proofs.Grammar.Readable
import LoxLang.Proofs.Tree.Rendering
import LoxLang.Tree.Equality
import Mathlib.Data.List.TakeWhile

/-!
# Parsing undoes rendering

A tree that was read is read again from its own tokens. By induction on the reading that made it,
the rendering of each part is read as the same part, up to identities, in front of whatever was
behind the part before and of whatever closes an expression. What goes on from a tree that was read
before adds its tokens behind those of that tree, which is why operators of one level associate to
the left without parentheses.
-/

namespace LoxLang

/-- What may stand behind a part of an expression in place of what stood there: a token of the same
kind, or one that closes every expression. -/
def Follows (before next : Option Kind) : Prop :=
  next = before ∨ Closes next

namespace Follows

variable {before next : Option Kind}

/-- A kind that closes nothing and was not followed before does not follow now. -/
theorem ne {kind : Kind} (follows : Follows before next) (stop : before ≠ some kind)
    (unclosed : ¬ Closes (some kind)) : next ≠ some kind := by
  rintro rfl
  rcases follows with same | closes
  · exact stop same.symm
  · exact unclosed closes

end Follows

/-- A tree whose tokens are read as the tree, up to identities, in front of an allowed continuation.
-/
def Expr.Rereads (phrase : Expr → ExprPhrase) (allowed : Option Kind → Prop) (tree : Expr) : Prop :=
  ∀ behind nextId, allowed (nextKind behind) →
    ∃ other laterId, other.unnumbered = tree.unnumbered ∧
      ExprReads (phrase other) ⟨tree.rendered ++ behind, nextId⟩ ⟨behind, laterId⟩

/-- A tree whose tokens are those of another tree and of what is read as the rest behind it. -/
def Expr.RereadsBehind (phrase : Expr → Expr → ExprPhrase) (start after : Option Kind)
    (left tree : Expr) : Prop :=
  ∃ added, tree.rendered = left.rendered ++ added ∧
    (∀ behind, Follows after (nextKind behind) → Follows start (nextKind (added ++ behind))) ∧
    ∀ behind nextId same, Follows after (nextKind behind) → same.unnumbered = left.unnumbered →
      ∃ other laterId, other.unnumbered = tree.unnumbered ∧
        ExprReads (phrase same other) ⟨added ++ behind, nextId⟩ ⟨behind, laterId⟩

/-- The tokens of a part of an expression are read as that part. -/
def ExprPhrase.Rereads (start after : Option Kind) : ExprPhrase → Prop
  | .expression tree => tree.Rereads .expression (Follows after)
  | .chain level tree => tree.Rereads (.chain level) (Follows after)
  | .chainRest level left tree => left.RereadsBehind (.chainRest level) start after tree
  | .unary tree => tree.Rereads .unary (Follows after)
  | .accesses object tree => object.RereadsBehind .accesses start after tree
  | .arguments count trees =>
    trees ≠ [] ∧ count + trees.length ≤ maxListLength ∧
      ∀ tree ∈ trees, tree.Rereads .expression Closes
  | .primary tree => tree.Rereads .primary (Follows after)

/-- An operand of a level rereads as the phrase of the level below it. -/
theorem ExprPhrase.rereads_operand {start after : Option Kind} {level : Level} {tree : Expr} :
    (ExprPhrase.operand level tree).Rereads start after ↔
      tree.Rereads (.operand level) (Follows after) := by
  cases level <;> rfl

/-- The text of an operation is that of its operands around the operator. -/
theorem Level.rendered_combine (level : Level) (left : Expr) (operator : Token) (right : Expr) :
    (level.combine left operator right).rendered = left.rendered ++ operator :: right.rendered := by
  cases level <;> simp only [combine, Expr.rendered]

/-- Forgetting ids goes through an operation. -/
theorem Level.unnumbered_combine (level : Level) (left : Expr) (operator : Token) (right : Expr) :
    (level.combine left operator right).unnumbered =
      level.combine left.unnumbered operator right.unnumbered := by
  cases level <;> simp only [combine, Expr.relabelled, Relabelling.unnumbered_token]

namespace Expr

variable {phrase : Expr → ExprPhrase} {allowed : Option Kind → Prop}
  {start middle after : Option Kind} {level : Level}

/-- What rereads before many tokens rereads before some of them. -/
theorem Rereads.mono {fewer : Option Kind → Prop} {tree : Expr}
    (rereads : tree.Rereads phrase allowed) (covers : ∀ next, fewer next → allowed next) :
    tree.Rereads phrase fewer :=
  fun behind nextId holds => rereads behind nextId (covers _ holds)

/-- What rereads before all that may follow it rereads before what closes an expression. -/
theorem Rereads.closed {tree : Expr} (rereads : tree.Rereads phrase (Follows after)) :
    tree.Rereads phrase Closes :=
  rereads.mono fun _ => .inr

/-- A tree that is one token is read from it, as long as the token is. -/
theorem Rereads.ofToken {tree : Expr} {token : Token} (written : tree.rendered = [token])
    (reads : ∀ rest nextId, ∃ other laterId, other.unnumbered = tree.unnumbered ∧
      ExprReads (phrase other) ⟨token :: rest, nextId⟩ ⟨rest, laterId⟩) :
    tree.Rereads phrase allowed := by
  intro behind nextId _
  rw [written]
  exact reads behind nextId

/-- A grouping rereads between its parentheses, whatever follows. -/
theorem Rereads.grouping {inner : Expr} (rereads : inner.Rereads .expression Closes) :
    (Expr.grouping inner).Rereads .primary allowed := by
  intro behind nextId _
  obtain ⟨other, laterId, same, reads⟩ :=
    rereads (.mark .rightParen :: behind) nextId (.inl rfl)
  refine ⟨.grouping other, laterId, by simp [same], ?_⟩
  simp only [rendered, List.cons_append, List.append_assoc, List.nil_append]
  exact .group rfl reads rfl

/-- Arguments are read from their tokens in front of the closing parenthesis. -/
theorem renderedAll_reads {trees : List Expr} (count : Nat) (filled : trees ≠ [])
    (room : count + trees.length ≤ maxListLength)
    (each : ∀ tree ∈ trees, tree.Rereads .expression Closes) (behind : List Token)
    (closes : nextKind behind = some (.symbol .rightParen)) (nextId : Nat) :
    ∃ others laterId, Expr.unnumberedAll others = Expr.unnumberedAll trees ∧
      ExprReads (.arguments count others) ⟨Expr.renderedAll trees ++ behind, nextId⟩
        ⟨behind, laterId⟩ := by
  induction trees generalizing count nextId with
  | nil => exact absurd rfl filled
  | cons first trees inductionHypothesis =>
    obtain ⟨entry, others⟩ := List.forall_mem_cons.mp each
    cases trees with
    | nil =>
      obtain ⟨tree, laterId, same, reads⟩ := entry behind nextId (.inl closes)
      refine ⟨[tree], laterId, by simp [same], ?_⟩
      have stop : Place.next? ⟨behind, laterId⟩ ≠ some (.symbol .comma) := by
        rw [Place.next?_eq_nextKind, closes]
        nofun
      exact .lastArgument room reads stop
    | cons second trees =>
      simp only [List.length_cons] at room
      have fewer : count + 1 + (second :: trees).length ≤ maxListLength := by
        simp only [List.length_cons]
        omega
      obtain ⟨tree, middleId, same, reads⟩ :=
        entry (.mark .comma :: (Expr.renderedAll (second :: trees) ++ behind)) nextId
          (.inr (.inl rfl))
      obtain ⟨rest, laterId, alike, more⟩ :=
        inductionHypothesis (count + 1) (List.cons_ne_nil _ _) fewer others middleId
      refine ⟨tree :: rest, laterId, by simp [same, alike], ?_⟩
      rw [renderedAll, List.append_assoc]
      exact .moreArguments (by omega) reads rfl more

/-- An assignment to a variable rereads when the variable does before the equals sign. -/
theorem Rereads.assign {id : Nat} {name : Token} {value : Expr}
    (target : (Expr.reference id name).Rereads (.chain .disjunction)
      (Follows (some (.symbol .equal))))
    (result : value.Rereads .expression allowed) :
    (Expr.assign id name value).Rereads .expression allowed := by
  intro behind nextId holds
  obtain ⟨other, middleId, alike, first⟩ :=
    target (.mark .equal :: (value.rendered ++ behind)) nextId (.inl rfl)
  obtain ⟨otherId, rfl⟩ := eq_reference_of_unnumbered alike
  obtain ⟨inner, laterId, same, second⟩ := result behind middleId holds
  refine ⟨.assign otherId name inner, laterId, by simp [same], ?_⟩
  exact .assign first rfl second

/-- An assignment to a property rereads when the property does before the equals sign. -/
theorem Rereads.set {object value : Expr} {name : Token}
    (target : (Expr.get object name).Rereads (.chain .disjunction)
      (Follows (some (.symbol .equal))))
    (result : value.Rereads .expression allowed) :
    (Expr.set object name value).Rereads .expression allowed := by
  intro behind nextId holds
  obtain ⟨other, middleId, alike, first⟩ :=
    target (.mark .equal :: (value.rendered ++ behind)) nextId (.inl rfl)
  obtain ⟨otherObject, rfl, likewise⟩ := eq_get_of_unnumbered alike
  obtain ⟨inner, laterId, same, second⟩ := result behind middleId holds
  refine ⟨.set otherObject name inner, laterId, by simp [same, likewise], ?_⟩
  simp only [rendered, List.append_assoc, List.cons_append, List.nil_append] at first ⊢
  exact .set first rfl second

/-- A first tree and what is read behind it make one phrase. -/
theorem RereadsBehind.complete {rest : Expr → Expr → ExprPhrase} {whole : Expr → ExprPhrase}
    {left tree : Expr} (head : left.Rereads phrase (Follows start))
    (more : left.RereadsBehind rest start after tree)
    (compose : ∀ {first other : Expr} {before middle behind : Place},
      ExprReads (phrase first) before middle → ExprReads (rest first other) middle behind →
        ExprReads (whole other) before behind) :
    tree.Rereads whole (Follows after) := by
  obtain ⟨added, written, carries, further⟩ := more
  intro behind nextId follows
  obtain ⟨first, middleId, alike, reads⟩ :=
    head (added ++ behind) nextId (carries behind follows)
  obtain ⟨other, laterId, same, tail⟩ := further behind middleId first follows alike
  refine ⟨other, laterId, same, ?_⟩
  rw [written, List.append_assoc]
  exact compose reads tail

/-- A tree behind which nothing more is read. -/
theorem RereadsBehind.refl {rest : Expr → Expr → ExprPhrase} {tree : Expr}
    (stop : ∀ same behind nextId, Follows after (nextKind behind) →
      ExprReads (rest same same) ⟨behind, nextId⟩ ⟨behind, nextId⟩) :
    tree.RereadsBehind rest after after tree := by
  refine ⟨[], (List.append_nil _).symm, fun _ follows => follows, ?_⟩
  intro behind nextId same follows alike
  exact ⟨same, nextId, alike, stop same behind nextId follows⟩

/-- A chain of operations goes on with an operator of its level and an operand. -/
theorem RereadsBehind.more {left right tree : Expr} {operator : Token}
    (mark : operator.kind ∈ level.operators)
    (operand : right.Rereads (.operand level) (Follows middle))
    (rest : Expr.RereadsBehind (.chainRest level) middle after
      (level.combine left operator right) tree) :
    left.RereadsBehind (.chainRest level) (some operator.kind) after tree := by
  obtain ⟨added, written, carries, further⟩ := rest
  refine ⟨operator :: (right.rendered ++ added), ?_, fun _ _ => .inl rfl, ?_⟩
  · rw [written, Level.rendered_combine, List.append_assoc, List.cons_append]
  · intro behind nextId same follows alike
    obtain ⟨second, middleId, likewise, head⟩ :=
      operand (added ++ behind) nextId (carries behind follows)
    have combined : (level.combine same operator second).unnumbered =
        (level.combine left operator right).unnumbered := by
      rw [Level.unnumbered_combine, Level.unnumbered_combine, alike, likewise]
    obtain ⟨other, laterId, equal, tail⟩ := further behind middleId _ follows combined
    refine ⟨other, laterId, equal, ?_⟩
    rw [List.cons_append, List.append_assoc]
    exact .chainMore mark head tail

/-- A trail of accesses goes on with the arguments of a call. -/
theorem RereadsBehind.call {object tree : Expr} {paren : Token} {arguments : List Expr}
    (closes : paren.kind = .symbol .rightParen) (room : arguments.length ≤ maxListLength)
    (each : ∀ argument ∈ arguments, argument.Rereads .expression Closes)
    (rest : (Expr.call object paren arguments).RereadsBehind .accesses middle after tree) :
    object.RereadsBehind .accesses (some (.symbol .leftParen)) after tree := by
  obtain ⟨added, written, carries, further⟩ := rest
  refine ⟨.mark .leftParen :: (Expr.renderedAll arguments ++ paren :: added), ?_,
    fun _ _ => .inl rfl, ?_⟩
  · simp [written, rendered]
  · intro behind nextId same follows alike
    simp only [List.cons_append, List.append_assoc]
    by_cases filled : arguments = []
    · subst filled
      obtain ⟨other, laterId, equal, tail⟩ :=
        further behind nextId (.call same paren []) follows (by simp [alike])
      exact ⟨other, laterId, equal, .callEmpty rfl closes tail⟩
    · obtain ⟨others, middleId, likewise, listed⟩ := renderedAll_reads 0 filled
        (by simpa using room) each (paren :: (added ++ behind)) (by simp [closes]) nextId
      obtain ⟨other, laterId, equal, tail⟩ := further behind middleId (.call same paren others)
        follows (by simp [alike, likewise])
      exact ⟨other, laterId, equal, .call rfl listed closes tail⟩

/-- A trail of accesses goes on with a property. -/
theorem RereadsBehind.property {object tree : Expr} {name : Token}
    (named : name.kind = .identifier)
    (rest : (Expr.get object name).RereadsBehind .accesses middle after tree) :
    object.RereadsBehind .accesses (some (.symbol .dot)) after tree := by
  obtain ⟨added, written, carries, further⟩ := rest
  refine ⟨.mark .dot :: name :: added, ?_, fun _ _ => .inl rfl, ?_⟩
  · simp [written, rendered]
  · intro behind nextId same follows alike
    obtain ⟨other, laterId, equal, tail⟩ :=
      further behind nextId (.get same name) follows (by simp [alike])
    exact ⟨other, laterId, equal, .property rfl named tail⟩

end Expr

/-- Every part of an expression that was read is read again from its tokens. -/
theorem ExprReads.rereads {phrase : ExprPhrase} {start after : Place}
    (reads : ExprReads phrase start after) : phrase.Rereads start.next? after.next? := by
  induction reads with
  | plain target stop found =>
    intro behind nextId follows
    obtain ⟨other, laterId, same, rest⟩ := found behind nextId follows
    exact ⟨other, laterId, same, .plain rest (follows.ne stop (by simp [Closes]))⟩
  | assign target mark result foundTarget foundValue =>
    simp only [Place.next?_cons, mark] at foundTarget
    exact .assign foundTarget foundValue
  | set target mark result foundTarget foundValue =>
    simp only [Place.next?_cons, mark] at foundTarget
    exact .set foundTarget foundValue
  | chain operand rest foundOperand foundRest =>
    exact foundRest.complete (ExprPhrase.rereads_operand.mp foundOperand) .chain
  | chainEnd stop =>
    refine .refl fun same behind nextId follows => .chainEnd fun kind member => ?_
    rcases follows with unchanged | closes
    · rw [Place.next?_eq_nextKind, unchanged]
      exact stop kind member
    · exact (Stops.of_closes closes).noOperator _ (Nat.lt_succ_self _) kind member
  | chainMore mark operand more foundOperand foundMore =>
    exact .more mark (ExprPhrase.rereads_operand.mp foundOperand) foundMore
  | prefixed mark inner found =>
    intro behind nextId follows
    obtain ⟨other, laterId, same, rest⟩ := found behind nextId follows
    exact ⟨.unary _ other, laterId, by simp [same], .prefixed mark rest⟩
  | accessed head more foundHead foundMore => exact foundMore.complete foundHead .accessed
  | accessesEnd noCall noProperty =>
    refine .refl fun same behind nextId follows => .accessesEnd ?_ ?_
    · exact follows.ne noCall (by simp [Closes])
    · exact follows.ne noProperty (by simp [Closes])
  | call opens list closes more foundList foundMore =>
    obtain ⟨_, room, each⟩ := foundList
    rw [Place.next?_cons, opens]
    exact .call closes (by simpa using room) each foundMore
  | callEmpty opens closes more found =>
    rw [Place.next?_cons, opens]
    exact .call closes (Nat.zero_le _) (List.forall_mem_nil _) found
  | property mark named more found =>
    rw [Place.next?_cons, mark]
    exact .property named found
  | lastArgument room entry stop found =>
    exact ⟨List.cons_ne_nil _ _, room, by simpa using Expr.Rereads.closed found⟩
  | trailingArgument room entry mark closes found =>
    exact ⟨List.cons_ne_nil _ _, room, by simpa using Expr.Rereads.closed found⟩
  | moreArguments room entry mark more foundEntry foundMore =>
    obtain ⟨_, further, others⟩ := foundMore
    have each := List.forall_mem_cons.mpr ⟨Expr.Rereads.closed foundEntry, others⟩
    refine ⟨List.cons_ne_nil _ _, ?_, each⟩
    simp only [List.length_cons]
    omega
  | falseLiteral mark => exact .ofToken rfl fun _ nextId => ⟨_, nextId, rfl, .falseLiteral rfl⟩
  | trueLiteral mark => exact .ofToken rfl fun _ nextId => ⟨_, nextId, rfl, .trueLiteral rfl⟩
  | nilLiteral mark => exact .ofToken rfl fun _ nextId => ⟨_, nextId, rfl, .nilLiteral rfl⟩
  | number mark => exact .ofToken rfl fun _ nextId => ⟨_, nextId, rfl, .number rfl⟩
  | string mark => exact .ofToken rfl fun _ nextId => ⟨_, nextId, rfl, .string rfl⟩
  | this mark => exact .ofToken rfl fun _ nextId => ⟨.this nextId _, nextId + 1, rfl, .this mark⟩
  | super mark point named =>
    intro behind nextId _
    exact ⟨.super nextId _ _, nextId + 1, rfl, .super mark rfl named⟩
  | reference mark =>
    exact .ofToken rfl fun _ nextId => ⟨.reference nextId _, nextId + 1, rfl, .reference mark⟩
  | group opens enclosed closes found => exact .grouping found.closed

/-- A statement whose tokens are read as the statement, up to identities, in front of an allowed
continuation. -/
def Stmt.Rereads (phrase : Stmt → StmtPhrase) (allowed : Option Kind → Prop) (tree : Stmt) : Prop :=
  ∀ behind nextId, allowed (nextKind behind) →
    ∃ other laterId, other.unnumbered = tree.unnumbered ∧
      StmtReads (phrase other) ⟨tree.rendered ++ behind, nextId⟩ ⟨behind, laterId⟩

/-- A function whose tokens are read as the function, up to identities, whatever follows. -/
def FunctionDecl.Rereads (tree : FunctionDecl) : Prop :=
  ∀ behind nextId, ∃ other laterId, other.unnumbered = tree.unnumbered ∧
    StmtReads (.routine other) ⟨tree.rendered ++ behind, nextId⟩ ⟨behind, laterId⟩

/-- What may stand behind a statement: no `else`, unless one stood there. -/
def NoNewElse (before next : Option Kind) : Prop :=
  next = some (.keyword .elseWord) → before = some (.keyword .elseWord)

/-- The tokens of a part of a statement are read as that part. The parts that end with a token of
their own are told by the statements in them. -/
def StmtPhrase.Rereads (after : Option Kind) : StmtPhrase → Prop
  | .optional _ value => ∀ tree ∈ value, tree.Rereads .expression Closes
  | .variable tree => tree.Rereads .declaration Anything
  | .simple tree => tree.Rereads .simple Anything
  | .initializer clause => ∀ tree ∈ clause, tree.Rereads .declaration Anything
  | .parameters count names =>
    names ≠ [] ∧ count + names.length ≤ maxListLength ∧ ∀ name ∈ names, name.kind = .identifier
  | .routine tree => tree.Rereads
  | .superclass parent =>
    ∀ tree ∈ parent, ∃ id name, tree = .reference id name ∧ name.kind = .identifier
  | .methods trees => ∀ tree ∈ trees, tree.Rereads
  | .declaration tree => tree.Rereads .declaration (NoNewElse after)
  | .statement tree => tree.Rereads .statement (NoNewElse after)
  | .block trees => ∀ tree ∈ trees, tree.Rereads .declaration (· ≠ some (.keyword .elseWord))
  | .program trees => ∀ tree ∈ trees, tree.Rereads .declaration (· ≠ some (.keyword .elseWord))

/-- Parameters are read from their tokens in front of the closing parenthesis. -/
theorem Token.separated_reads {names : List Token} (count : Nat) (filled : names ≠ [])
    (room : count + names.length ≤ maxListLength) (named : ∀ name ∈ names, name.kind = .identifier)
    (behind : List Token) (closes : nextKind behind = some (.symbol .rightParen)) (nextId : Nat) :
    StmtReads (.parameters count names) ⟨separated names ++ behind, nextId⟩ ⟨behind, nextId⟩ := by
  induction names generalizing count with
  | nil => exact absurd rfl filled
  | cons first names inductionHypothesis =>
    obtain ⟨head, others⟩ := List.forall_mem_cons.mp named
    cases names with
    | nil =>
      have stop : Place.next? ⟨behind, nextId⟩ ≠ some (.symbol .comma) := by
        rw [Place.next?_eq_nextKind, closes]
        nofun
      exact .lastParameter room head stop
    | cons second names =>
      simp only [List.length_cons] at room
      refine .moreParameters (by omega) head rfl ?_
      have fewer : count + 1 + (second :: names).length ≤ maxListLength := by
        simp only [List.length_cons]
        omega
      exact inductionHypothesis (count + 1) (List.cons_ne_nil _ _) fewer others

namespace Stmt

variable {allowed : Option Kind → Prop} {tree : Stmt}

/-- What rereads before many tokens rereads before some of them. -/
theorem Rereads.mono {phrase : Stmt → StmtPhrase} {fewer : Option Kind → Prop}
    (rereads : tree.Rereads phrase allowed) (covers : ∀ next, fewer next → allowed next) :
    tree.Rereads phrase fewer :=
  fun behind nextId holds => rereads behind nextId (covers _ holds)

/-- What rereads as a statement rereads as a declaration. -/
theorem Rereads.plain (rereads : tree.Rereads .statement allowed) :
    tree.Rereads .declaration allowed := by
  intro behind nextId holds
  obtain ⟨other, laterId, same, reads⟩ := rereads behind nextId holds
  exact ⟨other, laterId, same, .plain reads⟩

/-- What rereads as an expression statement rereads as a statement. -/
theorem Rereads.simple (rereads : tree.Rereads .simple allowed) :
    tree.Rereads .statement allowed := by
  intro behind nextId holds
  obtain ⟨other, laterId, same, reads⟩ := rereads behind nextId holds
  exact ⟨other, laterId, same, .expression reads⟩

/-- An expression with a semicolon behind it rereads as a statement, whatever follows. -/
theorem Rereads.ofExpression {value : Expr} (rereads : value.Rereads .expression Closes) :
    (Stmt.expression value).Rereads .simple Anything := by
  intro behind nextId _
  obtain ⟨other, laterId, same, reads⟩ :=
    rereads (.mark .semicolon :: behind) nextId (.inr (.inr rfl))
  refine ⟨.expression other, laterId, by simp [same], ?_⟩
  rw [rendered, List.append_assoc]
  exact .simple reads rfl

/-- A print statement rereads, whatever follows. -/
theorem Rereads.print {keyword : Token} {value : Expr}
    (mark : keyword.kind = .keyword .printWord) (rereads : value.Rereads .expression Closes) :
    (Stmt.print keyword value).Rereads .statement Anything := by
  intro behind nextId _
  obtain ⟨other, laterId, same, reads⟩ :=
    rereads (.mark .semicolon :: behind) nextId (.inr (.inr rfl))
  refine ⟨.print keyword other, laterId, by simp [same], ?_⟩
  simp only [rendered, List.cons_append, List.append_assoc, List.nil_append]
  exact .print mark reads rfl

/-- A return statement rereads with its value or without one, whatever follows. -/
theorem Rereads.return {keyword : Token} {value : Option Expr}
    (mark : keyword.kind = .keyword .returnWord)
    (rereads : ∀ tree ∈ value, tree.Rereads .expression Closes) :
    (Stmt.return keyword value).Rereads .statement Anything := by
  intro behind nextId _
  cases value with
  | none => exact ⟨.return keyword none, nextId, rfl, .return mark (.absent rfl) rfl⟩
  | some tree =>
    obtain ⟨other, laterId, same, reads⟩ :=
      rereads tree rfl (.mark .semicolon :: behind) nextId (.inr (.inr rfl))
    refine ⟨.return keyword (some other), laterId, by simp [same], ?_⟩
    simp only [rendered, List.cons_append, List.append_assoc, List.nil_append]
    exact .return mark (.present (reads.next?_ne _ rfl rfl) reads) rfl

/-- A declared variable rereads with its initializer, whatever follows. -/
theorem Rereads.initialized {name : Token} {value : Expr} (named : name.kind = .identifier)
    (rereads : value.Rereads .expression Closes) :
    (Stmt.declare name (some value)).Rereads .declaration Anything := by
  intro behind nextId _
  obtain ⟨other, laterId, same, reads⟩ :=
    rereads (.mark .semicolon :: behind) nextId (.inr (.inr rfl))
  refine ⟨.declare name (some other), laterId, by simp [same], ?_⟩
  simp only [rendered, List.cons_append, List.append_assoc, List.nil_append]
  exact .variableDeclaration rfl (.initialized named rfl reads rfl)

/-- A conditional without `else` rereads where no `else` of its own would follow. -/
theorem Rereads.branch {test : Expr} {whenTrue : Stmt} {before : Option Kind}
    (condition : test.Rereads .expression Closes)
    (inner : whenTrue.Rereads .statement (NoNewElse before))
    (stop : before ≠ some (.keyword .elseWord)) :
    (Stmt.branch test whenTrue none).Rereads .statement (NoNewElse before) := by
  intro behind nextId follows
  obtain ⟨value, middleId, same, head⟩ :=
    condition (.mark .rightParen :: (whenTrue.rendered ++ behind)) nextId (.inl rfl)
  obtain ⟨other, laterId, alike, reads⟩ := inner behind middleId follows
  refine ⟨.branch value other none, laterId, by simp [same, alike], ?_⟩
  simp only [rendered, List.cons_append, List.append_assoc]
  exact .if rfl rfl head rfl reads fun isElse => stop (follows isElse)

/-- The `else` of a branch follows its first statement as it did before. -/
theorem Rereads.branchElse {test : Expr} {whenTrue whenFalse : Stmt}
    (condition : test.Rereads .expression Closes)
    (inner : whenTrue.Rereads .statement (NoNewElse (some (.keyword .elseWord))))
    (outer : whenFalse.Rereads .statement allowed) :
    (Stmt.branch test whenTrue (some whenFalse)).Rereads .statement allowed := by
  intro behind nextId holds
  obtain ⟨value, middleId, same, head⟩ :=
    condition (.mark .rightParen ::
      (whenTrue.rendered ++ .word .elseWord :: (whenFalse.rendered ++ behind))) nextId (.inl rfl)
  obtain ⟨first, secondId, alike, reads⟩ :=
    inner (.word .elseWord :: (whenFalse.rendered ++ behind)) middleId fun _ => rfl
  obtain ⟨last, laterId, likewise, further⟩ := outer behind secondId holds
  refine ⟨.branch value first (some last), laterId,
    by simp [same, alike, likewise], ?_⟩
  simp only [rendered, List.cons_append, List.append_assoc]
  exact .ifElse rfl rfl head rfl reads rfl further

/-- Declarations are read from their tokens up to the closing brace, as none starts with `else`. -/
theorem renderedAll_block {trees : List Stmt}
    (each : ∀ tree ∈ trees, tree.Rereads .declaration (· ≠ some (.keyword .elseWord)))
    (behind : List Token) (nextId : Nat) :
    ∃ others laterId, Stmt.unnumberedAll others = Stmt.unnumberedAll trees ∧
      StmtReads (.block others)
        ⟨Stmt.renderedAll trees ++ .mark .rightBrace :: behind, nextId⟩ ⟨behind, laterId⟩ := by
  induction trees generalizing nextId with
  | nil => exact ⟨[], nextId, rfl, .blockEnd rfl⟩
  | cons tree trees inductionHypothesis =>
    obtain ⟨first, others⟩ := List.forall_mem_cons.mp each
    obtain ⟨_, _, _, some⟩ := inductionHypothesis others nextId
    obtain ⟨head, middleId, same, reads⟩ :=
      first (Stmt.renderedAll trees ++ .mark .rightBrace :: behind) nextId some.block_next?
    obtain ⟨rest, laterId, alike, more⟩ := inductionHypothesis others middleId
    refine ⟨head :: rest, laterId, by simp [same, alike], ?_⟩
    rw [renderedAll, List.append_assoc]
    exact .blockMore reads more

/-- Declarations are read from their tokens up to the end. -/
theorem renderedAll_program {trees : List Stmt}
    (each : ∀ tree ∈ trees, tree.Rereads .declaration (· ≠ some (.keyword .elseWord)))
    (nextId : Nat) :
    ∃ others laterId, Stmt.unnumberedAll others = Stmt.unnumberedAll trees ∧
      StmtReads (.program others) ⟨Stmt.renderedAll trees, nextId⟩ ⟨[], laterId⟩ := by
  induction trees generalizing nextId with
  | nil => exact ⟨[], nextId, rfl, .programEnd⟩
  | cons tree trees inductionHypothesis =>
    obtain ⟨first, others⟩ := List.forall_mem_cons.mp each
    obtain ⟨_, _, _, some⟩ := inductionHypothesis others nextId
    obtain ⟨head, middleId, same, reads⟩ :=
      first (Stmt.renderedAll trees) nextId some.program_next?
    obtain ⟨rest, laterId, alike, more⟩ := inductionHypothesis others middleId
    refine ⟨head :: rest, laterId, by simp [same, alike], ?_⟩
    rw [renderedAll]
    exact .programMore reads more

/-- A block rereads, whatever follows its closing brace. -/
theorem Rereads.block {trees : List Stmt}
    (each : ∀ tree ∈ trees, tree.Rereads .declaration (· ≠ some (.keyword .elseWord))) :
    (Stmt.block trees).Rereads .statement Anything := by
  intro behind nextId _
  obtain ⟨others, laterId, same, reads⟩ := renderedAll_block each behind nextId
  refine ⟨.block others, laterId, by simp [same], ?_⟩
  simp only [rendered, List.cons_append, List.append_assoc, List.nil_append]
  exact .block rfl reads

/-- A loop rereads before what its body rereads before. -/
theorem Rereads.loop {test : Expr} {body : Stmt} (condition : test.Rereads .expression Closes)
    (inner : body.Rereads .statement allowed) :
    (Stmt.loop test body).Rereads .statement allowed := by
  intro behind nextId holds
  obtain ⟨value, middleId, same, head⟩ :=
    condition (.mark .rightParen :: (body.rendered ++ behind)) nextId (.inl rfl)
  obtain ⟨other, laterId, alike, reads⟩ := inner behind middleId holds
  refine ⟨.loop value other, laterId, by simp [same, alike], ?_⟩
  simp only [rendered, List.cons_append, List.append_assoc]
  exact .while rfl rfl head rfl reads

end Stmt

/-- The condition that a `for` loop without one has. -/
theorem Expr.rereads_true : (Expr.literal (.bool true)).Rereads .expression Closes := by
  intro behind nextId closes
  have stops (bound : Nat) : Stops bound (nextKind behind) := .of_closes closes
  have unary : ExprReads (.unary (.literal (.bool true)))
      ⟨.word .trueWord :: behind, nextId⟩ ⟨behind, nextId⟩ :=
    .accessed (.trueLiteral rfl) (.accessesEnd (stops 0).noCall (stops 0).noProperty)
  exact ⟨_, nextId, rfl, .plain (unary.chain_of_unary .disjunction (stops _)) closes.ne_equal⟩

/-- A `for` loop is read again as the block that it became. -/
theorem Parse.rereads_forLoop {initializer : Option Stmt} {test increment : Option Expr}
    {body : Stmt} (first : ∀ tree ∈ initializer, tree.Rereads .declaration Anything)
    (condition : ∀ tree ∈ test, tree.Rereads .expression Closes)
    (step : ∀ tree ∈ increment, tree.Rereads .expression Closes)
    (inner : body.Rereads .statement (· ≠ some (.keyword .elseWord))) :
    (forLoop initializer test increment body).Rereads .statement Anything := by
  have tested : (test.getD (.literal (.bool true))).Rereads .expression Closes := by
    cases test with
    | none => exact Expr.rereads_true
    | some value => exact condition value rfl
  have looped (repeated : Stmt)
      (holds : repeated.Rereads .statement (· ≠ some (.keyword .elseWord))) :
      Stmt.Rereads .statement Anything
        (.block (initializer.toList ++ [.loop (test.getD (.literal (.bool true))) repeated])) := by
    refine .block fun tree member => ?_
    rcases List.mem_append.mp member with clause | final
    · exact (first tree (by simpa using clause)).mono fun _ _ => trivial
    · obtain rfl := List.mem_singleton.mp final
      exact (Stmt.Rereads.loop tested holds).plain
  unfold forLoop
  cases increment with
  | none => exact looped body inner
  | some value =>
    have last := (Stmt.Rereads.ofExpression (step value rfl)).simple.plain
    have repeated : (Stmt.block [body, .expression value]).Rereads .statement Anything := by
      refine .block fun tree member => ?_
      rcases List.mem_cons.mp member with rfl | final
      · exact inner.plain
      · obtain rfl := List.mem_singleton.mp final
        exact last.mono fun _ _ => trivial
    exact looped _ (repeated.mono fun _ _ => trivial)

/-- A function rereads from its name, its parameters and its body. -/
theorem FunctionDecl.Rereads.ofParts {name : Token} {names : List Token} {body : List Stmt}
    (named : name.kind = .identifier) (room : names.length ≤ maxListLength)
    (each : ∀ parameter ∈ names, parameter.kind = .identifier)
    (block : ∀ tree ∈ body, tree.Rereads .declaration (· ≠ some (.keyword .elseWord))) :
    (FunctionDecl.mk name names body).Rereads := by
  intro behind nextId
  obtain ⟨other, laterId, same, reads⟩ := Stmt.renderedAll_block block behind nextId
  refine ⟨.mk name names other, laterId, by simp [same], ?_⟩
  simp only [rendered, List.cons_append, List.append_assoc, List.nil_append]
  by_cases filled : names = []
  · subst filled
    exact .routineEmpty named rfl rfl rfl reads
  · have list := Token.separated_reads 0 filled (by simpa using room) each
      (.mark .rightParen :: .mark .leftBrace ::
        (Stmt.renderedAll body ++ .mark .rightBrace :: behind)) rfl nextId
    exact .routine named rfl list rfl rfl reads

/-- Functions are read from their tokens up to the closing brace of their class. -/
theorem FunctionDecl.renderedAll_reads {trees : List FunctionDecl}
    (each : ∀ tree ∈ trees, tree.Rereads) (behind : List Token)
    (closes : nextKind behind = some (.symbol .rightBrace)) (nextId : Nat) :
    ∃ others laterId, FunctionDecl.unnumberedAll others = FunctionDecl.unnumberedAll trees ∧
      StmtReads (.methods others) ⟨FunctionDecl.renderedAll trees ++ behind, nextId⟩
        ⟨behind, laterId⟩ := by
  induction trees generalizing nextId with
  | nil => exact ⟨[], nextId, rfl, .methodsEnd (.inl closes)⟩
  | cons tree trees inductionHypothesis =>
    obtain ⟨first, others⟩ := List.forall_mem_cons.mp each
    obtain ⟨head, middleId, same, reads⟩ :=
      first (FunctionDecl.renderedAll trees ++ behind) nextId
    obtain ⟨rest, laterId, alike, more⟩ := inductionHypothesis others middleId
    refine ⟨head :: rest, laterId, by simp [same, alike], ?_⟩
    rw [renderedAll, List.append_assoc]
    exact .methodsMore reads more

/-- A class rereads from its name, its superclass and its methods. -/
theorem Stmt.Rereads.class {name : Token} {parent : Option Expr} {methods : List FunctionDecl}
    (named : name.kind = .identifier)
    (derived : ∀ tree ∈ parent, ∃ id super, tree = .reference id super ∧ super.kind = .identifier)
    (members : ∀ tree ∈ methods, tree.Rereads) :
    (Stmt.class name parent methods).Rereads .declaration Anything := by
  intro behind nextId _
  cases parent with
  | none =>
    obtain ⟨others, laterId, same, reads⟩ := FunctionDecl.renderedAll_reads members
      (.mark .rightBrace :: behind) rfl nextId
    refine ⟨.class name none others, laterId, by simp [same], ?_⟩
    simp only [rendered, List.cons_append, List.append_assoc, List.nil_append]
    exact .class rfl named (.noSuperclass nofun) rfl reads rfl
  | some tree =>
    obtain ⟨id, super, rfl, known⟩ := derived tree rfl
    obtain ⟨others, laterId, same, reads⟩ := FunctionDecl.renderedAll_reads members
      (.mark .rightBrace :: behind) rfl (nextId + 1)
    refine ⟨.class name (some (.reference nextId super)) others, laterId,
      by simp [same], ?_⟩
    simp only [rendered, Expr.rendered, List.cons_append, List.append_assoc, List.nil_append]
    exact .class rfl named (.superclass rfl known) rfl reads rfl

/-- Every part of a statement or of a program that was read is read again from its tokens. -/
theorem StmtReads.rereads {phrase : StmtPhrase} {start after : Place}
    (reads : StmtReads phrase start after) : phrase.Rereads after.next? := by
  have free {phrase : Stmt → StmtPhrase} {allowed : Option Kind → Prop} {tree : Stmt}
      (rereads : tree.Rereads phrase Anything) : tree.Rereads phrase allowed :=
    rereads.mono fun _ _ => trivial
  have unchained {phrase : Stmt → StmtPhrase} {before : Option Kind} {tree : Stmt}
      (rereads : tree.Rereads phrase (NoNewElse before)) :
      tree.Rereads phrase (· ≠ some (.keyword .elseWord)) :=
    rereads.mono fun _ noElse isElse => absurd isElse noElse
  induction reads with
  | absent closed | noInitializer ends | noSuperclass stop | methodsEnd stop | blockEnd closes
  | programEnd => nofun
  | present opened inner =>
    rintro tree ⟨⟩
    exact inner.rereads.closed
  | undefined named ends =>
    intro behind nextId _
    exact ⟨.declare _ none, nextId, rfl, .variableDeclaration rfl (.undefined named rfl)⟩
  | initialized named mark inner ends => exact .initialized named inner.rereads.closed
  | simple inner ends => exact .ofExpression inner.rereads.closed
  | variableInitializer mark clause found =>
    rintro tree ⟨⟩
    exact found
  | simpleInitializer clause found =>
    rintro tree ⟨⟩
    exact found.simple.plain
  | lastParameter room named stop | trailingParameter room named mark closes =>
    exact ⟨List.cons_ne_nil _ _, room, by simpa using named⟩
  | moreParameters room named mark more found =>
    obtain ⟨_, further, others⟩ := found
    refine ⟨List.cons_ne_nil _ _, ?_, List.forall_mem_cons.mpr ⟨named, others⟩⟩
    simp only [List.length_cons]
    omega
  | routine named opens list closes enters block foundList foundBlock =>
    obtain ⟨_, room, each⟩ := foundList
    exact .ofParts named (by simpa using room) each foundBlock
  | routineEmpty named opens closes enters block found =>
    exact .ofParts named (Nat.zero_le _) nofun found
  | superclass less named =>
    rintro tree ⟨⟩
    exact ⟨_, _, rfl, named⟩
  | methodsMore head more foundHead foundMore =>
    exact List.forall_mem_cons.mpr ⟨foundHead, foundMore⟩
  | «class» mark named derived opens members closes foundParent foundMembers =>
    exact free (.class named foundParent foundMembers)
  | function mark inner found =>
    intro behind nextId _
    obtain ⟨other, laterId, same, reads⟩ := found behind nextId
    exact ⟨.function other, laterId, by simp [same], .function rfl reads⟩
  | variableDeclaration mark inner found => exact free found
  | plain inner found => exact found.plain
  | «for» mark opens first condition ends step closes inner foundFirst foundTest foundStep
      foundBody =>
    exact free (Parse.rereads_forLoop foundFirst foundTest foundStep (unchained foundBody))
  | «if» mark opens condition closes inner stop found =>
    exact .branch condition.rereads.closed found stop
  | ifElse mark opens condition closes inner otherwise outer foundInner foundOuter =>
    simp only [Place.next?_cons, otherwise] at foundInner
    exact .branchElse condition.rereads.closed foundInner foundOuter
  | print mark inner ends => exact free (.print mark inner.rereads.closed)
  | «return» mark inner ends found => exact free (.return mark found)
  | «while» mark opens condition closes inner found => exact .loop condition.rereads.closed found
  | block opens inner found => exact free (.block found)
  | expression inner found => exact free found.simple
  | blockMore head more foundHead foundMore | programMore head more foundHead foundMore =>
    exact List.forall_mem_cons.mpr ⟨unchained foundHead, foundMore⟩

/-- An end marker is no operator. -/
theorem Level.ne_eof_of_mem_operators {level : Level} {kind : Kind}
    (member : kind ∈ level.operators) : kind ≠ .eof := by
  rintro rfl
  cases level <;> simp [operators] at member

/-- No end marker is among the tokens that a part of an expression takes. -/
theorem ExprReads.takes_no_end {phrase : ExprPhrase} {start after : Place}
    (reads : ExprReads phrase start after) (token : Token) (member : token ∈ start.remaining) :
    token ∈ after.remaining ∨ token.kind ≠ .eof := by
  induction reads with
  | chainMore mark operand more foundOperand foundMore =>
    rcases List.mem_cons.mp member with rfl | behind
    · exact .inr (Level.ne_eof_of_mem_operators mark)
    · exact (foundOperand behind).elim foundMore .inr
  | _ => grind

/-- No end marker is among the tokens that a part of a statement takes. -/
theorem StmtReads.takes_no_end {phrase : StmtPhrase} {start after : Place}
    (reads : StmtReads phrase start after) (token : Token) (member : token ∈ start.remaining) :
    token ∈ after.remaining ∨ token.kind ≠ .eof := by
  induction reads with
  | initialized named mark inner ends | simple inner ends | print mark inner ends =>
    have taken := inner.takes_no_end token
    grind
  | «if» mark opens condition closes inner stop found
  | «while» mark opens condition closes inner found =>
    have taken := condition.takes_no_end token
    grind
  | ifElse mark opens condition closes inner otherwise outer foundInner foundOuter =>
    have taken := condition.takes_no_end token
    grind
  | present opened inner => exact inner.takes_no_end token member
  | _ => grind

/-- The tokens of a program are read to their end. -/
theorem Place.ofTokens_of_reads {trees : List Stmt} {tokens : List Token} {firstId laterId : Nat}
    (reads : StmtReads (.program trees) ⟨tokens, firstId⟩ ⟨[], laterId⟩) :
    Place.ofTokens tokens firstId = ⟨tokens, firstId⟩ := by
  have whole : tokens.takeWhile (·.kind ≠ .eof) = tokens := by
    refine List.takeWhile_eq_self_iff.mpr fun token member => ?_
    rcases reads.takes_no_end token member with left | ordinary
    · cases left
    · simpa using ordinary
  rw [ofTokens, whole]

/-- Parsing undoes rendering: a program that parsing accepts, rendered and parsed again, is accepted
and is the same program up to identities. -/
theorem parse_rendered {tokens : List Token} {firstId : Nat}
    (clean : (parse tokens firstId).errors = []) (otherId : Nat) :
    let rendered := Stmt.renderedAll (parse tokens firstId).statements
    (parse rendered otherId).errors = [] ∧
      Stmt.unnumberedAll (parse rendered otherId).statements =
        Stmt.unnumberedAll (parse tokens firstId).statements := by
  intro rendered
  obtain ⟨others, laterId, same, reads⟩ :=
    Stmt.renderedAll_program (parse_reads clean).rereads otherId
  rw [← Place.ofTokens_of_reads reads] at reads
  rw [parse_eq_of_reads reads]
  exact ⟨rfl, same⟩

/-- The tokens of `a = b - c - d.e(f,); for (; a; b = c) if (d) if (e) print f; else print -g;`. -/
def nestedTokens : List Token :=
  let name (text : String) := Token.implicit text 1
  [name "a", .mark .equal, name "b", .mark .minus, name "c", .mark .minus, name "d", .mark .dot,
    name "e", .mark .leftParen, name "f", .mark .comma, .mark .rightParen, .mark .semicolon,
    .word .forWord, .mark .leftParen, .mark .semicolon, name "a", .mark .semicolon, name "b",
    .mark .equal, name "c", .mark .rightParen, .word .ifWord, .mark .leftParen, name "d",
    .mark .rightParen, .word .ifWord, .mark .leftParen, name "e", .mark .rightParen,
    .word .printWord, name "f", .mark .semicolon, .word .elseWord, .word .printWord, .mark .minus,
    name "g", .mark .semicolon]

/-- The statements that these tokens are read as: differences group to the left, a loop that
declares nothing stands in a block of its own, and the other branch belongs to the nearest
condition. -/
def nestedTree : List Stmt :=
  let name (text : String) := Token.implicit text 1
  let read (id : Nat) (text : String) := Expr.reference id (name text)
  let called := Expr.call (.get (read 3 "d") (name "e")) (.mark .rightParen) [read 4 "f"]
  let difference :=
    Expr.binary (.binary (read 1 "b") (.mark .minus) (read 2 "c")) (.mark .minus) called
  let inner := Stmt.branch (read 9 "e") (.print (.word .printWord) (read 10 "f"))
    (some (.print (.word .printWord) (.unary (.mark .minus) (read 11 "g"))))
  [.expression (.assign 0 (name "a") difference),
    .block [.loop (read 5 "a")
      (.block [.branch (read 8 "d") inner none, .expression (.assign 6 (name "b") (read 7 "c"))])]]

/-- They are read as that tree, and rendering and reading it again gives it back, its occurrences
numbered from elsewhere. -/
theorem parse_rendered_nested :
    (parse nestedTokens 0).errors = [] ∧
      (parse nestedTokens 0).statements = nestedTree ∧
        (parse (Stmt.renderedAll nestedTree) 7).errors = [] ∧
          Stmt.unnumberedAll (parse (Stmt.renderedAll nestedTree) 7).statements =
            Stmt.unnumberedAll nestedTree := by
  have clean : (parse nestedTokens 0).errors = [] := by decide +kernel
  have tree : (parse nestedTokens 0).statements = nestedTree := by decide +kernel
  have again := parse_rendered clean 7
  rw [tree] at again
  exact ⟨clean, tree, again⟩

end LoxLang
