import LoxLang.Proofs.Parsing.Reaching
import LoxLang.Proofs.Parsing.Sound

/-!
# The readers find every reading

A part of a program is found when every depth bound that allows for its tokens lets the reader of
the phrase reach it. Every reading is found, by induction on the reading with one lemma for each of
its rules; the bound of `parse` allows for all tokens of a list.
-/

namespace LoxLang

/-- How often readers nest from a level down to its first token. -/
def Level.rank : Level → Nat
  | disjunction => 8
  | conjunction => 7
  | equality => 6
  | comparison => 5
  | sum => 4
  | product => 3

/-- How often readers nest from a phrase down to its first token, at most. -/
def ExprPhrase.rank : ExprPhrase → Nat
  | .expression _ => 9
  | .chain level _ => level.rank
  | .chainRest _ _ _ => 1
  | .unary _ => 2
  | .accesses _ _ => 1
  | .arguments _ _ => 10
  | .primary _ => 1

theorem ExprPhrase.rank_operand (level : Level) (tree : Expr) :
    (ExprPhrase.operand level tree).rank + 1 = level.rank := by
  cases level <;> rfl

theorem Level.rank_le (level : Level) : level.rank ≤ 8 := by
  cases level <;> decide

/-- A depth bound allows for the tokens between two places, sixteen for each of them, and for a
further number. -/
def Place.Allows (start after : Place) (depth extra : Nat) : Prop :=
  16 * start.remaining.length + extra ≤ depth + 16 * after.remaining.length

theorem Place.Allows.exists_succ {start after : Place} {depth extra : Nat}
    (enough : start.Allows after depth (extra + 1))
    (suffix : after.remaining <:+ start.remaining) : ∃ smaller, depth = smaller + 1 := by
  have shorter := suffix.length_le
  unfold Place.Allows at enough
  exact ⟨depth - 1, by omega⟩

/-- The readers find a part of an expression between two places. -/
def ExprPhrase.ReachedBy (inner : Readers) (start after : Place) : ExprPhrase → Prop
  | .expression tree => Parse.Reaches inner.expression start tree after
  | .chain level tree => Parse.Reaches (inner.chain level) start tree after
  | .chainRest level left tree => Parse.Reaches (inner.chainRest level left) start tree after
  | .unary tree => Parse.Reaches inner.unary start tree after
  | .accesses object tree => Parse.Reaches (inner.accesses object) start tree after
  | .arguments count trees => Parse.Reaches (inner.arguments count) start trees after
  | .primary tree => Parse.Reaches inner.primary start tree after

/-- Every depth bound that allows for the tokens in between is enough to find a part of an
expression. -/
def ExprPhrase.Found (phrase : ExprPhrase) (start after : Place) : Prop :=
  ∀ depth, start.Allows after depth phrase.rank → phrase.ReachedBy (readers depth) start after

/-- What a primary expression starts with is no prefix operator. -/
theorem ExprReads.primary_next? {tree : Expr} {start after : Place}
    (reads : ExprReads (.primary tree) start after) :
    start.next? ≠ some (.symbol .bang) ∧ start.next? ≠ some (.symbol .minus) := by
  cases reads <;> simp_all [Place.next?]

/-- A phrase that takes a token does not start with one that no expression starts with. -/
theorem ExprReads.next?_ne {phrase : ExprPhrase} {start after : Place}
    (reads : ExprReads phrase start after) (kind : Kind) (whole : phrase.isRest = false)
    (other : kind.startsExpression = false) : start.next? ≠ some kind := by
  obtain ⟨first, shown, starts⟩ := (reads.opens whole).next? start.nextId
  intro same
  obtain rfl : first = kind := Option.some.inj (shown.symm.trans same)
  simp [other] at starts

namespace Parse.Reaches

variable {inner : Readers} {level : Level} {tree : Expr} {start after : Place}

/-- An operand is found with the level or the prefix expression it is read as. -/
theorem operand (found : (ExprPhrase.operand level tree).ReachedBy inner start after) :
    Reaches (inner.operand level) start tree after := by
  cases level <;> exact found

end Parse.Reaches

/-- To find a phrase it is enough to find its parts one level deeper. -/
theorem ExprPhrase.Found.ofUnfolded {phrase : ExprPhrase} {start after : Place}
    (forward : after.remaining <:+ start.remaining)
    (parts : ∀ depth, start.Allows after (depth + 1) phrase.rank →
      phrase.ReachedBy (readers depth).unfolded start after) : phrase.Found start after := by
  intro depth enough
  have positive : 1 ≤ phrase.rank := by
    cases phrase with
    | chain level _ => cases level <;> simp [ExprPhrase.rank, Level.rank]
    | _ => simp [ExprPhrase.rank]
  have shorter := forward.length_le
  obtain ⟨depth, rfl⟩ : ∃ smaller, depth = smaller + 1 :=
    ⟨depth - 1, by unfold Place.Allows at enough; omega⟩
  exact parts depth enough

namespace ExprPhrase.Found

open Parse Parse.Reaches

variable {level : Level} {object left right tree value : Expr} {arguments : List Expr}
  {name operator opening closing : Token} {rest behind : List Token} {id count nextId laterId : Nat}
  {start middle after : Place}

/-- An assignment is found with its target and its value. -/
theorem assigned {tree : Expr} (reads : ExprReads (.expression tree) start after)
    (target : ExprReads (.chain .disjunction left) start ⟨operator :: rest, nextId⟩)
    (mark : operator.kind = .symbol .equal)
    (result : ExprReads (.expression value) ⟨rest, nextId⟩ after)
    (targetFound : (ExprPhrase.chain .disjunction left).Found start ⟨operator :: rest, nextId⟩)
    (resultFound : (ExprPhrase.expression value).Found ⟨rest, nextId⟩ after)
    (stored : Reaches (assignTo left operator value) after tree after) :
    (ExprPhrase.expression tree).Found start after := by
  refine .ofUnfolded reads.suffix fun depth enough => ?_
  have taken := (target.opens rfl).length_lt
  have shorter := result.suffix.length_le
  simp only [Found, Place.Allows, ExprPhrase.rank, Level.rank, List.length_cons] at *
  refine .bind (targetFound depth (by omega)) (.bind (.accept?_some mark) ?_)
  exact .bind (resultFound depth (by omega)) stored

/-- A level is found with its first operand and what stands behind it. -/
theorem chain (operand : ExprReads (.operand level left) start middle)
    (more : ExprReads (.chainRest level left tree) middle after)
    (operandFound : (ExprPhrase.operand level left).Found start middle)
    (moreFound : (ExprPhrase.chainRest level left tree).Found middle after) :
    (ExprPhrase.chain level tree).Found start after := by
  refine .ofUnfolded (ExprReads.chain operand more).suffix fun depth enough => ?_
  have taken := (operand.opens (by simp)).length_lt
  have shorter := more.suffix.length_le
  have rank := ExprPhrase.rank_operand level left
  simp only [Found, Place.Allows, ExprPhrase.rank] at *
  exact .bind (.operand (operandFound depth (by omega))) (moreFound depth (by omega))

/-- A further operand of a level is found with what stands behind it. -/
theorem chainMore (mark : operator.kind ∈ level.operators)
    (operand : ExprReads (.operand level right) ⟨rest, nextId⟩ middle)
    (more : ExprReads (.chainRest level (level.combine left operator right) tree) middle after)
    (operandFound : (ExprPhrase.operand level right).Found ⟨rest, nextId⟩ middle)
    (moreFound :
      (ExprPhrase.chainRest level (level.combine left operator right) tree).Found middle after) :
    (ExprPhrase.chainRest level left tree).Found ⟨operator :: rest, nextId⟩ after := by
  refine .ofUnfolded (ExprReads.chainMore mark operand more).suffix fun depth enough => ?_
  have taken := (operand.opens (by simp)).length_lt
  have shorter := more.suffix.length_le
  have rank := ExprPhrase.rank_operand level right
  have bound := level.rank_le
  simp only [Found, Place.Allows, ExprPhrase.rank, List.length_cons] at *
  refine .bindTo (some operator) ⟨rest, nextId⟩ (.past ?_) ?_
  · rw [if_pos (by simpa using mark)]
    exact .bind .advance .pure
  · exact .bind (.operand (operandFound depth (by omega))) (moreFound depth (by omega))

/-- A prefix expression is found with its operand. -/
theorem prefixed (mark : operator.kind = .symbol .bang ∨ operator.kind = .symbol .minus)
    (operand : ExprReads (.unary tree) ⟨rest, nextId⟩ after)
    (found : (ExprPhrase.unary tree).Found ⟨rest, nextId⟩ after) :
    (ExprPhrase.unary (.unary operator tree)).Found ⟨operator :: rest, nextId⟩ after := by
  refine .ofUnfolded (ExprReads.prefixed mark operand).suffix fun depth enough => ?_
  have shorter := operand.suffix.length_le
  simp only [Found, Place.Allows, ExprPhrase.rank, List.length_cons] at *
  exact .bind (.acceptPrefixOperator?_some mark) (.bind (found depth (by omega)) .pure)

/-- A call or an access is found with its primary expression and what stands behind it. -/
theorem accessed (head : ExprReads (.primary object) start middle)
    (more : ExprReads (.accesses object tree) middle after)
    (headFound : (ExprPhrase.primary object).Found start middle)
    (moreFound : (ExprPhrase.accesses object tree).Found middle after) :
    (ExprPhrase.unary tree).Found start after := by
  refine .ofUnfolded (ExprReads.accessed head more).suffix fun depth enough => ?_
  have taken := (head.opens rfl).length_lt
  have shorter := more.suffix.length_le
  obtain ⟨noBang, noMinus⟩ := head.primary_next?
  simp only [Found, Place.Allows, ExprPhrase.rank] at *
  refine .bind (.bind (.accept?_none noBang) (.accept?_none noMinus)) ?_
  exact .bind (headFound depth (by omega)) (moreFound depth (by omega))

/-- Where neither an argument list nor a property follows, nothing is accessed. -/
theorem accessesEnd (noCall : start.next? ≠ some (.symbol .leftParen))
    (noProperty : start.next? ≠ some (.symbol .dot)) :
    (ExprPhrase.accesses object object).Found start start := by
  refine .ofUnfolded (List.suffix_refl _) fun depth _ => ?_
  refine .current fun token shows => ?_
  split
  case h_1 opens => exact absurd (shows.next?_eq opens (by simp)) noCall
  case h_2 mark => exact absurd (shows.next?_eq mark (by simp)) noProperty
  case h_3 => exact .pure

/-- A call with arguments is found with its arguments and what stands behind it. -/
theorem call (opens : opening.kind = .symbol .leftParen)
    (list : ExprReads (.arguments 0 arguments) ⟨rest, nextId⟩ ⟨closing :: behind, laterId⟩)
    (closes : closing.kind = .symbol .rightParen)
    (more : ExprReads (.accesses (.call object closing arguments) tree) ⟨behind, laterId⟩ after)
    (listFound :
      (ExprPhrase.arguments 0 arguments).Found ⟨rest, nextId⟩ ⟨closing :: behind, laterId⟩)
    (moreFound : (ExprPhrase.accesses (.call object closing arguments) tree).Found
      ⟨behind, laterId⟩ after) :
    (ExprPhrase.accesses object tree).Found ⟨opening :: rest, nextId⟩ after := by
  refine .ofUnfolded (ExprReads.call opens list closes more).suffix fun depth enough => ?_
  have taken := (list.opens rfl).length_lt
  have shorter := more.suffix.length_le
  have nonempty := list.next?_ne (.symbol .rightParen) rfl rfl
  simp only [Found, Place.Allows, ExprPhrase.rank, List.length_cons] at *
  refine .past ?_
  simp only [opens]
  refine .bind .advance (.bind (.check_false nonempty) ?_)
  refine .bind (listFound depth (by omega)) (.bind (.expect _ closes) ?_)
  exact moreFound depth (by omega)

/-- A call without arguments is found with what stands behind it. -/
theorem callEmpty (opens : opening.kind = .symbol .leftParen)
    (closes : closing.kind = .symbol .rightParen)
    (more : ExprReads (.accesses (.call object closing []) tree) ⟨rest, nextId⟩ after)
    (found : (ExprPhrase.accesses (.call object closing []) tree).Found ⟨rest, nextId⟩ after) :
    (ExprPhrase.accesses object tree).Found ⟨opening :: closing :: rest, nextId⟩ after := by
  refine .ofUnfolded (ExprReads.callEmpty opens closes more).suffix fun depth enough => ?_
  have shorter := more.suffix.length_le
  simp only [Found, Place.Allows, ExprPhrase.rank, List.length_cons] at *
  refine .past ?_
  simp only [opens]
  refine .bind .advance (.bind (.check_true (by rw [Place.next?_cons, closes])) ?_)
  exact .bind .pure (.bind (.expect _ closes) (found depth (by omega)))

/-- An accessed property is found with what stands behind it. -/
theorem property (mark : operator.kind = .symbol .dot) (named : name.kind = .identifier)
    (more : ExprReads (.accesses (.get object name) tree) ⟨rest, nextId⟩ after)
    (found : (ExprPhrase.accesses (.get object name) tree).Found ⟨rest, nextId⟩ after) :
    (ExprPhrase.accesses object tree).Found ⟨operator :: name :: rest, nextId⟩ after := by
  refine .ofUnfolded (ExprReads.property mark named more).suffix fun depth enough => ?_
  have shorter := more.suffix.length_le
  simp only [Found, Place.Allows, ExprPhrase.rank, List.length_cons] at *
  refine .past ?_
  simp only [mark]
  exact .bind .advance (.bind (.expect _ named) (found depth (by omega)))

/-- An argument with a comma and no further argument behind it is found. -/
theorem trailingArgument (room : count < maxListLength)
    (entry : ExprReads (.expression value) start ⟨operator :: rest, nextId⟩)
    (mark : operator.kind = .symbol .comma)
    (closes : Place.next? ⟨rest, nextId⟩ = some (.symbol .rightParen))
    (found : (ExprPhrase.expression value).Found start ⟨operator :: rest, nextId⟩) :
    (ExprPhrase.arguments count [value]).Found start ⟨rest, nextId⟩ := by
  refine .ofUnfolded (ExprReads.trailingArgument room entry mark closes).suffix
    fun depth enough => ?_
  have taken := entry.suffix.length_le
  simp only [Found, Place.Allows, ExprPhrase.rank, List.length_cons] at *
  refine .argumentList room (.bind (found depth (by omega)) (.bind (.accept?_some mark) ?_))
  exact .bind (.check_true closes) .pure

/-- An argument with further arguments behind it is found with them. -/
theorem moreArguments (room : count < maxListLength)
    (entry : ExprReads (.expression value) start ⟨operator :: rest, nextId⟩)
    (mark : operator.kind = .symbol .comma)
    (more : ExprReads (.arguments (count + 1) arguments) ⟨rest, nextId⟩ after)
    (entryFound : (ExprPhrase.expression value).Found start ⟨operator :: rest, nextId⟩)
    (moreFound : (ExprPhrase.arguments (count + 1) arguments).Found ⟨rest, nextId⟩ after) :
    (ExprPhrase.arguments count (value :: arguments)).Found start after := by
  refine .ofUnfolded (ExprReads.moreArguments room entry mark more).suffix fun depth enough => ?_
  have taken := (entry.opens rfl).length_lt
  have shorter := more.suffix.length_le
  have nonempty := more.next?_ne (.symbol .rightParen) rfl rfl
  simp only [Found, Place.Allows, ExprPhrase.rank, List.length_cons] at *
  refine .argumentList room (.bind (entryFound depth (by omega)) (.bind (.accept?_some mark) ?_))
  exact .bind (.check_false nonempty) (.bind (moreFound depth (by omega)) .pure)

/-- An expression in parentheses is found with what it encloses. -/
theorem group (opens : opening.kind = .symbol .leftParen)
    (enclosed : ExprReads (.expression value) ⟨rest, nextId⟩ ⟨closing :: behind, laterId⟩)
    (closes : closing.kind = .symbol .rightParen)
    (found : (ExprPhrase.expression value).Found ⟨rest, nextId⟩ ⟨closing :: behind, laterId⟩) :
    (ExprPhrase.primary (.grouping value)).Found ⟨opening :: rest, nextId⟩ ⟨behind, laterId⟩ := by
  refine .ofUnfolded (ExprReads.group opens enclosed closes).suffix fun depth enough => ?_
  have shorter := enclosed.suffix.length_le
  simp only [Found, Place.Allows, ExprPhrase.rank, List.length_cons] at *
  refine .past ?_
  simp only [opens]
  exact .bind .advance (.bind (found depth (by omega)) (.bind (.expect _ closes) .pure))

end ExprPhrase.Found

open Parse.Reaches in
/-- Every reading of a part of an expression is found. -/
theorem ExprReads.found {phrase : ExprPhrase} {start after : Place}
    (reads : ExprReads phrase start after) : phrase.Found start after := by
  induction reads with
  | plain target stop found =>
    refine .ofUnfolded (ExprReads.plain target stop).suffix fun depth enough => ?_
    refine .bind (found depth ?_) (.bind (.accept?_none stop) .pure)
    simp only [Place.Allows, ExprPhrase.rank, Level.rank] at enough ⊢
    omega
  | assign target mark result targetFound resultFound =>
    exact .assigned (.assign target mark result) target mark result targetFound resultFound .pure
  | set target mark result targetFound resultFound =>
    exact .assigned (.set target mark result) target mark result targetFound resultFound .pure
  | chain operand rest operandFound restFound => exact .chain operand rest operandFound restFound
  | chainEnd stop =>
    exact .ofUnfolded (List.suffix_refl _) fun depth _ => .bind (.acceptOperator?_none stop) .pure
  | chainMore mark operand more operandFound moreFound =>
    exact .chainMore mark operand more operandFound moreFound
  | prefixed mark operand found => exact .prefixed mark operand found
  | accessed head more headFound moreFound => exact .accessed head more headFound moreFound
  | accessesEnd noCall noProperty => exact .accessesEnd noCall noProperty
  | call opens list closes more listFound moreFound =>
    exact .call opens list closes more listFound moreFound
  | callEmpty opens closes more found => exact .callEmpty opens closes more found
  | property mark named more found => exact .property mark named more found
  | lastArgument room entry stop found =>
    refine .ofUnfolded (ExprReads.lastArgument room entry stop).suffix fun depth enough => ?_
    refine .argumentList room (.bind (found depth ?_) (.bind (.accept?_none stop) .pure))
    simp only [Place.Allows, ExprPhrase.rank] at enough ⊢
    omega
  | trailingArgument room entry mark closes found =>
    exact .trailingArgument room entry mark closes found
  | moreArguments room entry mark more entryFound moreFound =>
    exact .moreArguments room entry mark more entryFound moreFound
  | falseLiteral mark | trueLiteral mark | nilLiteral mark | number mark | string mark =>
    refine .ofUnfolded (List.suffix_cons _ _) fun depth _ => .past ?_
    simp only [mark]
    exact .bind .advance .pure
  | this mark | reference mark =>
    refine .ofUnfolded (List.suffix_cons _ _) fun depth _ => .past ?_
    simp only [mark]
    exact .bind .advance (.bind .freshId .pure)
  | super mark point named =>
    refine .ofUnfolded (ExprReads.super mark point named).suffix fun depth _ => .past ?_
    simp only [mark]
    exact .bind .advance (.bind (.expect _ point) (.bind (.expect _ named) (.bind .freshId .pure)))
  | group opens enclosed closes found => exact .group opens enclosed closes found

/-- How often readers nest from a phrase down to its first token, at most. -/
def StmtPhrase.rank : StmtPhrase → Nat
  | .optional _ _ => 9
  | .variable _ => 9
  | .simple _ => 9
  | .initializer _ => 9
  | .parameters _ _ => 1
  | .routine _ => 1
  | .superclass _ => 1
  | .methods _ => 1
  | .declaration _ => 11
  | .statement _ => 10
  | .block _ => 1
  | .program _ => 12

/-- The readers find a part of a statement or of a program between two places. The methods of a
class are counted by a bound of their own. -/
def StmtPhrase.ReachedBy (inner : Readers) (start after : Place) : StmtPhrase → Prop
  | .optional closing value => Parse.Reaches (inner.expressionUnless closing) start value after
  | .variable tree => Parse.Reaches inner.variableDeclaration start tree after
  | .simple tree => Parse.Reaches inner.expressionStatement start tree after
  | .initializer clause => Parse.Reaches inner.forInitializer start clause after
  | .parameters count names => Parse.Reaches (inner.parameters count) start names after
  | .routine tree => ∀ kind, Parse.Reaches (inner.routine kind) start tree after
  | .superclass parent => Parse.Reaches Parse.superclass? start parent after
  | .methods trees =>
    ∀ bound, start.Allows after bound 1 →
      Parse.Reaches ((readers bound).methods (inner.routine .method)) start trees after
  | .declaration tree => Parse.Reaches inner.declaration start tree after
  | .statement tree => Parse.Reaches inner.statement start tree after
  | .block trees => Parse.Reaches inner.block start trees after
  | .program trees => Parse.Reaches inner.program start trees after

/-- Every depth bound that allows for the tokens in between is enough to find a part of a statement
or of a program. -/
def StmtPhrase.Found (phrase : StmtPhrase) (start after : Place) : Prop :=
  ∀ depth, start.Allows after depth phrase.rank → phrase.ReachedBy (readers depth) start after

/-- A phrase does not start with a token outside the kinds it can start with. -/
theorem StmtReads.next?_ne {phrase : StmtPhrase} {start after : Place} {kinds : Kind → Bool}
    (reads : StmtReads phrase start after) (kind : Kind)
    (opening : phrase.opening? = some kinds) (other : kinds kind = false) :
    start.next? ≠ some kind := by
  obtain ⟨first, shown, starts⟩ := (reads.opens opening).next? start.nextId
  intro same
  obtain rfl : first = kind := Option.some.inj (shown.symm.trans same)
  simp [other] at starts

/-- The token that stands where a phrase starts is of the kinds it can start with. -/
theorem StmtReads.shown {phrase : StmtPhrase} {start after : Place} {kinds : Kind → Bool}
    {token : Token} (reads : StmtReads phrase start after)
    (opening : phrase.opening? = some kinds) (shows : start.Shows token) :
    kinds token.kind = true := by
  obtain ⟨first, behind, tokens, starts, _⟩ := reads.opens opening
  rcases shows with ⟨rest, same⟩ | ⟨ended, _⟩
  · obtain ⟨rfl, _⟩ := List.cons.inj (tokens.symm.trans same)
    exact starts
  · rw [tokens] at ended
    cases ended

/-- A phrase that takes a token does not start at the end of the tokens. -/
theorem StmtReads.next?_ne_none {phrase : StmtPhrase} {start after : Place} {kinds : Kind → Bool}
    (reads : StmtReads phrase start after) (opening : phrase.opening? = some kinds) :
    start.next? ≠ none := by
  obtain ⟨first, shown, _⟩ := (reads.opens opening).next? start.nextId
  rw [show start.next? = some first from shown]
  nofun

namespace Parse.Reaches

variable {inner : Readers} {start after : Place}

/-- A statement that starts like none of the special ones is an expression statement. -/
theorem expressionStatement {tree : Stmt} (reads : StmtReads (.simple tree) start after)
    (found : Reaches inner.expressionStatement start tree after) :
    Reaches inner.anyStatement start tree after := by
  refine .current fun token shows => ?_
  have starts := reads.shown rfl shows
  split
  case h_7 => exact found
  all_goals simp_all [Kind.startsExpression]

/-- A declaration that starts like none of the special ones is a statement. -/
theorem plainDeclaration {tree : Stmt} (reads : StmtReads (.statement tree) start after)
    (found : Reaches inner.statement start tree after) :
    Reaches inner.anyDeclaration start tree after := by
  refine .current fun token shows => ?_
  have starts := reads.shown rfl shows
  split
  case h_4 => exact found
  all_goals simp_all [Kind.opensStatement, Kind.startsExpression]

/-- The first clause of a `for` statement that starts like no other is an expression statement. -/
theorem simpleInitializer {tree : Stmt} (reads : StmtReads (.simple tree) start after)
    (found : Reaches inner.expressionStatement start tree after) :
    Reaches inner.forInitializer start (some tree) after := by
  refine .current fun token shows => ?_
  have starts := reads.shown rfl shows
  split
  case h_3 => exact .map found
  all_goals simp_all [Kind.startsExpression]

end Parse.Reaches

/-- To find a phrase it is enough to find its parts one level deeper. -/
theorem StmtPhrase.Found.ofUnfolded {phrase : StmtPhrase} {start after : Place}
    (forward : after.remaining <:+ start.remaining)
    (parts : ∀ depth, start.Allows after (depth + 1) phrase.rank →
      phrase.ReachedBy (readers depth).unfolded start after) : phrase.Found start after := by
  intro depth enough
  have positive : 1 ≤ phrase.rank := by cases phrase <;> simp [StmtPhrase.rank]
  have shorter := forward.length_le
  obtain ⟨depth, rfl⟩ : ∃ smaller, depth = smaller + 1 :=
    ⟨depth - 1, by unfold Place.Allows at enough; omega⟩
  exact parts depth enough

namespace StmtPhrase.Found

open Parse Parse.Reaches

variable {test value : Expr} {initializer : Option Stmt} {condition? increment : Option Expr}
  {tree whenTrue whenFalse body : Stmt} {trees : List Stmt} {first : FunctionDecl}
  {others : List FunctionDecl} {name keyword opening closing mark brace semicolon comma : Token}
  {names rest behind second : List Token} {count nextId laterId secondId : Nat}
  {start middle after : Place}

/-- A variable with an initial value is found with the value. -/
theorem initialized (named : name.kind = .identifier) (equals : mark.kind = .symbol .equal)
    (given : ExprReads (.expression value) ⟨rest, nextId⟩ ⟨semicolon :: behind, laterId⟩)
    (ends : semicolon.kind = .symbol .semicolon) :
    (StmtPhrase.variable (.declare name (some value))).Found ⟨name :: mark :: rest, nextId⟩
      ⟨behind, laterId⟩ := by
  intro depth enough
  have found := given.found
  simp only [ExprPhrase.Found, ExprPhrase.rank, Place.Allows, StmtPhrase.rank,
    List.length_cons] at *
  refine .bind (.expect _ named) (.bind (.accept?_some equals) ?_)
  exact .bind (.map (found depth (by omega))) (.bind (.semicolon ends) .pure)

/-- A parameter with a comma and no further parameter behind it is found. -/
theorem trailingParameter (room : count < maxListLength) (named : name.kind = .identifier)
    (separates : comma.kind = .symbol .comma)
    (closes : Place.next? ⟨rest, nextId⟩ = some (.symbol .rightParen)) :
    (StmtPhrase.parameters count [name]).Found ⟨name :: comma :: rest, nextId⟩ ⟨rest, nextId⟩ := by
  refine .ofUnfolded (StmtReads.trailingParameter room named separates closes).suffix
    fun depth _ => ?_
  refine .parameterList room (.bind (.expect _ named) (.bind (.accept?_some separates) ?_))
  exact .bind (.check_true closes) .pure

/-- A parameter with further parameters behind it is found with them. -/
theorem moreParameters (room : count < maxListLength) (named : name.kind = .identifier)
    (separates : comma.kind = .symbol .comma)
    (more : StmtReads (.parameters (count + 1) names) ⟨rest, nextId⟩ after)
    (found : (StmtPhrase.parameters (count + 1) names).Found ⟨rest, nextId⟩ after) :
    (StmtPhrase.parameters count (name :: names)).Found ⟨name :: comma :: rest, nextId⟩ after := by
  refine .ofUnfolded (StmtReads.moreParameters room named separates more).suffix
    fun depth enough => ?_
  have shorter := more.suffix.length_le
  have nonempty := more.next?_ne (.symbol .rightParen) rfl rfl
  simp only [Found, Place.Allows, StmtPhrase.rank, List.length_cons] at *
  refine .parameterList room (.bind (.expect _ named) (.bind (.accept?_some separates) ?_))
  exact .bind (.check_false nonempty) (.bind (found depth (by omega)) .pure)

/-- A routine is found with its parameters and its body. -/
theorem routine (named : name.kind = .identifier) (opens : opening.kind = .symbol .leftParen)
    (list : StmtReads (.parameters 0 names) ⟨rest, nextId⟩ ⟨closing :: brace :: behind, laterId⟩)
    (closes : closing.kind = .symbol .rightParen) (enters : brace.kind = .symbol .leftBrace)
    (block : StmtReads (.block trees) ⟨behind, laterId⟩ after)
    (listFound : (StmtPhrase.parameters 0 names).Found ⟨rest, nextId⟩
      ⟨closing :: brace :: behind, laterId⟩)
    (blockFound : (StmtPhrase.block trees).Found ⟨behind, laterId⟩ after) :
    (StmtPhrase.routine (.mk name names trees)).Found ⟨name :: opening :: rest, nextId⟩ after := by
  intro depth enough kind
  have taken := list.suffix.length_le
  have shorter := block.suffix.length_le
  have nonempty := list.next?_ne (.symbol .rightParen) rfl rfl
  simp only [Found, Place.Allows, StmtPhrase.rank, List.length_cons] at *
  refine .bind (.expect _ named) (.bind (.expect _ opens) (.bind (.check_false nonempty) ?_))
  refine .bind (listFound depth (by omega)) (.bind (.expect _ closes) ?_)
  exact .bind (.expect _ enters) (.bind (blockFound depth (by omega)) .pure)

/-- A routine without parameters is found with its body. -/
theorem routineEmpty (named : name.kind = .identifier) (opens : opening.kind = .symbol .leftParen)
    (closes : closing.kind = .symbol .rightParen) (enters : brace.kind = .symbol .leftBrace)
    (block : StmtReads (.block trees) ⟨rest, nextId⟩ after)
    (found : (StmtPhrase.block trees).Found ⟨rest, nextId⟩ after) :
    (StmtPhrase.routine (.mk name [] trees)).Found
      ⟨name :: opening :: closing :: brace :: rest, nextId⟩ after := by
  intro depth enough kind
  have shorter := block.suffix.length_le
  simp only [Found, Place.Allows, StmtPhrase.rank, List.length_cons] at *
  refine .bind (.expect _ named) (.bind (.expect _ opens) ?_)
  refine .bind (.check_true (by rw [Place.next?_cons, closes])) (.bind .pure ?_)
  refine .bind (.expect _ closes) (.bind (.expect _ enters) ?_)
  exact .bind (found depth (by omega)) .pure

/-- The methods of a class end at its closing brace or at the end of the tokens. -/
theorem methodsEnd (stop : start.next? = some (.symbol .rightBrace) ∨ start.next? = none) :
    (StmtPhrase.methods []).Found start start := by
  intro depth _ bound enough
  obtain ⟨bound, rfl⟩ := enough.exists_succ (List.suffix_refl _)
  rcases stop with closed | ended
  · have further : start.next? ≠ none := by simp [closed]
    exact .bind (.check_true closed) (.bind (.isAtEnd_false further) .pure)
  · exact .bind (.check_false (by simp [ended])) (.bind (.isAtEnd_true ended) .pure)

/-- A method is found with the methods behind it. -/
theorem methodsMore (head : StmtReads (.routine first) start middle)
    (more : StmtReads (.methods others) middle after)
    (headFound : (StmtPhrase.routine first).Found start middle)
    (moreFound : (StmtPhrase.methods others).Found middle after) :
    (StmtPhrase.methods (first :: others)).Found start after := by
  intro depth enough bound room
  have taken := (head.opens rfl).length_lt
  have shorter := more.suffix.length_le
  have inside := head.next?_ne (.symbol .rightBrace) rfl rfl
  have further := head.next?_ne_none rfl
  simp only [Found, Place.Allows, StmtPhrase.rank] at *
  obtain ⟨bound, rfl⟩ : ∃ smaller, bound = smaller + 1 := ⟨bound - 1, by omega⟩
  have headFound := headFound depth (by omega) .method
  have moreFound := moreFound depth (by omega) bound (by unfold Place.Allows; omega)
  exact .bind (.check_false inside) (.bind (.isAtEnd_false further)
    (.bind headFound (.bind moreFound .pure)))

/-- A class is found with its superclass and its methods. -/
theorem «class» {parent : Option Expr} (word : keyword.kind = .keyword .classWord)
    (named : name.kind = .identifier)
    (derived : StmtReads (.superclass parent) ⟨rest, nextId⟩ ⟨opening :: second, secondId⟩)
    (opens : opening.kind = .symbol .leftBrace)
    (members : StmtReads (.methods others) ⟨second, secondId⟩ ⟨closing :: behind, laterId⟩)
    (closes : closing.kind = .symbol .rightBrace)
    (parentFound : (StmtPhrase.superclass parent).Found ⟨rest, nextId⟩
      ⟨opening :: second, secondId⟩)
    (membersFound : (StmtPhrase.methods others).Found ⟨second, secondId⟩
      ⟨closing :: behind, laterId⟩) :
    (StmtPhrase.declaration (.class name parent others)).Found ⟨keyword :: name :: rest, nextId⟩
      ⟨behind, laterId⟩ := by
  refine .ofUnfolded (StmtReads.class word named derived opens members closes).suffix
    fun depth enough => ?_
  have taken := derived.suffix.length_le
  have shorter := members.suffix.length_le
  simp only [Found, Place.Allows, StmtPhrase.rank, List.length_cons] at *
  have membersFound := membersFound depth (by omega) depth (by
    simp only [Place.Allows, List.length_cons]
    omega)
  refine .past ?_
  simp only [word]
  refine .bind .advance (.bind (.expect _ named) (.bind (parentFound depth (by omega)) ?_))
  exact .bind (.expect _ opens) (.bind membersFound (.bind (.expect _ closes) .pure))

/-- A function declaration is found with its routine. -/
theorem function (word : keyword.kind = .keyword .funWord)
    (declared : StmtReads (.routine first) ⟨rest, nextId⟩ after)
    (found : (StmtPhrase.routine first).Found ⟨rest, nextId⟩ after) :
    (StmtPhrase.declaration (.function first)).Found ⟨keyword :: rest, nextId⟩ after := by
  refine .ofUnfolded (StmtReads.function word declared).suffix fun depth enough => ?_
  have shorter := declared.suffix.length_le
  simp only [Found, Place.Allows, StmtPhrase.rank, List.length_cons] at *
  refine .past ?_
  simp only [word]
  exact .bind .advance (.bind (found depth (by omega) .function) .pure)

/-- A variable declaration is found with what stands behind its keyword. -/
theorem variableDeclaration (word : keyword.kind = .keyword .varWord)
    (declared : StmtReads (.variable tree) ⟨rest, nextId⟩ after)
    (found : (StmtPhrase.variable tree).Found ⟨rest, nextId⟩ after) :
    (StmtPhrase.declaration tree).Found ⟨keyword :: rest, nextId⟩ after := by
  refine .ofUnfolded (StmtReads.variableDeclaration word declared).suffix fun depth enough => ?_
  have shorter := declared.suffix.length_le
  simp only [Found, Place.Allows, StmtPhrase.rank, List.length_cons] at *
  refine .past ?_
  simp only [word]
  exact .bind .advance (found depth (by omega))

/-- A `for` statement is found with its clauses and its body. -/
theorem «for» (word : keyword.kind = .keyword .forWord) (opens : opening.kind = .symbol .leftParen)
    (clause : StmtReads (.initializer initializer) ⟨rest, nextId⟩ middle)
    (condition : StmtReads (.optional (.symbol .semicolon) condition?) middle
      ⟨semicolon :: second, secondId⟩)
    (ends : semicolon.kind = .symbol .semicolon)
    (step : StmtReads (.optional (.symbol .rightParen) increment) ⟨second, secondId⟩
      ⟨closing :: behind, laterId⟩)
    (closes : closing.kind = .symbol .rightParen)
    (repeated : StmtReads (.statement body) ⟨behind, laterId⟩ after)
    (clauseFound : (StmtPhrase.initializer initializer).Found ⟨rest, nextId⟩ middle)
    (conditionFound : (StmtPhrase.optional (.symbol .semicolon) condition?).Found middle
      ⟨semicolon :: second, secondId⟩)
    (stepFound : (StmtPhrase.optional (.symbol .rightParen) increment).Found ⟨second, secondId⟩
      ⟨closing :: behind, laterId⟩)
    (repeatedFound : (StmtPhrase.statement body).Found ⟨behind, laterId⟩ after) :
    (StmtPhrase.statement (forLoop initializer condition? increment body)).Found
      ⟨keyword :: opening :: rest, nextId⟩ after := by
  refine .ofUnfolded
    (StmtReads.for word opens clause condition ends step closes repeated).suffix
    fun depth enough => ?_
  have clauseShorter := clause.suffix.length_le
  have conditionShorter := condition.suffix.length_le
  have stepShorter := step.suffix.length_le
  have shorter := repeated.suffix.length_le
  simp only [Found, Place.Allows, StmtPhrase.rank, List.length_cons] at *
  refine .past ?_
  simp only [word]
  refine .bind .advance (.bind (.expect _ opens) (.bind (clauseFound depth (by omega)) ?_))
  refine .bind (conditionFound depth (by omega)) (.bind (.semicolon ends) ?_)
  refine .bind (stepFound depth (by omega)) (.bind (.expect _ closes) ?_)
  exact .bind (repeatedFound depth (by omega)) .pure

/-- An `if` statement without an `else` is found with its condition and its branch. -/
theorem «if» (word : keyword.kind = .keyword .ifWord) (opens : opening.kind = .symbol .leftParen)
    (condition : ExprReads (.expression test) ⟨rest, nextId⟩ ⟨closing :: behind, laterId⟩)
    (closes : closing.kind = .symbol .rightParen)
    (branch : StmtReads (.statement whenTrue) ⟨behind, laterId⟩ after)
    (stop : after.next? ≠ some (.keyword .elseWord))
    (found : (StmtPhrase.statement whenTrue).Found ⟨behind, laterId⟩ after) :
    (StmtPhrase.statement (.branch test whenTrue none)).Found ⟨keyword :: opening :: rest, nextId⟩
      after := by
  refine .ofUnfolded (StmtReads.if word opens condition closes branch stop).suffix
    fun depth enough => ?_
  have taken := condition.suffix.length_le
  have shorter := branch.suffix.length_le
  have conditionFound := condition.found
  simp only [Found, ExprPhrase.Found, ExprPhrase.rank, Place.Allows, StmtPhrase.rank,
    List.length_cons] at *
  refine .past ?_
  simp only [word]
  refine .bind .advance (.bind (.condition opens (conditionFound depth (by omega)) closes) ?_)
  exact .bind (found depth (by omega)) (.bind (.accept?_none stop) .pure)

/-- An `if` statement with an `else` is found with its condition and its branches. -/
theorem ifElse (word : keyword.kind = .keyword .ifWord)
    (opens : opening.kind = .symbol .leftParen)
    (condition : ExprReads (.expression test) ⟨rest, nextId⟩ ⟨closing :: behind, laterId⟩)
    (closes : closing.kind = .symbol .rightParen)
    (branch : StmtReads (.statement whenTrue) ⟨behind, laterId⟩ ⟨mark :: second, secondId⟩)
    (otherwise : mark.kind = .keyword .elseWord)
    (other : StmtReads (.statement whenFalse) ⟨second, secondId⟩ after)
    (branchFound : (StmtPhrase.statement whenTrue).Found ⟨behind, laterId⟩
      ⟨mark :: second, secondId⟩)
    (otherFound : (StmtPhrase.statement whenFalse).Found ⟨second, secondId⟩ after) :
    (StmtPhrase.statement (.branch test whenTrue (some whenFalse))).Found
      ⟨keyword :: opening :: rest, nextId⟩ after := by
  refine .ofUnfolded
    (StmtReads.ifElse word opens condition closes branch otherwise other).suffix
    fun depth enough => ?_
  have taken := condition.suffix.length_le
  have shorter := branch.suffix.length_le
  have last := other.suffix.length_le
  have conditionFound := condition.found
  simp only [Found, ExprPhrase.Found, ExprPhrase.rank, Place.Allows, StmtPhrase.rank,
    List.length_cons] at *
  refine .past ?_
  simp only [word]
  refine .bind .advance (.bind (.condition opens (conditionFound depth (by omega)) closes) ?_)
  refine .bind (branchFound depth (by omega)) (.bind (.accept?_some otherwise) ?_)
  exact .bind (otherFound depth (by omega)) .pure

/-- A `print` statement is found with its expression. -/
theorem print (word : keyword.kind = .keyword .printWord)
    (given : ExprReads (.expression value) ⟨rest, nextId⟩ ⟨semicolon :: behind, laterId⟩)
    (ends : semicolon.kind = .symbol .semicolon) :
    (StmtPhrase.statement (.print keyword value)).Found ⟨keyword :: rest, nextId⟩
      ⟨behind, laterId⟩ := by
  refine .ofUnfolded (StmtReads.print word given ends).suffix fun depth enough => ?_
  have shorter := given.suffix.length_le
  have found := given.found
  simp only [ExprPhrase.Found, ExprPhrase.rank, Place.Allows, StmtPhrase.rank,
    List.length_cons] at *
  refine .past ?_
  simp only [word]
  exact .bind .advance (.bind (found depth (by omega)) (.bind (.semicolon ends) .pure))

/-- A `return` statement is found with its expression, if there is one. -/
theorem «return» {given? : Option Expr} (word : keyword.kind = .keyword .returnWord)
    (given : StmtReads (.optional (.symbol .semicolon) given?) ⟨rest, nextId⟩
      ⟨semicolon :: behind, laterId⟩)
    (ends : semicolon.kind = .symbol .semicolon)
    (found : (StmtPhrase.optional (.symbol .semicolon) given?).Found ⟨rest, nextId⟩
      ⟨semicolon :: behind, laterId⟩) :
    (StmtPhrase.statement (.return keyword given?)).Found ⟨keyword :: rest, nextId⟩
      ⟨behind, laterId⟩ := by
  refine .ofUnfolded (StmtReads.return word given ends).suffix fun depth enough => ?_
  have shorter := given.suffix.length_le
  simp only [Found, Place.Allows, StmtPhrase.rank, List.length_cons] at *
  refine .past ?_
  simp only [word]
  exact .bind .advance (.bind (found depth (by omega)) (.bind (.semicolon ends) .pure))

/-- A `while` statement is found with its condition and its body. -/
theorem «while» (word : keyword.kind = .keyword .whileWord)
    (opens : opening.kind = .symbol .leftParen)
    (condition : ExprReads (.expression test) ⟨rest, nextId⟩ ⟨closing :: behind, laterId⟩)
    (closes : closing.kind = .symbol .rightParen)
    (repeated : StmtReads (.statement body) ⟨behind, laterId⟩ after)
    (found : (StmtPhrase.statement body).Found ⟨behind, laterId⟩ after) :
    (StmtPhrase.statement (.loop test body)).Found ⟨keyword :: opening :: rest, nextId⟩
      after := by
  refine .ofUnfolded (StmtReads.while word opens condition closes repeated).suffix
    fun depth enough => ?_
  have taken := condition.suffix.length_le
  have shorter := repeated.suffix.length_le
  have conditionFound := condition.found
  simp only [Found, ExprPhrase.Found, ExprPhrase.rank, Place.Allows, StmtPhrase.rank,
    List.length_cons] at *
  refine .past ?_
  simp only [word]
  refine .bind .advance (.bind (.condition opens (conditionFound depth (by omega)) closes) ?_)
  exact .bind (found depth (by omega)) .pure

/-- A block is found with what stands behind its opening brace. -/
theorem block (opens : opening.kind = .symbol .leftBrace)
    (enclosed : StmtReads (.block trees) ⟨rest, nextId⟩ after)
    (found : (StmtPhrase.block trees).Found ⟨rest, nextId⟩ after) :
    (StmtPhrase.statement (.block trees)).Found ⟨opening :: rest, nextId⟩ after := by
  refine .ofUnfolded (StmtReads.block opens enclosed).suffix fun depth enough => ?_
  have shorter := enclosed.suffix.length_le
  simp only [Found, Place.Allows, StmtPhrase.rank, List.length_cons] at *
  refine .past ?_
  simp only [opens]
  exact .bind .advance (.bind (found depth (by omega)) .pure)

/-- A declaration in a block is found with what stands behind it. -/
theorem blockMore (head : StmtReads (.declaration tree) start middle)
    (more : StmtReads (.block trees) middle after)
    (headFound : (StmtPhrase.declaration tree).Found start middle)
    (moreFound : (StmtPhrase.block trees).Found middle after) :
    (StmtPhrase.block (tree :: trees)).Found start after := by
  refine .ofUnfolded (StmtReads.blockMore head more).suffix fun depth enough => ?_
  have taken := (head.opens rfl).length_lt
  have shorter := (more.opens rfl).length_lt
  have inside := head.next?_ne (.symbol .rightBrace) rfl rfl
  have further := head.next?_ne_none rfl
  simp only [Found, Place.Allows, StmtPhrase.rank] at *
  refine .bind (.check_false inside) (.bind (.isAtEnd_false further) ?_)
  refine .bind (.recovering (headFound depth (by omega))) ?_
  exact .bind (moreFound depth (by omega)) .pure

/-- A declaration of a program is found with what stands behind it. -/
theorem programMore (head : StmtReads (.declaration tree) start middle)
    (more : StmtReads (.program trees) middle after)
    (headFound : (StmtPhrase.declaration tree).Found start middle)
    (moreFound : (StmtPhrase.program trees).Found middle after) :
    (StmtPhrase.program (tree :: trees)).Found start after := by
  refine .ofUnfolded (StmtReads.programMore head more).suffix fun depth enough => ?_
  have taken := (head.opens rfl).length_lt
  have shorter := more.suffix.length_le
  have further := head.next?_ne_none rfl
  simp only [Found, Place.Allows, StmtPhrase.rank] at *
  refine .bind (.isAtEnd_false further) (.bind (.recovering (headFound depth (by omega))) ?_)
  exact .bind (moreFound depth (by omega)) .pure

end StmtPhrase.Found

open Parse.Reaches in
/-- Every reading of a part of a statement or of a program is found. -/
theorem StmtReads.found {phrase : StmtPhrase} {start after : Place}
    (reads : StmtReads phrase start after) : phrase.Found start after := by
  induction reads with
  | absent closed => exact fun depth _ => .bind (.check_true closed) .pure
  | present opened inner =>
    exact fun depth enough => .bind (.check_false opened) (.bind (inner.found depth enough) .pure)
  | undefined named ends =>
    refine fun depth _ => .bind (.expect _ named) (.bind (.accept?_none (by simp [ends])) ?_)
    exact .bind .pure (.bind (.semicolon ends) .pure)
  | initialized named mark inner ends => exact .initialized named mark inner ends
  | simple inner ends =>
    refine fun depth enough => .bind (inner.found depth ?_) (.bind (.semicolon ends) .pure)
    simp only [Place.Allows, StmtPhrase.rank, ExprPhrase.rank, List.length_cons] at enough ⊢
    omega
  | noInitializer ends =>
    refine fun depth _ => .past ?_
    simp only [ends]
    exact .bind .advance .pure
  | variableInitializer mark clause found =>
    refine fun depth enough => .past ?_
    simp only [Place.Allows, StmtPhrase.Found, StmtPhrase.rank, List.length_cons] at *
    simp only [mark]
    exact .bind .advance (.map (found depth (by omega)))
  | simpleInitializer clause found =>
    exact fun depth enough => .simpleInitializer clause (found depth enough)
  | lastParameter room named stop =>
    exact .ofUnfolded (List.suffix_cons _ _) fun depth _ =>
      .parameterList room (.bind (.expect _ named) (.bind (.accept?_none stop) .pure))
  | trailingParameter room named mark closes => exact .trailingParameter room named mark closes
  | moreParameters room named mark more found => exact .moreParameters room named mark more found
  | routine named opens list closes enters block listFound blockFound =>
    exact .routine named opens list closes enters block listFound blockFound
  | routineEmpty named opens closes enters block found =>
    exact .routineEmpty named opens closes enters block found
  | noSuperclass stop => exact fun depth _ => .bind (.accept?_none stop) .pure
  | superclass less named =>
    exact fun depth _ => .bind (.accept?_some less) (.bind (.expect _ named) (.bind .freshId .pure))
  | methodsEnd stop => exact .methodsEnd stop
  | methodsMore head more headFound moreFound => exact .methodsMore head more headFound moreFound
  | «class» mark named derived opens members closes parentFound membersFound =>
    exact .class mark named derived opens members closes parentFound membersFound
  | function mark inner found => exact .function mark inner found
  | variableDeclaration mark inner found => exact .variableDeclaration mark inner found
  | plain inner found =>
    refine .ofUnfolded inner.suffix fun depth enough => .plainDeclaration inner (found depth ?_)
    simp only [Place.Allows, StmtPhrase.rank] at enough ⊢
    omega
  | «for» mark opens clause condition ends step closes body foundFirst foundTest foundStep found =>
    exact .for mark opens clause condition ends step closes body foundFirst foundTest foundStep
      found
  | «if» mark opens condition closes inner stop found =>
    exact .if mark opens condition closes inner stop found
  | ifElse mark opens condition closes inner otherwise outer innerFound outerFound =>
    exact .ifElse mark opens condition closes inner otherwise outer innerFound outerFound
  | print mark inner ends => exact .print mark inner ends
  | «return» mark inner ends found => exact .return mark inner ends found
  | «while» mark opens condition closes inner found =>
    exact .while mark opens condition closes inner found
  | block opens inner found => exact .block opens inner found
  | expression inner found =>
    refine .ofUnfolded inner.suffix fun depth enough => .expressionStatement inner (found depth ?_)
    simp only [Place.Allows, StmtPhrase.rank] at enough ⊢
    omega
  | blockEnd closes =>
    refine .ofUnfolded (List.suffix_cons _ _) fun depth _ => ?_
    refine .bind (.check_true (by rw [Place.next?_cons, closes])) ?_
    exact .bind (.isAtEnd_false (by simp)) (.bind (.expect _ closes) .pure)
  | blockMore head more headFound moreFound => exact .blockMore head more headFound moreFound
  | programEnd =>
    exact .ofUnfolded (List.suffix_refl _) fun depth _ => .bind (.isAtEnd_true rfl) .pure
  | programMore head more headFound moreFound => exact .programMore head more headFound moreFound

/-- A token list that has a reading as a program is parsed as that reading, without a violation. -/
theorem parse_eq_of_reads {tokens : List Token} {firstId : Nat} {trees : List Stmt} {after : Place}
    (reads : StmtReads (.program trees) (.ofTokens tokens firstId) after) :
    parse tokens firstId = { statements := trees, errors := [], nextId := after.nextId } := by
  have shorter : (tokens.takeWhile (·.kind ≠ .eof)).length ≤ tokens.length :=
    (List.takeWhile_prefix _).length_le
  have enough : (Place.ofTokens tokens firstId).Allows after (parseDepth tokens.length) 12 := by
    simp only [Place.Allows, Place.ofTokens, parseDepth]
    omega
  have found : Parse.Reaches (readers (parseDepth tokens.length)).program _ _ _ :=
    reads.found _ enough
  rw [← Parse.always_program] at found
  have found := found (Cursor.start tokens firstId) (Cursor.start_regular tokens firstId) rfl
  unfold parse
  generalize parseDepth tokens.length = depth at found
  change Parsed.read (Parse.program depth _).1 (Parse.program depth _).2 = _ at found
  obtain ⟨statements, final⟩ := Parsed.read.inj found
  simp only [statements, final]
  rfl

/-- Parsing finds no violation exactly in the token lists that have a reading as a program. -/
theorem parse_errors_eq_nil_iff {tokens : List Token} {firstId : Nat} :
    (parse tokens firstId).errors = [] ↔
      ∃ trees after, StmtReads (.program trees) (.ofTokens tokens firstId) after := by
  constructor
  · intro clean
    exact ⟨_, _, parse_reads clean⟩
  · rintro ⟨trees, after, reads⟩
    rw [parse_eq_of_reads reads]

end LoxLang
