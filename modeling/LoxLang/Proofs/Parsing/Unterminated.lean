import LoxLang.Proofs.Parsing.Recovery
import LoxLang.Proofs.Parsing.Ending

/-!
# A missing semicolon in front of a statement

A statement that lacks its semicolon is refused at the token behind it. If that token is a word that
starts a statement, it is dropped all the same: reading resumes behind it, in the middle of the
statement that it starts (`parse_unterminated`). So the statement behind is lost, too, and what is
left of it may be refused once more.
-/

namespace LoxLang

/-- Two token lists that differ only in how they end. -/
def Exchanged (tail behind tokens others : List Token) : Prop :=
  ∃ inner, tokens = inner ++ tail ∧ others = inner ++ behind

namespace Exchanged

variable {tail behind tokens others : List Token}

/-- At the end of the common tokens the tails are exchanged. -/
theorem ends (tail behind : List Token) : Exchanged tail behind tail behind :=
  ⟨[], rfl, rfl⟩

/-- One more token in front is common to both. -/
theorem cons (token : Token) (exchanged : Exchanged tail behind tokens others) :
    Exchanged tail behind (token :: tokens) (token :: others) := by
  obtain ⟨inner, rfl, rfl⟩ := exchanged
  exact ⟨token :: inner, rfl, rfl⟩

/-- A kind that does not stand next before the ends are exchanged does not stand there afterwards
unless the new end starts with it. -/
theorem next?_ne (exchanged : Exchanged tail behind tokens others) {nextId : Nat} {kind : Kind}
    (other : Place.next? ⟨tokens, nextId⟩ ≠ some kind)
    (absent : Place.next? ⟨behind, nextId⟩ ≠ some kind) :
    Place.next? ⟨others, nextId⟩ ≠ some kind := by
  obtain ⟨inner, rfl, rfl⟩ := exchanged
  cases inner with
  | nil => exact absent
  | cons token inner => exact other

/-- A kind that stands next before the ends are exchanged stands there afterwards unless the old end
starts with it. -/
theorem next?_eq (exchanged : Exchanged tail behind tokens others) {nextId : Nat} {kind : Kind}
    (found : Place.next? ⟨tokens, nextId⟩ = some kind)
    (absent : Place.next? ⟨tail, nextId⟩ ≠ some kind) :
    Place.next? ⟨others, nextId⟩ = some kind := by
  obtain ⟨inner, rfl, rfl⟩ := exchanged
  cases inner with
  | nil => exact absurd found absent
  | cons token inner => exact found

end Exchanged

/-- No operator starts a statement. -/
theorem Level.startsStatement_of_mem_operators {level : Level} {kind : Kind}
    (member : kind ∈ level.operators) : kind.startsStatement = false := by
  cases level <;> simp only [operators, List.mem_cons, List.not_mem_nil, or_false] at member <;>
    rcases member with rfl | rfl | rfl | rfl <;> rfl

section Exchange

variable {semicolon word : Token} {tail behind : List Token}
  (ends : semicolon.kind = .symbol .semicolon) (starts : word.kind.startsStatement = true)
include ends starts

/-- An expression in front of a semicolon is read in front of a word that starts a statement as
well: neither goes on with it. -/
theorem ExprReads.exchanged {phrase : ExprPhrase} {start after : Place}
    (reads : ExprReads phrase start after) :
    ∀ others, Exchanged (semicolon :: tail) (word :: behind) after.remaining others →
      ∃ first, Exchanged (semicolon :: tail) (word :: behind) start.remaining first ∧
        ExprReads phrase ⟨first, start.nextId⟩ ⟨others, after.nextId⟩ := by
  -- The induction goes from the end to the start: what stands behind the phrase is exchanged first.
  -- Only where a rule asks what does not come next does the exchanged token matter.
  have stays {tokens others : List Token} {nextId : Nat} {kind : Kind}
      (same : Exchanged (semicolon :: tail) (word :: behind) tokens others)
      (stop : Place.next? ⟨tokens, nextId⟩ ≠ some kind) (plain : kind.startsStatement = false) :
      Place.next? ⟨others, nextId⟩ ≠ some kind := by
    refine same.next?_ne stop fun found => ?_
    rw [← Option.some.inj found, starts] at plain
    cases plain
  induction reads with
  | plain target stop found =>
    intro others same
    obtain ⟨first, changed, reads⟩ := found others same
    exact ⟨first, changed, .plain reads (stays same stop rfl)⟩
  | assign target mark result foundTarget foundResult =>
    intro others same
    obtain ⟨rest, changed, second⟩ := foundResult others same
    obtain ⟨first, changed, reads⟩ := foundTarget _ (changed.cons _)
    exact ⟨first, changed, .assign reads mark second⟩
  | set target mark result foundTarget foundResult =>
    intro others same
    obtain ⟨rest, changed, second⟩ := foundResult others same
    obtain ⟨first, changed, reads⟩ := foundTarget _ (changed.cons _)
    exact ⟨first, changed, .set reads mark second⟩
  | chain operand rest foundOperand foundRest =>
    intro others same
    obtain ⟨middle, changed, second⟩ := foundRest others same
    obtain ⟨first, changed, reads⟩ := foundOperand middle changed
    exact ⟨first, changed, .chain reads second⟩
  | chainEnd stop =>
    intro others same
    exact ⟨others, same, .chainEnd fun kind member =>
      stays same (stop kind member) (Level.startsStatement_of_mem_operators member)⟩
  | chainMore mark operand more foundOperand foundMore =>
    intro others same
    obtain ⟨middle, changed, second⟩ := foundMore others same
    obtain ⟨first, changed, reads⟩ := foundOperand middle changed
    exact ⟨_, changed.cons _, .chainMore mark reads second⟩
  | prefixed mark inner found =>
    intro others same
    obtain ⟨first, changed, reads⟩ := found others same
    exact ⟨_, changed.cons _, .prefixed mark reads⟩
  | accessed head more foundHead foundMore =>
    intro others same
    obtain ⟨middle, changed, second⟩ := foundMore others same
    obtain ⟨first, changed, reads⟩ := foundHead middle changed
    exact ⟨first, changed, .accessed reads second⟩
  | accessesEnd noCall noProperty =>
    intro others same
    exact ⟨others, same, .accessesEnd (stays same noCall rfl) (stays same noProperty rfl)⟩
  | call opens list closes more foundList foundMore =>
    intro others same
    obtain ⟨rest, changed, second⟩ := foundMore others same
    obtain ⟨first, changed, reads⟩ := foundList _ (changed.cons _)
    exact ⟨_, changed.cons _, .call opens reads closes second⟩
  | callEmpty opens closes more found =>
    intro others same
    obtain ⟨rest, changed, reads⟩ := found others same
    exact ⟨_, (changed.cons _).cons _, .callEmpty opens closes reads⟩
  | property mark named more found =>
    intro others same
    obtain ⟨rest, changed, reads⟩ := found others same
    exact ⟨_, (changed.cons _).cons _, .property mark named reads⟩
  | lastArgument room entry stop found =>
    intro others same
    obtain ⟨first, changed, reads⟩ := found others same
    exact ⟨first, changed, .lastArgument room reads (stays same stop rfl)⟩
  | trailingArgument room entry mark closes found =>
    intro others same
    obtain ⟨first, changed, reads⟩ := found _ (same.cons _)
    refine ⟨first, changed, .trailingArgument room reads mark (same.next?_eq closes ?_)⟩
    simp [ends]
  | moreArguments room entry mark more foundEntry foundMore =>
    intro others same
    obtain ⟨rest, changed, second⟩ := foundMore others same
    obtain ⟨first, changed, reads⟩ := foundEntry _ (changed.cons _)
    exact ⟨first, changed, .moreArguments room reads mark second⟩
  | falseLiteral mark => exact fun others same => ⟨_, same.cons _, .falseLiteral mark⟩
  | trueLiteral mark => exact fun others same => ⟨_, same.cons _, .trueLiteral mark⟩
  | nilLiteral mark => exact fun others same => ⟨_, same.cons _, .nilLiteral mark⟩
  | number mark => exact fun others same => ⟨_, same.cons _, .number mark⟩
  | string mark => exact fun others same => ⟨_, same.cons _, .string mark⟩
  | this mark => exact fun others same => ⟨_, same.cons _, .this mark⟩
  | super mark point named =>
    exact fun others same => ⟨_, ((same.cons _).cons _).cons _, .super mark point named⟩
  | reference mark => exact fun others same => ⟨_, same.cons _, .reference mark⟩
  | group opens enclosed closes found =>
    intro others same
    obtain ⟨first, changed, reads⟩ := found _ (same.cons _)
    exact ⟨_, changed.cons _, .group opens reads closes⟩

/-- An expression in front of a semicolon is read in front of a word of a statement as well. -/
theorem ExprReads.unterminated {tree : Expr} {front : List Token} {nextId laterId : Nat}
    (reads : ExprReads (.expression tree) ⟨front ++ semicolon :: tail, nextId⟩
      ⟨semicolon :: tail, laterId⟩) :
    ExprReads (.expression tree) ⟨front ++ word :: behind, nextId⟩ ⟨word :: behind, laterId⟩ := by
  obtain ⟨first, ⟨inner, same, rfl⟩, moved⟩ :=
    reads.exchanged ends starts (word :: behind) (.ends _ _)
  obtain rfl := List.append_cancel_right same
  exact moved

end Exchange

namespace Parse

variable {α β : Type} {start middle after : Place} {expectation : Expectation}

/-- A step is refused at a place that it comes to, from any cursor, without a report. -/
def BreaksOff (step : Parse α) (start : Place) (expectation : Expectation) (after : Place) : Prop :=
  ∀ cursor : Cursor, cursor.Regular → cursor.place = start →
    step cursor =
      .refused { token := (cursor.moveTo after).current, fault := .expected expectation }
        (cursor.moveTo after)

namespace BreaksOff

variable {token : Token} {rest : List Token} {nextId : Nat}

/-- A refusal breaks off at once. -/
theorem refuse : BreaksOff (refuse expectation : Parse α) start expectation start := by
  rintro cursor _ rfl
  rfl

/-- An expected kind that does not stand in front breaks off. -/
theorem expect {kind : Kind} (other : start.next? ≠ some kind) :
    BreaksOff (expect kind expectation) start expectation start := by
  rintro cursor _ rfl
  rw [Parse.expect, if_neg (by rwa [Cursor.check_iff])]
  rfl

/-- What goes on behind a refusal is not come to. -/
theorem bind {first : Parse α} {next : α → Parse β}
    (head : BreaksOff first start expectation after) :
    BreaksOff (first >>= next) start expectation after := by
  intro cursor regular placed
  rw [bind_apply, head cursor regular placed]

/-- What is read first does not keep the rest from breaking off. -/
theorem behind {first : Parse α} {next : α → Parse β} {value : α}
    (head : Reaches first start value middle)
    (tail : BreaksOff (next value) middle expectation after) :
    BreaksOff (first >>= next) start expectation after := by
  intro cursor regular placed
  rw [bind_apply, head cursor regular placed]
  exact tail _ regular.moveTo rfl

/-- A step that looks at the current token. -/
theorem past {next : Token → Parse α}
    (tail : BreaksOff (next token) ⟨token :: rest, nextId⟩ expectation after) :
    BreaksOff (Parse.current >>= next) ⟨token :: rest, nextId⟩ expectation after := by
  intro cursor regular placed
  have shown : cursor.current = token := by
    unfold Cursor.current
    rw [show cursor.remaining = token :: rest from congrArg Place.remaining placed]
    rfl
  rw [bind_apply]
  simp only [Parse.current, shown]
  exact tail cursor regular placed

/-- Every word that starts a statement stands for itself. -/
theorem keyword_of_startsStatement (starts : token.kind.startsStatement = true) :
    ∃ word, token.kind = .keyword word ∧ word ∈ [Keyword.classWord, .funWord, .varWord, .forWord,
      .ifWord, .whileWord, .printWord, .returnWord] := by
  unfold Kind.startsStatement at starts
  split at starts <;> simp_all

/-- No primary expression starts with a word that starts a statement. -/
theorem primary (starts : token.kind.startsStatement = true) (depth : Nat) :
    BreaksOff (readers depth).primary ⟨token :: rest, nextId⟩ .expression
      ⟨token :: rest, nextId⟩ := by
  cases depth with
  | zero => exact .refuse
  | succ depth =>
    rw [readers_succ]
    refine .past ?_
    obtain ⟨word, same, member⟩ := keyword_of_startsStatement starts
    simp only [List.mem_cons, List.not_mem_nil, or_false] at member
    rcases member with rfl | rfl | rfl | rfl | rfl | rfl | rfl | rfl <;> rw [same] <;>
      exact .refuse

/-- No prefix expression starts with such a word. -/
theorem unary (starts : token.kind.startsStatement = true) (depth : Nat) :
    BreaksOff (readers depth).unary ⟨token :: rest, nextId⟩ .expression
      ⟨token :: rest, nextId⟩ := by
  have plain (kind : Kind) (other : kind.startsStatement = false) :
      Place.next? ⟨token :: rest, nextId⟩ ≠ some kind := by
    rintro found
    rw [← Option.some.inj found, starts] at other
    cases other
  cases depth with
  | zero => exact .refuse
  | succ depth =>
    rw [readers_succ]
    refine .behind (.bind (.accept?_none (plain _ rfl)) (.accept?_none (plain _ rfl))) ?_
    exact .bind (.primary starts depth)

/-- No operand of a level starts with such a word. -/
theorem chain (starts : token.kind.startsStatement = true) (depth : Nat) (level : Level) :
    BreaksOff ((readers depth).chain level) ⟨token :: rest, nextId⟩ .expression
      ⟨token :: rest, nextId⟩ := by
  induction depth generalizing level with
  | zero => exact .refuse
  | succ depth inductionHypothesis =>
    rw [readers_succ]
    cases level with
    | product => exact .bind (.unary starts depth)
    | _ => exact .bind (inductionHypothesis _)

/-- No expression starts with a word that starts a statement. -/
theorem expression (starts : token.kind.startsStatement = true) (depth : Nat) :
    BreaksOff (readers depth).expression ⟨token :: rest, nextId⟩ .expression
      ⟨token :: rest, nextId⟩ := by
  cases depth with
  | zero => exact .refuse
  | succ depth =>
    rw [readers_succ]
    exact .bind (.chain starts depth .disjunction)

/-- Another token than a semicolon is refused where one is expected. -/
theorem semicolon (other : start.next? ≠ some (.symbol .semicolon)) :
    BreaksOff (semicolon expectation) start expectation start :=
  .bind (.expect other)

end BreaksOff

end Parse

/-- What a simple statement lacks if it ends in front of its semicolon. -/
def Stmt.unmet? : Stmt → Option Expectation
  | .declare _ _ => some .declarationEnd
  | .print _ _ => some .printEnd
  | .return _ none => some .expression
  | .return _ (some _) => some .returnEnd
  | .expression _ => some .expressionEnd
  | _ => none

/-- Between two places a reader finds a statement that ends with a semicolon. Without the semicolon
and in front of a word that starts a statement, it is refused at that word. -/
def LacksSemicolon (reader : Readers → Parse Stmt) (rank : Nat) (expectation : Expectation)
    (start after : Place) : Prop :=
  ∃ front semicolon, start.remaining = front ++ semicolon :: after.remaining ∧
    semicolon.kind = .symbol .semicolon ∧
    ∀ (word : Token) (behind : List Token) (depth : Nat), word.kind.startsStatement = true →
      16 * front.length + rank ≤ depth →
      Parse.BreaksOff (reader (readers depth)) ⟨front ++ word :: behind, start.nextId⟩ expectation
        ⟨word :: behind, after.nextId⟩

section Lacking

open Parse

variable {tree : Stmt} {expectation : Expectation} {start after : Place}

/-- A word that starts a statement is no semicolon. -/
theorem next?_ne_of_startsStatement {word : Token} (starts : word.kind.startsStatement = true)
    {kind : Kind} (other : kind.startsStatement = false) (behind : List Token) (nextId : Nat) :
    Place.next? ⟨word :: behind, nextId⟩ ≠ some kind := by
  intro found
  rw [← Option.some.inj found, starts] at other
  cases other

/-- An expression whose semicolon is missing is read up to the word behind it. -/
theorem ExprReads.found_unterminated {value : Expr} {semicolon word : Token}
    {front tail : List Token} {nextId laterId : Nat}
    (reads : ExprReads (.expression value) ⟨front ++ semicolon :: tail, nextId⟩
      ⟨semicolon :: tail, laterId⟩)
    (ends : semicolon.kind = .symbol .semicolon) (starts : word.kind.startsStatement = true)
    (behind : List Token) (depth : Nat) (room : 16 * front.length + 9 ≤ depth) :
    Reaches (readers depth).expression ⟨front ++ word :: behind, nextId⟩ value
      ⟨word :: behind, laterId⟩ := by
  refine (reads.unterminated ends starts).found depth ?_
  simp only [Place.Allows, ExprPhrase.rank, List.length_append]
  omega

/-- The declaration of a variable lacks the semicolon at its end. -/
theorem StmtReads.variable_lacks (reads : StmtReads (.variable tree) start after)
    (lacks : tree.unmet? = some expectation) :
    LacksSemicolon Readers.variableDeclaration 9 expectation start after := by
  cases reads with
  | @undefined name semicolon rest nextId named ends =>
    obtain rfl := Option.some.inj lacks
    refine ⟨[name], semicolon, rfl, ends, fun word behind depth starts _ => ?_⟩
    have plain {kind : Kind} (other : kind.startsStatement = false) :=
      next?_ne_of_startsStatement starts other behind nextId
    refine .behind (.expect _ named) (.behind (.accept?_none (plain rfl)) ?_)
    exact .behind .pure (.bind (.semicolon (plain rfl)))
  | @initialized name equals semicolon value rest behind nextId laterId named mark inner ends =>
    obtain rfl := Option.some.inj lacks
    obtain ⟨front, rfl⟩ := inner.suffix
    refine ⟨name :: equals :: front, semicolon, rfl, ends, fun word others depth starts room => ?_⟩
    have found := inner.found_unterminated ends starts others depth (by
      simp only [List.length_cons] at room
      omega)
    refine .behind (.expect _ named) (.behind (.accept?_some mark) ?_)
    refine .behind (.map found) (.bind (.semicolon ?_))
    exact next?_ne_of_startsStatement starts rfl others laterId

/-- A statement that starts like none of the special ones is read as an expression statement. -/
theorem breaksOff_expressionStatement {inner : Readers} {token : Token} {rest : List Token}
    {nextId : Nat} (starts : token.kind.startsExpression = true)
    (stops : BreaksOff inner.expressionStatement ⟨token :: rest, nextId⟩ expectation after) :
    BreaksOff inner.anyStatement ⟨token :: rest, nextId⟩ expectation after := by
  refine .past ?_
  split
  case h_7 => exact stops
  all_goals simp_all [Kind.startsExpression]

/-- A declaration that starts like none of the special ones is read as a statement. -/
theorem breaksOff_plainDeclaration {inner : Readers} {token : Token} {rest : List Token}
    {nextId : Nat} (starts : token.kind.opensStatement = true)
    (stops : BreaksOff inner.statement ⟨token :: rest, nextId⟩ expectation after) :
    BreaksOff inner.anyDeclaration ⟨token :: rest, nextId⟩ expectation after := by
  refine .past ?_
  split
  case h_4 => exact stops
  all_goals simp_all [Kind.opensStatement, Kind.startsExpression]

/-- A statement lacks the semicolon at its end. -/
theorem StmtReads.statement_lacks (reads : StmtReads (.statement tree) start after)
    (lacks : tree.unmet? = some expectation) :
    LacksSemicolon Readers.statement 10 expectation start after := by
  cases reads with
  | «for» | «if» | ifElse | «while» | block => cases lacks
  | @print keyword semicolon value rest tail nextId laterId mark inner ends =>
    obtain rfl := Option.some.inj lacks
    obtain ⟨front, rfl⟩ := inner.suffix
    refine ⟨keyword :: front, semicolon, rfl, ends, fun word behind depth starts room => ?_⟩
    rw [List.length_cons] at room
    obtain ⟨depth, rfl⟩ : ∃ smaller, depth = smaller + 1 := ⟨depth - 1, by omega⟩
    have found := inner.found_unterminated ends starts behind depth (by omega)
    refine .past ?_
    simp only [mark]
    refine .behind .advance (.behind found (.bind (.semicolon ?_)))
    exact next?_ne_of_startsStatement starts rfl behind laterId
  | @«return» keyword semicolon value rest tail nextId laterId mark inner ends =>
    cases inner with
    | absent =>
      obtain rfl := Option.some.inj lacks
      refine ⟨[keyword], semicolon, rfl, ends, fun word behind depth starts room => ?_⟩
      obtain ⟨depth, rfl⟩ : ∃ smaller, depth = smaller + 1 := ⟨depth - 1, by omega⟩
      refine .past ?_
      simp only [mark]
      refine .behind .advance (.bind (.behind (.check_false ?_) (.bind (.expression starts depth))))
      exact next?_ne_of_startsStatement starts rfl behind nextId
    | @present _ value _ _ opened inner =>
      obtain rfl := Option.some.inj lacks
      obtain ⟨front, rfl⟩ := inner.suffix
      refine ⟨keyword :: front, semicolon, rfl, ends, fun word behind depth starts room => ?_⟩
      rw [List.length_cons] at room
      obtain ⟨depth, rfl⟩ : ∃ smaller, depth = smaller + 1 := ⟨depth - 1, by omega⟩
      have found := inner.found_unterminated ends starts behind depth (by omega)
      have further : Place.next? ⟨front ++ word :: behind, nextId⟩ ≠ some (.symbol .semicolon) := by
        cases front with
        | nil => exact next?_ne_of_startsStatement starts rfl behind nextId
        | cons token front => exact opened
      refine .past ?_
      simp only [mark]
      refine .behind .advance (.behind (.bind (.check_false further) (.bind found .pure)) ?_)
      exact .bind (.semicolon (next?_ne_of_startsStatement starts rfl behind laterId))
  | expression inner =>
    cases inner with
    | @simple value semicolon tail laterId _ inner ends =>
      obtain rfl := Option.some.inj lacks
      obtain ⟨front, same⟩ := inner.suffix
      obtain ⟨remaining, nextId⟩ := start
      subst same
      refine ⟨front, semicolon, rfl, ends, fun word behind depth starts room => ?_⟩
      obtain ⟨depth, rfl⟩ : ∃ smaller, depth = smaller + 1 := ⟨depth - 1, by omega⟩
      have found := inner.found_unterminated ends starts behind depth (by omega)
      obtain ⟨first, others, split, opening, _⟩ :=
        ExprReads.opens
          (inner.unterminated ends starts : ExprReads _ ⟨front ++ word :: behind, _⟩ _) rfl
      have stops : BreaksOff (readers depth).expressionStatement ⟨front ++ word :: behind, nextId⟩
          .expressionEnd ⟨word :: behind, laterId⟩ :=
        .behind found (.bind (.semicolon (next?_ne_of_startsStatement starts rfl behind laterId)))
      dsimp only at split ⊢
      rw [split] at stops ⊢
      exact breaksOff_expressionStatement opening stops

/-- A declaration lacks the semicolon at its end. -/
theorem StmtReads.declaration_lacks (reads : StmtReads (.declaration tree) start after)
    (lacks : tree.unmet? = some expectation) :
    LacksSemicolon Readers.declaration 11 expectation start after := by
  cases reads with
  | «class» | function => cases lacks
  | @variableDeclaration keyword _ rest nextId _ mark inner =>
    obtain ⟨front, semicolon, same, ends, stops⟩ := inner.variable_lacks lacks
    obtain rfl : rest = front ++ semicolon :: after.remaining := same
    refine ⟨keyword :: front, semicolon, rfl, ends, fun word behind depth starts room => ?_⟩
    rw [List.length_cons] at room
    obtain ⟨depth, rfl⟩ : ∃ smaller, depth = smaller + 1 := ⟨depth - 1, by omega⟩
    refine .past ?_
    simp only [mark]
    exact .behind .advance (stops word behind depth starts (by omega))
  | plain inner =>
    obtain ⟨front, semicolon, same, ends, stops⟩ := inner.statement_lacks lacks
    refine ⟨front, semicolon, same, ends, fun word behind depth starts room => ?_⟩
    obtain ⟨depth, rfl⟩ : ∃ smaller, depth = smaller + 1 := ⟨depth - 1, by omega⟩
    have stops := stops word behind depth starts (by omega)
    obtain ⟨first, others, split, opening, _⟩ := inner.opens rfl
    cases front with
    | nil =>
      obtain ⟨rfl, _⟩ := List.cons.inj (split.symm.trans same)
      rw [ends] at opening
      cases opening
    | cons token front =>
      obtain ⟨rfl, _⟩ := List.cons.inj (split.symm.trans same)
      exact breaksOff_plainDeclaration opening stops

end Lacking

/-- A token list that is read as one simple statement, which ends with its semicolon; without that
an expectation is unmet. -/
structure SimpleStatement (tokens : List Token) (firstId : Nat) (expectation : Expectation) :
    Prop where
  unended : ∀ token ∈ tokens, token.kind ≠ .eof
  accepted : (parse tokens firstId).errors = []
  single : ∃ tree, (parse tokens firstId).statements = [tree] ∧ tree.unmet? = some expectation

/-- What is still read of a token list that is refused at its first token. -/
def resumed (tokens : List Token) : List Token :=
  resumption (tokens.takeWhile (·.kind ≠ .eof)) ++ [Cursor.endOf tokens]

namespace SimpleStatement

variable {tokens : List Token} {firstId : Nat} {expectation : Expectation}
  (simple : SimpleStatement tokens firstId expectation)
include simple

/-- A simple statement is read as one declaration that ends with a semicolon. -/
theorem reads : ∃ tree, tree.unmet? = some expectation ∧
    StmtReads (.declaration tree) ⟨tokens, firstId⟩ ⟨[], (parse tokens firstId).nextId⟩ := by
  obtain ⟨tree, single, lacks⟩ := simple.single
  have reads := parse_reads simple.accepted
  rw [single, show Place.ofTokens tokens firstId = ⟨tokens, firstId⟩ from
    congrArg (Place.mk · _) (Cursor.start_remaining simple.unended firstId)] at reads
  cases reads with
  | programMore head more =>
    cases more
    exact ⟨tree, lacks, head⟩

/-- A simple statement does not go on with the branch of an earlier one. -/
theorem noElse {front : List Token} {semicolon : Token} (same : tokens = front ++ [semicolon])
    (ends : semicolon.kind = .symbol .semicolon) :
    ∃ first others, front = first :: others ∧ first.kind ≠ .keyword .elseWord := by
  obtain ⟨tree, _, reads⟩ := simple.reads
  obtain ⟨first, others, split, opening, _⟩ := reads.opens rfl
  have joined : front ++ [semicolon] = first :: others := same.symm.trans split
  cases front with
  | nil =>
    obtain ⟨rfl, _⟩ := List.cons.inj joined
    rw [ends] at opening
    cases opening
  | cons token front =>
    obtain ⟨rfl, _⟩ := List.cons.inj joined
    refine ⟨token, front, rfl, fun other => ?_⟩
    rw [other] at opening
    cases opening

end SimpleStatement

namespace Parse

/-- Behind a refusal at a word that starts a statement, reading resumes behind the word. -/
theorem program_past_stop {expectation : Expectation} {front behind : List Token}
    {word marker : Token} {firstId nextId depth : Nat} (ended : marker.kind = .eof)
    (stops : BreaksOff (declaration depth) ⟨front ++ word :: behind, firstId⟩ expectation
      ⟨word :: behind, nextId⟩) :
    program (depth + 1) ⟨front ++ word :: behind, marker, firstId, []⟩ =
      program depth ⟨resumption (word :: behind), marker, nextId,
        [⟨word, .expected expectation⟩]⟩ := by
  have recovered : recovering (declaration depth) ⟨front ++ word :: behind, marker, firstId, []⟩ =
      (none, ⟨resumption (word :: behind), marker, nextId, [⟨word, .expected expectation⟩]⟩) := by
    have regular : (Cursor.mk (front ++ word :: behind) marker firstId []).Regular := ended
    rw [recovering, stops _ regular rfl]
    rfl
  have further : (Cursor.mk (front ++ word :: behind) marker firstId []).isAtEnd = false := by
    cases front <;> rfl
  rw [program_inside further, recovered]
  rfl

/-- Behind a program that has a reading, a declaration is refused at a word that starts a
statement, and reading resumes behind the word. -/
theorem program_around_stop {trees : List Stmt} {expectation : Expectation}
    {before front behind : List Token} {word marker : Token} {firstId nextId depth : Nat}
    {place : Place} (reads : StmtReads (.program trees) ⟨before, firstId⟩ place)
    (noElse : (front ++ word :: behind).head?.map Token.kind ≠ some (.keyword .elseWord))
    (stops : ∀ depth, 16 * front.length + 11 ≤ depth →
      BreaksOff (declaration depth) ⟨front ++ word :: behind, place.nextId⟩ expectation
        ⟨word :: behind, nextId⟩)
    (ended : marker.kind = .eof)
    (room : 16 * (before ++ (front ++ word :: behind)).length + 12 ≤ depth) :
    ∃ left, 16 * (word :: behind).length + 11 ≤ left ∧
      program depth ⟨before ++ (front ++ word :: behind), marker, firstId, []⟩ =
        (trees ++ (program left ⟨resumption (word :: behind), marker, nextId,
            [⟨word, .expected expectation⟩]⟩).1,
          (program left ⟨resumption (word :: behind), marker, nextId,
            [⟨word, .expected expectation⟩]⟩).2) := by
  have start : (Cursor.mk (before ++ (front ++ word :: behind)) marker firstId []).Regular := ended
  obtain ⟨left, enough, read⟩ := program_behind reads noElse start rfl room
  rw [List.length_append] at enough
  obtain ⟨left, rfl⟩ : ∃ smaller, left = smaller + 1 := ⟨left - 1, by omega⟩
  have stopped := program_past_stop ended (stops left (by
    rw [List.length_cons] at enough
    omega))
  refine ⟨left, by omega, ?_⟩
  rw [read, Cursor.moveTo, stopped]

end Parse

/-- What is read again is read up to the end marker of the whole list. -/
theorem start_resumed (behind : List Token) (nextId : Nat) :
    Cursor.start (resumed behind) nextId =
      ⟨resumption (Cursor.start behind nextId).remaining, Cursor.endOf behind, nextId, []⟩ := by
  refine start_of_marker (fun token member => ?_) (Cursor.start_regular behind nextId) nextId
  have early := List.mem_takeWhile_imp ((resumption_suffix _).mem member)
  simpa using early

/-- Behind a violation, reading goes on as if the list began where it resumes. -/
theorem Parse.program_resumed {behind : List Token} {nextId depth : Nat}
    (further : (Cursor.start behind nextId).remaining ≠ [])
    (room : 16 * (Cursor.start behind nextId).remaining.length + 11 ≤ depth)
    (errors : List ParseError) :
    ∃ final, program depth ⟨resumption (Cursor.start behind nextId).remaining,
          Cursor.endOf behind, nextId, errors⟩ =
        ((parse (resumed behind) nextId).statements, final) ∧
      final.reported = errors ++ (parse (resumed behind) nextId).errors ∧
      final.nextId = (parse (resumed behind) nextId).nextId := by
  have resumes := start_resumed behind nextId
  have shorter := resumption_length_lt further
  have alone := @program_alone (resumed behind) (Cursor.endOf behind) nextId depth
    fun _ => congrArg Cursor.endMarker resumes.symm
  rw [resumes] at alone
  exact alone (show 16 * (resumption (Cursor.start behind nextId).remaining).length + 12 ≤ depth by
    omega) errors

/-- A simple statement whose semicolon is missing is refused at the word behind it. That word is
dropped, and what is left behind it is read as if it stood alone. -/
theorem parse_unterminated (before statement behind : List Token) (word : Token) (firstId : Nat)
    (expectation : Expectation) (clean : (parse before firstId).errors = [])
    (unended : ∀ token ∈ before, token.kind ≠ .eof)
    (simple : SimpleStatement statement (parse before firstId).nextId expectation)
    (starts : word.kind.startsStatement = true) :
    let first := parse before firstId
    let middle := parse statement first.nextId
    let last := parse (resumed (word :: behind)) middle.nextId
    parse (before ++ statement.dropLast ++ word :: behind) firstId =
      { statements := first.statements ++ last.statements
        errors := ⟨word, .expected expectation⟩ :: last.errors
        nextId := last.nextId } := by
  intro first middle last
  obtain ⟨tree, lacks, alone⟩ := simple.reads
  obtain ⟨front, semicolon, same, ends, stops⟩ := alone.declaration_lacks lacks
  obtain rfl : statement = front ++ [semicolon] := same
  obtain ⟨token, others, split, noElse⟩ := simple.noElse rfl ends
  have early : ∀ token ∈ before ++ front, token.kind ≠ .eof := fun token member =>
    (List.mem_append.mp member).elim (unended token)
      fun inside => simple.unended token (List.mem_append_left _ inside)
  have further : word.kind ≠ .eof := by
    intro ended
    rw [ended] at starts
    cases starts
  have whole : (Cursor.start (word :: behind) middle.nextId).remaining =
      word :: (Cursor.start behind middle.nextId).remaining := by
    simp [Cursor.start, further]
  have start : Cursor.start (before ++ front ++ word :: behind) firstId =
      ⟨before ++ (front ++ (Cursor.start (word :: behind) middle.nextId).remaining),
        Cursor.endOf (word :: behind), firstId, []⟩ := by
    rw [← List.append_assoc, ← Cursor.endOf_append early (List.cons_ne_nil word behind)]
    exact congrArg (Cursor.mk · _ _ _) (Cursor.start_remaining_append early firstId)
  have room := depth_suffices (before ++ front ++ word :: behind) firstId
  have ended : (Cursor.endOf (word :: behind)).kind = .eof :=
    Cursor.start_regular (word :: behind) firstId
  -- Behind `before` the statement is refused at the word, and there is fuel left for what follows.
  have reads := parse_reads clean
  rw [show Place.ofTokens before firstId = ⟨before, firstId⟩ from
    congrArg (Place.mk · _) (Cursor.start_remaining unended firstId)] at reads
  rw [start, whole] at room
  obtain ⟨left, enough, read⟩ := Parse.program_around_stop reads (by simp [split, noElse])
    (fun depth more => stops word _ depth starts more) ended room
  rw [← whole] at enough read
  -- From where recovery stops, the rest is read as a list of its own.
  obtain ⟨final, rest, reported, nextId⟩ := Parse.program_resumed
    (whole ▸ List.cons_ne_nil _ _) enough [⟨word, .expected expectation⟩]
  rw [List.dropLast_concat]
  conv => lhs; unfold parse
  rw [start, read, rest]
  simp only [reported, nextId]
  rfl

/-- In `print a fun f() { print b; }` the function is lost. Its body is read as if it stood alone,
and its closing brace is refused, too. -/
theorem parse_unterminated_function :
    parse ([] ++ ([⟨.keyword .printWord, "print", 1⟩, ⟨.identifier, "a", 1⟩,
        ⟨.symbol .semicolon, ";", 1⟩] : List Token).dropLast ++
      ⟨.keyword .funWord, "fun", 1⟩ :: [⟨.identifier, "f", 1⟩, ⟨.symbol .leftParen, "(", 1⟩,
        ⟨.symbol .rightParen, ")", 1⟩, ⟨.symbol .leftBrace, "\x7b", 1⟩,
        ⟨.keyword .printWord, "print", 1⟩, ⟨.identifier, "b", 1⟩, ⟨.symbol .semicolon, ";", 1⟩,
        ⟨.symbol .rightBrace, "\x7d", 1⟩]) 0 =
      { statements := [.print ⟨.keyword .printWord, "print", 1⟩
          (.reference 1 ⟨.identifier, "b", 1⟩)]
        errors := [⟨⟨.keyword .funWord, "fun", 1⟩, .expected .printEnd⟩,
          ⟨⟨.symbol .rightBrace, "\x7d", 1⟩, .expected .expression⟩]
        nextId := 2 } := by
  have simple : SimpleStatement [⟨.keyword .printWord, "print", 1⟩, ⟨.identifier, "a", 1⟩,
      ⟨.symbol .semicolon, ";", 1⟩] 0 .printEnd :=
    { unended := by simp
      accepted := rfl
      single := ⟨_, rfl, rfl⟩ }
  exact (parse_unterminated [] _ _ _ 0 _ rfl (by simp) simple rfl).trans rfl

/-- A missing semicolon should cost one violation, at the token behind it, and the statement. -/
def CostsOneStatement (before statement behind : List Token) (firstId : Nat) : Prop :=
  let first := parse before firstId
  let middle := parse statement first.nextId
  let last := parse behind middle.nextId
  let whole := parse (before ++ statement.dropLast ++ behind) firstId
  whole.statements = first.statements ++ last.statements ∧
    ∃ error, whole.errors = [error] ∧ behind.head? = some error.token

/-- In front of a function it costs the function as well. -/
theorem parse_unterminated_costs_more :
    ¬ ∀ (before statement behind : List Token) (firstId : Nat) (expectation : Expectation),
      (∀ token ∈ before ++ behind, token.kind ≠ .eof) →
      (parse (before ++ statement ++ behind) firstId).errors = [] →
      (parse before firstId).errors = [] →
      SimpleStatement statement (parse before firstId).nextId expectation →
      (parse behind (parse statement (parse before firstId).nextId).nextId).errors = [] →
      (∃ word rest, behind = word :: rest ∧ word.kind.startsStatement = true) →
      CostsOneStatement before statement behind firstId := by
  intro claimed
  have simple : SimpleStatement [⟨.keyword .printWord, "print", 1⟩, ⟨.identifier, "a", 1⟩,
      ⟨.symbol .semicolon, ";", 1⟩] 0 .printEnd :=
    { unended := by simp
      accepted := rfl
      single := ⟨_, rfl, rfl⟩ }
  have costs := claimed [] _ [⟨.keyword .funWord, "fun", 1⟩, ⟨.identifier, "f", 1⟩,
    ⟨.symbol .leftParen, "(", 1⟩, ⟨.symbol .rightParen, ")", 1⟩, ⟨.symbol .leftBrace, "\x7b", 1⟩,
    ⟨.keyword .printWord, "print", 1⟩, ⟨.identifier, "b", 1⟩, ⟨.symbol .semicolon, ";", 1⟩,
    ⟨.symbol .rightBrace, "\x7d", 1⟩] 0 _ (by simp) rfl rfl simple rfl ⟨_, _, rfl, rfl⟩
  obtain ⟨same, _⟩ := costs
  cases same

end LoxLang
