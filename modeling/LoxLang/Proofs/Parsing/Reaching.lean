import LoxLang.Proofs.Parsing.Yields

/-!
# Steps that reach a result

`Parse.Reaches` says that a step reads a result between two places from any cursor, and reports
nothing. There is one rule for each basic step, and one for each step that several readers share.
-/

namespace LoxLang

namespace Cursor

/-- The cursor at another place of its list. -/
def moveTo (cursor : Cursor) (place : Place) : Cursor :=
  { cursor with remaining := place.remaining, nextId := place.nextId }

variable {cursor : Cursor} {place further : Place}

/-- A moved cursor is at the place it was moved to. -/
@[simp] theorem place_moveTo : (cursor.moveTo place).place = place :=
  rfl

/-- Only the last move counts. -/
@[simp] theorem moveTo_moveTo : (cursor.moveTo place).moveTo further = cursor.moveTo further :=
  rfl

/-- A cursor that is moved to its own place stays. -/
@[simp] theorem moveTo_place : cursor.moveTo cursor.place = cursor :=
  rfl

/-- A moved cursor keeps its end marker. -/
theorem Regular.moveTo (regular : cursor.Regular) : (cursor.moveTo place).Regular :=
  regular

end Cursor

namespace Parse

variable {α β : Type}

/-- A step reads this result from one place to another, from any cursor, without a report. -/
def Reaches (step : Parse α) (start : Place) (result : α) (after : Place) : Prop :=
  ∀ cursor : Cursor, cursor.Regular → cursor.place = start →
    step cursor = .read result (cursor.moveTo after)

namespace Reaches

variable {start middle after : Place} {token : Token} {rest : List Token} {nextId : Nat}
  {kind : Kind} {result : α}

/-- A result is returned at once. -/
theorem pure : Reaches (pure result) start result start := by
  rintro cursor _ rfl
  rfl

/-- Steps follow one another. -/
theorem bind {first : Parse α} {next : α → Parse β} {value : α} {result : β}
    (head : Reaches first start value middle) (tail : Reaches (next value) middle result after) :
    Reaches (first >>= next) start result after := by
  rintro cursor regular placed
  rw [bind_apply, head cursor regular placed]
  exact tail _ regular.moveTo rfl

/-- The rule for two steps with the result and the place in between written out. -/
theorem bindTo {first : Parse α} {next : α → Parse β} {result : β} (value : α) (middle : Place)
    (head : Reaches first start value middle) (tail : Reaches (next value) middle result after) :
    Reaches (first >>= next) start result after :=
  bind head tail

/-- The result may be changed on the way out. -/
theorem map {first : Parse α} {change : α → β} {value : α}
    (head : Reaches first start value after) :
    Reaches (change <$> first) start (change value) after :=
  bind head pure

/-- A step that looks at the current token may assume that it stands next. -/
theorem current {next : Token → Parse α}
    (tail : ∀ token, start.Shows token → Reaches (next token) start result after) :
    Reaches (Parse.current >>= next) start result after := by
  rintro cursor regular rfl
  exact tail cursor.current (Cursor.place_shows regular) cursor regular rfl

/-- A step that looks at the current token and goes past it. -/
theorem past {next : Token → Parse α}
    (tail : Reaches (next token) ⟨token :: rest, nextId⟩ result after) :
    Reaches (Parse.current >>= next) ⟨token :: rest, nextId⟩ result after := by
  refine current fun shown shows => ?_
  rcases shows with ⟨rest, same⟩ | ⟨ended, _⟩
  · obtain ⟨rfl, _⟩ := List.cons.inj same
    exact tail
  · cases ended

/-- Moving on goes behind the first token. -/
theorem advance : Reaches advance ⟨token :: rest, nextId⟩ () ⟨rest, nextId⟩ := by
  rintro cursor regular placed
  have tokens : cursor.remaining = token :: rest := congrArg Place.remaining placed
  have ids : cursor.nextId = nextId := congrArg Place.nextId placed
  simp [Parse.advance, Cursor.advance, Cursor.moveTo, tokens, ids]

/-- A kind that stands in front is found. -/
theorem check_true (found : start.next? = some kind) : Reaches (check kind) start true start := by
  rintro cursor regular rfl
  simp [Parse.check, Cursor.check_iff.mpr found]

/-- A kind that does not stand in front is not found. -/
theorem check_false (other : start.next? ≠ some kind) :
    Reaches (check kind) start false start := by
  rintro cursor regular rfl
  have missing : cursor.check kind = false := by
    rwa [← Bool.not_eq_true, Cursor.check_iff]
  simp [Parse.check, missing]

/-- With nothing in front the end is reached. -/
theorem isAtEnd_true (ended : start.next? = none) : Reaches isAtEnd start true start := by
  rintro cursor regular rfl
  simp [Parse.isAtEnd, Cursor.isAtEnd_iff.mpr ended]

/-- With a token in front the end is not reached. -/
theorem isAtEnd_false (further : start.next? ≠ none) : Reaches isAtEnd start false start := by
  rintro cursor regular rfl
  have inside : cursor.isAtEnd = false := by
    rwa [← Bool.not_eq_true, Cursor.isAtEnd_iff]
  simp [Parse.isAtEnd, inside]

/-- An expected token is taken. -/
theorem expect (expectation : Expectation) (shown : token.kind = kind) :
    Reaches (expect kind expectation) ⟨token :: rest, nextId⟩ token ⟨rest, nextId⟩ := by
  rintro cursor regular placed
  have found : cursor.check kind = true := by
    rw [Cursor.check_iff, placed, Place.next?_cons, shown]
  obtain ⟨_, same⟩ := Cursor.place_eq_push found
  obtain ⟨tokens, ids⟩ := Place.mk.inj (placed.symm.trans same)
  obtain ⟨rfl, rfl⟩ := List.cons.inj tokens
  rw [Parse.expect, if_pos found]
  unfold Cursor.moveTo
  rw [ids]
  rfl

/-- A token of the kind is accepted. -/
theorem accept?_some (shown : token.kind = kind) :
    Reaches (accept? kind) ⟨token :: rest, nextId⟩ (some token) ⟨rest, nextId⟩ := by
  rintro cursor regular placed
  have found : cursor.check kind = true := by
    rw [Cursor.check_iff, placed, Place.next?_cons, shown]
  have stepped := expect .expression shown cursor regular placed
  rw [Parse.expect, if_pos found] at stepped
  obtain ⟨same, moved⟩ := Parsed.read.inj stepped
  rw [accept?, if_pos found, same, moved]

/-- Without a token of the kind nothing is accepted. -/
theorem accept?_none (other : start.next? ≠ some kind) :
    Reaches (accept? kind) start none start := by
  rintro cursor regular rfl
  rw [accept?, if_neg (by rwa [Cursor.check_iff])]
  rfl

/-- The next id is issued. -/
theorem freshId :
    Reaches freshId start start.nextId ⟨start.remaining, start.nextId + 1⟩ := by
  rintro cursor regular rfl
  rfl

/-- Where a statement is read there is nothing to recover from. -/
theorem recovering {statement : Parse Stmt} {tree : Stmt}
    (reaches : Reaches statement start tree after) :
    Reaches (always (recovering statement)) start (some tree) after := by
  rintro cursor regular placed
  unfold always Parse.recovering
  rw [reaches cursor regular placed]

/-! ### Steps of the readers -/

section Readers

variable {inner : Readers} {count : Nat} {level : Level}

/-- Where no operator of a level stands, none is accepted. -/
theorem acceptOperator?_none (stop : ∀ kind ∈ level.operators, start.next? ≠ some kind) :
    Reaches (acceptOperator? level) start none start := by
  refine .current fun token shows => ?_
  have other : ¬ level.operators.contains token.kind = true := by
    intro member
    have mark : token.kind ∈ level.operators := by simpa using member
    rcases shows with ⟨rest, same⟩ | ⟨_, ended⟩
    · exact stop _ mark (by simp [Place.next?, same])
    · rw [ended] at mark
      cases level <;> simp [Level.operators] at mark
  rw [if_neg other]
  exact .pure

/-- Either prefix operator is accepted. -/
theorem acceptPrefixOperator?_some {operator : Token} {rest : List Token} {nextId : Nat}
    (mark : operator.kind = .symbol .bang ∨ operator.kind = .symbol .minus) :
    Reaches acceptPrefixOperator? ⟨operator :: rest, nextId⟩ (some operator) ⟨rest, nextId⟩ := by
  rcases mark with bang | minus
  · exact .bind (.accept?_some bang) .pure
  · have other : Place.next? ⟨operator :: rest, nextId⟩ ≠ some (.symbol .bang) := by simp [minus]
    exact .bind (.accept?_none other) (.accept?_some minus)

/-- A semicolon is found. -/
theorem semicolon {token : Token} {rest : List Token} {nextId : Nat} {expectation : Expectation}
    (ends : token.kind = .symbol .semicolon) :
    Reaches (semicolon expectation) ⟨token :: rest, nextId⟩ () ⟨rest, nextId⟩ :=
  .bind (.expect _ ends) .pure

/-- A condition in parentheses is found with its expression. -/
theorem condition {left right : Token} {rest behind : List Token} {nextId laterId : Nat}
    {test : Expr} {opening closing : Expectation} (opens : left.kind = .symbol .leftParen)
    (found : Reaches inner.expression ⟨rest, nextId⟩ test ⟨right :: behind, laterId⟩)
    (closes : right.kind = .symbol .rightParen) :
    Reaches (inner.condition opening closing) ⟨left :: rest, nextId⟩ test ⟨behind, laterId⟩ :=
  .bind (.expect _ opens) (.bind found (.bind (.expect _ closes) .pure))

/-- A parameter with room for it is read without a report. -/
theorem parameterList {names : List Token} (room : count < maxListLength)
    (entry : Reaches (do
      let first ← Parse.expect .identifier .parameterName
      match ← accept? (.symbol .comma) with
      | none => return [first]
      | some _ =>
        if ← check (.symbol .rightParen) then return [first]
        else return first :: (← inner.parameters (count + 1))) start names after) :
    Reaches (inner.parameterList count) start names after := by
  unfold Readers.parameterList
  rw [if_neg (by omega)]
  exact entry

/-- An argument with room for it is read without a report. -/
theorem argumentList {trees : List Expr} (room : count < maxListLength)
    (entry : Reaches (do
      let first ← inner.expression
      match ← accept? (.symbol .comma) with
      | none => return [first]
      | some _ =>
        if ← check (.symbol .rightParen) then return [first]
        else return first :: (← inner.arguments (count + 1))) start trees after) :
    Reaches (inner.argumentList count) start trees after := by
  unfold Readers.argumentList
  rw [if_neg (by omega)]
  exact entry

end Readers

end Reaches

end Parse

end LoxLang
