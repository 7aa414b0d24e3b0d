import LoxLang.Parsing.Statement

/-!
# What a reading step may change

`Cursor.Advances` bounds the effect of every reading step, whether it reads or refuses: it only
moves forward in the same token list, hands out further identities and reports further violations.
-/

namespace LoxLang

namespace Cursor

/-- A later cursor stands further on in the same token list and has reported at least as much. -/
structure Advances (before after : Cursor) : Prop where
  remaining : after.remaining <:+ before.remaining
  endMarker : after.endMarker = before.endMarker
  nextId : before.nextId ≤ after.nextId
  reported : before.reported <+: after.reported

namespace Advances

variable {cursor middle after : Cursor}

/-- A cursor has come as far as it is. -/
theorem refl (cursor : Cursor) : cursor.Advances cursor where
  remaining := List.suffix_refl _
  endMarker := rfl
  nextId := Nat.le_refl _
  reported := List.prefix_refl _

/-- Two moves forward are one. -/
theorem trans (first : cursor.Advances middle) (second : middle.Advances after) :
    cursor.Advances after where
  remaining := second.remaining.trans first.remaining
  endMarker := second.endMarker.trans first.endMarker
  nextId := Nat.le_trans first.nextId second.nextId
  reported := first.reported.trans second.reported

/-- Two steps that together report nothing report nothing each. -/
theorem silent (first : cursor.Advances middle) (second : middle.Advances after)
    (silent : after.reported = cursor.reported) :
    middle.reported = cursor.reported ∧ after.reported = middle.reported := by
  have bounded : middle.reported <+: cursor.reported := silent ▸ second.reported
  have same : middle.reported = cursor.reported :=
    (first.reported.eq_of_length (Nat.le_antisymm first.reported.length_le bounded.length_le)).symm
  exact ⟨same, silent.trans same.symm⟩

/-- Moving on is a move forward. -/
theorem advance (cursor : Cursor) : cursor.Advances cursor.advance :=
  { refl cursor with remaining := List.tail_suffix _ }

/-- A report stays where the cursor is. -/
theorem report (cursor : Cursor) (error : ParseError) : cursor.Advances (cursor.report error) :=
  { refl cursor with reported := List.prefix_append _ _ }

end Advances

end Cursor

/-- The cursor that a reading step leaves behind. -/
def Parsed.cursor {α : Type} : Parsed α → Cursor
  | .read _ after => after
  | .refused _ after => after

/-- What is left where reading resumes is the end of what was left. -/
theorem resumption_suffix (tokens : List Token) : resumption tokens <:+ tokens := by
  fun_induction resumption tokens with
  | case1 => exact List.suffix_refl _
  | case2 dropped rest _ => exact List.suffix_cons dropped rest
  | case3 dropped _ => exact List.nil_suffix
  | case4 dropped _ next rest _ => exact List.suffix_cons dropped (next :: rest)
  | case5 dropped _ next rest _ inductionHypothesis =>
    exact inductionHypothesis.trans (List.suffix_cons dropped (next :: rest))

namespace Parse

variable {α β : Type}

/-- A step goes on from the result and the cursor that its first part leaves. -/
theorem bind_apply (first : Parse α) (next : α → Parse β) (cursor : Cursor) :
    (first >>= next) cursor =
      match first cursor with
      | .read result after => next result after
      | .refused error after => .refused error after :=
  rfl

/-- A reading step that only moves forward, whichever way it ends. -/
def Advancing (step : Parse α) : Prop :=
  ∀ cursor : Cursor, cursor.Advances (step cursor).cursor

namespace Advancing

/-- Returning moves nothing. -/
theorem pure (result : α) : Advancing (pure result) :=
  fun cursor => .refl cursor

/-- Steps that go forward go forward one behind the other. -/
theorem bind {first : Parse α} {next : α → Parse β} (before : Advancing first)
    (behind : ∀ result, Advancing (next result)) : Advancing (first >>= next) := by
  intro cursor
  have moved := before cursor
  rw [bind_apply]
  cases ending : first cursor with
  | read result after =>
    rw [ending] at moved
    exact moved.trans (behind result after)
  | refused error after =>
    rw [ending] at moved
    exact moved

/-- A look at the current token stays. -/
theorem current : Advancing current :=
  fun cursor => .refl cursor

/-- The test for the end stays. -/
theorem isAtEnd : Advancing isAtEnd :=
  fun cursor => .refl cursor

/-- A look for a kind stays. -/
theorem check (kind : Kind) : Advancing (check kind) :=
  fun cursor => .refl cursor

/-- Moving on goes forward. -/
theorem advance : Advancing advance :=
  fun cursor => .advance cursor

/-- A report stays where the cursor is. -/
theorem report (error : ParseError) : Advancing (report error) :=
  fun cursor => .report cursor error

/-- A refusal stays where the cursor is. -/
theorem refuse (expectation : Expectation) : Advancing (refuse expectation : Parse α) :=
  fun cursor => .refl cursor

/-- Accepting a token goes forward. -/
theorem accept? (kind : Kind) : Advancing (accept? kind) := by
  intro cursor
  unfold Parse.accept?
  split
  · exact .advance cursor
  · exact .refl cursor

/-- Expecting a token goes forward. -/
theorem expect (kind : Kind) (expectation : Expectation) : Advancing (expect kind expectation) := by
  intro cursor
  unfold Parse.expect
  split
  · exact .advance cursor
  · exact .refl cursor

/-- Issuing an id raises the next one. -/
theorem freshId : Advancing freshId :=
  fun cursor => { Cursor.Advances.refl cursor with nextId := Nat.le_succ _ }

/-- A step that recovers moves on behind what it gives up. -/
theorem recovering {statement : Parse Stmt} (moves : Advancing statement) :
    Advancing (always (recovering statement)) := by
  intro cursor
  have moved := moves cursor
  unfold always Parse.recovering
  cases ending : statement cursor with
  | read result after =>
    rw [ending] at moved
    exact moved
  | refused error after =>
    rw [ending] at moved
    exact
      { remaining := (resumption_suffix _).trans moved.remaining
        endMarker := moved.endMarker
        nextId := moved.nextId
        reported := moved.reported.trans (List.prefix_append _ _) }

end Advancing

/-- At the end of the tokens a program ends. -/
theorem declarations_ended (inner : Readers) {cursor : Cursor} (ended : cursor.isAtEnd = true) :
    inner.declarations cursor = .read [] cursor := by
  change (if cursor.isAtEnd = true then _ else _ : Parse (List Stmt)) cursor = _
  rw [ended]
  rfl

/-- Before the end of the tokens a program goes on with a declaration. -/
theorem declarations_further (inner : Readers) {cursor : Cursor}
    (further : cursor.isAtEnd = false) :
    inner.declarations cursor = (do
      let first ← always (recovering inner.declaration)
      let rest ← inner.program
      return first.toList ++ rest) cursor := by
  change (if cursor.isAtEnd = true then _ else _ : Parse (List Stmt)) cursor = _
  rw [further]
  rfl

/-- No program is refused, whatever the depth bound. -/
theorem always_program (depth : Nat) : always (program depth) = (readers depth).program := by
  suffices read : ∀ cursor, ∃ statements after,
      (readers depth).program cursor = .read statements after by
    funext cursor
    obtain ⟨statements, after, ended⟩ := read cursor
    simp only [always, program, ended]
  induction depth with
  | zero => exact fun cursor => ⟨[], cursor, rfl⟩
  | succ depth inductionHypothesis =>
    intro cursor
    rw [readers_succ]
    cases ended : cursor.isAtEnd with
    | true => exact ⟨[], cursor, declarations_ended _ ended⟩
    | false =>
      obtain ⟨rest, after, read⟩ :=
        inductionHypothesis (recovering (readers depth).declaration cursor).2
      refine ⟨(recovering (readers depth).declaration cursor).1.toList ++ rest, after, ?_⟩
      refine (declarations_further _ ended).trans ?_
      simp only [bind_apply, always, read]
      rfl

/-- At the end of the tokens nothing is read of a program. -/
theorem program_ended {cursor : Cursor} (ended : cursor.isAtEnd = true) (depth : Nat) :
    program depth cursor = ([], cursor) := by
  cases depth with
  | zero => rfl
  | succ depth =>
    have read : (readers (depth + 1)).program cursor = .read [] cursor :=
      declarations_ended _ ended
    rw [program, read]

/-- A program goes on behind its first declaration. -/
theorem program_inside {cursor : Cursor} (further : cursor.isAtEnd = false) (depth : Nat) :
    program (depth + 1) cursor =
      ((recovering (declaration depth) cursor).1.toList ++
          (program depth (recovering (declaration depth) cursor).2).1,
        (program depth (recovering (declaration depth) cursor).2).2) := by
  have read : (readers (depth + 1)).program cursor = _ :=
    declarations_further (readers depth) further
  rw [← always_program depth] at read
  rw [program, read]
  rfl

end Parse

end LoxLang
