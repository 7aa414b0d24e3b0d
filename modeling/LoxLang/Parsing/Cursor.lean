import LoxLang.Parsing.Fault

/-!
# Reading along a token list

A `Cursor` is a place in a token list together with what the parser has to remember: the next unused
identity and the violations reported so far. A `Parse` either reads a result or refuses with a
violation; in both cases it leaves a cursor behind, so a caller can resume there.
-/

namespace LoxLang

/-- A place in a token list; `remaining` ends before the end marker. -/
structure Cursor where
  remaining : List Token
  endMarker : Token
  nextId : Nat
  reported : List ParseError
deriving DecidableEq, Repr

namespace Cursor

/-- The end of a token list is its first end marker; a list without one ends on the line of its last
token, or on the first line if it is empty. -/
def endOf (tokens : List Token) : Token :=
  match tokens.find? (·.kind = .eof) with
  | some marker => marker
  | none => { kind := .eof, lexeme := "", line := (tokens.getLast?.map Token.line).getD 1 }

/-- The start of a token list. -/
def start (tokens : List Token) (firstId : Nat) : Cursor :=
  { remaining := tokens.takeWhile (·.kind ≠ .eof)
    endMarker := endOf tokens
    nextId := firstId
    reported := [] }

/-- The token at the cursor, the end marker behind the last one. -/
def current (cursor : Cursor) : Token :=
  cursor.remaining.headD cursor.endMarker

/-- Whether the cursor has passed the last token. -/
def isAtEnd (cursor : Cursor) : Bool :=
  cursor.remaining.isEmpty

/-- Whether a token of this kind stands at the cursor. -/
def check (cursor : Cursor) (kind : Kind) : Bool :=
  cursor.remaining.head?.any (·.kind = kind)

/-- The cursor one token further. -/
def advance (cursor : Cursor) : Cursor :=
  { cursor with remaining := cursor.remaining.tail }

/-- The cursor with one more violation reported. -/
def report (cursor : Cursor) (error : ParseError) : Cursor :=
  { cursor with reported := cursor.reported ++ [error] }

end Cursor

/-- How a reading step ends. -/
inductive Parsed (α : Type) where
  | read (result : α) (cursor : Cursor)
  | refused (error : ParseError) (cursor : Cursor)

/-- A reading step. -/
def Parse (α : Type) : Type :=
  Cursor → Parsed α

namespace Parse

variable {α β : Type}

/-- Read nothing. -/
@[always_inline, inline]
protected def pure (result : α) : Parse α :=
  fun cursor => .read result cursor

/-- Go on behind a step unless it refuses. -/
@[always_inline, inline]
protected def bind (first : Parse α) (next : α → Parse β) : Parse β :=
  fun cursor =>
    match first cursor with
    | .read result after => next result after
    | .refused error after => .refused error after

instance : Monad Parse where
  pure := Parse.pure
  bind := Parse.bind

/-- The token at the cursor. -/
def current : Parse Token :=
  fun cursor => .read cursor.current cursor

/-- Whether the cursor has passed the last token. -/
def isAtEnd : Parse Bool :=
  fun cursor => .read cursor.isAtEnd cursor

/-- Whether a token of this kind stands at the cursor. -/
def check (kind : Kind) : Parse Bool :=
  fun cursor => .read (cursor.check kind) cursor

/-- Step over one token. -/
def advance : Parse Unit :=
  fun cursor => .read () cursor.advance

/-- Report a violation and go on. -/
def report (error : ParseError) : Parse Unit :=
  fun cursor => .read () (cursor.report error)

/-- Refuse the token at the cursor. -/
def refuse (expectation : Expectation) : Parse α :=
  fun cursor => .refused { token := cursor.current, fault := .expected expectation } cursor

/-- Step over the token at the cursor if it is of this kind. -/
def accept? (kind : Kind) : Parse (Option Token) :=
  fun cursor =>
    if cursor.check kind then .read (some cursor.current) cursor.advance else .read none cursor

/-- Step over the token at the cursor if it is of this kind, and refuse any other. -/
def expect (kind : Kind) (expectation : Expectation) : Parse Token :=
  fun cursor =>
    if cursor.check kind then .read cursor.current cursor.advance else refuse expectation cursor

/-- Hand out the next identity. -/
def freshId : Parse Nat :=
  fun cursor => .read cursor.nextId { cursor with nextId := cursor.nextId + 1 }

/-- A step that never refuses. -/
def always (step : Cursor → α × Cursor) : Parse α :=
  fun cursor =>
    let (result, after) := step cursor
    .read result after

end Parse

end LoxLang
