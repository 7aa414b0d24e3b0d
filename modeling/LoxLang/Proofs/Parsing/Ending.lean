import Mathlib.Data.List.TakeWhile
import LoxLang.Proofs.Parsing.Confinement

/-!
# Reading ends at the first end marker

The tokens that are read form a vector that ends with an end marker. A cursor stands at an index of
it, at most at the first end marker, and every look of the parser goes to such an index. Reading
ends after finitely many looks, at the first end marker and without a use of what stands behind it
(`parse_ends`). The depth bound has no part in this: readers below it are never called.
-/

namespace LoxLang

open Parse

/-- The token vector that is read: a list that does not end with an end marker gets one, on the line
of its last token. -/
def marked (tokens : List Token) : List Token :=
  match tokens.getLast? with
  | none => [{ kind := .eof, lexeme := "", line := 1 }]
  | some last =>
    if last.kind = .eof then tokens
    else tokens ++ [{ kind := .eof, lexeme := "", line := last.line }]

/-- The index of the first end marker. -/
def markerIndex (tokens : List Token) : Nat :=
  (marked tokens).findIdx (·.kind = .eof)

/-- A token list without what stands behind its first end marker. -/
def upToMarker (tokens : List Token) : List Token :=
  tokens.take (tokens.findIdx (·.kind = .eof) + 1)

namespace Cursor

/-- Where a cursor stands in the token vector. -/
def index (tokens : List Token) (cursor : Cursor) : Nat :=
  markerIndex tokens - cursor.remaining.length

/-- A cursor stands in the token vector, at most at the first end marker; the token that it shows
stands there, and the one before is in the vector, too. -/
structure Inside (tokens : List Token) (cursor : Cursor) : Prop where
  bounded : cursor.remaining.length ≤ markerIndex tokens
  shown : (marked tokens)[cursor.index tokens]? = some cursor.current
  previous : cursor.index tokens - 1 < (marked tokens).length
  atMarker : cursor.isAtEnd = true ↔ cursor.current.kind = .eof

end Cursor

/-- A token list has no end marker, or a first one. -/
theorem unended_or_marker (tokens : List Token) :
    (∀ token ∈ tokens, token.kind ≠ .eof) ∨
      ∃ before marker behind, (∀ token ∈ before, token.kind ≠ .eof) ∧ marker.kind = .eof ∧
        tokens = before ++ marker :: behind := by
  cases found : tokens.find? (·.kind = .eof) with
  | none =>
    rw [List.find?_eq_none] at found
    exact .inl fun token member => by simpa using found token member
  | some marker =>
    rw [List.find?_eq_some_iff_append] at found
    obtain ⟨ends, before, behind, split, early⟩ := found
    refine .inr ⟨before, marker, behind, fun token member => ?_, by simpa using ends, split⟩
    simpa using early token member

section Marker

variable {before behind : List Token} {marker : Token}
  (early : ∀ token ∈ before, token.kind ≠ .eof) (ends : marker.kind = .eof)
include early ends

/-- A fresh cursor has the tokens before the first end marker in front of it. -/
theorem start_of_marker (firstId : Nat) :
    Cursor.start (before ++ marker :: behind) firstId = ⟨before, marker, firstId, []⟩ := by
  have remaining : (Cursor.start (before ++ marker :: behind) firstId).remaining = before := by
    rw [Cursor.start_remaining_append early]
    simp [Cursor.start, ends]
  have last : Cursor.endOf (before ++ marker :: behind) = marker := by
    rw [Cursor.endOf_append early (List.cons_ne_nil _ _)]
    simp [Cursor.endOf, ends]
  have parts : Cursor.start (before ++ marker :: behind) firstId =
      ⟨(Cursor.start (before ++ marker :: behind) firstId).remaining,
        Cursor.endOf (before ++ marker :: behind), firstId, []⟩ := rfl
  rw [parts, remaining, last]

/-- The first end marker stands behind the tokens before it. -/
theorem findIdx_of_marker :
    (before ++ marker :: behind).findIdx (·.kind = .eof) = before.length := by
  have absent : before.findIdx (·.kind = .eof) = before.length :=
    List.findIdx_eq_length.mpr fun token member => by simpa using early token member
  rw [List.findIdx_append, absent, if_neg (Nat.lt_irrefl _), List.findIdx_cons]
  simp [ends]

end Marker

/-- The token vector of a list without an end marker. -/
theorem marked_of_unended {tokens : List Token} (unended : ∀ token ∈ tokens, token.kind ≠ .eof) :
    marked tokens = tokens ++ [Cursor.endOf tokens] := by
  have none : tokens.find? (·.kind = .eof) = none :=
    List.find?_eq_none.mpr fun token member => by simpa using unended token member
  unfold marked Cursor.endOf
  rw [none]
  cases last : tokens.getLast? with
  | none =>
    rw [List.getLast?_eq_none_iff] at last
    simp [last]
  | some token => simp [unended token (List.mem_of_getLast? last)]

/-- The token vector is what remains at the start, the end marker, and what is never read. -/
theorem marked_eq (tokens : List Token) (firstId : Nat) :
    ∃ unread, marked tokens = (Cursor.start tokens firstId).remaining ++
      (Cursor.start tokens firstId).endMarker :: unread := by
  rcases unended_or_marker tokens with unended | ⟨before, marker, behind, early, ends, rfl⟩
  · refine ⟨[], ?_⟩
    rw [marked_of_unended unended, Cursor.start_remaining unended]
    rfl
  · rw [start_of_marker early ends]
    unfold marked
    split
    case h_1 none => simp at none
    case h_2 last _ =>
      split
      · exact ⟨behind, rfl⟩
      · exact ⟨behind ++ [_], List.append_assoc _ _ _⟩

/-- The index of the end marker is the number of tokens to be read. -/
theorem markerIndex_eq (tokens : List Token) (firstId : Nat) :
    markerIndex tokens = (Cursor.start tokens firstId).remaining.length := by
  obtain ⟨unread, split⟩ := marked_eq tokens firstId
  rw [markerIndex, split]
  refine findIdx_of_marker ?_ (Cursor.start_regular tokens firstId)
  exact fun token member => by simpa using List.mem_takeWhile_imp member

/-- What stands behind the first end marker makes no difference at the start. -/
theorem start_upToMarker (tokens : List Token) (firstId : Nat) :
    Cursor.start (upToMarker tokens) firstId = Cursor.start tokens firstId := by
  unfold upToMarker
  rcases unended_or_marker tokens with unended | ⟨before, marker, behind, early, ends, rfl⟩
  · have none : tokens.findIdx (·.kind = .eof) = tokens.length :=
      List.findIdx_eq_length.mpr fun token member => by simpa using unended token member
    rw [none, List.take_of_length_le (Nat.le_succ _)]
  · have cut : (before ++ marker :: behind).take (before.length + 1) = before ++ [marker] := by
      rw [List.take_length_add_append, List.take_succ_cons, List.take_zero]
    rw [findIdx_of_marker early ends, cut, start_of_marker early ends, start_of_marker early ends]

section Places

variable {tokens : List Token} {firstId : Nat} {cursor : Cursor}
  (moved : (Cursor.start tokens firstId).Advances cursor)
include moved

/-- Ahead of the start every cursor stands in the token vector. -/
theorem inside_of_advances : cursor.Inside tokens := by
  obtain ⟨unread, split⟩ := marked_eq tokens firstId
  have marker := moved.endMarker
  have regular : cursor.Regular := moved.regular (Cursor.start_regular tokens firstId)
  obtain ⟨passed, parts⟩ := moved.remaining
  have counted := markerIndex_eq tokens firstId
  rw [← parts, List.length_append] at counted
  have place : cursor.index tokens = passed.length := by
    rw [Cursor.index]
    omega
  rw [← parts, ← marker, List.append_assoc] at split
  refine ⟨by omega, ?_, ?_, ?_⟩
  · rw [place, split, List.getElem?_append_right (Nat.le_refl _), Nat.sub_self]
    unfold Cursor.current
    cases cursor.remaining <;> rfl
  · rw [place, split, List.length_append, List.length_append, List.length_cons]
    omega
  · have early : ∀ token ∈ cursor.remaining, token.kind ≠ .eof := fun token member => by
      simpa using List.mem_takeWhile_imp (moved.remaining.mem member)
    unfold Cursor.isAtEnd Cursor.current
    cases remaining : cursor.remaining with
    | nil => exact iff_of_true rfl regular
    | cons token rest =>
      exact iff_of_false Bool.false_ne_true (early token (by simp [remaining]))

/-- A declaration moves strictly forward unless the tokens have ended, whether or not it can be
read. -/
theorem declaration_forward {depth : Nat} (further : cursor.isAtEnd = false)
    (room : 16 * cursor.remaining.length + 11 ≤ depth) :
    cursor.index tokens < (recovering (declaration depth) cursor).2.index tokens := by
  have regular := moved.regular (Cursor.start_regular tokens firstId)
  obtain ⟨_, shorter⟩ := recovering_advances regular room further
  have bounded := (inside_of_advances moved).bounded
  rw [Cursor.index, Cursor.index]
  omega

end Places

section Start

variable (tokens : List Token) (firstId : Nat)

/-- The depth bound suffices for all tokens. -/
theorem depth_suffices :
    16 * (Cursor.start tokens firstId).remaining.length + 12 ≤ parseDepth tokens.length := by
  have fewer : (Cursor.start tokens firstId).remaining.length ≤ tokens.length :=
    (List.takeWhile_prefix _).length_le
  rw [parseDepth]
  omega

/-- Whatever the readers below the bound do, the parser looks only at tokens of the list. -/
theorem program_bounded_runs (below : Readers) :
    Runs (Cursor.Inside tokens) (below.bounded (parseDepth tokens.length)).program
      (Cursor.start tokens firstId) := by
  have confined := (bounded_confine ⟨[], (Cursor.start tokens firstId).endMarker, []⟩ below below
    (parseDepth tokens.length)).program _ (Cursor.start_regular tokens firstId)
    (depth_suffices tokens firstId)
  exact confined.runs.mono fun later moved => inside_of_advances moved

/-- The readers below the bound are never asked. -/
theorem program_bounded_eq (below : Readers) :
    (below.bounded (parseDepth tokens.length)).program (Cursor.start tokens firstId) =
      always (program (parseDepth tokens.length)) (Cursor.start tokens firstId) := by
  have confined := (bounded_confine ⟨[], (Cursor.start tokens firstId).endMarker, []⟩ (readers 0)
    below (parseDepth tokens.length)).program _ (Cursor.start_regular tokens firstId)
    (depth_suffices tokens firstId)
  rw [← readers_add] at confined
  rw [always_program]
  exact confined.eq

/-- The parser stops at the first end marker. -/
theorem program_index :
    (program (parseDepth tokens.length) (Cursor.start tokens firstId)).2.index tokens =
      markerIndex tokens := by
  rw [Cursor.index, program_remaining (Cursor.start_regular tokens firstId)
    (depth_suffices tokens firstId)]
  rfl

/-- What stands behind the first end marker is not read. -/
theorem parse_upToMarker : parse (upToMarker tokens) firstId = parse tokens firstId := by
  have start := start_upToMarker tokens firstId
  have fewer : parseDepth (upToMarker tokens).length ≤ parseDepth tokens.length := by
    have shorter : (upToMarker tokens).length ≤ tokens.length := List.length_take_le' _ _
    rw [parseDepth, parseDepth]
    omega
  have room := depth_suffices (upToMarker tokens) firstId
  rw [start] at room
  have same := (program_confines ⟨[], (Cursor.start tokens firstId).endMarker, []⟩ fewer _
    (Cursor.start_regular tokens firstId) room).eq
  unfold parse
  rw [start, always_inj same]

end Start

/-- Reading ends. It is made of finitely many looks inside the token vector, whatever readers stand
below the depth bound. Every declaration leads strictly forward unless the tokens have ended. The
end is at the first end marker, and what stands behind that makes no difference. -/
theorem parse_ends (tokens : List Token) (firstId : Nat) :
    (∀ below : Readers,
      Runs (Cursor.Inside tokens) (below.bounded (parseDepth tokens.length)).program
        (Cursor.start tokens firstId) ∧
      (below.bounded (parseDepth tokens.length)).program (Cursor.start tokens firstId) =
        always (program (parseDepth tokens.length)) (Cursor.start tokens firstId)) ∧
    (∀ depth cursor, (Cursor.start tokens firstId).Advances cursor → cursor.isAtEnd = false →
      16 * cursor.remaining.length + 11 ≤ depth →
      cursor.index tokens < (recovering (declaration depth) cursor).2.index tokens) ∧
    (program (parseDepth tokens.length) (Cursor.start tokens firstId)).2.Inside tokens ∧
    (program (parseDepth tokens.length) (Cursor.start tokens firstId)).2.index tokens =
      markerIndex tokens ∧
    parse (upToMarker tokens) firstId = parse tokens firstId := by
  have runs := program_bounded_runs tokens firstId
  have same := program_bounded_eq tokens firstId
  have forward := fun depth cursor moved further room =>
    @declaration_forward tokens firstId cursor moved depth further room
  have inside : (program (parseDepth tokens.length) (Cursor.start tokens firstId)).2.Inside
      tokens := by
    have moved := (runs (readers 0)).advances
    rw [same] at moved
    exact inside_of_advances moved
  exact ⟨fun below => ⟨runs below, same below⟩, forward, inside, program_index tokens firstId,
    parse_upToMarker tokens firstId⟩

end LoxLang
