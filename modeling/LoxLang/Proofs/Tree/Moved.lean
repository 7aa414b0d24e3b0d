import LoxLang.Proofs.Token.Joining
import LoxLang.Proofs.Tree.Relabelled

/-!
# Moved trees

The same text read at another place gives the same trees, but for the lines of their tokens and the
identities of their occurrences. A `Shift` says how far both are moved.
-/

namespace LoxLang

/-- How far a tree is moved: its tokens by lines, its occurrences by identities. -/
structure Shift where
  lines : Nat
  ids : Nat

namespace Shift

/-- Nothing is moved. -/
def none : Shift :=
  { lines := 0, ids := 0 }

/-- Only lines are moved. -/
def down (lines : Nat) : Shift :=
  { lines, ids := 0 }

end Shift

/-- A moved token keeps its kind. -/
@[simp] theorem Token.moved_kind (lines : Nat) (token : Token) :
    (token.moved lines).kind = token.kind :=
  rfl

/-- A moved token keeps its lexeme. -/
@[simp] theorem Token.moved_lexeme (lines : Nat) (token : Token) :
    (token.moved lines).lexeme = token.lexeme :=
  rfl

/-- Moving by no line leaves a token. -/
@[simp] theorem Token.moved_zero (token : Token) : token.moved 0 = token :=
  rfl

/-- Moving by no line leaves tokens. -/
theorem Token.map_moved_zero (tokens : List Token) : tokens.map (Token.moved 0) = tokens := by
  induction tokens with
  | nil => rfl
  | cons first rest inductionHypothesis => rw [List.map_cons, inductionHypothesis, moved_zero]

/-- What a shift does to the labels of a tree. -/
def Shift.relabelling (shift : Shift) : Relabelling :=
  { id := (· + shift.ids), token := Token.moved shift.lines }

/-- A shift raises each id. -/
@[simp] theorem Shift.relabelling_id (shift : Shift) (id : Nat) :
    shift.relabelling.id id = id + shift.ids :=
  rfl

/-- A shift moves each token down. -/
@[simp] theorem Shift.relabelling_token (shift : Shift) :
    shift.relabelling.token = Token.moved shift.lines :=
  rfl

/-- The same expression further down, with later identities. -/
abbrev Expr.moved (shift : Shift) : Expr → Expr :=
  Expr.relabelled shift.relabelling

/-- The same expressions further down. -/
abbrev Expr.movedAll (shift : Shift) : List Expr → List Expr :=
  Expr.relabelledAll shift.relabelling

/-- The same statement further down, with later identities. -/
abbrev Stmt.moved (shift : Shift) : Stmt → Stmt :=
  Stmt.relabelled shift.relabelling

/-- The same statements further down. -/
abbrev Stmt.movedAll (shift : Shift) : List Stmt → List Stmt :=
  Stmt.relabelledAll shift.relabelling

/-- The same function further down. -/
abbrev FunctionDecl.moved (shift : Shift) : FunctionDecl → FunctionDecl :=
  FunctionDecl.relabelled shift.relabelling

/-- The same functions further down. -/
abbrev FunctionDecl.movedAll (shift : Shift) : List FunctionDecl → List FunctionDecl :=
  FunctionDecl.relabelledAll shift.relabelling

/-- A statement that is not moved is the same. -/
theorem Stmt.moved_none (statement : Stmt) : statement.moved .none = statement :=
  statement.relabelled_none

/-- So are several of them. -/
theorem Stmt.movedAll_none (statements : List Stmt) :
    Stmt.movedAll .none statements = statements :=
  Stmt.relabelledAll_none statements

end LoxLang
