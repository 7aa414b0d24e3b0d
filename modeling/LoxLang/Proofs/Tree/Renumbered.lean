import LoxLang.Proofs.Scope.Identities
import LoxLang.Proofs.Tree.Matching
import LoxLang.Proofs.Tree.Moved

/-!
# Renumbered trees match

The same tree with identities from one number on and with identities from another number on matches
under every correspondence that pairs these identities and leaves names alone.
-/

namespace LoxLang

variable {correspondence : Correspondence} {limit first second : Nat}

/-- Where nothing is renamed, a name occurs as itself under the other id. -/
theorem Correspondence.Transparent.occurs (transparent : correspondence.Transparent)
    (marks : List Bool) {id other : Nat} (ids : correspondence.ids id other) (name : Token) :
    correspondence.Occurs marks id name other name :=
  ⟨ids, transparent.visible _, (transparent.respelled _ name).symm⟩

/-- Where nothing is renamed, a name is declared as itself. -/
theorem Correspondence.Transparent.declares (transparent : correspondence.Transparent)
    (marks : List Bool) (name : Token) :
    correspondence.Declares marks name name :=
  ⟨transparent.visible _, (transparent.respelled _ name).symm⟩

mutual

/-- The same expression with identities from one and from another number on matches. -/
theorem Expr.moved_matches (transparent : correspondence.Transparent)
    (related : ∀ id < limit, correspondence.ids (id + first) (id + second)) {marks : List Bool} :
    ∀ expression : Expr, Below limit expression.ids →
      (expression.moved ⟨0, first⟩).Matches correspondence marks (expression.moved ⟨0, second⟩)
  | .literal _, _ => rfl
  | .grouping inner, below => ⟨_, rfl, inner.moved_matches transparent related below⟩
  | .unary _ operand, below => ⟨_, rfl, operand.moved_matches transparent related below⟩
  | .binary left _ right, below | .logical left _ right, below =>
    ⟨_, _, rfl, left.moved_matches transparent related below.left,
      right.moved_matches transparent related below.right⟩
  | .reference id name, below =>
    ⟨_, _, rfl, transparent.occurs marks (related id below.head) name⟩
  | .assign id name value, below =>
    ⟨_, _, _, rfl, transparent.occurs marks (related id below.right.head) name,
      value.moved_matches transparent related below.left⟩
  | .call callee _ arguments, below =>
    ⟨_, _, rfl, callee.moved_matches transparent related below.left,
      Expr.movedAll_matches transparent related arguments below.right⟩
  | .get object _, below => ⟨_, rfl, object.moved_matches transparent related below⟩
  | .set object _ value, below =>
    ⟨_, _, rfl, object.moved_matches transparent related below.right,
      value.moved_matches transparent related below.left⟩
  | .this id keyword, below | .super id keyword _, below =>
    ⟨_, _, rfl, transparent.occurs marks (related id below.head) keyword⟩

/-- Expressions match themselves under other ids. -/
theorem Expr.movedAll_matches (transparent : correspondence.Transparent)
    (related : ∀ id < limit, correspondence.ids (id + first) (id + second)) {marks : List Bool} :
    ∀ expressions : List Expr, Below limit (Expr.idsAll expressions) →
      Expr.MatchesAll correspondence marks (Expr.movedAll ⟨0, first⟩ expressions)
        (Expr.movedAll ⟨0, second⟩ expressions)
  | [], _ => rfl
  | expression :: rest, below =>
    ⟨_, _, rfl, expression.moved_matches transparent related below.left,
      Expr.movedAll_matches transparent related rest below.right⟩

end

/-- An optional expression matches itself under other ids. -/
theorem Expr.map_moved_matches (transparent : correspondence.Transparent)
    (related : ∀ id < limit, correspondence.ids (id + first) (id + second)) {marks : List Bool}
    (value : Option Expr) (below : Below limit (Expr.idsOptional value)) :
    Expr.MatchesOptional correspondence marks (value.map (Expr.moved ⟨0, first⟩))
      (value.map (Expr.moved ⟨0, second⟩)) := by
  cases value with
  | none => rfl
  | some value => exact ⟨_, rfl, value.moved_matches transparent related below⟩

mutual

/-- The same statement with identities from one and from another number on matches. -/
theorem Stmt.moved_matches (transparent : correspondence.Transparent)
    (related : ∀ id < limit, correspondence.ids (id + first) (id + second)) {marks : List Bool} :
    ∀ statement : Stmt, Below limit statement.ids →
      (statement.moved ⟨0, first⟩).Matches correspondence marks (statement.moved ⟨0, second⟩)
  | .expression value, below | .print _ value, below =>
    ⟨_, rfl, value.moved_matches transparent related below⟩
  | .declare name initializer, below =>
    ⟨_, _, rfl, transparent.declares marks name,
      Expr.map_moved_matches transparent related initializer below⟩
  | .block body, below => ⟨false, _, rfl, Stmt.movedAll_matches transparent related body below⟩
  | .branch condition whenTrue none, below =>
    ⟨_, _, rfl, condition.moved_matches transparent related below.left,
      whenTrue.moved_matches transparent related below.right⟩
  | .branch condition whenTrue (some whenFalse), below =>
    ⟨_, _, _, rfl, condition.moved_matches transparent related below.left.left,
      whenTrue.moved_matches transparent related below.left.right,
      whenFalse.moved_matches transparent related below.right⟩
  | .loop condition body, below =>
    ⟨_, _, rfl, condition.moved_matches transparent related below.left,
      body.moved_matches transparent related below.right⟩
  | .function declaration, below =>
    ⟨_, rfl, transparent.declares marks _, declaration.moved_matches transparent related below⟩
  | .return _ value, below =>
    ⟨_, rfl, Expr.map_moved_matches transparent related value below⟩
  | .class name none methods, below =>
    ⟨_, rfl, transparent.declares marks name,
      FunctionDecl.movedAll_matches transparent related methods below.right⟩
  | .class name (some superclass) methods, below =>
    ⟨_, _, rfl, transparent.declares marks name,
      superclass.moved_matches transparent related below.left,
      FunctionDecl.movedAll_matches transparent related methods below.right⟩

/-- Statements match themselves under other ids. -/
theorem Stmt.movedAll_matches (transparent : correspondence.Transparent)
    (related : ∀ id < limit, correspondence.ids (id + first) (id + second)) {marks : List Bool} :
    ∀ statements : List Stmt, Below limit (Stmt.idsAll statements) →
      Stmt.MatchesAll correspondence marks (Stmt.movedAll ⟨0, first⟩ statements)
        (Stmt.movedAll ⟨0, second⟩ statements)
  | [], _ => rfl
  | statement :: rest, below =>
    ⟨_, _, rfl, statement.moved_matches transparent related below.left,
      Stmt.movedAll_matches transparent related rest below.right⟩

/-- A function matches itself under other ids. -/
theorem FunctionDecl.moved_matches (transparent : correspondence.Transparent)
    (related : ∀ id < limit, correspondence.ids (id + first) (id + second)) {marks : List Bool} :
    ∀ declaration : FunctionDecl, Below limit declaration.ids →
      (declaration.moved ⟨0, first⟩).Matches correspondence marks
        (declaration.moved ⟨0, second⟩)
  | .mk name parameters body, below => by
    refine ⟨false, false, _, ?_, fun _ _ => transparent.visible _,
      Stmt.movedAll_matches transparent related body below⟩
    exact congrArg (FunctionDecl.mk name · _) (List.map_id' _).symm

/-- Methods match themselves under other ids. -/
theorem FunctionDecl.movedAll_matches (transparent : correspondence.Transparent)
    (related : ∀ id < limit, correspondence.ids (id + first) (id + second)) {marks : List Bool} :
    ∀ declarations : List FunctionDecl, Below limit (FunctionDecl.idsAll declarations) →
      FunctionDecl.MatchesAll correspondence marks (FunctionDecl.movedAll ⟨0, first⟩ declarations)
        (FunctionDecl.movedAll ⟨0, second⟩ declarations)
  | [], _ => rfl
  | declaration :: rest, below =>
    ⟨_, _, rfl, declaration.moved_matches transparent related below.left,
      FunctionDecl.movedAll_matches transparent related rest below.right⟩

end

end LoxLang
