import LoxLang.Proofs.Parsing.Trees

/-!
# The identities in a tree

Which identities a tree holds does not depend on the scopes around it: resolution finds the same
ones everywhere.
-/

namespace LoxLang

mutual

/-- The identities of the occurrences in an expression. -/
def Expr.ids : Expr → List Nat
  | .literal _ => []
  | .grouping inner => inner.ids
  | .unary _ operand => operand.ids
  | .binary left _ right => left.ids ++ right.ids
  | .logical left _ right => left.ids ++ right.ids
  | .reference id _ => [id]
  | .assign id _ value => value.ids ++ [id]
  | .call callee _ arguments => callee.ids ++ Expr.idsAll arguments
  | .get object _ => object.ids
  | .set object _ value => value.ids ++ object.ids
  | .this id _ => [id]
  | .super id _ _ => [id]

/-- The identities in several expressions. -/
def Expr.idsAll : List Expr → List Nat
  | [] => []
  | first :: rest => first.ids ++ Expr.idsAll rest

end

/-- The identities in an expression if there is one. -/
def Expr.idsOptional : Option Expr → List Nat
  | none => []
  | some value => value.ids

mutual

/-- The identities of the occurrences in a statement. -/
def Stmt.ids : Stmt → List Nat
  | .expression value => value.ids
  | .print _ value => value.ids
  | .declare _ initializer => Expr.idsOptional initializer
  | .block body => Stmt.idsAll body
  | .branch condition whenTrue none => condition.ids ++ whenTrue.ids
  | .branch condition whenTrue (some whenFalse) =>
    condition.ids ++ whenTrue.ids ++ whenFalse.ids
  | .loop condition body => condition.ids ++ body.ids
  | .function declaration => declaration.ids
  | .return _ value => Expr.idsOptional value
  | .class _ superclass methods => Expr.idsOptional superclass ++ FunctionDecl.idsAll methods

/-- The identities in several statements. -/
def Stmt.idsAll : List Stmt → List Nat
  | [] => []
  | first :: rest => first.ids ++ Stmt.idsAll rest

/-- The identities in a function. -/
def FunctionDecl.ids : FunctionDecl → List Nat
  | .mk _ _ body => Stmt.idsAll body

/-- The identities in several functions. -/
def FunctionDecl.idsAll : List FunctionDecl → List Nat
  | [] => []
  | first :: rest => first.ids ++ FunctionDecl.idsAll rest

end

mutual

/-- Resolution finds the identities of an expression. -/
theorem Expr.map_id_occurrences (inside : ClassContext) (chain : Chain) :
    ∀ expression : Expr,
      (expression.occurrences inside chain).map Occurrence.id = expression.ids
  | .literal _ | .reference _ _ => rfl
  | .grouping inner => inner.map_id_occurrences inside chain
  | .unary _ operand => operand.map_id_occurrences inside chain
  | .binary left _ right | .logical left _ right => by
    rw [occurrences, List.map_append, left.map_id_occurrences, right.map_id_occurrences, ids]
  | .assign _ _ value => by
    rw [occurrences, List.map_append, value.map_id_occurrences, ids]
    rfl
  | .call callee _ arguments => by
    rw [occurrences, List.map_append, callee.map_id_occurrences,
      Expr.map_id_occurrencesAll inside chain arguments, ids]
  | .get object _ => object.map_id_occurrences inside chain
  | .set object _ value => by
    rw [occurrences, List.map_append, value.map_id_occurrences, object.map_id_occurrences, ids]
  | .this _ _ | .super _ _ _ => by cases inside <;> rfl

/-- Each id of expressions occurs once, in their order. -/
theorem Expr.map_id_occurrencesAll (inside : ClassContext) (chain : Chain) :
    ∀ expressions : List Expr,
      (Expr.occurrencesAll inside chain expressions).map Occurrence.id = Expr.idsAll expressions
  | [] => rfl
  | first :: rest => by
    rw [occurrencesAll, List.map_append, first.map_id_occurrences,
      Expr.map_id_occurrencesAll inside chain rest, idsAll]

end

/-- Each id of an optional expression occurs once, in their order. -/
theorem Expr.map_id_occurrencesOptional (inside : ClassContext) (chain : Chain)
    (value : Option Expr) :
    (Expr.occurrencesOptional inside chain value).map Occurrence.id = Expr.idsOptional value := by
  cases value with
  | none => rfl
  | some value => exact value.map_id_occurrences inside chain

mutual

/-- Resolution finds the identities of a statement. -/
theorem Stmt.map_id_occurrences (inside : ClassContext) (chain : Chain) : ∀ statement : Stmt,
    (statement.occurrences inside chain).map Occurrence.id = statement.ids
  | .expression value | .print _ value => value.map_id_occurrences inside chain
  | .declare _ value | .return _ value => Expr.map_id_occurrencesOptional inside chain value
  | .block body => Stmt.map_id_occurrencesAll inside ([] :: chain) body
  | .branch condition whenTrue none => by
    rw [Stmt.occurrences, List.map_append, condition.map_id_occurrences,
      whenTrue.map_id_occurrences, Stmt.ids]
  | .branch condition whenTrue (some whenFalse) => by
    rw [Stmt.occurrences, List.map_append, List.map_append, condition.map_id_occurrences,
      whenTrue.map_id_occurrences, whenFalse.map_id_occurrences, Stmt.ids]
  | .loop condition body => by
    rw [Stmt.occurrences, List.map_append, condition.map_id_occurrences, body.map_id_occurrences,
      Stmt.ids]
  | .function declaration => declaration.map_id_occurrences inside _
  | .class _ none methods => FunctionDecl.map_id_occurrencesAll .base _ methods
  | .class _ (some superclass) methods => by
    rw [Stmt.occurrences, List.map_append, superclass.map_id_occurrences,
      FunctionDecl.map_id_occurrencesAll .derived _ methods]
    rfl

/-- Each id of statements occurs once, in their order. -/
theorem Stmt.map_id_occurrencesAll (inside : ClassContext) (chain : Chain) :
    ∀ statements : List Stmt,
      (Stmt.occurrencesAll inside chain statements).map Occurrence.id = Stmt.idsAll statements
  | [] => rfl
  | first :: rest => by
    rw [Stmt.occurrencesAll, List.map_append, first.map_id_occurrences,
      Stmt.map_id_occurrencesAll inside _ rest, Stmt.idsAll]

/-- Each id of a function occurs once, in their order. -/
theorem FunctionDecl.map_id_occurrences (inside : ClassContext) (chain : Chain) :
    ∀ declaration : FunctionDecl,
      (declaration.occurrences inside chain).map Occurrence.id = declaration.ids
  | .mk _ _ body => Stmt.map_id_occurrencesAll inside _ body

/-- Each id of methods occurs once, in their order. -/
theorem FunctionDecl.map_id_occurrencesAll (inside : ClassContext) (chain : Chain) :
    ∀ declarations : List FunctionDecl,
      (FunctionDecl.occurrencesAll inside chain declarations).map Occurrence.id =
        FunctionDecl.idsAll declarations
  | [] => rfl
  | first :: rest => by
    rw [FunctionDecl.occurrencesAll, List.map_append, first.map_id_occurrences,
      FunctionDecl.map_id_occurrencesAll inside chain rest, FunctionDecl.idsAll]

end

/-- All identities lie below a limit. -/
def Below (limit : Nat) (ids : List Nat) : Prop :=
  ∀ id ∈ ids, id < limit

namespace Below

variable {limit higher : Nat} {first second : List Nat}

/-- Ids below a limit are below a higher one. -/
theorem mono (below : Below limit first) (further : limit ≤ higher) : Below higher first :=
  fun id member => Nat.lt_of_lt_of_le (below id member) further

/-- The first ids are below the limit of all. -/
theorem left (below : Below limit (first ++ second)) : Below limit first :=
  fun id member => below id (List.mem_append_left _ member)

/-- The last ids are below the limit of all. -/
theorem right (below : Below limit (first ++ second)) : Below limit second :=
  fun id member => below id (List.mem_append_right _ member)

/-- The first id is below the limit of all. -/
theorem head {id : Nat} (below : Below limit (id :: first)) : id < limit :=
  below id List.mem_cons_self

end Below

/-- The ids of one method are below the limit of all. -/
theorem FunctionDecl.below_of_mem {limit : Nat} {declaration : FunctionDecl}
    {declarations : List FunctionDecl} (below : Below limit (FunctionDecl.idsAll declarations))
    (member : declaration ∈ declarations) : Below limit declaration.ids := by
  induction declarations with
  | nil => cases member
  | cons first rest inductionHypothesis =>
    rcases List.mem_cons.mp member with rfl | member
    · exact Below.left below
    · exact inductionHypothesis (Below.right below) member

/-- The identities that were handed out to statements lie below the next one. -/
theorem Stmt.IssuedAll.below {low high : Nat} {trees : List Stmt}
    (issued : Stmt.IssuedAll low high trees) : Below high (Stmt.idsAll trees) := by
  intro id member
  rw [← Stmt.map_id_occurrencesAll .outside [] trees] at member
  obtain ⟨occurrence, listed, rfl⟩ := List.mem_map.mp member
  exact ((issued.identities .outside []).bounds occurrence listed).2

end LoxLang
