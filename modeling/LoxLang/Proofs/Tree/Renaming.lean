import LoxLang.Proofs.Parsing.Formed
import LoxLang.Proofs.Tree.Matching
import LoxLang.Scope.Resolution
import LoxLang.Value

/-!
# Renaming a local variable

A `Renaming` gives one identifier the place of another. It is applied to a single declaration, which
is not at the top level, and to the references and assignments that scope resolution binds to that
declaration: those of the old name whose distance leads to the scope of the declaration. All else
stays as it is. A renamed tree matches the tree itself, with a mark for the one scope.
-/

namespace LoxLang

/-- One identifier for another. -/
structure Renaming where
  old : String
  new : String
  old_ordinary : Keyword.ofSpelling? old = none
  new_ordinary : Keyword.ofSpelling? new = none

namespace Renaming

/-- A name in the new spelling. -/
def spelled (naming : Renaming) (name : Token) : Token :=
  { name with lexeme := naming.new }

/-- A name that occurs `depth` scopes inside the scope of the renamed declaration; it is spelled
anew if it is bound to that declaration. -/
def occurrence (naming : Renaming) (distances : Distances) (depth id : Nat) (name : Token) :
    Token :=
  if distances[id]? = some depth ∧ name.lexeme = naming.old then naming.spelled name else name

end Renaming

section

variable (naming : Renaming) (distances : Distances)

mutual

/-- An expression `depth` scopes inside the scope of a renamed declaration. -/
def Expr.renamed (depth : Nat) : Expr → Expr
  | .literal value => .literal value
  | .grouping inner => .grouping (inner.renamed depth)
  | .unary operator operand => .unary operator (operand.renamed depth)
  | .binary left operator right => .binary (left.renamed depth) operator (right.renamed depth)
  | .logical left operator right => .logical (left.renamed depth) operator (right.renamed depth)
  | .reference id name => .reference id (naming.occurrence distances depth id name)
  | .assign id name value =>
    .assign id (naming.occurrence distances depth id name) (value.renamed depth)
  | .call callee paren arguments =>
    .call (callee.renamed depth) paren (Expr.renamedAll depth arguments)
  | .get object name => .get (object.renamed depth) name
  | .set object name value => .set (object.renamed depth) name (value.renamed depth)
  | .this id keyword => .this id keyword
  | .super id keyword method => .super id keyword method

/-- Several expressions inside the scope of a renamed declaration. -/
def Expr.renamedAll (depth : Nat) : List Expr → List Expr
  | [] => []
  | first :: rest => first.renamed depth :: Expr.renamedAll depth rest

end

/-- An expression inside the scope of a renamed declaration, if there is one. -/
def Expr.renamedOptional (depth : Nat) (value : Option Expr) : Option Expr :=
  value.map fun value => value.renamed naming distances depth

mutual

/-- A statement `depth` scopes inside the scope of a renamed declaration, and not that declaration
itself. -/
def Stmt.renamed (depth : Nat) : Stmt → Stmt
  | .expression value => .expression (value.renamed naming distances depth)
  | .print keyword value => .print keyword (value.renamed naming distances depth)
  | .declare name initializer =>
    .declare name (Expr.renamedOptional naming distances depth initializer)
  | .block body => .block (Stmt.renamedAll (depth + 1) body)
  | .branch condition whenTrue none =>
    .branch (condition.renamed naming distances depth) (whenTrue.renamed depth) none
  | .branch condition whenTrue (some whenFalse) =>
    .branch (condition.renamed naming distances depth) (whenTrue.renamed depth)
      (some (whenFalse.renamed depth))
  | .loop condition body =>
    .loop (condition.renamed naming distances depth) (body.renamed depth)
  | .function declaration => .function (declaration.renamed depth)
  | .return keyword value =>
    .return keyword (Expr.renamedOptional naming distances depth value)
  | .class name none methods => .class name none (FunctionDecl.renamedAll (depth + 1) methods)
  | .class name (some superclass) methods =>
    .class name (some (superclass.renamed naming distances depth))
      (FunctionDecl.renamedAll (depth + 2) methods)
termination_by structural statement => statement

/-- Several statements inside the scope of a renamed declaration. -/
def Stmt.renamedAll (depth : Nat) : List Stmt → List Stmt
  | [] => []
  | first :: rest => first.renamed depth :: Stmt.renamedAll depth rest
termination_by structural statements => statements

/-- A function inside the scope of a renamed declaration; it has two scopes of its own. -/
def FunctionDecl.renamed (depth : Nat) : FunctionDecl → FunctionDecl
  | .mk name parameters body => .mk name parameters (Stmt.renamedAll (depth + 2) body)
termination_by structural declaration => declaration

/-- Several functions inside the scope of a renamed declaration. -/
def FunctionDecl.renamedAll (depth : Nat) : List FunctionDecl → List FunctionDecl
  | [] => []
  | first :: rest => first.renamed depth :: FunctionDecl.renamedAll depth rest
termination_by structural declarations => declarations

end

/-- The statements of a scope, and what they become when a variable that one of them declares is
renamed. -/
inductive Stmt.RenamesHere : List Stmt → List Stmt → Prop where
  | declaration (before : List Stmt) (name : Token) (initializer : Option Expr)
      (behind : List Stmt) (named : name.lexeme = naming.old) :
      Stmt.RenamesHere (before ++ .declare name initializer :: behind)
        (Stmt.renamedAll naming distances 0 before ++
          .declare (naming.spelled name)
            (Expr.renamedOptional naming distances 0 initializer) ::
          Stmt.renamedAll naming distances 0 behind)

mutual

/-- A statement, and what it becomes when one variable or parameter is renamed that is declared in
some scope inside the statement. -/
inductive Stmt.Renames : Stmt → Stmt → Prop where
  | ofBlock {body images : List Stmt} (here : Stmt.RenamesHere naming distances body images) :
      Stmt.Renames (.block body) (.block images)
  | inBlock {body images : List Stmt} (inside : Stmt.RenamesOne body images) :
      Stmt.Renames (.block body) (.block images)
  | inTrue {statement image : Stmt} (condition : Expr) (whenFalse : Option Stmt)
      (inside : Stmt.Renames statement image) :
      Stmt.Renames (.branch condition statement whenFalse) (.branch condition image whenFalse)
  | inFalse {statement image : Stmt} (condition : Expr) (whenTrue : Stmt)
      (inside : Stmt.Renames statement image) :
      Stmt.Renames (.branch condition whenTrue (some statement))
        (.branch condition whenTrue (some image))
  | inLoop {body image : Stmt} (condition : Expr) (inside : Stmt.Renames body image) :
      Stmt.Renames (.loop condition body) (.loop condition image)
  | inFunction {declaration image : FunctionDecl}
      (inside : FunctionDecl.Renames declaration image) :
      Stmt.Renames (.function declaration) (.function image)
  | inClass {methods images : List FunctionDecl} (name : Token) (superclass : Option Expr)
      (inside : FunctionDecl.RenamesOne methods images) :
      Stmt.Renames (.class name superclass methods) (.class name superclass images)

/-- Statements, and what they become when a variable or parameter is renamed inside one of them. -/
inductive Stmt.RenamesOne : List Stmt → List Stmt → Prop where
  | here {first image : Stmt} (inside : Stmt.Renames first image) (rest : List Stmt) :
      Stmt.RenamesOne (first :: rest) (image :: rest)
  | behind (first : Stmt) {rest images : List Stmt} (inside : Stmt.RenamesOne rest images) :
      Stmt.RenamesOne (first :: rest) (first :: images)

/-- A function, and what it becomes when a parameter, a variable of its body or one further inside
is renamed. -/
inductive FunctionDecl.Renames : FunctionDecl → FunctionDecl → Prop where
  | parameter (name : Token) (before : List Token) (parameter : Token) (behind : List Token)
      (body : List Stmt) (named : parameter.lexeme = naming.old) :
      FunctionDecl.Renames (.mk name (before ++ parameter :: behind) body)
        (.mk name (before ++ naming.spelled parameter :: behind)
          (Stmt.renamedAll naming distances 1 body))
  | ofBody (name : Token) (parameters : List Token) {body images : List Stmt}
      (here : Stmt.RenamesHere naming distances body images) :
      FunctionDecl.Renames (.mk name parameters body) (.mk name parameters images)
  | inBody (name : Token) (parameters : List Token) {body images : List Stmt}
      (inside : Stmt.RenamesOne body images) :
      FunctionDecl.Renames (.mk name parameters body) (.mk name parameters images)

/-- Functions, and what they become when a variable or parameter is renamed in one of them. -/
inductive FunctionDecl.RenamesOne : List FunctionDecl → List FunctionDecl → Prop where
  | here {first image : FunctionDecl} (inside : FunctionDecl.Renames first image)
      (rest : List FunctionDecl) :
      FunctionDecl.RenamesOne (first :: rest) (image :: rest)
  | behind (first : FunctionDecl) {rest images : List FunctionDecl}
      (inside : FunctionDecl.RenamesOne rest images) :
      FunctionDecl.RenamesOne (first :: rest) (first :: images)

end

end

/-- Names that may occur wherever a variable is named. -/
def Correspondence.rules (correspondence : Correspondence) : TreeRules :=
  ⟨fun name => correspondence.visible name.lexeme, fun _ => True⟩

/-- No scope is marked. -/
def Unmarked (marks : List Bool) : Prop :=
  ∀ distance : Nat, marks[distance]?.getD false = false

/-- Exactly the scope at one distance is marked. -/
def MarkedAt (depth : Nat) (marks : List Bool) : Prop :=
  ∀ distance : Nat, marks[distance]?.getD false = decide (distance = depth)

section Marks

variable {correspondence : Correspondence} {marks : List Bool} {depth : Nat}

/-- The mark of the innermost scope is the first one. -/
theorem headD_eq_getD (marks : List Bool) : marks.headD false = marks[0]?.getD false := by
  cases marks <;> rfl

/-- An occurrence has the mark of the scope that it refers to. -/
theorem Correspondence.markAt_eq (id : Nat) : correspondence.markAt marks id =
    match correspondence.address? id with
    | none => false
    | some distance => marks[distance]?.getD false := by
  unfold markAt
  cases correspondence.address? id <;> rfl

namespace Unmarked

/-- A further scope without a mark leaves all unmarked. -/
theorem inner (unmarked : Unmarked marks) : Unmarked (false :: marks)
  | 0 => rfl
  | distance + 1 => unmarked distance

/-- A marked scope inside unmarked ones is the marked one. -/
theorem mark (unmarked : Unmarked marks) : MarkedAt 0 (true :: marks)
  | 0 => rfl
  | distance + 1 => unmarked distance

/-- Where nothing is marked, names are declared as they are. -/
theorem declares (unmarked : Unmarked marks) {name : Token}
    (visible : correspondence.visible name.lexeme) : correspondence.Declares marks name name := by
  refine ⟨visible, ?_⟩
  rw [headD_eq_getD, unmarked 0]
  rfl

/-- Where nothing is marked, names occur as they are. -/
theorem occurs (unmarked : Unmarked marks) {id : Nat} (same : correspondence.ids id id)
    {name : Token} (visible : correspondence.visible name.lexeme) :
    correspondence.Occurs marks id name id name := by
  refine ⟨same, visible, ?_⟩
  have mark : correspondence.markAt marks id = false := by
    rw [Correspondence.markAt_eq]
    cases correspondence.address? id with
    | none => rfl
    | some distance => exact unmarked distance
  rw [mark]
  rfl

end Unmarked

/-- The marked scope is one further out behind a further scope. -/
theorem MarkedAt.inner (marked : MarkedAt depth marks) : MarkedAt (depth + 1) (false :: marks)
  | 0 => by simp
  | distance + 1 => by simpa using marked distance

/-- An occurrence is marked when it refers to the marked scope. -/
theorem MarkedAt.markAt (marked : MarkedAt depth marks) (id : Nat) :
    correspondence.markAt marks id = decide (correspondence.address? id = some depth) := by
  rw [Correspondence.markAt_eq]
  cases correspondence.address? id with
  | none => rfl
  | some distance => simpa using marked distance

end Marks

/-- Unmarked names stay. -/
theorem Correspondence.map_respelled_false (correspondence : Correspondence)
    (names : List Token) : names.map (correspondence.respelled false) = names :=
  List.map_id' names

section Unchanged

variable {correspondence : Correspondence}

mutual

/-- An expression matches itself where no scope around it is marked. -/
theorem Expr.matches_refl (same : ∀ id, correspondence.ids id id) {marks : List Bool}
    (unmarked : Unmarked marks) :
    ∀ expression : Expr, expression.Formed correspondence.rules →
      expression.Matches correspondence marks expression
  | .literal _, _ => rfl
  | .grouping inner, formed => ⟨_, rfl, inner.matches_refl same unmarked formed⟩
  | .unary _ operand, formed => ⟨_, rfl, operand.matches_refl same unmarked formed.2⟩
  | .binary left _ right, formed =>
    ⟨_, _, rfl, left.matches_refl same unmarked formed.2.1,
      right.matches_refl same unmarked formed.2.2⟩
  | .logical left _ right, formed =>
    ⟨_, _, rfl, left.matches_refl same unmarked formed.1, right.matches_refl same unmarked formed.2⟩
  | .reference id _, visible => ⟨_, _, rfl, unmarked.occurs (same id) visible⟩
  | .assign id _ value, formed =>
    ⟨_, _, _, rfl, unmarked.occurs (same id) formed.1, value.matches_refl same unmarked formed.2⟩
  | .call callee _ arguments, formed =>
    ⟨_, _, rfl, callee.matches_refl same unmarked formed.1,
      Expr.matchesAll_refl same unmarked arguments formed.2⟩
  | .get object _, formed => ⟨_, rfl, object.matches_refl same unmarked formed⟩
  | .set object _ value, formed =>
    ⟨_, _, rfl, object.matches_refl same unmarked formed.1,
      value.matches_refl same unmarked formed.2⟩
  | .this id _, formed =>
    ⟨_, _, rfl, unmarked.occurs (same id) (formed.1 ▸ correspondence.visible_this)⟩
  | .super id _ _, formed =>
    ⟨_, _, rfl, unmarked.occurs (same id) (formed.1 ▸ correspondence.visible_super)⟩

/-- Without marks, formed expressions match themselves. -/
theorem Expr.matchesAll_refl (same : ∀ id, correspondence.ids id id) {marks : List Bool}
    (unmarked : Unmarked marks) :
    ∀ expressions : List Expr, Expr.FormedAll correspondence.rules expressions →
      Expr.MatchesAll correspondence marks expressions expressions
  | [], _ => rfl
  | first :: rest, formed =>
    ⟨_, _, rfl, first.matches_refl same unmarked formed.1,
      Expr.matchesAll_refl same unmarked rest formed.2⟩

end

/-- Without marks, a formed optional expression matches itself. -/
theorem Expr.matchesOptional_refl (same : ∀ id, correspondence.ids id id) {marks : List Bool}
    (unmarked : Unmarked marks)
    (value : Option Expr) (formed : Expr.FormedOptional correspondence.rules value) :
    Expr.MatchesOptional correspondence marks value value := by
  cases value with
  | none => rfl
  | some value => exact ⟨value, rfl, value.matches_refl same unmarked formed⟩

mutual

/-- A statement matches itself where no scope around it is marked. -/
theorem Stmt.matches_refl (same : ∀ id, correspondence.ids id id) {marks : List Bool}
    (unmarked : Unmarked marks) :
    ∀ statement : Stmt, statement.Formed correspondence.rules →
      statement.Matches correspondence marks statement
  | .expression value, formed | .print _ value, formed =>
    ⟨_, rfl, value.matches_refl same unmarked formed⟩
  | .declare _ initializer, formed =>
    ⟨_, _, rfl, unmarked.declares formed.1,
      Expr.matchesOptional_refl same unmarked initializer formed.2⟩
  | .block body, formed => ⟨false, _, rfl, Stmt.matchesAll_refl same unmarked.inner body formed⟩
  | .branch condition whenTrue none, formed =>
    ⟨_, _, rfl, condition.matches_refl same unmarked formed.1,
      whenTrue.matches_refl same unmarked formed.2⟩
  | .branch condition whenTrue (some whenFalse), formed =>
    ⟨_, _, _, rfl, condition.matches_refl same unmarked formed.1,
      whenTrue.matches_refl same unmarked formed.2.1,
      whenFalse.matches_refl same unmarked formed.2.2⟩
  | .loop condition body, formed =>
    ⟨_, _, rfl, condition.matches_refl same unmarked formed.1,
      body.matches_refl same unmarked formed.2⟩
  | .function declaration, formed =>
    ⟨_, rfl, unmarked.declares formed.name, declaration.matches_refl same unmarked formed⟩
  | .return _ value, formed =>
    ⟨_, rfl, Expr.matchesOptional_refl same unmarked value formed⟩
  | .class _ none methods, formed =>
    ⟨_, rfl, unmarked.declares formed.1,
      FunctionDecl.matchesAll_refl same unmarked.inner methods formed.2.2⟩
  | .class _ (some superclass) methods, formed =>
    ⟨_, _, rfl, unmarked.declares formed.1, superclass.matches_refl same unmarked formed.2.1,
      FunctionDecl.matchesAll_refl same unmarked.inner.inner methods formed.2.2⟩
termination_by structural statement => statement

/-- Without marks, formed statements match themselves. -/
theorem Stmt.matchesAll_refl (same : ∀ id, correspondence.ids id id) {marks : List Bool}
    (unmarked : Unmarked marks) :
    ∀ statements : List Stmt, Stmt.FormedAll correspondence.rules statements →
      Stmt.MatchesAll correspondence marks statements statements
  | [], _ => rfl
  | first :: rest, formed =>
    ⟨_, _, rfl, first.matches_refl same unmarked formed.1,
      Stmt.matchesAll_refl same unmarked rest formed.2⟩
termination_by structural statements => statements

/-- Without marks, a formed function matches itself. -/
theorem FunctionDecl.matches_refl (same : ∀ id, correspondence.ids id id) {marks : List Bool}
    (unmarked : Unmarked marks) :
    ∀ declaration : FunctionDecl, declaration.Formed correspondence.rules →
      declaration.Matches correspondence marks declaration
  | .mk _ parameters body, formed =>
    ⟨false, false, _, by rw [Correspondence.map_respelled_false], formed.2.1,
      Stmt.matchesAll_refl same unmarked.inner.inner body formed.2.2⟩
termination_by structural declaration => declaration

/-- Without marks, formed methods match themselves. -/
theorem FunctionDecl.matchesAll_refl (same : ∀ id, correspondence.ids id id) {marks : List Bool}
    (unmarked : Unmarked marks) :
    ∀ declarations : List FunctionDecl, FunctionDecl.FormedAll correspondence.rules declarations →
      FunctionDecl.MatchesAll correspondence marks declarations declarations
  | [], _ => rfl
  | first :: rest, formed =>
    ⟨_, _, rfl, first.matches_refl same unmarked formed.1,
      FunctionDecl.matchesAll_refl same unmarked rest formed.2⟩
termination_by structural declarations => declarations

end

end Unchanged

end LoxLang
