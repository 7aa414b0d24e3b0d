import LoxLang.Proofs.Scope.Matching

/-!
# Matching programs keep the same rules

Where resolution has nothing to report on a program, it has nothing to report on one that matches
it: a scope of the other program has a name in its spelling exactly if the scope itself has the
name, so no name is declared twice, and all other rules do not depend on spelling.
-/

namespace LoxLang

section

variable (correspondence : Correspondence)

/-- Scopes with the same names, up to spelling. -/
def Scope.Matches (mark : Bool) (scope image : Scope) : Prop :=
  ∀ name, correspondence.visible name →
    image.contains (correspondence.spelling mark name) = scope.contains name

/-- Stacks of matching scopes. -/
inductive Scope.MatchesAll : List Bool → List Scope → List Scope → Prop where
  | nil (marks : List Bool) : Scope.MatchesAll marks [] []
  | cons {marks : List Bool} {scopes images : List Scope} {mark : Bool} {scope image : Scope}
      (head : Scope.Matches correspondence mark scope image)
      (tail : Scope.MatchesAll marks scopes images) :
      Scope.MatchesAll (mark :: marks) (scope :: scopes) (image :: images)

/-- Resolutions that have come to matching scopes; the one that has nothing to report is matched by
one that has nothing to report. -/
structure Resolution.Accords (marks : List Bool) (state image : Resolution) : Prop where
  scopes : Scope.MatchesAll correspondence marks state.scopes image.scopes
  errors : state.errors = [] → image.errors = []

end

variable {correspondence : Correspondence} {marks : List Bool}

/-- A name is entered on both sides, in the spelling of the scope. -/
theorem Scope.Matches.insert {mark : Bool} {scope image : Scope}
    (matching : Scope.Matches correspondence mark scope image) (name : String) (defined : Bool) :
    Scope.Matches correspondence mark (scope.insert name defined)
      (image.insert (correspondence.spelling mark name) defined) := by
  intro wanted visible
  rw [Std.TreeMap.contains_insert, Std.TreeMap.contains_insert, matching wanted visible]
  congr 1
  rw [Bool.eq_iff_iff]
  simp [Correspondence.spelling_inj]

namespace Resolution.Accords

variable {state image : Resolution}

/-- The fresh resolutions accord. -/
theorem start (marks : List Bool) : Accords correspondence marks .start .start :=
  ⟨.nil marks, id⟩

/-- Once something is reported there is no more to show of the other side. -/
theorem reportAt (accords : Accords correspondence marks state image) (token other : Token)
    (violation : Violation) :
    Accords correspondence marks (state.reportAt token violation)
      (image.reportAt other violation) where
  scopes := accords.scopes
  errors := fun clean => by simp [Resolution.reportAt] at clean

/-- A scope is opened on both sides, marked or not. -/
theorem openScope (accords : Accords correspondence marks state image) (mark : Bool) :
    Accords correspondence (mark :: marks) state.openScope image.openScope where
  scopes := .cons (fun name _ => by simp) accords.scopes
  errors := accords.errors

/-- A scope is closed on both sides. -/
theorem closeScope {mark : Bool} (accords : Accords correspondence (mark :: marks) state image) :
    Accords correspondence marks state.closeScope image.closeScope where
  scopes := by
    obtain ⟨scopes, _⟩ := accords
    unfold Resolution.closeScope
    generalize state.scopes = inner, image.scopes = innerImage at scopes
    cases scopes with
    | nil => exact .nil marks
    | cons _ tail => exact tail
  errors := accords.errors

/-- A name is bound under its spelling in the innermost scope. -/
theorem bind (accords : Accords correspondence marks state image) (name : String) :
    Accords correspondence marks (state.bind name)
      (image.bind (correspondence.spelling (marks.headD false) name)) := by
  obtain ⟨scopes, errors⟩ := accords
  obtain ⟨inner, distances, reports⟩ := state
  obtain ⟨innerImage, table, others⟩ := image
  cases scopes with
  | nil => exact ⟨.nil marks, errors⟩
  | cons head tail => exact ⟨.cons (head.insert name true) tail, errors⟩

/-- A name is declared twice on both sides or on none. -/
theorem declare (accords : Accords correspondence marks state image) {name spelled : Token}
    (declares : correspondence.Declares marks name spelled) :
    Accords correspondence marks (state.declare name) (image.declare spelled) := by
  obtain ⟨visible, rfl⟩ := declares
  obtain ⟨scopes, errors⟩ := accords
  obtain ⟨inner, distances, reports⟩ := state
  obtain ⟨innerImage, table, others⟩ := image
  cases scopes with
  | nil => exact ⟨.nil marks, errors⟩
  | @cons marks _ _ mark scope scopeImage head tail =>
    have same : scopeImage.contains (correspondence.spelling mark name.lexeme) =
      scope.contains name.lexeme := head name.lexeme visible
    simp only [Resolution.declare, List.headD_cons, Correspondence.respelled_lexeme, same]
    split
    · exact Accords.reportAt ⟨.cons head tail, errors⟩ name _ _
    · exact ⟨.cons (head.insert name.lexeme false) tail, errors⟩

/-- A name is declared and completed on both sides, in the spelling of its scope. -/
theorem introduce (accords : Accords correspondence marks state image) {name spelled : Token}
    (declares : correspondence.Declares marks name spelled) :
    Accords correspondence marks (state.introduce name) (image.introduce spelled) := by
  have declared := (accords.declare declares).bind name.lexeme
  obtain ⟨_, rfl⟩ := declares
  exact declared

/-- Parameters are introduced on both sides, in the spelling of their scope. -/
theorem introduceAll {outer : Bool}
    (accords : Accords correspondence (outer :: marks) state image) {names : List Token}
    (visible : ∀ name ∈ names, correspondence.visible name.lexeme) :
    Accords correspondence (outer :: marks) (names.foldl Resolution.introduce state)
      ((names.map (correspondence.respelled outer)).foldl Resolution.introduce image) := by
  induction names generalizing state image with
  | nil => exact accords
  | cons first rest inductionHypothesis =>
    obtain ⟨head, tail⟩ := List.forall_mem_cons.mp visible
    exact inductionHypothesis (accords.introduce ⟨head, rfl⟩) tail

/-- Recording a distance changes neither scopes nor reports. -/
theorem locate (accords : Accords correspondence marks state image) (id other : Nat)
    (name spelled : Token) :
    Accords correspondence marks (state.locate id name) (image.locate other spelled) := by
  have kept (state : Resolution) (id : Nat) (name : Token) :
      (state.locate id name).scopes = state.scopes ∧
        (state.locate id name).errors = state.errors := by
    unfold Resolution.locate
    split <;> exact ⟨rfl, rfl⟩
  obtain ⟨scopes, errors⟩ := accords
  rw [← (kept state id name).1, ← (kept image other spelled).1] at scopes
  rw [← (kept state id name).2, ← (kept image other spelled).2] at errors
  exact ⟨scopes, errors⟩

/-- The check of a `return` asks only whether there is a value. -/
theorem checkReturn (accords : Accords correspondence marks state image)
    (within : FunctionContext) (keyword : Token) {value other : Option Expr}
    (same : other.isSome = value.isSome) :
    Accords correspondence marks (state.checkReturn within keyword value)
      (image.checkReturn within keyword other) := by
  cases within with
  | outside => exact accords.reportAt keyword keyword _
  | initializer =>
    cases value with
    | none =>
      obtain rfl : other = none := by simpa using same
      exact accords
    | some value =>
      obtain ⟨given, rfl⟩ := Option.isSome_iff_exists.mp same
      exact accords.reportAt keyword keyword _
  | function | method => exact accords

/-- A superclass in another spelling is not the class either. -/
theorem checkSuperclass (accords : Accords correspondence marks state image) {name : Token}
    (declares : correspondence.Declares marks name name) {superclass other : Expr}
    (like : superclass.Matches correspondence marks other) :
    Accords correspondence marks (state.checkSuperclass name superclass)
      (image.checkSuperclass name other) := by
  cases superclass with
  | reference id parent =>
    obtain ⟨otherId, spelled, rfl, occurs⟩ := like
    have kept := congrArg Token.lexeme declares.spelled
    have same : spelled.lexeme = name.lexeme → parent.lexeme = name.lexeme := by
      intro same
      rw [occurs.spelled, kept] at same
      exact Correspondence.eq_of_spelling occurs.visible declares.visible same
    unfold Resolution.checkSuperclass
    dsimp only
    split
    · split
      · exact accords.reportAt parent spelled _
      · exact ⟨accords.scopes, fun clean => by simp [Resolution.reportAt] at clean⟩
    · rw [if_neg]
      · exact accords
      · exact fun equal => ‹¬ _› (same equal)
  | literal => obtain rfl := like; exact accords
  | grouping | unary | get => obtain ⟨_, rfl, _⟩ := like; exact accords
  | binary | logical | call | set | this | super =>
    obtain ⟨_, _, rfl, _⟩ := like; exact accords
  | assign => obtain ⟨_, _, _, rfl, _⟩ := like; exact accords

end Resolution.Accords

open Resolution

mutual

/-- Resolution goes through accords expressions alike. -/
theorem Expr.resolve_match (inside : ClassContext) :
    ∀ (expression other : Expr) {state image : Resolution},
      expression.Matches correspondence marks other → Accords correspondence marks state image →
      Accords correspondence marks (expression.resolve inside state) (other.resolve inside image)
  | .literal _, _, _, _, rfl, accords => accords
  | .grouping inner, _, _, _, ⟨other, rfl, like⟩, accords =>
    inner.resolve_match inside other like accords
  | .unary _ operand, _, _, _, ⟨other, rfl, like⟩, accords =>
    operand.resolve_match inside other like accords
  | .binary left _ right, _, _, _, ⟨first, second, rfl, head, tail⟩, accords
  | .logical left _ right, _, _, _, ⟨first, second, rfl, head, tail⟩, accords =>
    right.resolve_match inside second tail (left.resolve_match inside first head accords)
  | .reference id name, _, _, _, ⟨otherId, spelled, rfl, _⟩, accords =>
    accords.locate id otherId name spelled
  | .assign id name value, _, _, _, ⟨otherId, spelled, other, rfl, _, like⟩, accords =>
    (value.resolve_match inside other like accords).locate id otherId name spelled
  | .call callee _ arguments, _, _, _, ⟨first, others, rfl, head, tail⟩, accords =>
    Expr.resolveAll_match inside arguments others tail
      (callee.resolve_match inside first head accords)
  | .get object _, _, _, _, ⟨other, rfl, like⟩, accords =>
    object.resolve_match inside other like accords
  | .set object _ value, _, _, _, ⟨first, second, rfl, head, tail⟩, accords =>
    object.resolve_match inside first head (value.resolve_match inside second tail accords)
  | .this id keyword, _, _, _, ⟨otherId, spelled, rfl, _⟩, accords => by
    cases inside with
    | outside => exact accords.reportAt keyword spelled _
    | base | derived => exact accords.locate id otherId keyword spelled
  | .super id keyword _, _, _, _, ⟨otherId, spelled, rfl, _⟩, accords => by
    cases inside with
    | outside | base => exact accords.reportAt keyword spelled _
    | derived => exact accords.locate id otherId keyword spelled

/-- Matching expressions resolve in accord. -/
theorem Expr.resolveAll_match (inside : ClassContext) :
    ∀ (expressions others : List Expr) {state image : Resolution},
      Expr.MatchesAll correspondence marks expressions others →
      Accords correspondence marks state image →
      Accords correspondence marks (Expr.resolveAll inside expressions state)
        (Expr.resolveAll inside others image)
  | [], _, _, _, rfl, accords => accords
  | first :: rest, _, _, _, ⟨other, others, rfl, head, tail⟩, accords =>
    Expr.resolveAll_match inside rest others tail (first.resolve_match inside other head accords)

end

/-- Matching optional expressions resolve in accord. -/
theorem Expr.resolveOptional_match (inside : ClassContext) {value other : Option Expr}
    {state image : Resolution} (like : Expr.MatchesOptional correspondence marks value other)
    (accords : Accords correspondence marks state image) :
    Accords correspondence marks (Expr.resolveOptional inside value state)
      (Expr.resolveOptional inside other image) := by
  cases value with
  | none =>
    obtain rfl : other = none := like
    exact accords
  | some value =>
    obtain ⟨other, rfl, like⟩ := like
    exact value.resolve_match inside other like accords

/-- An optional expression is matched by none only if it is none. -/
theorem Expr.MatchesOptional.isSome {value other : Option Expr}
    (like : Expr.MatchesOptional correspondence marks value other) :
    other.isSome = value.isSome := by
  cases value with
  | none =>
    obtain rfl : other = none := like
    rfl
  | some value =>
    obtain ⟨other, rfl, _⟩ := like
    rfl

mutual

/-- Resolution goes through accords statements alike. -/
theorem Stmt.resolve_match (within : FunctionContext) (inside : ClassContext)
    {marks : List Bool} :
    ∀ (statement other : Stmt) {state image : Resolution},
      statement.Matches correspondence marks other → Accords correspondence marks state image →
      Accords correspondence marks (statement.resolve within inside state)
        (other.resolve within inside image)
  | .expression value, _, _, _, ⟨other, rfl, like⟩, accords
  | .print _ value, _, _, _, ⟨other, rfl, like⟩, accords =>
    value.resolve_match inside other like accords
  | .declare name _, _, _, _, ⟨_, _, rfl, declares, like⟩, accords =>
    declares.spelled ▸
      (Expr.resolveOptional_match inside like (accords.declare declares)).bind name.lexeme
  | .block body, _, _, _, ⟨mark, others, rfl, like⟩, accords =>
    (Stmt.resolveAll_match within inside body others like (accords.openScope mark)).closeScope
  | .branch condition whenTrue none, _, _, _, ⟨test, other, rfl, head, tail⟩, accords =>
    whenTrue.resolve_match within inside other tail
      (condition.resolve_match inside test head accords)
  | .branch condition whenTrue (some whenFalse), _, _, _,
      ⟨test, first, second, rfl, head, middle, tail⟩, accords =>
    whenFalse.resolve_match within inside second tail
      (whenTrue.resolve_match within inside first middle
        (condition.resolve_match inside test head accords))
  | .loop condition body, _, _, _, ⟨test, other, rfl, head, tail⟩, accords =>
    body.resolve_match within inside other tail (condition.resolve_match inside test head accords)
  | .function declaration, _, _, _, ⟨other, rfl, declares, like⟩, accords =>
    declaration.resolve_match .function inside other like
      (accords.introduce (like.name ▸ declares))
  | .return keyword _, _, _, _, ⟨_, rfl, like⟩, accords =>
    Expr.resolveOptional_match inside like (accords.checkReturn within keyword like.isSome)
  | .class _ none methods, _, _, _, ⟨others, rfl, declares, like⟩, accords =>
    (FunctionDecl.resolveMethods_match .base methods others like
      (((accords.introduce declares).openScope false).bind "this")).closeScope
  | .class _ (some superclass) methods, _, _, _, ⟨parent, others, rfl, declares, head, tail⟩,
      accords =>
    have introduced := (accords.introduce declares).checkSuperclass declares head
    have located := superclass.resolve_match .derived parent head introduced
    (FunctionDecl.resolveMethods_match .derived methods others tail
      ((((located.openScope false).bind "super").openScope false).bind
        "this")).closeScope.closeScope
termination_by structural statement => statement

/-- Matching statements resolve in accord. -/
theorem Stmt.resolveAll_match (within : FunctionContext) (inside : ClassContext)
    {marks : List Bool} :
    ∀ (statements others : List Stmt) {state image : Resolution},
      Stmt.MatchesAll correspondence marks statements others →
      Accords correspondence marks state image →
      Accords correspondence marks (Stmt.resolveAll within inside statements state)
        (Stmt.resolveAll within inside others image)
  | [], _, _, _, rfl, accords => accords
  | first :: rest, _, _, _, ⟨other, others, rfl, head, tail⟩, accords =>
    Stmt.resolveAll_match within inside rest others tail
      (first.resolve_match within inside other head accords)
termination_by structural statements => statements

/-- Matching functions resolve in accord. -/
theorem FunctionDecl.resolve_match (within : FunctionContext) (inside : ClassContext)
    {marks : List Bool} :
    ∀ (declaration other : FunctionDecl) {state image : Resolution},
      declaration.Matches correspondence marks other → Accords correspondence marks state image →
      Accords correspondence marks (declaration.resolve within inside state)
        (other.resolve within inside image)
  | .mk _ _ body, _, _, _, ⟨outer, inner, others, rfl, visible, like⟩, accords =>
    have entered := (accords.openScope outer).introduceAll visible
    (Stmt.resolveAll_match within inside body others like
      (entered.openScope inner)).closeScope.closeScope
termination_by structural declaration => declaration

/-- Matching methods resolve in accord. -/
theorem FunctionDecl.resolveMethods_match (inside : ClassContext) {marks : List Bool} :
    ∀ (methods others : List FunctionDecl) {state image : Resolution},
      FunctionDecl.MatchesAll correspondence marks methods others →
      Accords correspondence marks state image →
      Accords correspondence marks (FunctionDecl.resolveMethods inside methods state)
        (FunctionDecl.resolveMethods inside others image)
  | [], _, _, _, rfl, accords => accords
  | first :: rest, _, _, _, ⟨other, others, rfl, head, tail⟩, accords => by
    have same : FunctionContext.ofMethod other = .ofMethod first := by
      rw [FunctionContext.ofMethod, FunctionContext.ofMethod, head.name]
    simp only [FunctionDecl.resolveMethods, same]
    exact FunctionDecl.resolveMethods_match inside rest others tail
      (first.resolve_match _ inside other head accords)
termination_by structural methods => methods

end

/-- A program that matches one that keeps all static rules keeps them too. -/
theorem resolve_errors_match {program other : List Stmt}
    (like : Stmt.MatchesAll correspondence marks program other)
    (clean : (resolve program).errors = []) : (resolve other).errors = [] :=
  (Stmt.resolveAll_match .outside .outside program other like (.start marks)).errors clean

end LoxLang
