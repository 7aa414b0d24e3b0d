import LoxLang.Proofs.Scope.Occurrences
import LoxLang.Proofs.Tree.Moved

/-!
# Resolution of moved trees

Scope resolution looks at the spelling of names only. So it goes through a moved tree as through the
tree itself: it opens the same scopes and reports the same violations, further down. Identities are
only looked at where distances are recorded.
-/

namespace LoxLang

/-- The same violation further down. -/
def ResolveError.moved (lines : Nat) (error : ResolveError) : ResolveError :=
  { error with token := error.token.moved lines }

/-- A resolution of moved trees that has come as far as one of the trees themselves. -/
structure Resolution.Mirrors (shift : Shift) (state image : Resolution) : Prop where
  scopes : image.scopes = state.scopes
  errors : image.errors = state.errors.map (ResolveError.moved shift.lines)
  distances : shift.ids = 0 → image.distances = state.distances

namespace Resolution.Mirrors

variable {shift : Shift} {state image : Resolution}

/-- The fresh resolutions mirror one another. -/
theorem start (shift : Shift) : Mirrors shift .start .start :=
  ⟨rfl, rfl, fun _ => rfl⟩

/-- A violation is reported at the moved token. -/
theorem reportAt (mirrors : Mirrors shift state image) (token : Token) (violation : Violation) :
    Mirrors shift (state.reportAt token violation)
      (image.reportAt (token.moved shift.lines) violation) where
  scopes := mirrors.scopes
  errors := by simp [Resolution.reportAt, mirrors.errors, ResolveError.moved]
  distances := mirrors.distances

/-- Scopes hold names only, so they may be replaced on both sides. -/
theorem withScopes (mirrors : Mirrors shift state image) (scopes : List Scope) :
    Mirrors shift { state with scopes } { image with scopes } :=
  ⟨rfl, mirrors.errors, mirrors.distances⟩

/-- A scope is opened on both sides. -/
theorem openScope (mirrors : Mirrors shift state image) :
    Mirrors shift state.openScope image.openScope := by
  unfold Resolution.openScope
  rw [mirrors.scopes]
  exact mirrors.withScopes _

/-- A scope is closed on both sides. -/
theorem closeScope (mirrors : Mirrors shift state image) :
    Mirrors shift state.closeScope image.closeScope := by
  unfold Resolution.closeScope
  rw [mirrors.scopes]
  exact mirrors.withScopes _

/-- A name is bound on both sides. -/
theorem bind (mirrors : Mirrors shift state image) (name : String) :
    Mirrors shift (state.bind name) (image.bind name) := by
  unfold Resolution.bind
  rw [mirrors.scopes]
  cases state.scopes with
  | nil => exact mirrors
  | cons scope outer => exact mirrors.withScopes _

/-- A name is declared on both sides; a violation stands at the moved token. -/
theorem declare (mirrors : Mirrors shift state image) (name : Token) :
    Mirrors shift (state.declare name) (image.declare (name.moved shift.lines)) := by
  unfold Resolution.declare
  rw [mirrors.scopes, Token.moved_lexeme]
  cases state.scopes with
  | nil => exact mirrors
  | cons scope outer =>
    dsimp only
    split
    · exact mirrors.reportAt name _
    · exact mirrors.withScopes _

/-- A name is declared and completed on both sides. -/
theorem introduce (mirrors : Mirrors shift state image) (name : Token) :
    Mirrors shift (state.introduce name) (image.introduce (name.moved shift.lines)) :=
  (mirrors.declare name).bind _

/-- Parameters are introduced on both sides. -/
theorem introduceAll (mirrors : Mirrors shift state image) (names : List Token) :
    Mirrors shift (names.foldl Resolution.introduce state)
      ((names.map (Token.moved shift.lines)).foldl Resolution.introduce image) := by
  induction names generalizing state image with
  | nil => exact mirrors
  | cons first rest inductionHypothesis => exact inductionHypothesis (mirrors.introduce first)

/-- A moved reference is located at the same distance, under its moved id. -/
theorem locate (mirrors : Mirrors shift state image) (id : Nat) (name : Token) :
    Mirrors shift (state.locate id name)
      (image.locate (id + shift.ids) (name.moved shift.lines)) := by
  unfold Resolution.locate
  rw [mirrors.scopes, Token.moved_lexeme]
  cases distance? state.scopes name.lexeme with
  | none => exact mirrors
  | some distance =>
    refine ⟨rfl, mirrors.errors, fun same => ?_⟩
    simp only [same, mirrors.distances same, Nat.add_zero]

/-- The check of a `return` finds the same on both sides. -/
theorem checkReturn (mirrors : Mirrors shift state image) (within : FunctionContext)
    (keyword : Token) (value : Option Expr) :
    Mirrors shift (state.checkReturn within keyword value)
      (image.checkReturn within (keyword.moved shift.lines) (value.map (Expr.moved shift))) := by
  unfold Resolution.checkReturn
  cases within with
  | outside => exact mirrors.reportAt keyword _
  | initializer =>
    cases value with
    | none => exact mirrors
    | some value => exact mirrors.reportAt keyword _
  | function | method => exact mirrors

/-- The check of a superclass compares lexemes, which do not move. -/
theorem checkSuperclass (mirrors : Mirrors shift state image) (name : Token) (superclass : Expr) :
    Mirrors shift (state.checkSuperclass name superclass)
      (image.checkSuperclass (name.moved shift.lines) (superclass.moved shift)) := by
  cases superclass with
  | reference id parent =>
    change Mirrors shift (if parent.lexeme = name.lexeme then _ else _)
      (if parent.lexeme = name.lexeme then _ else _)
    by_cases same : parent.lexeme = name.lexeme
    · rw [if_pos same, if_pos same]
      exact mirrors.reportAt parent _
    · rw [if_neg same, if_neg same]
      exact mirrors
  | _ => exact mirrors

end Resolution.Mirrors

open Resolution

mutual

/-- Resolution goes through a moved expression as through the expression itself. -/
theorem Expr.resolve_mirrors {shift : Shift} (inside : ClassContext) :
    ∀ (expression : Expr) {state image : Resolution}, Mirrors shift state image →
      Mirrors shift (expression.resolve inside state)
        ((expression.moved shift).resolve inside image)
  | .literal _, _, _, mirrors => mirrors
  | .grouping inner, _, _, mirrors => inner.resolve_mirrors inside mirrors
  | .unary _ operand, _, _, mirrors => operand.resolve_mirrors inside mirrors
  | .binary left _ right, _, _, mirrors | .logical left _ right, _, _, mirrors =>
    right.resolve_mirrors inside (left.resolve_mirrors inside mirrors)
  | .reference id name, _, _, mirrors => mirrors.locate id name
  | .assign id name value, _, _, mirrors => (value.resolve_mirrors inside mirrors).locate id name
  | .call callee _ arguments, _, _, mirrors =>
    Expr.resolveAll_mirrors inside arguments (callee.resolve_mirrors inside mirrors)
  | .get object _, _, _, mirrors => object.resolve_mirrors inside mirrors
  | .set object _ value, _, _, mirrors =>
    object.resolve_mirrors inside (value.resolve_mirrors inside mirrors)
  | .this id keyword, _, _, mirrors => by
    cases inside with
    | outside => exact mirrors.reportAt keyword _
    | base | derived => exact mirrors.locate id keyword
  | .super id keyword _, _, _, mirrors => by
    cases inside with
    | outside | base => exact mirrors.reportAt keyword _
    | derived => exact mirrors.locate id keyword

/-- Moved expressions resolve to the mirror of the resolution. -/
theorem Expr.resolveAll_mirrors {shift : Shift} (inside : ClassContext) :
    ∀ (expressions : List Expr) {state image : Resolution}, Mirrors shift state image →
      Mirrors shift (Expr.resolveAll inside expressions state)
        (Expr.resolveAll inside (Expr.movedAll shift expressions) image)
  | [], _, _, mirrors => mirrors
  | first :: rest, _, _, mirrors =>
    Expr.resolveAll_mirrors inside rest (first.resolve_mirrors inside mirrors)

end

/-- A moved optional expression resolves to the mirror of the resolution. -/
theorem Expr.resolveOptional_mirrors {shift : Shift} (inside : ClassContext)
    (value : Option Expr) {state image : Resolution} (mirrors : Mirrors shift state image) :
    Mirrors shift (Expr.resolveOptional inside value state)
      (Expr.resolveOptional inside (value.map (Expr.moved shift)) image) := by
  cases value with
  | none => exact mirrors
  | some value => exact value.resolve_mirrors inside mirrors

/-- Whether a method is an initializer is read off its lexeme. -/
theorem FunctionContext.ofMethod_moved (shift : Shift) (method : FunctionDecl) :
    FunctionContext.ofMethod (method.moved shift) = FunctionContext.ofMethod method := by
  unfold FunctionContext.ofMethod
  rw [FunctionDecl.relabelled_name, Shift.relabelling_token, Token.moved_lexeme]

mutual

/-- Resolution goes through a moved statement as through the statement itself. -/
theorem Stmt.resolve_mirrors {shift : Shift} (within : FunctionContext) (inside : ClassContext) :
    ∀ (statement : Stmt) {state image : Resolution}, Mirrors shift state image →
      Mirrors shift (statement.resolve within inside state)
        ((statement.moved shift).resolve within inside image)
  | .expression value, _, _, mirrors => value.resolve_mirrors inside mirrors
  | .print _ value, _, _, mirrors => value.resolve_mirrors inside mirrors
  | .declare name initializer, _, _, mirrors =>
    (Expr.resolveOptional_mirrors inside initializer (mirrors.declare name)).bind _
  | .block body, _, _, mirrors =>
    (Stmt.resolveAll_mirrors within inside body mirrors.openScope).closeScope
  | .branch condition whenTrue none, _, _, mirrors =>
    whenTrue.resolve_mirrors within inside (condition.resolve_mirrors inside mirrors)
  | .branch condition whenTrue (some whenFalse), _, _, mirrors =>
    whenFalse.resolve_mirrors within inside
      (whenTrue.resolve_mirrors within inside (condition.resolve_mirrors inside mirrors))
  | .loop condition body, _, _, mirrors =>
    body.resolve_mirrors within inside (condition.resolve_mirrors inside mirrors)
  | .function declaration, _, _, mirrors => by
    simp only [Stmt.relabelled, Stmt.resolve, FunctionDecl.relabelled_name,
      Shift.relabelling_token]
    exact declaration.resolve_mirrors .function inside (mirrors.introduce _)
  | .return keyword value, _, _, mirrors =>
    Expr.resolveOptional_mirrors inside value (mirrors.checkReturn within keyword value)
  | .class name none methods, _, _, mirrors =>
    (FunctionDecl.resolveMethods_mirrors .base methods
      ((mirrors.introduce name).openScope.bind "this")).closeScope
  | .class name (some superclass) methods, _, _, mirrors =>
    have introduced := (mirrors.introduce name).checkSuperclass name superclass
    have located := superclass.resolve_mirrors .derived introduced
    (FunctionDecl.resolveMethods_mirrors .derived methods
      ((located.openScope.bind "super").openScope.bind "this")).closeScope.closeScope

/-- Moved statements resolve to the mirror of the resolution. -/
theorem Stmt.resolveAll_mirrors {shift : Shift} (within : FunctionContext)
    (inside : ClassContext) :
    ∀ (statements : List Stmt) {state image : Resolution}, Mirrors shift state image →
      Mirrors shift (Stmt.resolveAll within inside statements state)
        (Stmt.resolveAll within inside (Stmt.movedAll shift statements) image)
  | [], _, _, mirrors => mirrors
  | first :: rest, _, _, mirrors =>
    Stmt.resolveAll_mirrors within inside rest (first.resolve_mirrors within inside mirrors)

/-- A moved function resolves to the mirror of the resolution. -/
theorem FunctionDecl.resolve_mirrors {shift : Shift} (within : FunctionContext)
    (inside : ClassContext) :
    ∀ (declaration : FunctionDecl) {state image : Resolution}, Mirrors shift state image →
      Mirrors shift (declaration.resolve within inside state)
        ((declaration.moved shift).resolve within inside image)
  | .mk _ parameters body, _, _, mirrors =>
    (Stmt.resolveAll_mirrors within inside body
      (mirrors.openScope.introduceAll parameters).openScope).closeScope.closeScope

/-- Moved methods resolve to the mirror of the resolution. -/
theorem FunctionDecl.resolveMethods_mirrors {shift : Shift} (inside : ClassContext) :
    ∀ (methods : List FunctionDecl) {state image : Resolution}, Mirrors shift state image →
      Mirrors shift (FunctionDecl.resolveMethods inside methods state)
        (FunctionDecl.resolveMethods inside (FunctionDecl.movedAll shift methods) image)
  | [], _, _, mirrors => mirrors
  | first :: rest, _, _, mirrors => by
    simp only [FunctionDecl.relabelledAll, FunctionDecl.resolveMethods]
    rw [FunctionContext.ofMethod_moved]
    exact FunctionDecl.resolveMethods_mirrors inside rest (first.resolve_mirrors _ inside mirrors)

end

/-- Moved trees break the same static rules. -/
theorem resolve_moved_errors (shift : Shift) (program : List Stmt) :
    (resolve (Stmt.movedAll shift program)).errors =
      (resolve program).errors.map (ResolveError.moved shift.lines) :=
  (Stmt.resolveAll_mirrors .outside .outside program (.start shift)).errors

/-- Moving lines alone leaves the table. -/
theorem resolve_moved_distances {shift : Shift} (same : shift.ids = 0) (program : List Stmt) :
    (resolve (Stmt.movedAll shift program)).distances = (resolve program).distances :=
  (Stmt.resolveAll_mirrors .outside .outside program (.start shift)).distances same

/-- Statements are resolved one after another. -/
theorem Stmt.resolveAll_append (within : FunctionContext) (inside : ClassContext)
    (first second : List Stmt) (state : Resolution) :
    Stmt.resolveAll within inside (first ++ second) state =
      Stmt.resolveAll within inside second (Stmt.resolveAll within inside first state) := by
  induction first generalizing state with
  | nil => rfl
  | cons head rest inductionHypothesis => exact inductionHypothesis _

/-- No scope is left open between two programs, so they are resolved one after the other as each is
resolved alone. -/
theorem resolve_append (first second : List Stmt) :
    (resolve (first ++ second)).errors = (resolve first).errors ++ (resolve second).errors ∧
      ∀ id : Nat, (resolve (first ++ second)).distances[id]? =
        (resolve second).distances[id]?.or (resolve first).distances[id]? := by
  obtain ⟨early, _, firstStep⟩ := Stmt.resolveAll_outermost first
  obtain ⟨late, _, secondStep⟩ := Stmt.resolveAll_outermost second
  have alone := firstStep .start rfl
  have behind := secondStep (Stmt.resolveAll .outside .outside first .start) (by rw [alone])
  have apart := secondStep .start rfl
  unfold resolve
  rw [Stmt.resolveAll_append, behind, alone, apart]
  refine ⟨by simp [Resolution.start], fun id => ?_⟩
  exact Occurrence.getElem?_recordAll _ _ id

end LoxLang
