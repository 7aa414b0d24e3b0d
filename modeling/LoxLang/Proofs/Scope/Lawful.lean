import LoxLang.Proofs.Scope.Occurrences

/-!
# Programs without violations

Scope resolution keeps reporting while it walks, so a program in which it reports nothing keeps
every static rule everywhere: `this` stands in classes, `super` in classes that have a superclass,
`return` in functions, and no scope gains a name twice. `Lawful` says so by recursion on the tree.
-/

namespace LoxLang

/-- A name that the innermost scope does not have; the outermost level is no scope. -/
def Chain.Fresh : Chain → String → Prop
  | [], _ => True
  | names :: _, name => name ∉ names

mutual

/-- An expression that keeps the static rules in a class context. -/
def Expr.Lawful (inside : ClassContext) : Expr → Prop
  | .literal _ => True
  | .grouping inner => inner.Lawful inside
  | .unary _ operand => operand.Lawful inside
  | .binary left _ right => left.Lawful inside ∧ right.Lawful inside
  | .logical left _ right => left.Lawful inside ∧ right.Lawful inside
  | .reference _ _ => True
  | .assign _ _ value => value.Lawful inside
  | .call callee _ arguments => callee.Lawful inside ∧ Expr.LawfulAll inside arguments
  | .get object _ => object.Lawful inside
  | .set object _ value => value.Lawful inside ∧ object.Lawful inside
  | .this _ _ => inside ≠ .outside
  | .super _ _ _ => inside = .derived

/-- Several expressions that keep the static rules. -/
def Expr.LawfulAll (inside : ClassContext) : List Expr → Prop
  | [] => True
  | first :: rest => first.Lawful inside ∧ Expr.LawfulAll inside rest

end

/-- An expression that keeps the static rules, if there is one. -/
def Expr.LawfulOptional (inside : ClassContext) : Option Expr → Prop
  | none => True
  | some value => value.Lawful inside

mutual

/-- A statement that keeps the static rules in a chain of scopes. -/
def Stmt.Lawful (within : FunctionContext) (inside : ClassContext) (chain : Chain) : Stmt → Prop
  | .expression value => value.Lawful inside
  | .print _ value => value.Lawful inside
  | .declare name initializer =>
    chain.Fresh name.lexeme ∧ Expr.LawfulOptional inside initializer
  | .block body => Stmt.LawfulAll within inside ([] :: chain) body
  | .branch condition whenTrue none =>
    condition.Lawful inside ∧ whenTrue.Lawful within inside chain
  | .branch condition whenTrue (some whenFalse) =>
    condition.Lawful inside ∧ whenTrue.Lawful within inside chain ∧
      whenFalse.Lawful within inside (whenTrue.chainAfter chain)
  | .loop condition body => condition.Lawful inside ∧ body.Lawful within inside chain
  | .function declaration =>
    chain.Fresh declaration.name.lexeme ∧
      declaration.Lawful .function inside (chain.define declaration.name.lexeme)
  | .return _ value => within ≠ .outside ∧ Expr.LawfulOptional inside value
  | .class name none methods =>
    chain.Fresh name.lexeme ∧
      FunctionDecl.LawfulAll .base ((chain.define name.lexeme).enterClass .base) methods
  | .class name (some superclass) methods =>
    chain.Fresh name.lexeme ∧ superclass.Lawful .derived ∧
      FunctionDecl.LawfulAll .derived ((chain.define name.lexeme).enterClass .derived) methods

/-- Several statements that keep the static rules, each in the scopes that those before it leave. -/
def Stmt.LawfulAll (within : FunctionContext) (inside : ClassContext) (chain : Chain) :
    List Stmt → Prop
  | [] => True
  | first :: rest =>
    first.Lawful within inside chain ∧
      Stmt.LawfulAll within inside (first.chainAfter chain) rest

/-- A function that keeps the static rules and has different names for its parameters. -/
def FunctionDecl.Lawful (within : FunctionContext) (inside : ClassContext) (chain : Chain) :
    FunctionDecl → Prop
  | .mk _ parameters body =>
    (parameters.map Token.lexeme).Nodup ∧
      Stmt.LawfulAll within inside (chain.enterFunction parameters) body

/-- Methods that keep the static rules. -/
def FunctionDecl.LawfulAll (inside : ClassContext) (chain : Chain) : List FunctionDecl → Prop
  | [] => True
  | first :: rest =>
    first.Lawful (.ofMethod first) inside chain ∧ FunctionDecl.LawfulAll inside chain rest

end

/-- A scope has exactly these names, declared or defined. -/
def Scope.Has (scope : Scope) (names : List String) : Prop :=
  ∀ name, scope.contains name = true ↔ name ∈ names

/-- Scopes have exactly the names of a chain. -/
def Chain.HeldBy : Chain → List Scope → Prop
  | [], [] => True
  | names :: chain, scope :: scopes => scope.Has names ∧ HeldBy chain scopes
  | _, _ => False

namespace Chain

variable {chain : Chain} {name : String}

/-- A name that is inserted into the innermost scope is in it. -/
theorem HeldBy.insert {scope : Scope} {scopes : List Scope} {names : List String}
    (held : HeldBy (names :: chain) (scope :: scopes)) (name : String) (defined : Bool) :
    (define (names :: chain) name).HeldBy (scope.insert name defined :: scopes) := by
  refine ⟨fun wanted => ?_, held.2⟩
  rw [Std.TreeMap.contains_insert, List.mem_cons]
  by_cases same : name = wanted
  · simp [same]
  · simpa [same, Ne.symm same] using held.1 wanted

/-- A name that is defined twice in a row is defined. -/
theorem HeldBy.define_define {scopes : List Scope}
    (held : ((chain.define name).define name).HeldBy scopes) :
    (chain.define name).HeldBy scopes := by
  cases chain with
  | nil => exact held
  | cons names chain =>
    cases scopes with
    | nil => exact held.elim
    | cons scope scopes => exact ⟨fun wanted => by simpa using held.1 wanted, held.2⟩

end Chain

/-- A step of resolution that reports nothing keeps a rule; its scopes have the names of a chain
before it and those of another one behind it. -/
structure Resolution.Obeys (step : Resolution → Resolution) (chain final : Chain) (rule : Prop) :
    Prop where
  /-- No report is taken back. -/
  faithful : ∀ state, (step state).errors = [] → state.errors = []
  kept : ∀ state, chain.HeldBy state.scopes → (step state).errors = [] →
    rule ∧ final.HeldBy (step state).scopes

namespace Resolution.Obeys

variable {first second : Resolution → Resolution} {chain middle final : Chain} {rule further : Prop}

/-- Steps keep their rules one after the other. -/
theorem comp (head : Obeys first chain middle rule) (tail : Obeys second middle final further) :
    Obeys (fun state => second (first state)) chain final (rule ∧ further) where
  faithful := fun state clean => head.faithful state (tail.faithful _ clean)
  kept := by
    intro state held clean
    obtain ⟨early, between⟩ := head.kept state held (tail.faithful _ clean)
    obtain ⟨late, after⟩ := tail.kept _ between clean
    exact ⟨⟨early, late⟩, after⟩

/-- A rule may be weakened. -/
theorem mono (obeys : Obeys first chain final rule) (weaker : rule → further) :
    Obeys first chain final further where
  faithful := obeys.faithful
  kept := fun state held clean => (obeys.kept state held clean).imp_left weaker

/-- A step that changes neither scopes nor violations. -/
theorem unchanged (scopes : ∀ state, (first state).scopes = state.scopes)
    (errors : ∀ state, (first state).errors = state.errors) : Obeys first chain chain True where
  faithful := fun state clean => errors state ▸ clean
  kept := fun state held _ => ⟨trivial, by rwa [scopes state]⟩

/-- Doing nothing has no rule to keep. -/
theorem refl : Obeys (fun state => state) chain chain True :=
  unchanged (fun _ => rfl) fun _ => rfl

/-- A report breaks every rule. -/
theorem reportAt (token : Token) (violation : Violation) :
    Obeys (·.reportAt token violation) chain chain False where
  faithful := fun state clean => by simp [Resolution.reportAt] at clean
  kept := fun state _ clean => by simp [Resolution.reportAt] at clean

/-- Opening a scope has no rule to keep. -/
theorem openScope : Obeys Resolution.openScope chain ([] :: chain) True where
  faithful := fun _ clean => clean
  kept := fun _ held _ => ⟨trivial, fun name => by simp, held⟩

/-- Closing a scope has no rule to keep. -/
theorem closeScope {names : List String} :
    Obeys Resolution.closeScope (names :: chain) chain True where
  faithful := fun _ clean => clean
  kept := by
    intro state held _
    unfold Resolution.closeScope
    cases scopes : state.scopes with
    | nil =>
      rw [scopes] at held
      exact held.elim
    | cons scope outer =>
      rw [scopes] at held
      exact ⟨trivial, held.2⟩

/-- Binding a name has no rule to keep. -/
theorem bind (name : String) : Obeys (·.bind name) chain (chain.define name) True where
  faithful := by
    intro state clean
    unfold Resolution.bind at clean
    split at clean <;> exact clean
  kept := by
    intro state held _
    refine ⟨trivial, ?_⟩
    unfold Resolution.bind
    cases chain with
    | nil =>
      cases scopes : state.scopes with
      | nil =>
        rw [scopes] at held
        simp only [scopes, Chain.define]
        exact held
      | cons scope outer =>
        rw [scopes] at held
        exact held.elim
    | cons names chain =>
      cases scopes : state.scopes with
      | nil =>
        rw [scopes] at held
        exact held.elim
      | cons scope outer =>
        rw [scopes] at held
        exact held.insert name true

/-- A declaration that is not reported is fresh in its scope. -/
theorem declare (name : Token) :
    Obeys (·.declare name) chain (chain.define name.lexeme) (chain.Fresh name.lexeme) where
  faithful := by
    intro state clean
    unfold Resolution.declare at clean
    split at clean
    · exact clean
    · split at clean
      · simp [Resolution.reportAt] at clean
      · exact clean
  kept := by
    intro state held clean
    unfold Resolution.declare at clean ⊢
    cases chain with
    | nil =>
      cases scopes : state.scopes with
      | nil =>
        rw [scopes] at held
        simp only [scopes, Chain.define]
        exact ⟨trivial, held⟩
      | cons scope outer =>
        rw [scopes] at held
        exact held.elim
    | cons names chain =>
      cases scopes : state.scopes with
      | nil =>
        rw [scopes] at held
        exact held.elim
      | cons scope outer =>
        rw [scopes] at held
        by_cases known : scope.contains name.lexeme = true
        · simp [scopes, known, Resolution.reportAt] at clean
        · simp only [known, Bool.false_eq_true, if_false]
          exact ⟨fun member => known ((held.1 _).mpr member), held.insert name.lexeme false⟩

/-- A declared name is defined. -/
theorem define (name : String) :
    Obeys (·.bind name) (chain.define name) (chain.define name) True where
  faithful := (Obeys.bind name : Obeys _ chain _ True).faithful
  kept := fun state held clean =>
    ((Obeys.bind name).kept state held clean).imp_right Chain.HeldBy.define_define

/-- A name that is introduced without a report is fresh in its scope. -/
theorem introduce (name : Token) :
    Obeys (·.introduce name) chain (chain.define name.lexeme) (chain.Fresh name.lexeme) :=
  ((declare name).comp (define name.lexeme)).mono And.left

/-- Locating a reference has no rule to keep. -/
theorem locate (id : Nat) (name : Token) : Obeys (·.locate id name) chain chain True := by
  refine unchanged (fun state => ?_) fun state => ?_ <;> unfold Resolution.locate <;> split <;> rfl

/-- A `return` that is not reported stands in a function. -/
theorem checkReturn (within : FunctionContext) (keyword : Token) (value : Option Expr) :
    Obeys (·.checkReturn within keyword value) chain chain (within ≠ .outside) := by
  unfold Resolution.checkReturn
  split
  · exact (reportAt keyword _).mono nofun
  · exact (reportAt keyword _).mono nofun
  · rename_i inside _
    exact refl.mono fun _ => inside

/-- The check of a superclass leaves the scopes. -/
theorem checkSuperclass (name : Token) (superclass : Expr) :
    Obeys (·.checkSuperclass name superclass) chain chain True := by
  unfold Resolution.checkSuperclass
  split
  · split
    · exact (reportAt _ _).mono nofun
    · exact refl
  · exact refl

/-- A scope is opened for a while. -/
theorem enclosed {names : List String} (inner : Obeys first ([] :: chain) (names :: chain) rule) :
    Obeys (fun state => (first state.openScope).closeScope) chain chain rule :=
  ((openScope.comp inner).comp closeScope).mono fun rules => rules.1.2

/-- Parameters differ from each other and from the names that their scope has. -/
theorem parameters (names : List Token) (given : List String) (chain : Chain) :
    Obeys (fun state => names.foldl Resolution.introduce state) (given :: chain)
      (((names.map Token.lexeme).reverse ++ given) :: chain)
      ((names.map Token.lexeme).Nodup ∧ ∀ name ∈ names.map Token.lexeme, name ∉ given) := by
  induction names generalizing given with
  | nil => exact refl.mono fun _ => ⟨List.nodup_nil, List.forall_mem_nil _⟩
  | cons name names inductionHypothesis =>
    have head : Obeys (·.introduce name) (given :: chain) ((name.lexeme :: given) :: chain)
        (name.lexeme ∉ given) := introduce name
    have walked := head.comp (inductionHypothesis (name.lexeme :: given))
    rw [List.map_cons, List.reverse_cons, List.append_assoc]
    refine walked.mono ?_
    rintro ⟨fresh, distinct, others⟩
    refine ⟨List.nodup_cons.mpr ⟨fun member => ?_, distinct⟩, List.forall_mem_cons.mpr ⟨fresh, ?_⟩⟩
    · exact others _ member List.mem_cons_self
    · exact fun other member known => others other member (List.mem_cons_of_mem _ known)

end Resolution.Obeys

open Resolution

mutual

/-- Resolution that reports nothing in an expression found it lawful. -/
theorem Expr.resolve_obeys (inside : ClassContext) (chain : Chain) :
    ∀ expression : Expr,
      Obeys (expression.resolve inside) chain chain (expression.Lawful inside)
  | .literal _ => .refl
  | .grouping inner => inner.resolve_obeys inside chain
  | .unary _ operand => operand.resolve_obeys inside chain
  | .binary left _ right | .logical left _ right =>
    (left.resolve_obeys inside chain).comp (right.resolve_obeys inside chain)
  | .reference id name => .locate id name
  | .assign id name value =>
    ((value.resolve_obeys inside chain).comp (.locate id name)).mono And.left
  | .call callee _ arguments =>
    (callee.resolve_obeys inside chain).comp (Expr.resolveAll_obeys inside chain arguments)
  | .get object _ => object.resolve_obeys inside chain
  | .set object _ value =>
    (value.resolve_obeys inside chain).comp (object.resolve_obeys inside chain)
  | .this id keyword => by
    cases inside with
    | outside => exact (Obeys.reportAt keyword _).mono nofun
    | base | derived => exact (Obeys.locate id keyword).mono fun _ => nofun
  | .super id keyword _ => by
    cases inside with
    | outside | base => exact (Obeys.reportAt keyword _).mono nofun
    | derived => exact (Obeys.locate id keyword).mono fun _ => rfl

/-- Resolution that reports nothing in several expressions found them lawful. -/
theorem Expr.resolveAll_obeys (inside : ClassContext) (chain : Chain) :
    ∀ expressions : List Expr,
      Obeys (Expr.resolveAll inside expressions) chain chain (Expr.LawfulAll inside expressions)
  | [] => .refl
  | first :: rest =>
    (first.resolve_obeys inside chain).comp (Expr.resolveAll_obeys inside chain rest)

end

/-- An optional expression without a report is lawful. -/
theorem Expr.resolveOptional_obeys (inside : ClassContext) (chain : Chain) (value : Option Expr) :
    Obeys (Expr.resolveOptional inside value) chain chain (Expr.LawfulOptional inside value) := by
  cases value with
  | none => exact .refl
  | some value => exact value.resolve_obeys inside chain

mutual

/-- Resolution that reports nothing in a statement found it lawful. -/
theorem Stmt.resolve_obeys (within : FunctionContext) (inside : ClassContext) (chain : Chain) :
    ∀ statement : Stmt, Obeys (statement.resolve within inside) chain (statement.chainAfter chain)
      (statement.Lawful within inside chain)
  | .expression value => value.resolve_obeys inside chain
  | .print _ value => value.resolve_obeys inside chain
  | .declare name initializer =>
    (((Obeys.declare name).comp (Expr.resolveOptional_obeys inside _ initializer)).comp
      (.define name.lexeme)).mono And.left
  | .block body => by
    have inner := Stmt.resolveAll_obeys within inside ([] :: chain) body
    obtain ⟨names, after⟩ := Stmt.chainAfterAll_cons chain body []
    rw [after] at inner
    exact inner.enclosed
  | .branch condition whenTrue none =>
    (condition.resolve_obeys inside chain).comp (whenTrue.resolve_obeys within inside chain)
  | .branch condition whenTrue (some whenFalse) =>
    (((condition.resolve_obeys inside chain).comp
      (whenTrue.resolve_obeys within inside chain)).comp
      (whenFalse.resolve_obeys within inside _)).mono
        fun rules => ⟨rules.1.1, rules.1.2, rules.2⟩
  | .loop condition body =>
    (condition.resolve_obeys inside chain).comp (body.resolve_obeys within inside chain)
  | .function declaration =>
    (Obeys.introduce declaration.name).comp (declaration.resolve_obeys .function inside _)
  | .return keyword value =>
    (Obeys.checkReturn within keyword value).comp
      (Expr.resolveOptional_obeys inside chain value)
  | .class name none methods =>
    (Obeys.introduce name).comp (.enclosed (((Obeys.bind "this").comp
      (FunctionDecl.resolveMethods_obeys .base _ methods)).mono And.right))
  | .class name (some superclass) methods => by
    have members := ((Obeys.bind "this").comp (FunctionDecl.resolveMethods_obeys .derived
      ((chain.define name.lexeme).enterClass .derived) methods)).enclosed
    have outer := ((Obeys.bind "super").comp members).enclosed
    have parent := ((Obeys.introduce name).comp (.checkSuperclass name superclass)).comp
      (superclass.resolve_obeys .derived (chain.define name.lexeme))
    exact (parent.comp outer).mono fun rules => ⟨rules.1.1.1, rules.1.2, rules.2.2.2⟩

/-- Resolution that reports nothing in several statements found them lawful. -/
theorem Stmt.resolveAll_obeys (within : FunctionContext) (inside : ClassContext) (chain : Chain) :
    ∀ statements : List Stmt, Obeys (Stmt.resolveAll within inside statements) chain
      (Stmt.chainAfterAll statements chain) (Stmt.LawfulAll within inside chain statements)
  | [] => .refl
  | first :: rest =>
    (first.resolve_obeys within inside chain).comp (Stmt.resolveAll_obeys within inside _ rest)

/-- Resolution that reports nothing in a function found it lawful. -/
theorem FunctionDecl.resolve_obeys (within : FunctionContext) (inside : ClassContext)
    (chain : Chain) :
    ∀ declaration : FunctionDecl, Obeys (declaration.resolve within inside) chain chain
      (declaration.Lawful within inside chain)
  | .mk _ parameters body => by
    have inner := Stmt.resolveAll_obeys within inside (chain.enterFunction parameters) body
    unfold FunctionDecl.Lawful
    unfold Chain.enterFunction at inner ⊢
    rw [Chain.parameters_cons] at inner ⊢
    obtain ⟨names, after⟩ := Stmt.chainAfterAll_cons
      (((parameters.map Token.lexeme).reverse ++ []) :: chain) body []
    rw [after] at inner
    exact ((Obeys.parameters parameters [] chain).comp inner.enclosed).enclosed.mono
      fun rules => ⟨rules.1.1, rules.2⟩

/-- Resolution that reports nothing in methods found them lawful. -/
theorem FunctionDecl.resolveMethods_obeys (inside : ClassContext) (chain : Chain) :
    ∀ declarations : List FunctionDecl,
      Obeys (FunctionDecl.resolveMethods inside declarations) chain chain
        (FunctionDecl.LawfulAll inside chain declarations)
  | [] => .refl
  | first :: rest =>
    (first.resolve_obeys _ inside chain).comp (FunctionDecl.resolveMethods_obeys inside chain rest)

end

/-- A program in which resolution reports nothing is lawful. -/
theorem resolve_lawful {program : List Stmt} (clean : (resolve program).errors = []) :
    Stmt.LawfulAll .outside .outside [] program :=
  ((Stmt.resolveAll_obeys .outside .outside [] program).kept .start trivial clean).1

end LoxLang
