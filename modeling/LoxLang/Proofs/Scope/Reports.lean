import LoxLang.Proofs.Scope.Lawful

/-!
# Every violation is reported once

`Stmt.sites` surveys a program. It lists the places that a static rule is about: every declaration
in a scope, every `return`, `this` and `super`, and every class. Each place comes with the functions
and classes around it, and a declaration also with the names that its scope declares before it.
`Site.violation?` states the rules, each as a condition on one site.

`resolve_reports_violations` compares this survey with scope resolution, which keeps the same rules
by a stack of scopes and two contexts that it sets and restores on its way: it reports one violation
for each site that breaks a rule, and no other.
-/

namespace LoxLang

/-- A function or a class around a place. -/
inductive Enclosure where
  | function (declaration : FunctionDecl)
  | method (declaration : FunctionDecl)
  /-- A class, with its superclass clause; only a name can be written there. -/
  | «class» (superclass : Option Expr)

namespace Enclosure

/-- Functions and methods are what a `return` leaves. -/
def isFunction : Enclosure → Bool
  | function _ => true
  | method _ => true
  | «class» _ => false

/-- Classes are what `this` and `super` belong to. -/
def isClass : Enclosure → Bool
  | «class» _ => true
  | _ => false

end Enclosure

/-- What a static rule can be about. -/
inductive Construct where
  /-- A variable, function, class or parameter, and what its scope declares before it. -/
  | declaration (earlier : List Token) (name : Token)
  | «return» (keyword : Token) (value : Option Expr)
  | this (keyword : Token)
  | super (keyword : Token)
  | «class» (name : Token) (superclass : Option Expr)

/-- A place in a program, with the functions and classes around it, innermost first. -/
structure Site where
  construct : Construct
  around : List Enclosure

namespace Site

/-- The innermost function or method around a site. -/
def function? (site : Site) : Option Enclosure :=
  site.around.find? Enclosure.isFunction

/-- The innermost class around a site. -/
def class? (site : Site) : Option Enclosure :=
  site.around.find? Enclosure.isClass

/-- The rule that a site breaks, if any. -/
def violation? (site : Site) : Option ResolveError :=
  match site.construct with
  | .declaration earlier name =>
    -- A scope declares a name once.
    if name.lexeme ∈ earlier.map Token.lexeme then some ⟨name, .redeclaration⟩ else none
  | .return keyword value =>
    match site.function? with
    | none => some ⟨keyword, .returnOutsideFunction⟩
    | some (.method declaration) =>
      -- A method named as the initializer returns no value.
      if declaration.name.lexeme = initializerName ∧ value.isSome then
        some ⟨keyword, .valueFromInitializer⟩
      else none
    | some _ => none
  | .this keyword =>
    match site.class? with
    | none => some ⟨keyword, .thisOutsideClass⟩
    | some _ => none
  | .super keyword =>
    match site.class? with
    | none => some ⟨keyword, .superOutsideClass⟩
    | some (.class none) => some ⟨keyword, .superWithoutSuperclass⟩
    | some _ => none
  | .class name (some (.reference _ parent)) =>
    if parent.lexeme = name.lexeme then some ⟨parent, .selfInheritance⟩ else none
  | .class _ _ => none

/-- The declarations of one scope, each with those before it. -/
def declarations (around : List Enclosure) (earlier : List Token) : List Token → List Site
  | [] => []
  | name :: rest =>
    ⟨.declaration earlier name, around⟩ :: declarations around (earlier ++ [name]) rest

end Site

mutual

/-- The sites of an expression. -/
def Expr.sites (around : List Enclosure) : Expr → List Site
  | .literal _ => []
  | .grouping inner => inner.sites around
  | .unary _ operand => operand.sites around
  | .binary left _ right => left.sites around ++ right.sites around
  | .logical left _ right => left.sites around ++ right.sites around
  | .reference _ _ => []
  | .assign _ _ value => value.sites around
  | .call callee _ arguments => callee.sites around ++ Expr.sitesAll around arguments
  | .get object _ => object.sites around
  | .set object _ value => object.sites around ++ value.sites around
  | .this _ keyword => [⟨.this keyword, around⟩]
  | .super _ keyword _ => [⟨.super keyword, around⟩]

/-- The sites of several expressions. -/
def Expr.sitesAll (around : List Enclosure) : List Expr → List Site
  | [] => []
  | first :: rest => first.sites around ++ Expr.sitesAll around rest

end

/-- The sites of an expression if there is one. -/
def Expr.sitesOptional (around : List Enclosure) : Option Expr → List Site
  | none => []
  | some value => value.sites around

/-- The names that a statement declares in the scope around it. -/
def Stmt.declarations : Stmt → List Token
  | .declare name _ => [name]
  | .function declaration => [declaration.name]
  | .class name _ _ => [name]
  | .branch _ whenTrue none => whenTrue.declarations
  | .branch _ whenTrue (some whenFalse) => whenTrue.declarations ++ whenFalse.declarations
  | .loop _ body => body.declarations
  | _ => []

/-- The names that several statements declare in the scope around them. -/
def Stmt.declarationsAll (statements : List Stmt) : List Token :=
  statements.flatMap Stmt.declarations

mutual

/-- The sites of a statement but for those names that it declares in the scope around it: they
belong to the survey of that scope. -/
def Stmt.sites (around : List Enclosure) : Stmt → List Site
  | .expression value => value.sites around
  | .print _ value => value.sites around
  | .declare _ initializer => Expr.sitesOptional around initializer
  | .block body =>
    Site.declarations around [] (Stmt.declarationsAll body) ++ Stmt.sitesAll around body
  | .branch condition whenTrue none => condition.sites around ++ whenTrue.sites around
  | .branch condition whenTrue (some whenFalse) =>
    condition.sites around ++ whenTrue.sites around ++ whenFalse.sites around
  | .loop condition body => condition.sites around ++ body.sites around
  | .function declaration => declaration.sites (.function declaration :: around)
  | .return keyword value => ⟨.return keyword value, around⟩ :: Expr.sitesOptional around value
  | .class name superclass methods =>
    ⟨.class name superclass, around⟩ ::
      (Expr.sitesOptional (.class superclass :: around) superclass ++
        FunctionDecl.methodSites (.class superclass :: around) methods)

/-- The sites of several statements. -/
def Stmt.sitesAll (around : List Enclosure) : List Stmt → List Site
  | [] => []
  | first :: rest => first.sites around ++ Stmt.sitesAll around rest

/-- The sites inside a function: its parameters are one scope, and its body is another one. -/
def FunctionDecl.sites (around : List Enclosure) : FunctionDecl → List Site
  | .mk _ parameters body =>
    Site.declarations around [] parameters ++
      (Site.declarations around [] (Stmt.declarationsAll body) ++ Stmt.sitesAll around body)

/-- The sites inside the methods of a class. -/
def FunctionDecl.methodSites (around : List Enclosure) : List FunctionDecl → List Site
  | [] => []
  | first :: rest =>
    first.sites (.method first :: around) ++ FunctionDecl.methodSites around rest

end

/-- The sites of a program. The outermost level is no scope, so what it declares is free. -/
def programSites (program : List Stmt) : List Site :=
  Stmt.sitesAll [] program

/-- The violations at several sites. -/
def Site.violations (sites : List Site) : List ResolveError :=
  sites.filterMap Site.violation?

/-- The violations of two lists of sites are those of the first and those of the second. -/
@[simp] theorem Site.violations_append (first second : List Site) :
    violations (first ++ second) = violations first ++ violations second := by
  simp [violations]

/-- Without sites there is no violation. -/
@[simp] theorem Site.violations_nil : violations [] = [] :=
  rfl

/-- One site has the violation found there, if any. -/
theorem Site.violations_single (site : Site) : violations [site] = site.violation?.toList := by
  cases found : site.violation? <;> simp [violations, found]

/-- The function context that resolution is in at a place. -/
def FunctionContext.at (around : List Enclosure) : FunctionContext :=
  match around.find? Enclosure.isFunction with
  | none => .outside
  | some (.method declaration) => .ofMethod declaration
  | some _ => .function

/-- The class context that resolution is in at a place. -/
def ClassContext.at (around : List Enclosure) : ClassContext :=
  match around.find? Enclosure.isClass with
  | none => .outside
  | some (.class none) => .base
  | some _ => .derived

namespace Chain

/-- The violation of declaring a name that the innermost scope already has. -/
def redeclaration (chain : Chain) (name : Token) : List ResolveError :=
  match chain with
  | [] => []
  | names :: _ => if name.lexeme ∈ names then [⟨name, .redeclaration⟩] else []

/-- The violations of declaring several names in the innermost scope one after another. -/
def redeclarations : Chain → List Token → List ResolveError
  | _, [] => []
  | chain, name :: rest =>
    chain.redeclaration name ++ (chain.define name.lexeme).redeclarations rest

/-- Several names are defined in the innermost scope. -/
def defineAll (chain : Chain) (names : List Token) : Chain :=
  names.foldl (fun chain name => chain.define name.lexeme) chain

/-- Names are defined one after another. -/
theorem defineAll_append (chain : Chain) (first second : List Token) :
    chain.defineAll (first ++ second) = (chain.defineAll first).defineAll second := by
  simp [defineAll]

/-- Only the innermost scope gains names. -/
theorem defineAll_cons (names : List Token) (given : List String) (chain : Chain) :
    ∃ all, defineAll (given :: chain) names = all :: chain := by
  induction names generalizing given with
  | nil => exact ⟨given, rfl⟩
  | cons name rest inductionHypothesis => exact inductionHypothesis (name.lexeme :: given)

/-- The later names are redeclared where the earlier ones are defined. -/
theorem redeclarations_append (chain : Chain) (first second : List Token) :
    chain.redeclarations (first ++ second) =
      chain.redeclarations first ++ (chain.defineAll first).redeclarations second := by
  induction first generalizing chain with
  | nil => rfl
  | cons name rest inductionHypothesis =>
    simp only [List.cons_append, redeclarations, inductionHypothesis, List.append_assoc]
    rfl

/-- One name is redeclared or it is not. -/
theorem redeclarations_single (chain : Chain) (name : Token) :
    chain.redeclarations [name] = chain.redeclaration name := by
  simp [redeclarations]

/-- Outside of all scopes nothing is declared twice. -/
theorem redeclarations_nil (names : List Token) : redeclarations [] names = [] := by
  induction names with
  | nil => rfl
  | cons name rest inductionHypothesis => exact inductionHypothesis

/-- A scope that has the earlier names finds the same redeclarations as the survey of its names. -/
theorem redeclarations_cons (around : List Enclosure) {earlier : List Token} {names : List String}
    (known : ∀ name, name ∈ names ↔ name ∈ earlier.map Token.lexeme) (chain : Chain)
    (declared : List Token) :
    redeclarations (names :: chain) declared =
      Site.violations (Site.declarations around earlier declared) := by
  induction declared generalizing earlier names with
  | nil => rfl
  | cons name rest inductionHypothesis =>
    have further : ∀ other, other ∈ name.lexeme :: names ↔
        other ∈ (earlier ++ [name]).map Token.lexeme := by
      intro other
      simp [known other, or_comm]
    simp only [redeclarations, Site.declarations, Chain.define, inductionHypothesis further]
    by_cases twice : name.lexeme ∈ earlier.map Token.lexeme
    · simp [redeclaration, Site.violations, Site.violation?, known, twice]
    · simp [redeclaration, Site.violations, Site.violation?, known, twice]

/-- A new scope has no earlier names. -/
theorem redeclarations_empty (around : List Enclosure) (chain : Chain) (declared : List Token) :
    redeclarations ([] :: chain) declared =
      Site.violations (Site.declarations around [] declared) :=
  redeclarations_cons around (fun _ => by simp) chain declared

end Chain

/-- What a statement defines is what it declares. -/
theorem Stmt.chainAfter_eq_defineAll (chain : Chain) :
    ∀ statement : Stmt, statement.chainAfter chain = chain.defineAll statement.declarations
  | .branch _ whenTrue none => whenTrue.chainAfter_eq_defineAll chain
  | .branch _ whenTrue (some whenFalse) => by
    unfold Stmt.chainAfter Stmt.declarations
    rw [Chain.defineAll_append, whenTrue.chainAfter_eq_defineAll chain,
      whenFalse.chainAfter_eq_defineAll]
  | .loop _ body => body.chainAfter_eq_defineAll chain
  | .declare _ _ | .function _ | .class _ _ _ | .expression _ | .print _ _ | .block _
  | .return _ _ => rfl

/-- Statements define the names they declare. -/
theorem Stmt.chainAfterAll_eq_defineAll (chain : Chain) (statements : List Stmt) :
    Stmt.chainAfterAll statements chain = chain.defineAll (Stmt.declarationsAll statements) := by
  induction statements generalizing chain with
  | nil => rfl
  | cons first rest inductionHypothesis =>
    have behind : Stmt.chainAfterAll (first :: rest) chain =
        (first.chainAfter chain).defineAll (Stmt.declarationsAll rest) := inductionHypothesis _
    rw [behind, first.chainAfter_eq_defineAll chain, ← Chain.defineAll_append]
    rfl

/-- From any state whose scopes have the names of a chain, a step of resolution adds these
violations, in some order, and leaves scopes that have the names of another chain. -/
def Resolution.Reports (step : Resolution → Resolution) (chain final : Chain)
    (violations : List ResolveError) : Prop :=
  ∀ state, chain.HeldBy state.scopes →
    (step state).errors.Perm (state.errors ++ violations) ∧ final.HeldBy (step state).scopes

namespace Resolution.Reports

variable {first second : Resolution → Resolution} {chain middle final : Chain}
  {violations others : List ResolveError}

/-- Reports follow one another. -/
theorem comp (head : Reports first chain middle violations)
    (tail : Reports second middle final others) :
    Reports (fun state => second (first state)) chain final (violations ++ others) := by
  intro state held
  obtain ⟨early, between⟩ := head state held
  obtain ⟨late, after⟩ := tail (first state) between
  constructor
  · rw [← List.append_assoc]
    exact late.trans (early.append_right others)
  · exact after

/-- The order of the violations does not matter. -/
theorem reorder (reports : Reports first chain final violations)
    (same : violations.Perm others) : Reports first chain final others := by
  intro state held
  obtain ⟨errors, after⟩ := reports state held
  exact ⟨errors.trans (same.append_left state.errors), after⟩

/-- A step that changes neither scopes nor violations. -/
theorem unchanged (scopes : ∀ state, (first state).scopes = state.scopes)
    (errors : ∀ state, (first state).errors = state.errors) : Reports first chain chain [] := by
  intro state held
  rw [scopes, errors, List.append_nil]
  exact ⟨.refl _, held⟩

/-- No step reports nothing. -/
theorem refl : Reports (fun state => state) chain chain [] :=
  unchanged (fun _ => rfl) fun _ => rfl

/-- A violation is reported where it is told to be. -/
theorem reportAt (token : Token) (violation : Violation) :
    Reports (·.reportAt token violation) chain chain [⟨token, violation⟩] :=
  fun _ held => ⟨.refl _, held⟩

/-- Locating a reference reports nothing. -/
theorem locate (id : Nat) (name : Token) : Reports (·.locate id name) chain chain [] := by
  apply unchanged
  · intro state
    unfold Resolution.locate
    split <;> rfl
  · intro state
    unfold Resolution.locate
    split <;> rfl

/-- Opening a scope reports nothing. -/
theorem openScope : Reports Resolution.openScope chain ([] :: chain) [] := by
  intro state held
  constructor
  · simp [Resolution.openScope]
  · exact ⟨fun name => by simp, held⟩

/-- Closing a scope reports nothing. -/
theorem closeScope {names : List String} :
    Reports Resolution.closeScope (names :: chain) chain [] := by
  intro state held
  constructor
  · simp [Resolution.closeScope]
  · unfold Resolution.closeScope
    cases scopes : state.scopes with
    | nil =>
      rw [scopes] at held
      exact held.elim
    | cons scope outer =>
      rw [scopes] at held
      exact held.2

/-- Binding a name reports nothing. -/
theorem bind (name : String) : Reports (·.bind name) chain (chain.define name) [] := by
  intro state held
  obtain ⟨scopes, distances, errors⟩ := state
  cases scopes with
  | nil =>
    cases chain with
    | nil => exact ⟨by simp [Resolution.bind], held⟩
    | cons names chain => exact held.elim
  | cons scope outer =>
    cases chain with
    | nil => exact held.elim
    | cons names chain => exact ⟨by simp [Resolution.bind], held.insert name true⟩

/-- A scope that already has a name keeps it when the name is declared again. -/
theorem declare (name : Token) :
    Reports (·.declare name) chain (chain.define name.lexeme) (chain.redeclaration name) := by
  intro state held
  obtain ⟨scopes, distances, errors⟩ := state
  cases scopes with
  | nil =>
    cases chain with
    | nil => exact ⟨by simp [Resolution.declare, Chain.redeclaration], held⟩
    | cons names chain => exact held.elim
  | cons scope outer =>
    cases chain with
    | nil => exact held.elim
    | cons names chain =>
      by_cases twice : name.lexeme ∈ names
      · have known : scope.contains name.lexeme = true := (held.1 _).mpr twice
        simp only [Resolution.declare, known, if_true, Chain.redeclaration, twice]
        refine ⟨.refl _, fun wanted => ?_, held.2⟩
        rw [held.1 wanted, List.mem_cons]
        constructor
        · exact .inr
        · rintro (rfl | member)
          · exact twice
          · exact member
      · have known : ¬ scope.contains name.lexeme = true := fun has => twice ((held.1 _).mp has)
        simp only [Resolution.declare, known, if_false, Chain.redeclaration, twice,
          Bool.false_eq_true]
        exact ⟨by simp, held.insert name.lexeme false⟩

/-- A declared name is defined. -/
theorem define (name : String) :
    Reports (·.bind name) (chain.define name) (chain.define name) [] :=
  fun state held => (bind name state held).imp_right Chain.HeldBy.define_define

/-- Introducing a name reports it where its scope has it already. -/
theorem introduce (name : Token) :
    Reports (·.introduce name) chain (chain.define name.lexeme) (chain.redeclaration name) := by
  have declared : Reports (·.declare name) chain _ (chain.redeclaration name) := declare name
  have both := declared.comp (define name.lexeme)
  rwa [List.append_nil] at both

/-- The parameters are reported where one repeats another. -/
theorem parameters (names : List Token) :
    Reports (fun state => names.foldl Resolution.introduce state) chain (chain.defineAll names)
      (chain.redeclarations names) := by
  induction names generalizing chain with
  | nil => exact refl
  | cons name rest inductionHypothesis => exact (introduce name).comp inductionHypothesis

/-- A scope is opened for a while. -/
theorem enclosed {names : List String}
    (inner : Reports first ([] :: chain) (names :: chain) violations) :
    Reports (fun state => (first state.openScope).closeScope) chain chain violations := by
  have all := (openScope.comp inner).comp closeScope
  rwa [List.nil_append, List.append_nil] at all

/-- A `return` is reported at its site: outside a function, or with a value in an initializer. -/
theorem checkReturn (around : List Enclosure) (keyword : Token) (value : Option Expr) :
    Reports (·.checkReturn (.at around) keyword value) chain chain
      (Site.violations [⟨.return keyword value, around⟩]) := by
  unfold FunctionContext.at
  simp only [Site.violations_single, Site.violation?, Site.function?]
  cases found : around.find? Enclosure.isFunction with
  | none => exact reportAt keyword _
  | some enclosure =>
    cases enclosure with
    | function declaration => exact refl
    | method declaration =>
      by_cases initializes : declaration.name.lexeme = initializerName
      · cases value with
        | none =>
          simpa [Resolution.checkReturn, FunctionContext.ofMethod, initializes] using refl
        | some value =>
          simpa [Resolution.checkReturn, FunctionContext.ofMethod, initializes] using
            reportAt keyword _
      · simpa [Resolution.checkReturn, FunctionContext.ofMethod, initializes] using refl
    | «class» superclass => cases List.find?_some found

/-- A class is reported at its site when it is its own superclass. -/
theorem checkSuperclass (around : List Enclosure) (name : Token) (superclass : Expr) :
    Reports (·.checkSuperclass name superclass) chain chain
      (Site.violations [⟨.class name (some superclass), around⟩]) := by
  cases superclass with
  | reference id parent =>
    simp only [Resolution.checkSuperclass, Site.violations_single, Site.violation?]
    by_cases same : parent.lexeme = name.lexeme
    · simpa [same] using reportAt parent _
    · simpa [same] using refl
  | _ => exact refl

/-- An occurrence of `this` is a violation outside of classes. -/
theorem resolveThis (around : List Enclosure) (id : Nat) (keyword : Token) :
    Reports ((Expr.this id keyword).resolve (.at around)) chain chain
      (Site.violations [⟨.this keyword, around⟩]) := by
  unfold ClassContext.at
  simp only [Site.violations_single, Site.violation?, Site.class?]
  cases found : around.find? Enclosure.isClass with
  | none => exact reportAt keyword _
  | some enclosure =>
    cases enclosure with
    | «class» superclass => cases superclass <;> exact locate id keyword
    | function _ | method _ => cases List.find?_some found

/-- An occurrence of `super` is a violation unless its class has a superclass. -/
theorem resolveSuper (around : List Enclosure) (id : Nat) (keyword method : Token) :
    Reports ((Expr.super id keyword method).resolve (.at around)) chain chain
      (Site.violations [⟨.super keyword, around⟩]) := by
  unfold ClassContext.at
  simp only [Site.violations_single, Site.violation?, Site.class?]
  cases found : around.find? Enclosure.isClass with
  | none => exact reportAt keyword _
  | some enclosure =>
    cases enclosure with
    | «class» superclass =>
      cases superclass with
      | none => exact reportAt keyword _
      | some parent => exact locate id keyword
    | function _ | method _ => cases List.find?_some found

end Resolution.Reports

open Resolution

mutual

/-- Resolution reports the violations at the sites of an expression. -/
theorem Expr.resolve_reports (around : List Enclosure) (chain : Chain) :
    ∀ expression : Expr, Reports (expression.resolve (.at around)) chain chain
      (Site.violations (expression.sites around))
  | .literal _ => .refl
  | .grouping inner => inner.resolve_reports around chain
  | .unary _ operand => operand.resolve_reports around chain
  | .binary left _ right | .logical left _ right => by
    have both := (left.resolve_reports around chain).comp (right.resolve_reports around chain)
    rwa [← Site.violations_append] at both
  | .reference id name => .locate id name
  | .assign id name value => by
    have both := (value.resolve_reports around chain).comp (.locate id name)
    rwa [List.append_nil] at both
  | .call callee _ arguments => by
    have both := (callee.resolve_reports around chain).comp
      (Expr.resolveAll_reports around chain arguments)
    rwa [← Site.violations_append] at both
  | .get object _ => object.resolve_reports around chain
  | .set object _ value => by
    -- The value is resolved before the object that stands in front of it.
    have both := (value.resolve_reports around chain).comp (object.resolve_reports around chain)
    apply both.reorder
    rw [Expr.sites, Site.violations_append]
    exact List.perm_append_comm
  | .this id keyword => .resolveThis around id keyword
  | .super id keyword method => .resolveSuper around id keyword method

/-- Resolution reports the violations at the sites of several expressions. -/
theorem Expr.resolveAll_reports (around : List Enclosure) (chain : Chain) :
    ∀ expressions : List Expr, Reports (Expr.resolveAll (.at around) expressions) chain chain
      (Site.violations (Expr.sitesAll around expressions))
  | [] => .refl
  | first :: rest => by
    have both := (first.resolve_reports around chain).comp
      (Expr.resolveAll_reports around chain rest)
    rwa [← Site.violations_append] at both

end

/-- An optional expression has the violations of its sites. -/
theorem Expr.resolveOptional_reports (around : List Enclosure) (chain : Chain)
    (value : Option Expr) :
    Reports (Expr.resolveOptional (.at around) value) chain chain
      (Site.violations (Expr.sitesOptional around value)) := by
  cases value with
  | none => exact .refl
  | some value => exact value.resolve_reports around chain

mutual

/-- Resolution reports what a statement declares twice in the scope around it, and the violations at
its other sites. -/
theorem Stmt.resolve_reports (around : List Enclosure) (chain : Chain) :
    ∀ statement : Stmt, Reports (statement.resolve (.at around) (.at around)) chain
      (chain.defineAll statement.declarations)
      (chain.redeclarations statement.declarations ++ Site.violations (statement.sites around))
  | .expression value | .print _ value => value.resolve_reports around chain
  | .declare name initializer => by
    have all := ((Reports.declare name).comp
      (Expr.resolveOptional_reports around (chain.define name.lexeme) initializer)).comp
      (.define name.lexeme)
    rw [List.append_nil] at all
    rw [Stmt.declarations, Chain.redeclarations_single]
    exact all
  | .block body => by
    have inner := Stmt.resolveAll_reports around ([] :: chain) body
    rw [← Stmt.chainAfterAll_eq_defineAll] at inner
    obtain ⟨names, after⟩ := Stmt.chainAfterAll_cons chain body []
    rw [after, Chain.redeclarations_empty around, ← Site.violations_append] at inner
    exact inner.enclosed
  | .branch condition whenTrue none => by
    have both := (condition.resolve_reports around chain).comp
      (whenTrue.resolve_reports around chain)
    apply both.reorder
    rw [Stmt.sites, Site.violations_append]
    exact List.perm_append_comm_assoc ..
  | .branch condition whenTrue (some whenFalse) => by
    have all := ((condition.resolve_reports around chain).comp
      (whenTrue.resolve_reports around chain)).comp
      (whenFalse.resolve_reports around (chain.defineAll whenTrue.declarations))
    rw [Stmt.declarations, Chain.defineAll_append]
    apply all.reorder
    rw [Stmt.sites, Chain.redeclarations_append, Site.violations_append, Site.violations_append]
    grind
  | .loop condition body => by
    have both := (condition.resolve_reports around chain).comp (body.resolve_reports around chain)
    apply both.reorder
    rw [Stmt.sites, Site.violations_append]
    exact List.perm_append_comm_assoc ..
  | .function declaration => by
    have both := (Reports.introduce declaration.name).comp
      (declaration.resolve_reports (.function declaration :: around)
        (chain.define declaration.name.lexeme))
    rw [Stmt.declarations, Chain.redeclarations_single]
    exact both
  | .return keyword value => by
    have both := (Reports.checkReturn around keyword value).comp
      (Expr.resolveOptional_reports around chain value)
    rw [← Site.violations_append] at both
    exact both
  | .class name none methods => by
    have members := ((Reports.bind "this").comp
      (FunctionDecl.resolveMethods_reports (.class none :: around)
        ((chain.define name.lexeme).enterClass .base) methods)).enclosed
    have all := (Reports.introduce name).comp members
    rw [Stmt.declarations, Chain.redeclarations_single]
    exact all
  | .class name (some superclass) methods => by
    have members := ((Reports.bind "this").comp
      (FunctionDecl.resolveMethods_reports (.class (some superclass) :: around)
        ((chain.define name.lexeme).enterClass .derived) methods)).enclosed
    have outer := ((Reports.bind "super").comp members).enclosed
    have parent := (Reports.checkSuperclass around name superclass).comp
      (superclass.resolve_reports (.class (some superclass) :: around)
        (chain.define name.lexeme))
    have all := (Reports.introduce name).comp (parent.comp outer)
    rw [List.nil_append, List.nil_append, List.append_assoc, ← Site.violations_append,
      ← Site.violations_append] at all
    rw [Stmt.declarations, Chain.redeclarations_single]
    exact all

/-- Resolution reports what several statements declare twice in the scope around them, and the
violations at their other sites. -/
theorem Stmt.resolveAll_reports (around : List Enclosure) (chain : Chain) :
    ∀ statements : List Stmt, Reports (Stmt.resolveAll (.at around) (.at around) statements) chain
      (chain.defineAll (Stmt.declarationsAll statements))
      (chain.redeclarations (Stmt.declarationsAll statements) ++
        Site.violations (Stmt.sitesAll around statements))
  | [] => .refl
  | first :: rest => by
    have both := (first.resolve_reports around chain).comp
      (Stmt.resolveAll_reports around (chain.defineAll first.declarations) rest)
    rw [Stmt.declarationsAll, List.flatMap_cons, Chain.defineAll_append]
    apply both.reorder
    rw [Stmt.sitesAll, Chain.redeclarations_append, Site.violations_append]
    grind [Stmt.declarationsAll]

/-- Resolution reports the violations at the sites of a function. -/
theorem FunctionDecl.resolve_reports (around : List Enclosure) (chain : Chain) :
    ∀ declaration : FunctionDecl,
      Reports (declaration.resolve (.at around) (.at around)) chain chain
        (Site.violations (declaration.sites around))
  | .mk name parameters body => by
    have inner := Stmt.resolveAll_reports around
      ([] :: Chain.defineAll ([] :: chain) parameters) body
    rw [← Stmt.chainAfterAll_eq_defineAll] at inner
    obtain ⟨names, after⟩ := Stmt.chainAfterAll_cons
      (Chain.defineAll ([] :: chain) parameters) body []
    rw [after, Chain.redeclarations_empty around, ← Site.violations_append] at inner
    have all := (Reports.parameters parameters).comp inner.enclosed
    rw [Chain.redeclarations_empty around, ← Site.violations_append] at all
    obtain ⟨given, same⟩ := Chain.defineAll_cons parameters [] chain
    rw [same] at all
    exact all.enclosed

/-- Resolution reports the violations at the sites of the methods of a class. -/
theorem FunctionDecl.resolveMethods_reports (around : List Enclosure) (chain : Chain) :
    ∀ declarations : List FunctionDecl,
      Reports (FunctionDecl.resolveMethods (.at around) declarations) chain chain
        (Site.violations (FunctionDecl.methodSites around declarations))
  | [] => .refl
  | first :: rest => by
    have both := (first.resolve_reports (.method first :: around) chain).comp
      (FunctionDecl.resolveMethods_reports around chain rest)
    rw [← Site.violations_append] at both
    exact both

end

/-- Resolution reports one violation for each site of a program that breaks a static rule, and no
other; so it reports nothing if and only if no site breaks one. -/
theorem resolve_reports_violations (program : List Stmt) :
    (resolve program).errors.Perm ((programSites program).filterMap Site.violation?) ∧
      ((resolve program).errors = [] ↔
        ∀ site ∈ programSites program, site.violation? = none) := by
  have walked := Stmt.resolveAll_reports [] [] program
  rw [Chain.redeclarations_nil, List.nil_append] at walked
  have reported : (resolve program).errors.Perm
      ((programSites program).filterMap Site.violation?) := (walked .start trivial).1
  constructor
  · exact reported
  · rw [← List.filterMap_eq_nil_iff]
    constructor
    · intro clean
      rw [clean] at reported
      exact reported.nil_eq.symm
    · intro lawful
      rw [lawful] at reported
      exact reported.eq_nil

end LoxLang
