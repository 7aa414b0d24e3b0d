import LoxLang.Scope.Resolution

/-!
# What scope resolution finds

A `Chain` lists the names that are defined in each scope around a place. Which scope every
occurrence in a tree refers to, and which names a statement adds, follow from the chain alone:
`occurrences` and `chainAfter` say so by recursion on the tree. Resolution comes to exactly that. It
records the occurrences of a tree in order, whatever was recorded before, and it appends its
violations.
-/

namespace LoxLang

/-- The names that are defined in each scope around a place, innermost first. -/
abbrev Chain := List (List String)

namespace Chain

/-- The distance of the innermost scope that defines a name. -/
def address? (chain : Chain) (name : String) : Option Nat :=
  chain.findIdx? fun names => decide (name ∈ names)

/-- One more name in the innermost scope. -/
def define (chain : Chain) (name : String) : Chain :=
  match chain with
  | [] => []
  | names :: outer => (name :: names) :: outer

/-- The chain inside a function: one scope for its parameters and one for its body. -/
def enterFunction (chain : Chain) (parameters : List Token) : Chain :=
  [] :: parameters.foldl (fun inner name => define inner name.lexeme) ([] :: chain)

/-- The chain inside the methods of a class. -/
def enterClass (chain : Chain) (inside : ClassContext) : Chain :=
  match inside with
  | .derived => ["this"] :: ["super"] :: chain
  | _ => ["this"] :: chain

end Chain

/-- An occurrence of a name by its identity, with the distance of the scope it refers to. -/
structure Occurrence where
  id : Nat
  address? : Option Nat
deriving DecidableEq, Repr

mutual

/-- The occurrences in an expression, in the order in which they are resolved. -/
def Expr.occurrences (inside : ClassContext) (chain : Chain) : Expr → List Occurrence
  | .literal _ => []
  | .grouping inner => inner.occurrences inside chain
  | .unary _ operand => operand.occurrences inside chain
  | .binary left _ right => left.occurrences inside chain ++ right.occurrences inside chain
  | .logical left _ right => left.occurrences inside chain ++ right.occurrences inside chain
  | .reference id name => [⟨id, chain.address? name.lexeme⟩]
  | .assign id name value =>
    value.occurrences inside chain ++ [⟨id, chain.address? name.lexeme⟩]
  | .call callee _ arguments =>
    callee.occurrences inside chain ++ Expr.occurrencesAll inside chain arguments
  | .get object _ => object.occurrences inside chain
  | .set object _ value => value.occurrences inside chain ++ object.occurrences inside chain
  | .this id keyword =>
    match inside with
    | .outside => [⟨id, none⟩]
    | _ => [⟨id, chain.address? keyword.lexeme⟩]
  | .super id keyword _ =>
    match inside with
    | .derived => [⟨id, chain.address? keyword.lexeme⟩]
    | _ => [⟨id, none⟩]

/-- The occurrences in several expressions. -/
def Expr.occurrencesAll (inside : ClassContext) (chain : Chain) : List Expr → List Occurrence
  | [] => []
  | first :: rest => first.occurrences inside chain ++ Expr.occurrencesAll inside chain rest

end

/-- The occurrences in an expression if there is one. -/
def Expr.occurrencesOptional (inside : ClassContext) (chain : Chain) :
    Option Expr → List Occurrence
  | none => []
  | some value => value.occurrences inside chain

/-- The chain behind a statement: what it declares in the innermost scope. -/
def Stmt.chainAfter : Stmt → Chain → Chain
  | .declare name _, chain => chain.define name.lexeme
  | .function declaration, chain => chain.define declaration.name.lexeme
  | .class name _ _, chain => chain.define name.lexeme
  | .branch _ whenTrue none, chain => whenTrue.chainAfter chain
  | .branch _ whenTrue (some whenFalse), chain =>
    whenFalse.chainAfter (whenTrue.chainAfter chain)
  | .loop _ body, chain => body.chainAfter chain
  | _, chain => chain

/-- The chain behind several statements. -/
def Stmt.chainAfterAll (statements : List Stmt) (chain : Chain) : Chain :=
  statements.foldl (fun chain statement => statement.chainAfter chain) chain

mutual

/-- The occurrences in a statement, in the order in which they are resolved. -/
def Stmt.occurrences (inside : ClassContext) (chain : Chain) : Stmt → List Occurrence
  | .expression value => value.occurrences inside chain
  | .print _ value => value.occurrences inside chain
  | .declare _ initializer => Expr.occurrencesOptional inside chain initializer
  | .block body => Stmt.occurrencesAll inside ([] :: chain) body
  | .branch condition whenTrue none =>
    condition.occurrences inside chain ++ whenTrue.occurrences inside chain
  | .branch condition whenTrue (some whenFalse) =>
    condition.occurrences inside chain ++ whenTrue.occurrences inside chain ++
      whenFalse.occurrences inside (whenTrue.chainAfter chain)
  | .loop condition body => condition.occurrences inside chain ++ body.occurrences inside chain
  | .function declaration =>
    declaration.occurrences inside (chain.define declaration.name.lexeme)
  | .return _ value => Expr.occurrencesOptional inside chain value
  | .class name none methods =>
    FunctionDecl.occurrencesAll .base ((chain.define name.lexeme).enterClass .base) methods
  | .class name (some superclass) methods =>
    superclass.occurrences .derived (chain.define name.lexeme) ++
      FunctionDecl.occurrencesAll .derived ((chain.define name.lexeme).enterClass .derived) methods

/-- The occurrences in several statements. -/
def Stmt.occurrencesAll (inside : ClassContext) (chain : Chain) : List Stmt → List Occurrence
  | [] => []
  | first :: rest =>
    first.occurrences inside chain ++ Stmt.occurrencesAll inside (first.chainAfter chain) rest

/-- The occurrences in a function. -/
def FunctionDecl.occurrences (inside : ClassContext) (chain : Chain) :
    FunctionDecl → List Occurrence
  | .mk _ parameters body => Stmt.occurrencesAll inside (chain.enterFunction parameters) body

/-- The occurrences in the methods of a class. -/
def FunctionDecl.occurrencesAll (inside : ClassContext) (chain : Chain) :
    List FunctionDecl → List Occurrence
  | [] => []
  | first :: rest =>
    first.occurrences inside chain ++ FunctionDecl.occurrencesAll inside chain rest

end

mutual

/-- No class in a statement names itself as its superclass. -/
def Stmt.ProperParents : Stmt → Prop
  | .block body => Stmt.ProperParentsAll body
  | .branch _ whenTrue none => whenTrue.ProperParents
  | .branch _ whenTrue (some whenFalse) => whenTrue.ProperParents ∧ whenFalse.ProperParents
  | .loop _ body => body.ProperParents
  | .function declaration => declaration.ProperParents
  | .class _ none methods => FunctionDecl.ProperParentsAll methods
  | .class name (some superclass) methods =>
    (∀ id parent, superclass = .reference id parent → parent.lexeme ≠ name.lexeme) ∧
      FunctionDecl.ProperParentsAll methods
  | _ => True

/-- No class in several statements names itself as its superclass. -/
def Stmt.ProperParentsAll : List Stmt → Prop
  | [] => True
  | first :: rest => first.ProperParents ∧ Stmt.ProperParentsAll rest

/-- No class in a function names itself as its superclass. -/
def FunctionDecl.ProperParents : FunctionDecl → Prop
  | .mk _ _ body => Stmt.ProperParentsAll body

/-- No class in several functions names itself as its superclass. -/
def FunctionDecl.ProperParentsAll : List FunctionDecl → Prop
  | [] => True
  | first :: rest => first.ProperParents ∧ FunctionDecl.ProperParentsAll rest

end

namespace Occurrence

/-- Enter an occurrence into a table, unless it is global. -/
def record (distances : Distances) (occurrence : Occurrence) : Distances :=
  match occurrence.address? with
  | none => distances
  | some distance => distances.insert occurrence.id distance

/-- Enter several occurrences into a table in order. -/
def recordAll (occurrences : List Occurrence) (distances : Distances) : Distances :=
  occurrences.foldl record distances

/-- Occurrences are recorded one after another. -/
theorem recordAll_append (first second : List Occurrence) (distances : Distances) :
    recordAll (first ++ second) distances = recordAll second (recordAll first distances) := by
  simp [recordAll]

end Occurrence

/-- A scope defines exactly these names. -/
def Scope.Tracks (scope : Scope) (names : List String) : Prop :=
  ∀ name, scope[name]? = some true ↔ name ∈ names

/-- Scopes define exactly the names of a chain. -/
def Chain.TrackedBy : Chain → List Scope → Prop
  | [], [] => True
  | names :: chain, scope :: scopes => scope.Tracks names ∧ TrackedBy chain scopes
  | _, _ => False

/-- The resolver finds a name at the distance of the chain its scopes track. -/
theorem Chain.TrackedBy.distance? {chain : Chain} {scopes : List Scope}
    (tracked : chain.TrackedBy scopes) (name : String) :
    Resolution.distance? scopes name = chain.address? name := by
  unfold Resolution.distance? address?
  induction chain generalizing scopes with
  | nil =>
    cases scopes with
    | nil => rfl
    | cons scope scopes => exact tracked.elim
  | cons names chain inductionHypothesis =>
    cases scopes with
    | nil => exact tracked.elim
    | cons scope scopes =>
      have same : (scope[name]? == some true) = decide (name ∈ names) := by
        rw [Bool.eq_iff_iff, decide_eq_true_iff, beq_iff_eq]
        exact tracked.1 name
      rw [List.findIdx?_cons, List.findIdx?_cons, same, inductionHypothesis tracked.2]

/-- What a step of resolution does from any state whose scopes are tracked by a chain: it records
occurrences, appends violations and leaves scopes tracked by another chain. A certain condition
holds unless there were violations. -/
def Resolution.Walks (step : Resolution → Resolution) (chain : Chain)
    (occurrences : List Occurrence) (final : Chain) (lawful : Prop) : Prop :=
  ∀ before, chain.TrackedBy before → ∃ after complaints, final.TrackedBy after ∧
    (complaints = [] → lawful) ∧ ∀ state : Resolution, state.scopes = before →
      step state =
        { scopes := after
          distances := Occurrence.recordAll occurrences state.distances
          errors := state.errors ++ complaints }

namespace Resolution.Walks

variable {first second : Resolution → Resolution} {chain middle final : Chain}
  {occurrences others : List Occurrence} {lawful further : Prop}

/-- Walks follow one another. -/
theorem comp (head : Walks first chain occurrences middle lawful)
    (tail : Walks second middle others final further) :
    Walks (fun state => second (first state)) chain (occurrences ++ others) final
      (lawful ∧ further) := by
  intro before tracked
  obtain ⟨between, early, trackedBetween, firstLawful, headStep⟩ := head before tracked
  obtain ⟨after, late, trackedAfter, secondLawful, tailStep⟩ := tail between trackedBetween
  refine ⟨after, early ++ late, trackedAfter, fun clean => ?_, fun state placed => ?_⟩
  · obtain ⟨noEarly, noLate⟩ := List.append_eq_nil_iff.mp clean
    exact ⟨firstLawful noEarly, secondLawful noLate⟩
  · change second (first state) = _
    rw [headStep state placed, tailStep _ rfl]
    simp [Occurrence.recordAll_append]

/-- A walk stays one under a stronger condition of lawfulness. -/
theorem mono (walks : Walks first chain occurrences final lawful) (weaker : lawful → further) :
    Walks first chain occurrences final further := by
  intro before tracked
  obtain ⟨after, complaints, trackedAfter, condition, step⟩ := walks before tracked
  exact ⟨after, complaints, trackedAfter, fun clean => weaker (condition clean), step⟩

/-- Nothing is walked over without a step. -/
theorem refl : Walks (fun state => state) chain [] chain True := by
  intro before tracked
  refine ⟨before, [], tracked, fun _ => trivial, fun state placed => ?_⟩
  subst placed
  simp [Occurrence.recordAll]

/-- A report leaves the scopes and is not lawful. -/
theorem reportAt (token : Token) (violation : Violation) :
    Walks (·.reportAt token violation) chain [] chain False := by
  intro before tracked
  refine ⟨before, [{ token, violation }], tracked, nofun, fun state placed => ?_⟩
  subst placed
  rfl

/-- An occurrence that is a violation is not recorded. -/
theorem reportMissing (id : Nat) (token : Token) (violation : Violation) :
    Walks (·.reportAt token violation) chain [⟨id, none⟩] chain True :=
  (reportAt token violation).mono nofun

/-- An opened scope is an empty one inside the others. -/
theorem openScope : Walks Resolution.openScope chain [] ([] :: chain) True := by
  intro before tracked
  refine ⟨∅ :: before, [], ⟨fun name => by simp, tracked⟩, fun _ => trivial, ?_⟩
  rintro state rfl
  simp [Resolution.openScope, Occurrence.recordAll]

/-- A closed scope leaves the outer ones. -/
theorem closeScope {names : List String} :
    Walks Resolution.closeScope (names :: chain) [] chain True := by
  intro before tracked
  cases before with
  | nil => exact tracked.elim
  | cons scope before =>
    refine ⟨before, [], tracked.2, fun _ => trivial, fun state placed => ?_⟩
    simp [Resolution.closeScope, Occurrence.recordAll, placed]

/-- A bound name is defined in the innermost scope. -/
theorem bind (name : String) : Walks (·.bind name) chain [] (chain.define name) True := by
  intro before tracked
  cases chain with
  | nil =>
    cases before with
    | cons scope before => exact tracked.elim
    | nil =>
      refine ⟨[], [], trivial, fun _ => trivial, fun state placed => ?_⟩
      obtain ⟨scopes, distances, errors⟩ := state
      obtain rfl : scopes = [] := placed
      simp [Resolution.bind, Occurrence.recordAll]
  | cons names chain =>
    cases before with
    | nil => exact tracked.elim
    | cons scope before =>
      refine ⟨scope.insert name true :: before, [], ⟨fun wanted => ?_, tracked.2⟩,
        fun _ => trivial, fun state placed => ?_⟩
      · rw [Std.TreeMap.getElem?_insert]
        by_cases same : name = wanted
        · simp [same]
        · simpa [same, Ne.symm same] using tracked.1 wanted
      · simp [Resolution.bind, Occurrence.recordAll, placed]

/-- A declared name is not found yet. -/
theorem declare (name : Token) : Walks (·.declare name) chain [] chain True := by
  intro before tracked
  cases chain with
  | nil =>
    cases before with
    | cons scope before => exact tracked.elim
    | nil =>
      refine ⟨[], [], trivial, fun _ => trivial, fun state placed => ?_⟩
      obtain ⟨scopes, distances, errors⟩ := state
      obtain rfl : scopes = [] := placed
      simp [Resolution.declare, Occurrence.recordAll]
  | cons names chain =>
    cases before with
    | nil => exact tracked.elim
    | cons scope before =>
      by_cases known : scope.contains name.lexeme = true
      · refine ⟨scope :: before, [{ token := name, violation := .redeclaration }], tracked,
          fun _ => trivial, fun state placed => ?_⟩
        simp [Resolution.declare, Resolution.reportAt, Occurrence.recordAll, placed, known]
      · refine ⟨scope.insert name.lexeme false :: before, [], ⟨fun wanted => ?_, tracked.2⟩,
          fun _ => trivial, fun state placed => ?_⟩
        · rw [Std.TreeMap.getElem?_insert, ← tracked.1 wanted]
          by_cases same : name.lexeme = wanted
          · have missing : scope[wanted]? = none := by
              rw [← same]
              exact Std.TreeMap.getElem?_eq_none (by simpa using known)
            simp [same, missing]
          · simp [same]
        · simp [Resolution.declare, Occurrence.recordAll, placed, known]

/-- A declared and completed name is defined in the innermost scope. -/
theorem introduce (name : Token) :
    Walks (·.introduce name) chain [] (chain.define name.lexeme) True :=
  ((declare name).comp (bind name.lexeme)).mono fun _ => trivial

/-- A located reference is an occurrence with the address its name has in the chain. -/
theorem locate (id : Nat) (name : Token) :
    Walks (·.locate id name) chain [⟨id, chain.address? name.lexeme⟩] chain True := by
  intro before tracked
  refine ⟨before, [], tracked, fun _ => trivial, fun state placed => ?_⟩
  subst placed
  change state.locate id name = _
  unfold Resolution.locate Occurrence.recordAll
  rw [tracked.distance?]
  cases chain.address? name.lexeme with
  | none => simp [Occurrence.record]
  | some distance => simp [Occurrence.record]

/-- The check of a `return` leaves the scopes. -/
theorem checkReturn (within : FunctionContext) (keyword : Token) (value : Option Expr) :
    Walks (·.checkReturn within keyword value) chain [] chain True := by
  unfold Resolution.checkReturn
  split
  · exact (reportAt keyword _).mono nofun
  · exact (reportAt keyword _).mono nofun
  · exact refl

/-- The check of a superclass leaves the scopes and is lawful when the class is not its own
superclass. -/
theorem checkSuperclass (name : Token) (superclass : Expr) :
    Walks (·.checkSuperclass name superclass) chain [] chain
      (∀ id parent, superclass = .reference id parent → parent.lexeme ≠ name.lexeme) := by
  unfold Resolution.checkSuperclass
  split
  case h_1 id parent =>
    split
    · exact (reportAt parent _).mono nofun
    · rename_i other
      refine refl.mono fun _ found known same => ?_
      obtain ⟨rfl, rfl⟩ := Expr.reference.inj same
      exact other
  case h_2 other => exact refl.mono fun _ id parent same => (other id parent same).elim

end Resolution.Walks

open Resolution

mutual

/-- Resolving an expression records its occurrences. -/
theorem Expr.resolve_walks (inside : ClassContext) (chain : Chain) :
    ∀ expression : Expr, Walks (expression.resolve inside) chain
      (expression.occurrences inside chain) chain True
  | .literal _ => .refl
  | .grouping inner => inner.resolve_walks inside chain
  | .unary _ operand => operand.resolve_walks inside chain
  | .binary left _ right | .logical left _ right =>
    ((left.resolve_walks inside chain).comp (right.resolve_walks inside chain)).mono
      fun _ => trivial
  | .reference id name => .locate id name
  | .assign id name value =>
    ((value.resolve_walks inside chain).comp (.locate id name)).mono fun _ => trivial
  | .call callee _ arguments =>
    ((callee.resolve_walks inside chain).comp (Expr.resolveAll_walks inside chain arguments)).mono
      fun _ => trivial
  | .get object _ => object.resolve_walks inside chain
  | .set object _ value =>
    ((value.resolve_walks inside chain).comp (object.resolve_walks inside chain)).mono
      fun _ => trivial
  | .this id keyword => by
    cases inside with
    | outside => exact .reportMissing id keyword _
    | base => exact .locate id keyword
    | derived => exact .locate id keyword
  | .super id keyword _ => by
    cases inside with
    | outside => exact .reportMissing id keyword _
    | base => exact .reportMissing id keyword _
    | derived => exact .locate id keyword

/-- Resolving several expressions records their occurrences. -/
theorem Expr.resolveAll_walks (inside : ClassContext) (chain : Chain) :
    ∀ expressions : List Expr, Walks (Expr.resolveAll inside expressions) chain
      (Expr.occurrencesAll inside chain expressions) chain True
  | [] => .refl
  | first :: rest =>
    ((first.resolve_walks inside chain).comp (Expr.resolveAll_walks inside chain rest)).mono
      fun _ => trivial

end

/-- An optional expression is walked over like an expression. -/
theorem Expr.resolveOptional_walks (inside : ClassContext) (chain : Chain) (value : Option Expr) :
    Walks (Expr.resolveOptional inside value) chain
      (Expr.occurrencesOptional inside chain value) chain True := by
  cases value with
  | none => exact .refl
  | some value => exact value.resolve_walks inside chain

/-- Each parameter is defined in turn. -/
theorem Resolution.Walks.parameters (names : List Token) (chain : Chain) :
    Walks (fun state => names.foldl Resolution.introduce state) chain []
      (names.foldl (fun inner name => inner.define name.lexeme) chain) True := by
  induction names generalizing chain with
  | nil => exact .refl
  | cons first rest inductionHypothesis =>
    exact ((introduce first).comp (inductionHypothesis _)).mono fun _ => trivial

/-- A scope is opened for a while. -/
theorem Resolution.Walks.enclosed {step : Resolution → Resolution} {chain : Chain}
    {names : List String} {occurrences : List Occurrence} {lawful : Prop}
    (inner : Walks step ([] :: chain) occurrences (names :: chain) lawful) :
    Walks (fun state => (step state.openScope).closeScope) chain occurrences chain lawful := by
  have walks := (openScope.comp inner).comp closeScope
  rw [List.nil_append, List.append_nil] at walks
  exact walks.mono fun conditions => conditions.1.2

/-- Statements define names only in the innermost scope. -/
theorem Stmt.chainAfter_cons (chain : Chain) : ∀ (statement : Stmt) (names : List String),
    ∃ more, statement.chainAfter (names :: chain) = more :: chain
  | .declare name _, names => ⟨name.lexeme :: names, rfl⟩
  | .function declaration, names => ⟨declaration.name.lexeme :: names, rfl⟩
  | .class name _ _, names => ⟨name.lexeme :: names, rfl⟩
  | .branch _ whenTrue none, names => whenTrue.chainAfter_cons chain names
  | .branch _ whenTrue (some whenFalse), names => by
    obtain ⟨some, first⟩ := whenTrue.chainAfter_cons chain names
    obtain ⟨more, second⟩ := whenFalse.chainAfter_cons chain some
    exact ⟨more, by rw [chainAfter, first, second]⟩
  | .loop _ body, names => body.chainAfter_cons chain names
  | .expression _, names | .print _ _, names | .block _, names | .return _ _, names =>
    ⟨names, rfl⟩

/-- Statements change the innermost scope alone. -/
theorem Stmt.chainAfterAll_cons (chain : Chain) (statements : List Stmt) (names : List String) :
    ∃ more, Stmt.chainAfterAll statements (names :: chain) = more :: chain := by
  induction statements generalizing names with
  | nil => exact ⟨names, rfl⟩
  | cons first rest inductionHypothesis =>
    obtain ⟨some, step⟩ := first.chainAfter_cons chain names
    obtain ⟨more, steps⟩ := inductionHypothesis some
    refine ⟨more, ?_⟩
    rw [← steps, ← step]
    rfl

/-- Parameters end up in the innermost scope, the last one first. -/
theorem Chain.parameters_cons (parameters : List Token) (names : List String) (chain : Chain) :
    parameters.foldl (fun inner name => define inner name.lexeme) (names :: chain) =
      ((parameters.map Token.lexeme).reverse ++ names) :: chain := by
  induction parameters generalizing names with
  | nil => rfl
  | cons first rest inductionHypothesis =>
    rw [List.foldl_cons]
    exact (inductionHypothesis _).trans (by simp)

mutual

/-- Resolving a statement records its occurrences and defines its names. -/
theorem Stmt.resolve_walks (within : FunctionContext) (inside : ClassContext) (chain : Chain) :
    ∀ statement : Stmt, Walks (statement.resolve within inside) chain
      (statement.occurrences inside chain) (statement.chainAfter chain) statement.ProperParents
  | .expression value => value.resolve_walks inside chain
  | .print _ value => value.resolve_walks inside chain
  | .declare name initializer => by
    have walks := ((Walks.declare name).comp
      (Expr.resolveOptional_walks inside chain initializer)).comp (.bind name.lexeme)
    rw [List.nil_append, List.append_nil] at walks
    exact walks.mono fun _ => trivial
  | .block body => by
    have walks := Stmt.resolveAll_walks within inside ([] :: chain) body
    obtain ⟨names, after⟩ := Stmt.chainAfterAll_cons chain body []
    rw [after] at walks
    exact walks.enclosed
  | .branch condition whenTrue none =>
    ((condition.resolve_walks inside chain).comp
      (whenTrue.resolve_walks within inside chain)).mono fun conditions => conditions.2
  | .branch condition whenTrue (some whenFalse) => by
    exact (((condition.resolve_walks inside chain).comp
      (whenTrue.resolve_walks within inside chain)).comp
      (whenFalse.resolve_walks within inside _)).mono
        fun conditions => ⟨conditions.1.2, conditions.2⟩
  | .loop condition body =>
    ((condition.resolve_walks inside chain).comp
      (body.resolve_walks within inside chain)).mono fun conditions => conditions.2
  | .function declaration =>
    ((Walks.introduce declaration.name).comp
      (declaration.resolve_walks .function inside _)).mono fun conditions => conditions.2
  | .return keyword value =>
    ((Walks.checkReturn within keyword value).comp
      (Expr.resolveOptional_walks inside chain value)).mono fun _ => trivial
  | .class name none methods =>
    ((Walks.introduce name).comp (.enclosed (((Walks.bind "this").comp
      (FunctionDecl.resolveMethods_walks .base _ methods)).mono
        fun conditions => conditions.2))).mono fun conditions => conditions.2
  | .class name (some superclass) methods => by
    have methodWalk := (((Walks.bind "this").comp
      (FunctionDecl.resolveMethods_walks .derived
        ((chain.define name.lexeme).enterClass .derived) methods)).enclosed)
    have classWalk := ((Walks.bind "super").comp methodWalk).enclosed
    have parentWalk := ((Walks.introduce name).comp (.checkSuperclass name superclass)).comp
      (superclass.resolve_walks .derived (chain.define name.lexeme))
    exact (parentWalk.comp classWalk).mono
      fun conditions => ⟨conditions.1.1.2, conditions.2.2.2⟩

/-- Resolving several statements records their occurrences and defines their names. -/
theorem Stmt.resolveAll_walks (within : FunctionContext) (inside : ClassContext) (chain : Chain) :
    ∀ statements : List Stmt, Walks (Stmt.resolveAll within inside statements) chain
      (Stmt.occurrencesAll inside chain statements) (Stmt.chainAfterAll statements chain)
      (Stmt.ProperParentsAll statements)
  | [] => .refl
  | first :: rest =>
    (first.resolve_walks within inside chain).comp (Stmt.resolveAll_walks within inside _ rest)

/-- Resolving a function records its occurrences. -/
theorem FunctionDecl.resolve_walks (within : FunctionContext) (inside : ClassContext)
    (chain : Chain) :
    ∀ declaration : FunctionDecl, Walks (declaration.resolve within inside) chain
      (declaration.occurrences inside chain) chain declaration.ProperParents
  | .mk _ parameters body => by
    have bodyWalk := Stmt.resolveAll_walks within inside (chain.enterFunction parameters) body
    unfold Chain.enterFunction at bodyWalk
    rw [Chain.parameters_cons] at bodyWalk
    obtain ⟨names, after⟩ := Stmt.chainAfterAll_cons
      (((parameters.map Token.lexeme).reverse ++ []) :: chain) body []
    rw [after] at bodyWalk
    have parameterWalk := Walks.parameters parameters ([] :: chain)
    rw [Chain.parameters_cons] at parameterWalk
    have walks := (parameterWalk.comp bodyWalk.enclosed).enclosed.mono
      fun conditions => conditions.2
    rw [List.nil_append] at walks
    unfold FunctionDecl.occurrences Chain.enterFunction
    rw [Chain.parameters_cons]
    exact walks

/-- Resolving methods records their occurrences. -/
theorem FunctionDecl.resolveMethods_walks (inside : ClassContext) (chain : Chain) :
    ∀ declarations : List FunctionDecl,
      Walks (FunctionDecl.resolveMethods inside declarations) chain
        (FunctionDecl.occurrencesAll inside chain declarations) chain
        (FunctionDecl.ProperParentsAll declarations)
  | [] => .refl
  | first :: rest =>
    (first.resolve_walks _ inside chain).comp (FunctionDecl.resolveMethods_walks inside chain rest)

end

/-- At the top level no statement changes the chain. -/
theorem Stmt.chainAfter_nil : ∀ statement : Stmt, statement.chainAfter [] = []
  | .declare _ _ | .function _ | .class _ _ _ => rfl
  | .branch _ whenTrue none => whenTrue.chainAfter_nil
  | .branch _ whenTrue (some whenFalse) => by
    rw [chainAfter, whenTrue.chainAfter_nil, whenFalse.chainAfter_nil]
  | .loop _ body => body.chainAfter_nil
  | .expression _ | .print _ _ | .block _ | .return _ _ => rfl

/-- At the outermost level nothing is defined in a scope. -/
theorem Stmt.chainAfterAll_nil (statements : List Stmt) :
    Stmt.chainAfterAll statements [] = [] := by
  induction statements with
  | nil => rfl
  | cons first rest inductionHypothesis =>
    rw [Stmt.chainAfterAll, List.foldl_cons, first.chainAfter_nil]
    exact inductionHypothesis

/-- From the outermost level, resolution records the occurrences of a program and appends the same
violations, whatever was found before. -/
theorem Stmt.resolveAll_outermost (program : List Stmt) :
    ∃ complaints, (complaints = [] → Stmt.ProperParentsAll program) ∧
      ∀ state : Resolution, state.scopes = [] →
        Stmt.resolveAll .outside .outside program state =
          { scopes := []
            distances := Occurrence.recordAll (Stmt.occurrencesAll .outside [] program)
              state.distances
            errors := state.errors ++ complaints } := by
  have walks := Stmt.resolveAll_walks .outside .outside [] program
  rw [Stmt.chainAfterAll_nil] at walks
  obtain ⟨after, complaints, tracked, lawful, step⟩ := walks [] trivial
  cases after with
  | nil => exact ⟨complaints, lawful, step⟩
  | cons scope scopes => exact tracked.elim

/-- The table of a program records its occurrences. -/
theorem resolve_distances (program : List Stmt) :
    (resolve program).distances =
      Occurrence.recordAll (Stmt.occurrencesAll .outside [] program) ∅ := by
  obtain ⟨complaints, _, step⟩ := Stmt.resolveAll_outermost program
  rw [resolve, step .start rfl]
  rfl

/-- In a program without violations no class is its own superclass. -/
theorem resolve_properParents {program : List Stmt} (clean : (resolve program).errors = []) :
    Stmt.ProperParentsAll program := by
  obtain ⟨complaints, lawful, step⟩ := Stmt.resolveAll_outermost program
  rw [resolve, step .start rfl] at clean
  exact lawful clean

namespace Occurrence

variable {occurrences : List Occurrence} {distances : Distances} {id : Nat}

/-- A recorded occurrence answers for its own id, and the earlier table for the others. -/
theorem getElem?_record (distances : Distances) (occurrence : Occurrence) (id : Nat) :
    (record distances occurrence)[id]? =
      if occurrence.id = id then occurrence.address?.or distances[id]? else distances[id]? := by
  unfold record
  cases occurrence.address? with
  | none => simp
  | some distance =>
    rw [Std.TreeMap.getElem?_insert]
    simp

/-- Recording leaves the entries of other identities as they are. -/
theorem getElem?_recordAll_of_not_mem (other : id ∉ occurrences.map Occurrence.id) :
    (recordAll occurrences distances)[id]? = distances[id]? := by
  induction occurrences generalizing distances with
  | nil => rfl
  | cons first rest inductionHypothesis =>
    rw [List.map_cons, List.mem_cons, not_or] at other
    have behind : (recordAll (first :: rest) distances)[id]? = (record distances first)[id]? :=
      inductionHypothesis other.2
    rw [getElem?_record, if_neg (Ne.symm other.1)] at behind
    exact behind

/-- What was recorded last counts. -/
theorem getElem?_recordAll (occurrences : List Occurrence) (distances : Distances) (id : Nat) :
    (recordAll occurrences distances)[id]? = (recordAll occurrences ∅)[id]?.or distances[id]? := by
  induction occurrences generalizing distances with
  | nil => simp [recordAll]
  | cons first rest inductionHypothesis =>
    have step (known : Distances) : (recordAll (first :: rest) known)[id]? =
        (recordAll rest ∅)[id]?.or (record known first)[id]? := inductionHypothesis _
    rw [step, step, getElem?_record, getElem?_record]
    split
    · simp [Option.or_assoc]
    · simp

/-- Of occurrences with different identities, each is found where it refers to; a global one keeps
the entry it had. -/
theorem getElem?_recordAll_of_mem {occurrence : Occurrence}
    (distinct : (occurrences.map Occurrence.id).Nodup) (member : occurrence ∈ occurrences) :
    (recordAll occurrences distances)[occurrence.id]? =
      occurrence.address?.or distances[occurrence.id]? := by
  induction occurrences generalizing distances with
  | nil => cases member
  | cons first rest inductionHypothesis =>
    rw [List.map_cons, List.nodup_cons] at distinct
    rcases List.mem_cons.mp member with rfl | member
    · have behind : (recordAll (occurrence :: rest) distances)[occurrence.id]? =
          (record distances occurrence)[occurrence.id]? :=
        getElem?_recordAll_of_not_mem distinct.1
      rw [getElem?_record, if_pos rfl] at behind
      exact behind
    · have other : first.id ≠ occurrence.id := by
        rintro same
        exact distinct.1 (same ▸ List.mem_map_of_mem member)
      have behind : (recordAll (first :: rest) distances)[occurrence.id]? =
          occurrence.address?.or (record distances first)[occurrence.id]? :=
        inductionHypothesis distinct.2 member
      rw [getElem?_record, if_neg other] at behind
      exact behind

/-- The entries of a table as occurrences. -/
def ofTable (table : Distances) : List Occurrence :=
  table.toList.map fun entry => ⟨entry.1, some entry.2⟩

/-- The occurrences read off a table have its keys for ids. -/
theorem ids_ofTable (table : Distances) : (ofTable table).map Occurrence.id = table.keys := by
  simp [ofTable, Function.comp_def, Std.TreeMap.map_fst_toList_eq_keys]

/-- A table recorded over another one is asked first. -/
theorem getElem?_recordAll_ofTable (table distances : Distances) (id : Nat) :
    (recordAll (ofTable table) distances)[id]? = table[id]?.or distances[id]? := by
  cases entry : table[id]? with
  | none =>
    rw [getElem?_recordAll_of_not_mem, Option.none_or]
    rw [ids_ofTable, Std.TreeMap.mem_keys]
    exact fun member => by simp [Std.TreeMap.getElem?_eq_some_getElem member] at entry
  | some distance =>
    have member : (⟨id, some distance⟩ : Occurrence) ∈ ofTable table :=
      List.mem_map.mpr ⟨(id, distance), Std.TreeMap.mem_toList_iff_getElem?_eq_some.mpr entry, rfl⟩
    have distinct : ((ofTable table).map Occurrence.id).Nodup := by
      rw [ids_ofTable]
      exact Std.TreeMap.nodup_keys
    exact getElem?_recordAll_of_mem distinct member

end Occurrence

end LoxLang
