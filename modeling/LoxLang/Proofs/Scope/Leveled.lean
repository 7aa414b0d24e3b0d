import LoxLang.Proofs.Machine.Validity
import LoxLang.Proofs.Parsing.Formed
import LoxLang.Proofs.Scope.Lawful

/-!
# How far away `this` and `super` are

Between a place in a method and the scope of `this` lie only the scopes of functions and blocks, so
the distance of `this` is a matter of counting them: `Leveled` goes through a tree and counts. Every
occurrence of `this` has its level as its address, and every occurrence of `super` the next one,
since the scope of `super` lies right behind. Whatever resolution accepts is leveled.
-/

namespace LoxLang

/-- A name that is spelled neither like `this` nor like `super`. -/
def Token.Unreserved (name : Token) : Prop :=
  name.lexeme ≠ "this" ∧ name.lexeme ≠ "super"

mutual

/-- An expression a number of scopes inside the scope of `this`. -/
def Expr.Leveled (addressing : Addressing) (inside : ClassContext) (level : Nat) : Expr → Prop
  | .literal _ => True
  | .grouping inner => inner.Leveled addressing inside level
  | .unary _ operand => operand.Leveled addressing inside level
  | .binary left _ right =>
    left.Leveled addressing inside level ∧ right.Leveled addressing inside level
  | .logical left _ right =>
    left.Leveled addressing inside level ∧ right.Leveled addressing inside level
  | .reference _ _ => True
  | .assign _ name value => name.Unreserved ∧ value.Leveled addressing inside level
  | .call callee _ arguments =>
    callee.Leveled addressing inside level ∧ Expr.LeveledAll addressing inside level arguments
  | .get object _ => object.Leveled addressing inside level
  | .set object _ value =>
    object.Leveled addressing inside level ∧ value.Leveled addressing inside level
  | .this id keyword =>
    keyword.lexeme = "this" ∧ inside ≠ .outside ∧ addressing.address? id = some level
  | .super id keyword _ =>
    keyword.lexeme = "super" ∧ inside = .derived ∧ addressing.address? id = some (level + 1)

/-- Several expressions a number of scopes inside the scope of `this`. -/
def Expr.LeveledAll (addressing : Addressing) (inside : ClassContext) (level : Nat) :
    List Expr → Prop
  | [] => True
  | first :: rest =>
    first.Leveled addressing inside level ∧ Expr.LeveledAll addressing inside level rest

end

/-- A leveled expression, if there is one. -/
def Expr.LeveledOptional (addressing : Addressing) (inside : ClassContext) (level : Nat) :
    Option Expr → Prop
  | none => True
  | some value => value.Leveled addressing inside level

/-- The class context in the methods of a class with or without a superclass. -/
def ClassContext.ofParent (superclass : Option Expr) : ClassContext :=
  match superclass with
  | none => .base
  | some _ => .derived

mutual

/-- A statement a number of scopes inside the scope of `this`. Counting starts anew in a class. -/
def Stmt.Leveled (addressing : Addressing) (inside : ClassContext) (level : Nat) : Stmt → Prop
  | .expression value => value.Leveled addressing inside level
  | .print _ value => value.Leveled addressing inside level
  | .declare name initializer =>
    name.Unreserved ∧ Expr.LeveledOptional addressing inside level initializer
  | .block body => Stmt.LeveledAll addressing inside (level + 1) body
  | .branch condition whenTrue none =>
    condition.Leveled addressing inside level ∧ whenTrue.Leveled addressing inside level
  | .branch condition whenTrue (some whenFalse) =>
    condition.Leveled addressing inside level ∧ whenTrue.Leveled addressing inside level ∧
      whenFalse.Leveled addressing inside level
  | .loop condition body =>
    condition.Leveled addressing inside level ∧ body.Leveled addressing inside level
  | .function declaration => declaration.Leveled addressing inside level
  | .return _ value => Expr.LeveledOptional addressing inside level value
  | .class name superclass methods =>
    name.Unreserved ∧ Expr.LeveledOptional addressing inside level superclass ∧
      FunctionDecl.LeveledAll addressing (.ofParent superclass) methods

/-- Several statements a number of scopes inside the scope of `this`. -/
def Stmt.LeveledAll (addressing : Addressing) (inside : ClassContext) (level : Nat) :
    List Stmt → Prop
  | [] => True
  | first :: rest =>
    first.Leveled addressing inside level ∧ Stmt.LeveledAll addressing inside level rest

/-- A function whose declaration stands a number of scopes inside the scope of `this`. Its body lies
in a scope of its own inside the scope of its parameters. -/
def FunctionDecl.Leveled (addressing : Addressing) (inside : ClassContext) (level : Nat) :
    FunctionDecl → Prop
  | .mk name parameters body =>
    name.Unreserved ∧ (∀ parameter ∈ parameters, parameter.Unreserved) ∧
      Stmt.LeveledAll addressing inside (level + 2) body

/-- The methods of a class, which stand in the scope of `this` itself. -/
def FunctionDecl.LeveledAll (addressing : Addressing) (inside : ClassContext) :
    List FunctionDecl → Prop
  | [] => True
  | first :: rest =>
    first.Leveled addressing inside 0 ∧ FunctionDecl.LeveledAll addressing inside rest

end

/-- Statements are leveled when each of them is. -/
theorem Stmt.leveledAll_iff {addressing : Addressing} {inside : ClassContext} {level : Nat}
    {statements : List Stmt} :
    Stmt.LeveledAll addressing inside level statements ↔
      ∀ statement ∈ statements, statement.Leveled addressing inside level := by
  induction statements with
  | nil => simp [Stmt.LeveledAll]
  | cons first rest inductionHypothesis =>
    simp only [Stmt.LeveledAll, inductionHypothesis, List.forall_mem_cons]

/-- Methods are leveled when each of them is. -/
theorem FunctionDecl.leveledAll_iff {addressing : Addressing} {inside : ClassContext}
    {declarations : List FunctionDecl} :
    FunctionDecl.LeveledAll addressing inside declarations ↔
      ∀ declaration ∈ declarations, declaration.Leveled addressing inside 0 := by
  induction declarations with
  | nil => simp [FunctionDecl.LeveledAll]
  | cons first rest inductionHypothesis =>
    simp only [FunctionDecl.LeveledAll, inductionHypothesis, List.forall_mem_cons]

/-- A leveled function has an unreserved name. -/
theorem FunctionDecl.Leveled.name {addressing : Addressing} {inside : ClassContext} {level : Nat}
    {declaration : FunctionDecl} (leveled : declaration.Leveled addressing inside level) :
    declaration.name.Unreserved := by
  obtain ⟨name, parameters, body⟩ := declaration
  exact leveled.1

/-- The body of a leveled function is two levels further inside: behind the parameters and its own
frame. -/
theorem FunctionDecl.Leveled.body {addressing : Addressing} {inside : ClassContext} {level : Nat}
    {declaration : FunctionDecl} (leveled : declaration.Leveled addressing inside level) :
    (∀ parameter ∈ declaration.parameters, parameter.Unreserved) ∧
      Stmt.LeveledAll addressing inside (level + 2) declaration.body := by
  obtain ⟨name, parameters, body⟩ := declaration
  exact leveled.2

/-- Both sides of a branch stand where the branch stands. -/
theorem Stmt.Leveled.branch {addressing : Addressing} {inside : ClassContext} {level : Nat}
    {condition : Expr} {whenTrue : Stmt} {whenFalse : Option Stmt}
    (leveled : (Stmt.branch condition whenTrue whenFalse).Leveled addressing inside level) :
    condition.Leveled addressing inside level ∧ whenTrue.Leveled addressing inside level ∧
      ∀ other, whenFalse = some other → other.Leveled addressing inside level := by
  cases whenFalse with
  | none => exact ⟨leveled.1, leveled.2, nofun⟩
  | some other => exact ⟨leveled.1, leveled.2.1, fun _ same => Option.some.inj same ▸ leveled.2.2⟩

/-! ### More addresses -/

/-- A later addressing keeps every address of an earlier one. -/
def Addressing.Includes (later addressing : Addressing) : Prop :=
  ∀ id distance, addressing.address? id = some distance → later.address? id = some distance

section Includes

variable {addressing later : Addressing} {inside : ClassContext}

mutual

/-- Leveled expressions stay so when more addresses are known. -/
theorem Expr.leveled_mono (includes : later.Includes addressing) {level : Nat} :
    ∀ expression : Expr, expression.Leveled addressing inside level →
      expression.Leveled later inside level
  | .literal _, _ | .reference _ _, _ => trivial
  | .grouping inner, leveled => inner.leveled_mono includes leveled
  | .unary _ operand, leveled => operand.leveled_mono includes leveled
  | .get object _, leveled => object.leveled_mono includes leveled
  | .binary left _ right, ⟨first, second⟩ | .logical left _ right, ⟨first, second⟩
  | .set left _ right, ⟨first, second⟩ =>
    ⟨left.leveled_mono includes first, right.leveled_mono includes second⟩
  | .assign _ _ value, ⟨named, leveled⟩ => ⟨named, value.leveled_mono includes leveled⟩
  | .call callee _ arguments, ⟨first, second⟩ =>
    ⟨callee.leveled_mono includes first, Expr.leveledAll_mono includes arguments second⟩
  | .this _ _, ⟨spelled, within, found⟩ => ⟨spelled, within, includes _ _ found⟩
  | .super _ _ _, ⟨spelled, within, found⟩ => ⟨spelled, within, includes _ _ found⟩

/-- Leveled expressions stay so as declarations are added. -/
theorem Expr.leveledAll_mono (includes : later.Includes addressing) {level : Nat} :
    ∀ expressions : List Expr, Expr.LeveledAll addressing inside level expressions →
      Expr.LeveledAll later inside level expressions
  | [], _ => trivial
  | first :: rest, ⟨head, tail⟩ =>
    ⟨first.leveled_mono includes head, Expr.leveledAll_mono includes rest tail⟩

end

/-- A leveled optional expression stays so as declarations are added. -/
theorem Expr.leveledOptional_mono (includes : later.Includes addressing) {level : Nat}
    (value : Option Expr) (leveled : Expr.LeveledOptional addressing inside level value) :
    Expr.LeveledOptional later inside level value := by
  cases value with
  | none => trivial
  | some value => exact value.leveled_mono includes leveled

mutual

/-- Leveled statements stay so when more addresses are known. -/
theorem Stmt.leveled_mono (includes : later.Includes addressing) {inside : ClassContext}
    {level : Nat} :
    ∀ statement : Stmt, statement.Leveled addressing inside level →
      statement.Leveled later inside level
  | .expression value, leveled | .print _ value, leveled => value.leveled_mono includes leveled
  | .declare _ initializer, ⟨named, leveled⟩ =>
    ⟨named, Expr.leveledOptional_mono includes initializer leveled⟩
  | .block body, leveled => Stmt.leveledAll_mono includes body leveled
  | .branch condition whenTrue none, ⟨first, second⟩ =>
    ⟨condition.leveled_mono includes first, whenTrue.leveled_mono includes second⟩
  | .branch condition whenTrue (some whenFalse), ⟨first, second, third⟩ =>
    ⟨condition.leveled_mono includes first, whenTrue.leveled_mono includes second,
      whenFalse.leveled_mono includes third⟩
  | .loop condition body, ⟨first, second⟩ =>
    ⟨condition.leveled_mono includes first, body.leveled_mono includes second⟩
  | .function declaration, leveled => declaration.leveled_mono includes leveled
  | .return _ value, leveled => Expr.leveledOptional_mono includes value leveled
  | .class _ superclass methods, ⟨named, parent, members⟩ =>
    ⟨named, Expr.leveledOptional_mono includes superclass parent,
      FunctionDecl.leveledAll_mono includes methods members⟩

/-- Leveled statements stay so as declarations are added. -/
theorem Stmt.leveledAll_mono (includes : later.Includes addressing) {inside : ClassContext}
    {level : Nat} :
    ∀ statements : List Stmt, Stmt.LeveledAll addressing inside level statements →
      Stmt.LeveledAll later inside level statements
  | [], _ => trivial
  | first :: rest, ⟨head, tail⟩ =>
    ⟨first.leveled_mono includes head, Stmt.leveledAll_mono includes rest tail⟩

/-- A leveled function stays so as declarations are added. -/
theorem FunctionDecl.leveled_mono (includes : later.Includes addressing) {inside : ClassContext}
    {level : Nat} :
    ∀ declaration : FunctionDecl, declaration.Leveled addressing inside level →
      declaration.Leveled later inside level
  | .mk _ _ body, ⟨named, parameters, leveled⟩ =>
    ⟨named, parameters, Stmt.leveledAll_mono includes body leveled⟩

/-- Leveled methods stay so as declarations are added. -/
theorem FunctionDecl.leveledAll_mono (includes : later.Includes addressing)
    {inside : ClassContext} :
    ∀ declarations : List FunctionDecl, FunctionDecl.LeveledAll addressing inside declarations →
      FunctionDecl.LeveledAll later inside declarations
  | [], _ => trivial
  | first :: rest, ⟨head, tail⟩ =>
    ⟨first.leveled_mono includes head, FunctionDecl.leveledAll_mono includes rest tail⟩

end

end Includes

/-! ### Accepted programs are leveled -/

/-- Trees in which no name is reserved. -/
def unreservedRules : TreeRules :=
  ⟨Token.Unreserved, fun _ => True⟩

namespace Chain

/-- The scope of `this` is a number of scopes away, and in a derived class that of `super` is one
more. -/
structure Levels (chain : Chain) (inside : ClassContext) (level : Nat) : Prop where
  this : inside ≠ .outside → chain.address? "this" = some level
  super : inside = .derived → chain.address? "super" = some (level + 1)

variable {chain : Chain} {inside : ClassContext} {level : Nat} {name : Token}

/-- Outside of classes there is no level to keep. -/
theorem levels_outside (chain : Chain) (level : Nat) : chain.Levels .outside level :=
  ⟨fun within => (within rfl).elim, nofun⟩

/-- A scope that defines neither moves both one scope away. -/
theorem address?_cons {names : List String} {wanted : String} (free : wanted ∉ names) :
    address? (names :: chain) wanted = (chain.address? wanted).map (· + 1) := by
  simp [address?, List.findIdx?_cons, free]

/-- A scope without reserved names is one level. -/
theorem Levels.cons (levels : chain.Levels inside level) {names : List String}
    (this : "this" ∉ names) (super : "super" ∉ names) :
    Levels (names :: chain) inside (level + 1) where
  this := fun within => by rw [address?_cons this, levels.this within]; rfl
  super := fun within => by rw [address?_cons super, levels.super within]; rfl

/-- An unreserved name leaves the levels. -/
theorem Levels.define (levels : chain.Levels inside level) (named : name.Unreserved) :
    (chain.define name.lexeme).Levels inside level where
  this := fun within => by rw [address?_define (Ne.symm named.1), levels.this within]
  super := fun within => by rw [address?_define (Ne.symm named.2), levels.super within]

/-- A function with unreserved parameters is entered through two levels. -/
theorem Levels.enterFunction (levels : chain.Levels inside level) {parameters : List Token}
    (named : ∀ parameter ∈ parameters, parameter.Unreserved) :
    (chain.enterFunction parameters).Levels inside (level + 2) := by
  have free {wanted : String} (other : ∀ name : Token, name.Unreserved → name.lexeme ≠ wanted) :
      wanted ∉ (parameters.map Token.lexeme).reverse ++ [] := by
    intro member
    obtain ⟨parameter, listed, same⟩ : ∃ parameter ∈ parameters, parameter.lexeme = wanted := by
      simpa using member
    exact other parameter (named parameter listed) same
  unfold Chain.enterFunction
  rw [Chain.parameters_cons]
  exact (levels.cons (free fun _ named => named.1) (free fun _ named => named.2)).cons (by simp)
    (by simp)

/-- Methods stand in the scope of `this`, and the scope of `super` lies right behind. -/
theorem levels_enterClass (chain : Chain) (superclass : Option Expr) :
    (chain.enterClass (.ofParent superclass)).Levels (.ofParent superclass) 0 := by
  cases superclass with
  | none =>
    constructor
    · intro _
      simp [ClassContext.ofParent, enterClass, address?, List.findIdx?_cons]
    · intro within
      cases within
  | some superclass =>
    constructor <;>
    · intro _
      simp [ClassContext.ofParent, enterClass, address?, List.findIdx?_cons]

/-- No statement declares a reserved name. -/
theorem Levels.chainAfter :
    ∀ (statement : Stmt) {chain : Chain}, statement.Formed unreservedRules →
      chain.Levels inside level → (statement.chainAfter chain).Levels inside level
  | .declare _ _, _, formed, levels | .class _ _ _, _, formed, levels => by
    unfold Stmt.chainAfter
    exact levels.define formed.1
  | .function declaration, _, formed, levels =>
    levels.define (FunctionDecl.Formed.name formed)
  | .branch _ whenTrue none, _, formed, levels | .loop _ whenTrue, _, formed, levels => by
    unfold Stmt.chainAfter
    exact Levels.chainAfter whenTrue formed.2 levels
  | .branch _ whenTrue (some whenFalse), _, formed, levels =>
    Levels.chainAfter whenFalse formed.2.2
      (Levels.chainAfter whenTrue formed.2.1 levels)
  | .expression _, _, _, levels | .print _ _, _, _, levels | .block _, _, _, levels
  | .return _ _, _, _, levels => levels

end Chain

section Resolved

variable {addressing : Addressing}

section Expressions

variable {inside : ClassContext} {level : Nat} {chain : Chain}

mutual

/-- Resolution gives `this` and `super` in an expression their levels as addresses. -/
theorem Expr.Formed.leveled (levels : chain.Levels inside level) :
    ∀ expression : Expr, expression.Formed unreservedRules → expression.Lawful inside →
      addressing.Holds (expression.occurrences inside chain) →
      expression.Leveled addressing inside level
  | .literal _, _, _, _ | .reference _ _, _, _, _ => trivial
  | .grouping inner, formed, lawful, holds => Expr.Formed.leveled levels inner formed lawful holds
  | .get object _, formed, lawful, holds => Expr.Formed.leveled levels object formed lawful holds
  | .unary _ operand, formed, lawful, holds =>
    Expr.Formed.leveled levels operand formed.2 lawful holds
  | .binary left _ right, formed, lawful, holds => by
    obtain ⟨first, second⟩ := Addressing.holds_append.mp holds
    exact ⟨Expr.Formed.leveled levels left formed.2.1 lawful.1 first,
      Expr.Formed.leveled levels right formed.2.2 lawful.2 second⟩
  | .logical left _ right, formed, lawful, holds => by
    obtain ⟨first, second⟩ := Addressing.holds_append.mp holds
    exact ⟨Expr.Formed.leveled levels left formed.1 lawful.1 first,
      Expr.Formed.leveled levels right formed.2 lawful.2 second⟩
  | .assign _ name value, formed, lawful, holds =>
    ⟨formed.1, Expr.Formed.leveled levels value formed.2 lawful
      (Addressing.holds_append.mp holds).1⟩
  | .call callee _ arguments, formed, lawful, holds => by
    obtain ⟨first, second⟩ := Addressing.holds_append.mp holds
    exact ⟨Expr.Formed.leveled levels callee formed.1 lawful.1 first,
      Expr.FormedAll.leveled levels arguments formed.2 lawful.2 second⟩
  | .set object _ value, formed, lawful, holds => by
    obtain ⟨second, first⟩ := Addressing.holds_append.mp holds
    exact ⟨Expr.Formed.leveled levels object formed.1 lawful.2 first,
      Expr.Formed.leveled levels value formed.2 lawful.1 second⟩
  | .this id keyword, formed, lawful, holds => by
    have found := levels.this lawful
    rw [← formed.1] at found
    refine ⟨formed.1, lawful, ?_⟩
    cases inside with
    | outside => exact (lawful rfl).elim
    | base | derived => exact (Addressing.holds_single.mp holds).2.trans found
  | .super id keyword _, formed, lawful, holds => by
    have found := levels.super lawful
    rw [← formed.1] at found
    refine ⟨formed.1, lawful, ?_⟩
    cases inside with
    | outside | base => cases lawful
    | derived => exact (Addressing.holds_single.mp holds).2.trans found

/-- Formed and lawful expressions are leveled. -/
theorem Expr.FormedAll.leveled (levels : chain.Levels inside level) :
    ∀ expressions : List Expr, Expr.FormedAll unreservedRules expressions →
      Expr.LawfulAll inside expressions →
      addressing.Holds (Expr.occurrencesAll inside chain expressions) →
      Expr.LeveledAll addressing inside level expressions
  | [], _, _, _ => trivial
  | first :: rest, formed, lawful, holds => by
    obtain ⟨head, tail⟩ := Addressing.holds_append.mp holds
    exact ⟨Expr.Formed.leveled levels first formed.1 lawful.1 head,
      Expr.FormedAll.leveled levels rest formed.2 lawful.2 tail⟩

end

/-- A formed and lawful optional expression is leveled. -/
theorem Expr.FormedOptional.leveled (levels : chain.Levels inside level) (value : Option Expr)
    (formed : Expr.FormedOptional unreservedRules value) (lawful : Expr.LawfulOptional inside value)
    (holds : addressing.Holds (Expr.occurrencesOptional inside chain value)) :
    Expr.LeveledOptional addressing inside level value := by
  cases value with
  | none => trivial
  | some value => exact Expr.Formed.leveled levels value formed lawful holds

end Expressions

mutual

/-- Resolution gives `this` and `super` in a statement their levels as addresses. -/
theorem Stmt.Formed.leveled {within : FunctionContext} {inside : ClassContext} {level : Nat}
    {chain : Chain} (levels : chain.Levels inside level) :
    ∀ statement : Stmt, statement.Formed unreservedRules → statement.Proper →
      statement.Lawful within inside chain →
      addressing.Holds (statement.occurrences inside chain) →
      statement.Leveled addressing inside level
  | .expression value, formed, _, lawful, holds | .print _ value, formed, _, lawful, holds =>
    Expr.Formed.leveled levels value formed lawful holds
  | .declare name initializer, formed, _, lawful, holds =>
    ⟨formed.1, Expr.FormedOptional.leveled levels initializer formed.2 lawful.2 holds⟩
  | .block body, formed, proper, lawful, holds =>
    Stmt.FormedAll.leveled (levels.cons (by simp) (by simp)) body formed proper lawful holds
  | .branch condition whenTrue none, formed, proper, lawful, holds => by
    obtain ⟨first, second⟩ := Addressing.holds_append.mp holds
    exact ⟨Expr.Formed.leveled levels condition formed.1 lawful.1 first,
      Stmt.Formed.leveled levels whenTrue formed.2 proper.2.1 lawful.2 second⟩
  | .branch condition whenTrue (some whenFalse), formed, proper, lawful, holds => by
    obtain ⟨early, third⟩ := Addressing.holds_append.mp holds
    obtain ⟨first, second⟩ := Addressing.holds_append.mp early
    exact ⟨Expr.Formed.leveled levels condition formed.1 lawful.1 first,
      Stmt.Formed.leveled levels whenTrue formed.2.1 proper.2.1.1 lawful.2.1 second,
      Stmt.Formed.leveled (.chainAfter whenTrue formed.2.1 levels) whenFalse formed.2.2
        proper.2.2.1 lawful.2.2 third⟩
  | .loop condition body, formed, proper, lawful, holds => by
    obtain ⟨first, second⟩ := Addressing.holds_append.mp holds
    exact ⟨Expr.Formed.leveled levels condition formed.1 lawful.1 first,
      Stmt.Formed.leveled levels body formed.2 proper.2.1 lawful.2 second⟩
  | .function declaration, formed, proper, lawful, holds =>
    FunctionDecl.Formed.leveled (levels.define (FunctionDecl.Formed.name formed))
      declaration formed proper lawful.2 holds
  | .return _ value, formed, _, lawful, holds =>
    Expr.FormedOptional.leveled levels value formed lawful.2 holds
  | .class name none methods, formed, proper, lawful, holds =>
    ⟨formed.1, trivial, FunctionDecl.FormedAll.leveled
      (Chain.levels_enterClass _ none) methods formed.2.2 proper.2 lawful.2 holds⟩
  | .class name (some superclass) methods, formed, proper, lawful, holds => by
    obtain ⟨_, second⟩ := Addressing.holds_append.mp holds
    obtain ⟨_, ⟨id, parent, rfl⟩, members⟩ := proper
    exact ⟨formed.1, trivial, FunctionDecl.FormedAll.leveled
      (Chain.levels_enterClass _ (some _)) methods formed.2.2 members lawful.2.2 second⟩

/-- Formed, proper and lawful statements are leveled. -/
theorem Stmt.FormedAll.leveled {within : FunctionContext} {inside : ClassContext} {level : Nat}
    {chain : Chain} (levels : chain.Levels inside level) :
    ∀ statements : List Stmt, Stmt.FormedAll unreservedRules statements →
      Stmt.ProperAll statements → Stmt.LawfulAll within inside chain statements →
      addressing.Holds (Stmt.occurrencesAll inside chain statements) →
      Stmt.LeveledAll addressing inside level statements
  | [], _, _, _, _ => trivial
  | first :: rest, formed, proper, lawful, holds => by
    obtain ⟨head, tail⟩ := Addressing.holds_append.mp holds
    exact ⟨Stmt.Formed.leveled levels first formed.1 proper.1 lawful.1 head,
      Stmt.FormedAll.leveled (.chainAfter first formed.1 levels) rest formed.2 proper.2
        lawful.2 tail⟩

/-- A formed, proper and lawful function is leveled. -/
theorem FunctionDecl.Formed.leveled {within : FunctionContext} {inside : ClassContext}
    {level : Nat} {chain : Chain} (levels : chain.Levels inside level) :
    ∀ declaration : FunctionDecl, declaration.Formed unreservedRules → declaration.Proper →
      declaration.Lawful within inside chain →
      addressing.Holds (declaration.occurrences inside chain) →
      declaration.Leveled addressing inside level
  | .mk _ _ body, formed, proper, lawful, holds =>
    ⟨formed.1, formed.2.1, Stmt.FormedAll.leveled (levels.enterFunction formed.2.1) body formed.2.2
      proper.2.2 lawful.2 holds⟩

/-- Formed, proper and lawful methods are leveled. -/
theorem FunctionDecl.FormedAll.leveled {inside : ClassContext} {chain : Chain}
    (levels : chain.Levels inside 0) :
    ∀ declarations : List FunctionDecl, FunctionDecl.FormedAll unreservedRules declarations →
      FunctionDecl.ProperAll declarations → FunctionDecl.LawfulAll inside chain declarations →
      addressing.Holds (FunctionDecl.occurrencesAll inside chain declarations) →
      FunctionDecl.LeveledAll addressing inside declarations
  | [], _, _, _, _ => trivial
  | first :: rest, formed, proper, lawful, holds => by
    obtain ⟨head, tail⟩ := Addressing.holds_append.mp holds
    exact ⟨FunctionDecl.Formed.leveled levels first formed.1 proper.1 lawful.1 head,
      FunctionDecl.FormedAll.leveled levels rest formed.2 proper.2 lawful.2 tail⟩

end

end Resolved

end LoxLang
