import LoxLang.Proofs.Machine.Validity
import LoxLang.Proofs.Parsing.Formed
import LoxLang.Proofs.Scope.Lawful

/-!
# Occurrences of `this` and `super` are local

Resolution reports `this` outside of classes and `super` outside of derived ones. Inside, the scopes
around the methods define them, so in a lawful tree every occurrence of either has an address.
-/

namespace LoxLang

namespace Chain

/-- Some scope defines what may be used in a class context. -/
structure Encloses (chain : Chain) (inside : ClassContext) : Prop where
  this : inside ≠ .outside → (chain.address? "this").isSome
  super : inside = .derived → (chain.address? "super").isSome

variable {chain : Chain} {name : String} {inside : ClassContext}

/-- A name has an address when some scope holds it. -/
theorem address?_isSome :
    (chain.address? name).isSome ↔ ∃ names ∈ chain, name ∈ names := by
  simp [address?, List.findIdx?_isSome]

/-- A name that is defined in some scope is so with a further scope inside. -/
theorem address?_isSome_cons (names : List String) (found : (chain.address? name).isSome) :
    (address? (names :: chain) name).isSome := by
  obtain ⟨scope, listed, member⟩ := address?_isSome.mp found
  exact address?_isSome.mpr ⟨scope, List.mem_cons_of_mem _ listed, member⟩

/-- A name that is defined in some scope is so with another one defined. -/
theorem address?_isSome_define (other : String) (found : (chain.address? name).isSome) :
    ((chain.define other).address? name).isSome := by
  cases chain with
  | nil => cases found
  | cons names chain =>
    obtain ⟨scope, listed, member⟩ := address?_isSome.mp found
    rcases List.mem_cons.mp listed with rfl | listed
    · exact address?_isSome.mpr ⟨_, List.mem_cons_self, List.mem_cons_of_mem _ member⟩
    · exact address?_isSome.mpr ⟨scope, List.mem_cons_of_mem _ listed, member⟩

/-- A further scope leaves what the outer ones define. -/
theorem Encloses.cons (encloses : chain.Encloses inside) (names : List String) :
    Encloses (names :: chain) inside where
  this := fun within => address?_isSome_cons names (encloses.this within)
  super := fun within => address?_isSome_cons names (encloses.super within)

/-- A further name leaves what the scopes define. -/
theorem Encloses.define (encloses : chain.Encloses inside) (name : String) :
    (chain.define name).Encloses inside where
  this := fun within => address?_isSome_define name (encloses.this within)
  super := fun within => address?_isSome_define name (encloses.super within)

/-- The scopes of a function leave what the outer ones define. -/
theorem Encloses.enterFunction (encloses : chain.Encloses inside) (parameters : List Token) :
    (chain.enterFunction parameters).Encloses inside := by
  unfold Chain.enterFunction
  rw [Chain.parameters_cons]
  exact (encloses.cons _).cons []

/-- The scopes around the methods of a class define what may be used there. -/
theorem encloses_enterClass (chain : Chain) :
    ∀ inside : ClassContext, inside ≠ .outside → (chain.enterClass inside).Encloses inside
  | .outside, within => (within rfl).elim
  | .base, _ => ⟨fun _ => address?_isSome.mpr ⟨["this"], by simp [enterClass], by simp⟩, nofun⟩
  | .derived, _ =>
    ⟨fun _ => address?_isSome.mpr ⟨["this"], by simp [enterClass], by simp⟩,
      fun _ => address?_isSome.mpr ⟨["super"], by simp [enterClass], by simp⟩⟩

/-- A statement leaves what the scopes define. -/
theorem Encloses.chainAfter :
    ∀ (statement : Stmt) {chain : Chain}, chain.Encloses inside →
      (statement.chainAfter chain).Encloses inside
  | .declare name _, _, encloses | .class name _ _, _, encloses => by
    unfold Stmt.chainAfter
    exact encloses.define name.lexeme
  | .function declaration, _, encloses => encloses.define declaration.name.lexeme
  | .branch _ whenTrue none, _, encloses | .loop _ whenTrue, _, encloses => by
    unfold Stmt.chainAfter
    exact Encloses.chainAfter whenTrue encloses
  | .branch _ whenTrue (some whenFalse), _, encloses =>
    Encloses.chainAfter whenFalse (Encloses.chainAfter whenTrue encloses)
  | .expression _, _, encloses | .print _ _, _, encloses | .block _, _, encloses
  | .return _ _, _, encloses => encloses

end Chain

/-- What is asked of trees whose occurrences of `this` and `super` have addresses. -/
def Addressing.anchoredRules (addressing : Addressing) (named : Token → Prop) : TreeRules :=
  ⟨named, fun id => (addressing.address? id).isSome⟩

/-- An occurrence that was found has an address. -/
theorem Addressing.Holds.isSome {addressing : Addressing} {id : Nat} {found : Option Nat}
    (holds : addressing.Holds [⟨id, found⟩]) (there : found.isSome) :
    (addressing.address? id).isSome := by
  rw [(holds_single.mp holds).2]
  exact there

section Anchored

variable {addressing : Addressing} {named : Token → Prop}

mutual

/-- Occurrences of `this` and `super` in a lawful expression have addresses. -/
theorem Expr.Formed.anchored {inside : ClassContext} {chain : Chain}
    (encloses : chain.Encloses inside) :
    ∀ expression : Expr, expression.Formed ⟨named, fun _ => True⟩ → expression.Lawful inside →
      addressing.Holds (expression.occurrences inside chain) →
      expression.Formed (addressing.anchoredRules named)
  | .literal _, _, _, _ => trivial
  | .grouping inner, formed, lawful, holds =>
    Expr.Formed.anchored encloses inner formed lawful holds
  | .get object _, formed, lawful, holds =>
    Expr.Formed.anchored encloses object formed lawful holds
  | .unary _ operand, formed, lawful, holds =>
    ⟨formed.1, Expr.Formed.anchored encloses operand formed.2 lawful holds⟩
  | .binary left _ right, formed, lawful, holds => by
    obtain ⟨first, second⟩ := Addressing.holds_append.mp holds
    exact ⟨formed.1, Expr.Formed.anchored encloses left formed.2.1 lawful.1 first,
      Expr.Formed.anchored encloses right formed.2.2 lawful.2 second⟩
  | .logical left _ right, formed, lawful, holds => by
    obtain ⟨first, second⟩ := Addressing.holds_append.mp holds
    exact ⟨Expr.Formed.anchored encloses left formed.1 lawful.1 first,
      Expr.Formed.anchored encloses right formed.2 lawful.2 second⟩
  | .reference _ _, formed, _, _ => formed
  | .assign _ _ value, formed, lawful, holds =>
    ⟨formed.1, Expr.Formed.anchored encloses value formed.2 lawful
      (Addressing.holds_append.mp holds).1⟩
  | .call callee _ arguments, formed, lawful, holds => by
    obtain ⟨first, second⟩ := Addressing.holds_append.mp holds
    exact ⟨Expr.Formed.anchored encloses callee formed.1 lawful.1 first,
      Expr.FormedAll.anchored encloses arguments formed.2 lawful.2 second⟩
  | .set object _ value, formed, lawful, holds => by
    obtain ⟨second, first⟩ := Addressing.holds_append.mp holds
    exact ⟨Expr.Formed.anchored encloses object formed.1 lawful.2 first,
      Expr.Formed.anchored encloses value formed.2 lawful.1 second⟩
  | .this id keyword, formed, lawful, holds => by
    refine ⟨formed.1, ?_⟩
    have found := encloses.this lawful
    cases inside with
    | outside => exact (lawful rfl).elim
    | base | derived =>
      refine Addressing.Holds.isSome holds ?_
      rw [formed.1]
      exact found
  | .super id keyword _, formed, lawful, holds => by
    refine ⟨formed.1, ?_⟩
    have found := encloses.super lawful
    cases inside with
    | outside | base => cases lawful
    | derived =>
      refine Addressing.Holds.isSome holds ?_
      rw [formed.1]
      exact found

/-- Formed and lawful expressions are anchored. -/
theorem Expr.FormedAll.anchored {inside : ClassContext} {chain : Chain}
    (encloses : chain.Encloses inside) :
    ∀ expressions : List Expr, Expr.FormedAll ⟨named, fun _ => True⟩ expressions →
      Expr.LawfulAll inside expressions →
      addressing.Holds (Expr.occurrencesAll inside chain expressions) →
      Expr.FormedAll (addressing.anchoredRules named) expressions
  | [], _, _, _ => trivial
  | first :: rest, formed, lawful, holds => by
    obtain ⟨head, tail⟩ := Addressing.holds_append.mp holds
    exact ⟨Expr.Formed.anchored encloses first formed.1 lawful.1 head,
      Expr.FormedAll.anchored encloses rest formed.2 lawful.2 tail⟩

end

/-- A formed and lawful optional expression is anchored. -/
theorem Expr.FormedOptional.anchored {inside : ClassContext} {chain : Chain}
    (encloses : chain.Encloses inside) (value : Option Expr)
    (formed : Expr.FormedOptional ⟨named, fun _ => True⟩ value)
    (lawful : Expr.LawfulOptional inside value)
    (holds : addressing.Holds (Expr.occurrencesOptional inside chain value)) :
    Expr.FormedOptional (addressing.anchoredRules named) value := by
  cases value with
  | none => trivial
  | some value => exact Expr.Formed.anchored encloses value formed lawful holds

mutual

/-- Occurrences of `this` and `super` in a lawful statement have addresses. -/
theorem Stmt.Formed.anchored {within : FunctionContext} {inside : ClassContext} {chain : Chain}
    (encloses : chain.Encloses inside) :
    ∀ statement : Stmt, statement.Formed ⟨named, fun _ => True⟩ → statement.Proper →
      statement.Lawful within inside chain →
      addressing.Holds (statement.occurrences inside chain) →
      statement.Formed (addressing.anchoredRules named)
  | .expression value, formed, _, lawful, holds | .print _ value, formed, _, lawful, holds =>
    Expr.Formed.anchored encloses value formed lawful holds
  | .declare _ initializer, formed, _, lawful, holds =>
    ⟨formed.1, Expr.FormedOptional.anchored encloses initializer formed.2 lawful.2 holds⟩
  | .block body, formed, proper, lawful, holds =>
    Stmt.FormedAll.anchored (encloses.cons []) body formed proper lawful holds
  | .branch condition whenTrue none, formed, proper, lawful, holds => by
    obtain ⟨first, second⟩ := Addressing.holds_append.mp holds
    exact ⟨Expr.Formed.anchored encloses condition formed.1 lawful.1 first,
      Stmt.Formed.anchored encloses whenTrue formed.2 proper.2.1 lawful.2 second⟩
  | .branch condition whenTrue (some whenFalse), formed, proper, lawful, holds => by
    obtain ⟨early, third⟩ := Addressing.holds_append.mp holds
    obtain ⟨first, second⟩ := Addressing.holds_append.mp early
    exact ⟨Expr.Formed.anchored encloses condition formed.1 lawful.1 first,
      Stmt.Formed.anchored encloses whenTrue formed.2.1 proper.2.1.1 lawful.2.1 second,
      Stmt.Formed.anchored (.chainAfter whenTrue encloses) whenFalse formed.2.2 proper.2.2.1
        lawful.2.2 third⟩
  | .loop condition body, formed, proper, lawful, holds => by
    obtain ⟨first, second⟩ := Addressing.holds_append.mp holds
    exact ⟨Expr.Formed.anchored encloses condition formed.1 lawful.1 first,
      Stmt.Formed.anchored encloses body formed.2 proper.2.1 lawful.2 second⟩
  | .function declaration, formed, proper, lawful, holds =>
    FunctionDecl.Formed.anchored (encloses.define _) declaration formed proper lawful.2 holds
  | .return _ value, formed, _, lawful, holds =>
    Expr.FormedOptional.anchored encloses value formed lawful.2 holds
  | .class name none methods, formed, proper, lawful, holds =>
    ⟨formed.1, trivial, FunctionDecl.FormedAll.anchored
      (Chain.encloses_enterClass _ .base nofun) methods formed.2.2 proper.2 lawful.2 holds⟩
  | .class name (some superclass) methods, formed, proper, lawful, holds => by
    obtain ⟨_, second⟩ := Addressing.holds_append.mp holds
    -- A superclass is a plain name, so neither keyword occurs in it.
    obtain ⟨_, ⟨id, parent, rfl⟩, members⟩ := proper
    exact ⟨formed.1, formed.2.1, FunctionDecl.FormedAll.anchored
      (Chain.encloses_enterClass _ .derived nofun) methods formed.2.2 members lawful.2.2 second⟩

/-- Formed, proper and lawful statements are anchored. -/
theorem Stmt.FormedAll.anchored {within : FunctionContext} {inside : ClassContext} {chain : Chain}
    (encloses : chain.Encloses inside) :
    ∀ statements : List Stmt, Stmt.FormedAll ⟨named, fun _ => True⟩ statements →
      Stmt.ProperAll statements → Stmt.LawfulAll within inside chain statements →
      addressing.Holds (Stmt.occurrencesAll inside chain statements) →
      Stmt.FormedAll (addressing.anchoredRules named) statements
  | [], _, _, _, _ => trivial
  | first :: rest, formed, proper, lawful, holds => by
    obtain ⟨head, tail⟩ := Addressing.holds_append.mp holds
    exact ⟨Stmt.Formed.anchored encloses first formed.1 proper.1 lawful.1 head,
      Stmt.FormedAll.anchored (.chainAfter first encloses) rest formed.2 proper.2 lawful.2 tail⟩

/-- A formed, proper and lawful function is anchored. -/
theorem FunctionDecl.Formed.anchored {within : FunctionContext} {inside : ClassContext}
    {chain : Chain} (encloses : chain.Encloses inside) :
    ∀ declaration : FunctionDecl, declaration.Formed ⟨named, fun _ => True⟩ →
      declaration.Proper → declaration.Lawful within inside chain →
      addressing.Holds (declaration.occurrences inside chain) →
      declaration.Formed (addressing.anchoredRules named)
  | .mk _ parameters body, formed, proper, lawful, holds =>
    ⟨formed.1, formed.2.1, Stmt.FormedAll.anchored (encloses.enterFunction parameters) body
      formed.2.2 proper.2.2 lawful.2 holds⟩

/-- Formed, proper and lawful methods are anchored. -/
theorem FunctionDecl.FormedAll.anchored {inside : ClassContext} {chain : Chain}
    (encloses : chain.Encloses inside) :
    ∀ declarations : List FunctionDecl,
      FunctionDecl.FormedAll ⟨named, fun _ => True⟩ declarations →
      FunctionDecl.ProperAll declarations → FunctionDecl.LawfulAll inside chain declarations →
      addressing.Holds (FunctionDecl.occurrencesAll inside chain declarations) →
      FunctionDecl.FormedAll (addressing.anchoredRules named) declarations
  | [], _, _, _, _ => trivial
  | first :: rest, formed, proper, lawful, holds => by
    obtain ⟨head, tail⟩ := Addressing.holds_append.mp holds
    exact ⟨FunctionDecl.Formed.anchored encloses first formed.1 proper.1 lawful.1 head,
      FunctionDecl.FormedAll.anchored encloses rest formed.2 proper.2 lawful.2 tail⟩

end

end Anchored

end LoxLang
