import LoxLang.Proofs.Parsing.Progress

/-!
# Superclasses are names

A class clause has room for one name only, so every superclass in a tree is a name. That holds of
all trees that the parser builds, also of those it goes on to build behind a violation, which no
rule of the grammar describes.
-/

namespace LoxLang

mutual

/-- Every superclass in a statement is a name. -/
def Stmt.NamedParents : Stmt → Prop
  | .block body => Stmt.NamedParentsAll body
  | .branch _ whenTrue none => whenTrue.NamedParents
  | .branch _ whenTrue (some whenFalse) => whenTrue.NamedParents ∧ whenFalse.NamedParents
  | .loop _ body => body.NamedParents
  | .function declaration => declaration.NamedParents
  | .class _ none methods => FunctionDecl.NamedParentsAll methods
  | .class _ (some superclass) methods =>
    (∃ id parent, superclass = .reference id parent) ∧ FunctionDecl.NamedParentsAll methods
  | _ => True

/-- Every superclass in several statements is a name. -/
def Stmt.NamedParentsAll : List Stmt → Prop
  | [] => True
  | first :: rest => first.NamedParents ∧ Stmt.NamedParentsAll rest

/-- Every superclass in a function is a name. -/
def FunctionDecl.NamedParents : FunctionDecl → Prop
  | .mk _ _ body => Stmt.NamedParentsAll body

/-- Every superclass in several functions is a name. -/
def FunctionDecl.NamedParentsAll : List FunctionDecl → Prop
  | [] => True
  | first :: rest => first.NamedParents ∧ FunctionDecl.NamedParentsAll rest

end

/-- A statement that was read, or none, in front of others. -/
theorem Stmt.namedParentsAll_toList_append {first : Option Stmt} {rest : List Stmt}
    (head : ∀ statement ∈ first, statement.NamedParents) (tail : Stmt.NamedParentsAll rest) :
    Stmt.NamedParentsAll (first.toList ++ rest) := by
  cases first with
  | none => exact tail
  | some statement => exact ⟨head statement rfl, tail⟩

namespace Parse

variable {α β : Type}

/-- Whatever a step reads is of this kind. -/
def Gives (step : Parse α) (property : α → Prop) : Prop :=
  ∀ cursor result after, step cursor = .read result after → property result

namespace Gives

variable {property : α → Prop} {further : β → Prop}

/-- A result with the property is given. -/
theorem pure {result : α} (held : property result) : Gives (pure result) property := by
  rintro cursor _ after ⟨⟩
  exact held

/-- A refusal gives nothing. -/
theorem refuse (expectation : Expectation) : Gives (refuse expectation) property := by
  intro cursor result after ended
  cases ended

/-- Every step gives something. -/
theorem any (step : Parse α) : Gives step fun _ => True :=
  fun _ _ _ _ => trivial

/-- What the first step gives is there for the second. -/
theorem bind {step : Parse α} {next : α → Parse β} (first : Gives step property)
    (rest : ∀ result, property result → Gives (next result) further) :
    Gives (step >>= next) further := by
  intro cursor result after ended
  rw [bind_apply] at ended
  cases started : step cursor with
  | read between middle =>
    rw [started] at ended
    exact rest between (first cursor between middle started) middle result after ended
  | refused error middle =>
    rw [started] at ended
    cases ended

/-- A step that is followed by another one, whatever it reads. -/
theorem behind {step : Parse α} {next : α → Parse β}
    (rest : ∀ result, Gives (next result) further) : Gives (step >>= next) further :=
  bind (any step) fun result _ => rest result

/-- Recovery gives a statement with the property or none. -/
theorem recovering {statement : Parse Stmt} {property : Stmt → Prop}
    (inner : Gives statement property) :
    Gives (always (recovering statement)) fun result => ∀ tree ∈ result, property tree := by
  intro cursor result after ended tree member
  unfold always Parse.recovering at ended
  cases started : statement cursor with
  | read found middle =>
    rw [started] at ended
    obtain ⟨rfl, _⟩ := Parsed.read.inj ended
    obtain rfl : found = tree := Option.some.inj member
    exact inner cursor found middle started
  | refused error middle =>
    rw [started] at ended
    obtain ⟨rfl, _⟩ := Parsed.read.inj ended
    cases member

/-- The body of a `for` loop is in its tree, and so is its first clause. -/
theorem forLoop {initializer : Option Stmt} {body : Stmt}
    (first : ∀ statement ∈ initializer, statement.NamedParents) (repeated : body.NamedParents)
    (test increment : Option Expr) :
    (forLoop initializer test increment body).NamedParents := by
  cases increment with
  | none => exact Stmt.namedParentsAll_toList_append first ⟨repeated, trivial⟩
  | some step =>
    exact Stmt.namedParentsAll_toList_append first ⟨⟨repeated, trivial, trivial⟩, trivial⟩

/-- A superclass is read as a name. -/
theorem superclass? : Gives superclass? fun parent =>
    ∀ expression ∈ parent, ∃ id name, expression = .reference id name := by
  refine behind fun found => ?_
  cases found with
  | none => exact pure nofun
  | some _ =>
    refine behind fun name => behind fun id => pure ?_
    rintro _ ⟨⟩
    exact ⟨id, name, rfl⟩

end Gives

/-- Readers of statements that give superclasses that are names. -/
structure NamingParents (inner : Readers) : Prop where
  methods {method : Parse FunctionDecl} :
    Gives method FunctionDecl.NamedParents →
      Gives (inner.methods method) FunctionDecl.NamedParentsAll
  declaration : Gives inner.declaration Stmt.NamedParents
  statement : Gives inner.statement Stmt.NamedParents
  block : Gives inner.block Stmt.NamedParentsAll
  program : Gives inner.program Stmt.NamedParentsAll

namespace NamingParents

open Gives (behind bind pure)

variable {inner : Readers}

/-- Readers that refuse give no superclass. -/
theorem exhausted : NamingParents .exhausted where
  methods := fun _ => .refuse _
  declaration := .refuse _
  statement := .refuse _
  block := .refuse _
  program := .pure trivial

/-- An expression statement declares nothing. -/
theorem expressionStatement : Gives inner.expressionStatement Stmt.NamedParents :=
  behind fun _ => behind fun _ => pure trivial

/-- A variable declaration declares no class. -/
theorem variableDeclaration : Gives inner.variableDeclaration Stmt.NamedParents := by
  refine behind fun name => behind fun found => ?_
  cases found with
  | none => exact behind fun initializer => behind fun _ => pure trivial
  | some _ => exact behind fun initializer => behind fun _ => pure trivial

/-- The first clause of a `for` statement declares no class. -/
theorem forInitializer : Gives inner.forInitializer fun first =>
    ∀ statement ∈ first, statement.NamedParents := by
  refine behind fun token => ?_
  split
  · exact behind fun _ => pure nofun
  · refine behind fun _ => bind variableDeclaration fun tree named => pure ?_
    rintro _ ⟨⟩
    exact named
  · refine bind expressionStatement fun tree named => pure ?_
    rintro _ ⟨⟩
    exact named

variable (smaller : NamingParents inner)
include smaller

/-- A conditional has the parents of its parts. -/
theorem ifStatement : Gives inner.ifStatement Stmt.NamedParents := by
  refine behind fun test => bind smaller.statement fun whenTrue first => behind fun found => ?_
  cases found with
  | none => exact pure first
  | some _ => exact bind smaller.statement fun whenFalse second => pure ⟨first, second⟩

/-- A loop has the parents of its body. -/
theorem whileStatement : Gives inner.whileStatement Stmt.NamedParents :=
  behind fun _ => bind smaller.statement fun _ body => pure body

/-- A `for` loop has the parents of its initializer and its body. -/
theorem forStatement : Gives inner.forStatement Stmt.NamedParents := by
  refine behind fun _ => bind forInitializer fun initializer first => ?_
  refine behind fun test => behind fun _ => behind fun increment => behind fun _ => ?_
  exact bind smaller.statement fun body repeated =>
    pure (Gives.forLoop first repeated test increment)

/-- A function has the parents of its body. -/
theorem routine (kind : RoutineKind) : Gives (inner.routine kind) FunctionDecl.NamedParents := by
  refine behind fun name => behind fun _ => behind fun closed => ?_
  split
  all_goals
    refine behind fun names => behind fun _ => behind fun _ => ?_
    exact bind smaller.block fun trees named => pure named

/-- Methods have the parents of their bodies. -/
theorem members {method : Parse FunctionDecl} (member : Gives method FunctionDecl.NamedParents) :
    Gives (inner.members method) FunctionDecl.NamedParentsAll := by
  refine behind fun closed => behind fun ended => ?_
  split
  · exact pure trivial
  · exact bind member fun first head => bind (smaller.methods member) fun others tail =>
      pure ⟨head, tail⟩

/-- A class is read with a superclass that is a name. -/
theorem classDeclaration : Gives inner.classDeclaration Stmt.NamedParents := by
  refine behind fun name => bind .superclass? fun parent named => behind fun _ => ?_
  refine bind (smaller.methods (smaller.routine _)) fun members all => behind fun _ => pure ?_
  cases parent with
  | none => exact all
  | some expression => exact ⟨named expression rfl, all⟩

/-- Of a declaration, only a class has a parent of its own, and this is a name. -/
theorem anyDeclaration : Gives inner.anyDeclaration Stmt.NamedParents := by
  refine behind fun token => ?_
  split
  · exact behind fun _ => smaller.classDeclaration
  · exact behind fun _ => bind (smaller.routine _) fun _ named => pure named
  · exact behind fun _ => variableDeclaration
  · exact smaller.statement

/-- A statement has the parents of its parts. -/
theorem anyStatement : Gives inner.anyStatement Stmt.NamedParents := by
  refine behind fun token => ?_
  split
  · exact behind fun _ => smaller.forStatement
  · exact behind fun _ => smaller.ifStatement
  · exact behind fun _ => behind fun _ => behind fun _ => pure trivial
  · exact behind fun _ => behind fun _ => behind fun _ => pure trivial
  · exact behind fun _ => smaller.whileStatement
  · exact behind fun _ => bind smaller.block fun _ named => pure named
  · exact expressionStatement

/-- A block has the parents of its declarations. -/
theorem blockRest : Gives inner.blockRest Stmt.NamedParentsAll := by
  refine behind fun closed => behind fun ended => ?_
  split
  · exact behind fun _ => pure trivial
  · refine bind (.recovering smaller.declaration) fun first head => ?_
    exact bind smaller.block fun rest tail => pure (Stmt.namedParentsAll_toList_append head tail)

/-- Declarations have the parents of each. -/
theorem declarations : Gives inner.declarations Stmt.NamedParentsAll := by
  refine behind fun ended => ?_
  split
  · exact pure trivial
  · refine bind (.recovering smaller.declaration) fun first head => ?_
    exact bind smaller.program fun rest tail => pure (Stmt.namedParentsAll_toList_append head tail)

/-- One more level gives superclasses that are names as well. -/
theorem unfolded : NamingParents inner.unfolded where
  methods := smaller.members
  declaration := smaller.anyDeclaration
  statement := smaller.anyStatement
  block := smaller.blockRest
  program := smaller.declarations

end NamingParents

/-- The readers give superclasses that are names, whatever their depth bound. -/
theorem namingParents (depth : Nat) : NamingParents (readers depth) := by
  induction depth with
  | zero => exact .exhausted
  | succ depth smaller => exact smaller.unfolded

/-- Every superclass in a program is a name, whatever its violations. -/
theorem program_namedParents (depth : Nat) (cursor : Cursor) :
    Stmt.NamedParentsAll (program depth cursor).1 := by
  have named := (namingParents depth).program
  rw [← always_program] at named
  exact named cursor _ _ rfl

end Parse

/-- Every superclass in a token list is read as a name. -/
theorem parse_namedParents (tokens : List Token) (firstId : Nat) :
    Stmt.NamedParentsAll (parse tokens firstId).statements :=
  Parse.program_namedParents (parseDepth tokens.length) (Cursor.start tokens firstId)

end LoxLang
