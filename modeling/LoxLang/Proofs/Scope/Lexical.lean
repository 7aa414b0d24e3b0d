import LoxLang.Proofs.Parsing.Issuing
import LoxLang.Proofs.Parsing.Parents
import LoxLang.Proofs.Scope.Reports
import LoxLang.Tree.Equality

/-!
# Lexical addresses

`Stmt.Holds` says where a name is mentioned, without any walk along the text: which scopes lie
around the mention, and which names each of them has at that point. A scope has the names of the
declarations that are completed before the mention. A variable is completed behind its initializer,
a function or a class where its own body starts, and parameters, `this` and `super` have their
scopes to themselves.

`distances_lexical` compares this with the table that resolution leaves: it has the distance of the
innermost scope that binds the name, and nothing else.
-/

namespace LoxLang

/-- A variable, an assignment, `this` or `super`: its identity and the token that names it. -/
structure Mention where
  id : Nat
  name : Token
deriving DecidableEq, Repr

mutual

/-- The mentions in an expression. -/
def Expr.mentions : Expr → List Mention
  | .literal _ => []
  | .grouping inner => inner.mentions
  | .unary _ operand => operand.mentions
  | .binary left _ right => left.mentions ++ right.mentions
  | .logical left _ right => left.mentions ++ right.mentions
  | .reference id name => [⟨id, name⟩]
  | .assign id name value => value.mentions ++ [⟨id, name⟩]
  | .call callee _ arguments => callee.mentions ++ Expr.mentionsAll arguments
  | .get object _ => object.mentions
  | .set object _ value => value.mentions ++ object.mentions
  | .this id keyword => [⟨id, keyword⟩]
  | .super id keyword _ => [⟨id, keyword⟩]

/-- The mentions in several expressions. -/
def Expr.mentionsAll : List Expr → List Mention
  | [] => []
  | first :: rest => first.mentions ++ Expr.mentionsAll rest

end

/-- The mentions in an expression if there is one. -/
def Expr.mentionsOptional : Option Expr → List Mention
  | none => []
  | some value => value.mentions

mutual

/-- The mentions in a statement. -/
def Stmt.mentions : Stmt → List Mention
  | .expression value => value.mentions
  | .print _ value => value.mentions
  | .declare _ initializer => Expr.mentionsOptional initializer
  | .block body => Stmt.mentionsAll body
  | .branch condition whenTrue none => condition.mentions ++ whenTrue.mentions
  | .branch condition whenTrue (some whenFalse) =>
    condition.mentions ++ whenTrue.mentions ++ whenFalse.mentions
  | .loop condition body => condition.mentions ++ body.mentions
  | .function declaration => declaration.mentions
  | .return _ value => Expr.mentionsOptional value
  | .class _ superclass methods =>
    Expr.mentionsOptional superclass ++ FunctionDecl.mentionsAll methods

/-- The mentions in several statements. -/
def Stmt.mentionsAll : List Stmt → List Mention
  | [] => []
  | first :: rest => first.mentions ++ Stmt.mentionsAll rest

/-- The mentions in a function. -/
def FunctionDecl.mentions : FunctionDecl → List Mention
  | .mk _ _ body => Stmt.mentionsAll body

/-- The mentions in several functions. -/
def FunctionDecl.mentionsAll : List FunctionDecl → List Mention
  | [] => []
  | first :: rest => first.mentions ++ FunctionDecl.mentionsAll rest

end

/-- The scopes that a class puts around its methods. -/
def Chain.ofClass (superclass : Option Expr) : Chain :=
  match superclass with
  | none => [["this"]]
  | some _ => [["this"], ["super"]]

/-- A statement holds a mention. The scopes are those inside the statement that lie around the
mention, innermost first, each with the names that it has there. Besides, the statement itself may
have given its own names to the scope around it before the mention. -/
inductive Stmt.Holds (mention : Mention) : Stmt → List Token → Chain → Prop where
  | expression {value : Expr} (within : mention ∈ value.mentions) :
      Holds mention (.expression value) [] []
  | print {keyword : Token} {value : Expr} (within : mention ∈ value.mentions) :
      Holds mention (.print keyword value) [] []
  /-- A variable is not yet bound in its initializer. -/
  | initializer {name : Token} {value : Expr} (within : mention ∈ value.mentions) :
      Holds mention (.declare name (some value)) [] []
  | returned {keyword : Token} {value : Expr} (within : mention ∈ value.mentions) :
      Holds mention (.return keyword (some value)) [] []
  | condition {condition : Expr} {whenTrue : Stmt} {whenFalse : Option Stmt}
      (within : mention ∈ condition.mentions) :
      Holds mention (.branch condition whenTrue whenFalse) [] []
  | whenTrue {condition : Expr} {whenTrue : Stmt} {whenFalse : Option Stmt} {own : List Token}
      {scopes : Chain} (inner : Holds mention whenTrue own scopes) :
      Holds mention (.branch condition whenTrue whenFalse) own scopes
  | whenFalse {condition : Expr} {whenTrue whenFalse : Stmt} {own : List Token} {scopes : Chain}
      (inner : Holds mention whenFalse own scopes) :
      Holds mention (.branch condition whenTrue (some whenFalse)) (whenTrue.declarations ++ own)
        scopes
  | test {condition : Expr} {body : Stmt} (within : mention ∈ condition.mentions) :
      Holds mention (.loop condition body) [] []
  | repeated {condition : Expr} {body : Stmt} {own : List Token} {scopes : Chain}
      (inner : Holds mention body own scopes) : Holds mention (.loop condition body) own scopes
  /-- A block is a scope with what is declared in it before the mention. -/
  | block {earlier later : List Stmt} {around : Stmt} {own : List Token} {scopes : Chain}
      (inner : Holds mention around own scopes) :
      Holds mention (.block (earlier ++ around :: later)) []
        (scopes ++ [(Stmt.declarationsAll earlier ++ own).map Token.lexeme])
  /-- The name of a function is bound in its body; the body is one scope, the parameters are
  another one around it. -/
  | function {name : Token} {parameters : List Token} {earlier later : List Stmt} {around : Stmt}
      {own : List Token} {scopes : Chain} (inner : Holds mention around own scopes) :
      Holds mention (.function (.mk name parameters (earlier ++ around :: later))) [name]
        (scopes ++ [(Stmt.declarationsAll earlier ++ own).map Token.lexeme,
          parameters.map Token.lexeme])
  | superclass {name : Token} {parent : Expr} {methods : List FunctionDecl}
      (within : mention ∈ parent.mentions) :
      Holds mention (.class name (some parent) methods) [] []
  /-- A method is a function inside the scopes of its class. -/
  | method {name title : Token} {superclass : Option Expr} {methods : List FunctionDecl}
      {parameters : List Token} {earlier later : List Stmt} {around : Stmt} {own : List Token}
      {scopes : Chain} (member : .mk title parameters (earlier ++ around :: later) ∈ methods)
      (inner : Holds mention around own scopes) :
      Holds mention (.class name superclass methods) [name]
        (scopes ++ [(Stmt.declarationsAll earlier ++ own).map Token.lexeme,
          parameters.map Token.lexeme] ++ Chain.ofClass superclass)

/-- A mention stands in a program with these scopes around it; the outermost level is no scope. -/
def Mention.StandsIn (mention : Mention) (program : List Stmt) (scopes : Chain) : Prop :=
  ∃ statement ∈ program, ∃ own, statement.Holds mention own scopes

namespace Chain

/-- The innermost scope that binds a name is this many scopes away. -/
def Binds (scopes : Chain) (name : String) (distance : Nat) : Prop :=
  (∃ names, scopes[distance]? = some names ∧ name ∈ names) ∧
    ∀ nearer < distance, ∀ names, scopes[nearer]? = some names → name ∉ names

/-- Which scopes have a name. -/
def marks (chain : Chain) (name : String) : List Bool :=
  chain.map fun names => decide (name ∈ names)

/-- Scopes are marked one by one, the inner ones first. -/
theorem marks_append (inner outer : Chain) (name : String) :
    marks (inner ++ outer) name = inner.marks name ++ outer.marks name :=
  List.map_append

/-- A scope is marked when it holds the name. -/
theorem marks_cons (names : List String) (outer : Chain) (name : String) :
    marks (names :: outer) name = decide (name ∈ names) :: outer.marks name :=
  rfl

/-- Names that are defined one after another in a new scope are the names of that scope. -/
theorem marks_defineAll (outer : Chain) (names : List Token) (given : List String)
    (name : String) :
    marks (defineAll (given :: outer) names) name =
      marks ((names.map Token.lexeme ++ given) :: outer) name := by
  induction names generalizing given with
  | nil => rfl
  | cons first rest inductionHypothesis =>
    refine (inductionHypothesis (first.lexeme :: given)).trans ?_
    simp only [marks_cons, List.map_cons, List.mem_append, List.mem_cons, List.cons.injEq,
      decide_eq_decide, and_true]
    tauto

/-- The distance of a name depends only on which scopes have it. -/
theorem address?_congr {first second : Chain} {name : String}
    (same : first.marks name = second.marks name) :
    first.address? name = second.address? name := by
  have found (chain : Chain) : chain.address? name = (chain.marks name).findIdx? id := by
    rw [marks, List.findIdx?_map]
    rfl
  rw [found, found, same]

/-- The resolver finds the nearest scope that binds the name. -/
theorem address?_eq_some_iff {chain : Chain} {name : String} {distance : Nat} :
    chain.address? name = some distance ↔ chain.Binds name distance := by
  rw [address?, List.findIdx?_eq_some_iff_getElem]
  constructor
  · rintro ⟨inside, bound, nearest⟩
    refine ⟨⟨chain[distance], List.getElem?_eq_getElem inside, of_decide_eq_true bound⟩, ?_⟩
    intro nearer less names found
    obtain ⟨_, rfl⟩ := List.getElem?_eq_some_iff.mp found
    simpa using nearest nearer less
  · rintro ⟨⟨names, found, bound⟩, nearest⟩
    obtain ⟨inside, rfl⟩ := List.getElem?_eq_some_iff.mp found
    refine ⟨inside, decide_eq_true bound, fun nearer less => ?_⟩
    simpa using nearest nearer less _ (List.getElem?_eq_getElem (Nat.lt_trans less inside))

/-- The resolver finds nothing when no scope holds the name. -/
theorem address?_eq_none_iff {chain : Chain} {name : String} :
    chain.address? name = none ↔ ∀ names ∈ chain, name ∉ names := by
  simp [address?]

end Chain

/-! ### Mentions and identities -/

mutual

/-- An expression mentions each of its ids once, in their order. -/
theorem Expr.map_id_mentions : ∀ expression : Expr,
    expression.mentions.map Mention.id = expression.ids
  | .literal _ | .reference _ _ | .this _ _ | .super _ _ _ => rfl
  | .grouping inner => inner.map_id_mentions
  | .unary _ operand => operand.map_id_mentions
  | .binary left _ right | .logical left _ right => by
    rw [mentions, List.map_append, left.map_id_mentions, right.map_id_mentions, ids]
  | .assign _ _ value => by
    rw [mentions, List.map_append, value.map_id_mentions, ids]
    rfl
  | .call callee _ arguments => by
    rw [mentions, List.map_append, callee.map_id_mentions, Expr.map_id_mentionsAll arguments, ids]
  | .get object _ => object.map_id_mentions
  | .set object _ value => by
    rw [mentions, List.map_append, value.map_id_mentions, object.map_id_mentions, ids]

/-- Expressions mention each of their ids once, in their order. -/
theorem Expr.map_id_mentionsAll : ∀ expressions : List Expr,
    (Expr.mentionsAll expressions).map Mention.id = Expr.idsAll expressions
  | [] => rfl
  | first :: rest => by
    rw [mentionsAll, List.map_append, first.map_id_mentions, Expr.map_id_mentionsAll rest, idsAll]

end

/-- An optional expression mentions each of its ids once, in their order. -/
theorem Expr.map_id_mentionsOptional (value : Option Expr) :
    (Expr.mentionsOptional value).map Mention.id = Expr.idsOptional value := by
  cases value with
  | none => rfl
  | some value => exact value.map_id_mentions

mutual

/-- Every identity in a statement belongs to a mention. -/
theorem Stmt.map_id_mentions : ∀ statement : Stmt,
    statement.mentions.map Mention.id = statement.ids
  | .expression value | .print _ value => value.map_id_mentions
  | .declare _ value | .return _ value => Expr.map_id_mentionsOptional value
  | .block body => Stmt.map_id_mentionsAll body
  | .branch condition whenTrue none => by
    rw [Stmt.mentions, List.map_append, condition.map_id_mentions, whenTrue.map_id_mentions,
      Stmt.ids]
  | .branch condition whenTrue (some whenFalse) => by
    rw [Stmt.mentions, List.map_append, List.map_append, condition.map_id_mentions,
      whenTrue.map_id_mentions, whenFalse.map_id_mentions, Stmt.ids]
  | .loop condition body => by
    rw [Stmt.mentions, List.map_append, condition.map_id_mentions, body.map_id_mentions, Stmt.ids]
  | .function declaration => declaration.map_id_mentions
  | .class _ superclass methods => by
    rw [Stmt.mentions, List.map_append, Expr.map_id_mentionsOptional superclass,
      FunctionDecl.map_id_mentionsAll methods, Stmt.ids]

/-- Statements mention each of their ids once, in their order. -/
theorem Stmt.map_id_mentionsAll : ∀ statements : List Stmt,
    (Stmt.mentionsAll statements).map Mention.id = Stmt.idsAll statements
  | [] => rfl
  | first :: rest => by
    rw [Stmt.mentionsAll, List.map_append, first.map_id_mentions, Stmt.map_id_mentionsAll rest,
      Stmt.idsAll]

/-- A function mentions each of its ids once, in their order. -/
theorem FunctionDecl.map_id_mentions : ∀ declaration : FunctionDecl,
    declaration.mentions.map Mention.id = declaration.ids
  | .mk _ _ body => Stmt.map_id_mentionsAll body

/-- Methods mention each of their ids once, in their order. -/
theorem FunctionDecl.map_id_mentionsAll : ∀ declarations : List FunctionDecl,
    (FunctionDecl.mentionsAll declarations).map Mention.id = FunctionDecl.idsAll declarations
  | [] => rfl
  | first :: rest => by
    rw [FunctionDecl.mentionsAll, List.map_append, first.map_id_mentions,
      FunctionDecl.map_id_mentionsAll rest, FunctionDecl.idsAll]

end

/-! ### Every mention stands somewhere -/

mutual

/-- A statement holds what it mentions, with some scopes around it. -/
theorem Stmt.holds_of_mem {mention : Mention} : ∀ statement : Stmt,
    mention ∈ statement.mentions → ∃ own scopes, statement.Holds mention own scopes
  | .expression _, member => ⟨_, _, .expression member⟩
  | .print _ _, member => ⟨_, _, .print member⟩
  | .declare _ (some _), member => ⟨_, _, .initializer member⟩
  | .return _ (some _), member => ⟨_, _, .returned member⟩
  | .block body, member => by
    obtain ⟨earlier, around, later, rfl, own, scopes, inner⟩ := Stmt.holds_of_memAll body member
    exact ⟨_, _, .block inner⟩
  | .branch condition whenTrue none, member => by
    rcases List.mem_append.mp member with member | member
    · exact ⟨_, _, .condition member⟩
    · obtain ⟨own, scopes, inner⟩ := whenTrue.holds_of_mem member
      exact ⟨_, _, .whenTrue inner⟩
  | .branch condition whenTrue (some whenFalse), member => by
    rcases List.mem_append.mp member with member | member
    · rcases List.mem_append.mp member with member | member
      · exact ⟨_, _, .condition member⟩
      · obtain ⟨own, scopes, inner⟩ := whenTrue.holds_of_mem member
        exact ⟨_, _, .whenTrue inner⟩
    · obtain ⟨own, scopes, inner⟩ := whenFalse.holds_of_mem member
      exact ⟨_, _, .whenFalse inner⟩
  | .loop condition body, member => by
    rcases List.mem_append.mp member with member | member
    · exact ⟨_, _, .test member⟩
    · obtain ⟨own, scopes, inner⟩ := body.holds_of_mem member
      exact ⟨_, _, .repeated inner⟩
  | .function (.mk name parameters body), member => by
    obtain ⟨earlier, around, later, rfl, own, scopes, inner⟩ := Stmt.holds_of_memAll body member
    exact ⟨_, _, .function inner⟩
  | .class name superclass methods, member => by
    rcases List.mem_append.mp member with member | member
    · cases superclass with
      | none => cases member
      | some parent => exact ⟨_, _, .superclass member⟩
    · obtain ⟨title, parameters, earlier, around, later, listed, own, scopes, inner⟩ :=
        FunctionDecl.holds_of_memAll methods member
      exact ⟨_, _, .method listed inner⟩

/-- What several statements mention, one of them holds. -/
theorem Stmt.holds_of_memAll {mention : Mention} : ∀ statements : List Stmt,
    mention ∈ Stmt.mentionsAll statements → ∃ earlier around later,
      statements = earlier ++ around :: later ∧
        ∃ own scopes, Stmt.Holds mention around own scopes
  | first :: rest, member => by
    rcases List.mem_append.mp member with member | member
    · exact ⟨[], first, rest, rfl, first.holds_of_mem member⟩
    · obtain ⟨earlier, around, later, rfl, held⟩ := Stmt.holds_of_memAll rest member
      exact ⟨first :: earlier, around, later, rfl, held⟩

/-- What several functions mention, the body of one of them holds. -/
theorem FunctionDecl.holds_of_memAll {mention : Mention} : ∀ declarations : List FunctionDecl,
    mention ∈ FunctionDecl.mentionsAll declarations → ∃ title parameters earlier around later,
      .mk title parameters (earlier ++ around :: later) ∈ declarations ∧
        ∃ own scopes, Stmt.Holds mention around own scopes
  | .mk title parameters body :: rest, member => by
    rcases List.mem_append.mp member with member | member
    · obtain ⟨earlier, around, later, rfl, held⟩ := Stmt.holds_of_memAll body member
      exact ⟨title, parameters, earlier, around, later, List.mem_cons_self, held⟩
    · obtain ⟨title, parameters, earlier, around, later, listed, held⟩ :=
        FunctionDecl.holds_of_memAll rest member
      exact ⟨title, parameters, earlier, around, later, List.mem_cons_of_mem _ listed, held⟩

end

/-! ### Resolution finds what the scopes bind -/

mutual

/-- In an expression that keeps the static rules every mention is looked up. -/
theorem Expr.occurs_of_mem {mention : Mention} {inside : ClassContext} (chain : Chain) :
    ∀ expression : Expr, expression.Lawful inside → mention ∈ expression.mentions →
      ⟨mention.id, chain.address? mention.name.lexeme⟩ ∈ expression.occurrences inside chain
  | .grouping inner, lawful, member => inner.occurs_of_mem chain lawful member
  | .unary _ operand, lawful, member => operand.occurs_of_mem chain lawful member
  | .binary left _ right, lawful, member | .logical left _ right, lawful, member => by
    rcases List.mem_append.mp member with member | member
    · exact List.mem_append_left _ (left.occurs_of_mem chain lawful.1 member)
    · exact List.mem_append_right _ (right.occurs_of_mem chain lawful.2 member)
  | .reference _ _, _, member => by
    obtain rfl := List.mem_singleton.mp member
    exact List.mem_singleton.mpr rfl
  | .assign _ _ value, lawful, member => by
    rcases List.mem_append.mp member with member | member
    · exact List.mem_append_left _ (value.occurs_of_mem chain lawful member)
    · obtain rfl := List.mem_singleton.mp member
      exact List.mem_append_right _ (List.mem_singleton.mpr rfl)
  | .call callee _ arguments, lawful, member => by
    rcases List.mem_append.mp member with member | member
    · exact List.mem_append_left _ (callee.occurs_of_mem chain lawful.1 member)
    · exact List.mem_append_right _ (Expr.occurs_of_memAll chain arguments lawful.2 member)
  | .get object _, lawful, member => object.occurs_of_mem chain lawful member
  | .set object _ value, lawful, member => by
    rcases List.mem_append.mp member with member | member
    · exact List.mem_append_left _ (value.occurs_of_mem chain lawful.1 member)
    · exact List.mem_append_right _ (object.occurs_of_mem chain lawful.2 member)
  | .this _ _, lawful, member => by
    obtain rfl := List.mem_singleton.mp member
    cases inside with
    | outside => exact (lawful rfl).elim
    | base | derived => exact List.mem_singleton.mpr rfl
  | .super _ _ _, lawful, member => by
    obtain rfl := List.mem_singleton.mp member
    obtain rfl : inside = .derived := lawful
    exact List.mem_singleton.mpr rfl

/-- What lawful expressions mention occurs at its address. -/
theorem Expr.occurs_of_memAll {mention : Mention} {inside : ClassContext} (chain : Chain) :
    ∀ expressions : List Expr, Expr.LawfulAll inside expressions →
      mention ∈ Expr.mentionsAll expressions →
      ⟨mention.id, chain.address? mention.name.lexeme⟩ ∈
        Expr.occurrencesAll inside chain expressions
  | first :: rest, lawful, member => by
    rcases List.mem_append.mp member with member | member
    · exact List.mem_append_left _ (first.occurs_of_mem chain lawful.1 member)
    · exact List.mem_append_right _ (Expr.occurs_of_memAll chain rest lawful.2 member)

end

/-- What is known of a statement in a program without violations. -/
structure Stmt.Orderly (within : FunctionContext) (inside : ClassContext) (chain : Chain)
    (statement : Stmt) : Prop where
  lawful : statement.Lawful within inside chain
  proper : statement.ProperParents
  named : statement.NamedParents

/-- What is known of several statements in a program without violations. -/
structure Stmt.OrderlyAll (within : FunctionContext) (inside : ClassContext) (chain : Chain)
    (statements : List Stmt) : Prop where
  lawful : Stmt.LawfulAll within inside chain statements
  proper : Stmt.ProperParentsAll statements
  named : Stmt.NamedParentsAll statements

section Orderly

variable {within : FunctionContext} {inside : ClassContext} {chain : Chain}

/-- What is known of several statements is known of each, in the scopes that those before it
leave. -/
theorem Stmt.OrderlyAll.around {earlier later : List Stmt} {around : Stmt}
    (orderly : Stmt.OrderlyAll within inside chain (earlier ++ around :: later)) :
    around.Orderly within inside (Stmt.chainAfterAll earlier chain) := by
  induction earlier generalizing chain with
  | nil => exact ⟨orderly.lawful.1, orderly.proper.1, orderly.named.1⟩
  | cons first rest inductionHypothesis =>
    exact inductionHypothesis ⟨orderly.lawful.2, orderly.proper.2, orderly.named.2⟩

/-- An occurrence in a statement is one in the statements around it. -/
theorem Stmt.mem_occurrencesAll {earlier later : List Stmt} {around : Stmt}
    {occurrence : Occurrence}
    (member : occurrence ∈ around.occurrences inside (Stmt.chainAfterAll earlier chain)) :
    occurrence ∈ Stmt.occurrencesAll inside chain (earlier ++ around :: later) := by
  induction earlier generalizing chain with
  | nil => exact List.mem_append_left _ member
  | cons first rest inductionHypothesis =>
    exact List.mem_append_right _ (inductionHypothesis member)

/-- What is known of the methods of a class is known of the body of each. -/
theorem FunctionDecl.orderly_of_mem {title : Token} {parameters : List Token} {body : List Stmt}
    {methods : List FunctionDecl} (member : .mk title parameters body ∈ methods)
    (lawful : FunctionDecl.LawfulAll inside chain methods)
    (proper : FunctionDecl.ProperParentsAll methods)
    (named : FunctionDecl.NamedParentsAll methods) :
    ∃ within, Stmt.OrderlyAll within inside (chain.enterFunction parameters) body := by
  induction methods with
  | nil => cases member
  | cons first rest inductionHypothesis =>
    rcases List.mem_cons.mp member with rfl | member
    · exact ⟨_, lawful.1.2, proper.1, named.1⟩
    · exact inductionHypothesis member lawful.2 proper.2 named.2

/-- What occurs in a method occurs in the methods. -/
theorem FunctionDecl.mem_occurrencesAll {declaration : FunctionDecl}
    {declarations : List FunctionDecl} {occurrence : Occurrence}
    (listed : declaration ∈ declarations)
    (member : occurrence ∈ declaration.occurrences inside chain) :
    occurrence ∈ FunctionDecl.occurrencesAll inside chain declarations := by
  induction declarations with
  | nil => cases listed
  | cons first rest inductionHypothesis =>
    rcases List.mem_cons.mp listed with rfl | listed
    · exact List.mem_append_left _ member
    · exact List.mem_append_right _ (inductionHypothesis listed)

end Orderly

namespace Chain

variable {scopes outer : Chain} {earlier : List Stmt} {own parameters : List Token} {name : String}

/-- Outside of all scopes nothing is defined. -/
theorem defineAll_nil (names : List Token) : defineAll [] names = [] := by
  induction names with
  | nil => rfl
  | cons first rest inductionHypothesis => exact inductionHypothesis

/-- A place in a block has one more scope around it. -/
theorem address?_block :
    (scopes ++ (Stmt.chainAfterAll earlier ([] :: outer)).defineAll own).address? name =
      (scopes ++ [(Stmt.declarationsAll earlier ++ own).map Token.lexeme] ++ outer).address?
        name := by
  rw [Stmt.chainAfterAll_eq_defineAll, ← defineAll_append]
  apply address?_congr
  simp only [marks_append, marks_defineAll, List.append_nil, List.append_assoc,
    List.singleton_append, marks_cons]

/-- A place in a function has two more scopes around it. -/
theorem address?_function :
    (scopes ++ (Stmt.chainAfterAll earlier (outer.enterFunction parameters)).defineAll own).address?
        name =
      (scopes ++ [(Stmt.declarationsAll earlier ++ own).map Token.lexeme,
        parameters.map Token.lexeme] ++ outer).address? name := by
  have entered : outer.enterFunction parameters = [] :: defineAll ([] :: outer) parameters := rfl
  rw [entered, Stmt.chainAfterAll_eq_defineAll, ← defineAll_append]
  apply address?_congr
  simp only [marks_append, marks_defineAll, List.append_nil, List.append_assoc, List.cons_append,
    List.nil_append, marks_cons]

end Chain

/-- Resolution looks a mention up in the scopes inside its statement and then in those around the
statement, to which the statement has given its own names. -/
theorem Stmt.Holds.occurs {mention : Mention} {statement : Stmt} {own : List Token}
    {scopes : Chain} (held : statement.Holds mention own scopes) :
    ∀ {within inside chain}, statement.Orderly within inside chain →
      ⟨mention.id, (scopes ++ chain.defineAll own).address? mention.name.lexeme⟩ ∈
        statement.occurrences inside chain := by
  induction held with
  | expression member | print member =>
    intro within inside chain orderly
    exact Expr.occurs_of_mem chain _ orderly.lawful member
  | initializer member | returned member =>
    intro within inside chain orderly
    exact Expr.occurs_of_mem chain _ orderly.lawful.2 member
  | @condition condition whenTrue whenFalse member =>
    intro within inside chain orderly
    cases whenFalse with
    | none => exact List.mem_append_left _ (condition.occurs_of_mem chain orderly.lawful.1 member)
    | some _ =>
      exact List.mem_append_left _ (List.mem_append_left _
        (condition.occurs_of_mem chain orderly.lawful.1 member))
  | @whenTrue condition whenTrue whenFalse own scopes _ inductionHypothesis =>
    intro within inside chain orderly
    cases whenFalse with
    | none =>
      exact List.mem_append_right _
        (inductionHypothesis ⟨orderly.lawful.2, orderly.proper, orderly.named⟩)
    | some _ =>
      exact List.mem_append_left _ (List.mem_append_right _
        (inductionHypothesis ⟨orderly.lawful.2.1, orderly.proper.1, orderly.named.1⟩))
  | @whenFalse condition whenTrue whenFalse own scopes _ inductionHypothesis =>
    intro within inside chain orderly
    rw [Chain.defineAll_append, ← Stmt.chainAfter_eq_defineAll]
    exact List.mem_append_right _
      (inductionHypothesis ⟨orderly.lawful.2.2, orderly.proper.2, orderly.named.2⟩)
  | test member =>
    intro within inside chain orderly
    exact List.mem_append_left _ (Expr.occurs_of_mem chain _ orderly.lawful.1 member)
  | repeated _ inductionHypothesis =>
    intro within inside chain orderly
    exact List.mem_append_right _
      (inductionHypothesis ⟨orderly.lawful.2, orderly.proper, orderly.named⟩)
  | block _ inductionHypothesis =>
    intro within inside chain orderly
    have body : Stmt.OrderlyAll within inside ([] :: chain) _ :=
      ⟨orderly.lawful, orderly.proper, orderly.named⟩
    have inner := inductionHypothesis body.around
    rw [Chain.address?_block] at inner
    exact Stmt.mem_occurrencesAll inner
  | @function name parameters earlier later around own scopes _ inductionHypothesis =>
    intro within inside chain orderly
    have body : Stmt.OrderlyAll .function inside
        ((chain.define name.lexeme).enterFunction parameters) _ :=
      ⟨orderly.lawful.2.2, orderly.proper, orderly.named⟩
    have inner := inductionHypothesis body.around
    rw [Chain.address?_function] at inner
    exact Stmt.mem_occurrencesAll inner
  | @superclass name parent methods member =>
    intro within inside chain orderly
    -- Only here does resolution know a name too early: that of the class, which is not its parent.
    obtain ⟨⟨id, title, rfl⟩, _⟩ := orderly.named
    have other : title.lexeme ≠ name.lexeme := orderly.proper.1 id title rfl
    obtain rfl := List.mem_singleton.mp member
    have same : chain.address? title.lexeme = (chain.define name.lexeme).address? title.lexeme := by
      apply Chain.address?_congr
      cases chain with
      | nil => rfl
      | cons names outer => simp [Chain.define, Chain.marks, other]
    exact List.mem_append_left _ (List.mem_singleton.mpr (by rw [← same]; rfl))
  | @method name title superclass methods parameters earlier later around own scopes listed _
      inductionHypothesis =>
    intro within inside chain orderly
    cases superclass with
    | none =>
      obtain ⟨within, body⟩ := FunctionDecl.orderly_of_mem listed orderly.lawful.2 orderly.proper
        orderly.named
      have inner := inductionHypothesis body.around
      rw [Chain.address?_function] at inner
      rw [List.append_assoc]
      exact FunctionDecl.mem_occurrencesAll listed (Stmt.mem_occurrencesAll inner)
    | some parent =>
      obtain ⟨within, body⟩ := FunctionDecl.orderly_of_mem listed orderly.lawful.2.2
        orderly.proper.2 orderly.named.2
      have inner := inductionHypothesis body.around
      rw [Chain.address?_function] at inner
      rw [List.append_assoc]
      exact List.mem_append_right _
        (FunctionDecl.mem_occurrencesAll listed (Stmt.mem_occurrencesAll inner))

/-- In a program without violations resolution looks every mention up in the scopes around it. -/
theorem Mention.StandsIn.occurs {mention : Mention} {program : List Stmt} {scopes : Chain}
    (stands : mention.StandsIn program scopes)
    (orderly : Stmt.OrderlyAll .outside .outside [] program) :
    ⟨mention.id, scopes.address? mention.name.lexeme⟩ ∈
      Stmt.occurrencesAll .outside [] program := by
  obtain ⟨statement, listed, own, held⟩ := stands
  obtain ⟨earlier, later, rfl⟩ := List.append_of_mem listed
  have around := orderly.around
  rw [Stmt.chainAfterAll_nil] at around
  have inner := held.occurs around
  rw [Chain.defineAll_nil, List.append_nil] at inner
  refine Stmt.mem_occurrencesAll ?_
  rwa [Stmt.chainAfterAll_nil]

/-- The table of a program without violations is lexical addressing: every mention stands in some
scopes, and its entry is the distance of the innermost one that binds its name there; it has none if
no scope binds the name. No other identity has an entry. -/
theorem distances_lexical (tokens : List Token) (firstId : Nat)
    (clean : (resolve (parse tokens firstId).statements).errors = []) :
    (∀ mention ∈ Stmt.mentionsAll (parse tokens firstId).statements,
      ∃ scopes, mention.StandsIn (parse tokens firstId).statements scopes) ∧
    (∀ (mention : Mention) (scopes : Chain),
      mention.StandsIn (parse tokens firstId).statements scopes →
      (∀ distance,
        (resolve (parse tokens firstId).statements).distances[mention.id]? = some distance ↔
          scopes.Binds mention.name.lexeme distance) ∧
      ((resolve (parse tokens firstId).statements).distances[mention.id]? = none ↔
        ∀ names ∈ scopes, mention.name.lexeme ∉ names)) ∧
    ∀ id distance : Nat,
      (resolve (parse tokens firstId).statements).distances[id]? = some distance →
      ∃ mention ∈ Stmt.mentionsAll (parse tokens firstId).statements, mention.id = id := by
  have issued := parse_issued tokens firstId
  have named := parse_namedParents tokens firstId
  generalize (parse tokens firstId).statements = program at *
  refine ⟨?_, ?_, ?_⟩
  · intro mention member
    obtain ⟨earlier, around, later, rfl, own, scopes, held⟩ := Stmt.holds_of_memAll program member
    exact ⟨scopes, around, by simp, own, held⟩
  · intro mention scopes stands
    have occurs := stands.occurs ⟨resolve_lawful clean, resolve_properParents clean, named⟩
    have distinct := issued.distinct
    rw [← Stmt.map_id_occurrencesAll .outside [] program] at distinct
    have entry : (resolve program).distances[mention.id]? =
        scopes.address? mention.name.lexeme := by
      rw [resolve_distances, Occurrence.getElem?_recordAll_of_mem distinct occurs,
        Std.TreeMap.getElem?_emptyc, Option.or_none]
    rw [entry]
    exact ⟨fun distance => Chain.address?_eq_some_iff, Chain.address?_eq_none_iff⟩
  · intro id distance entry
    have known : id ∈ Stmt.idsAll program := by
      rw [← Stmt.map_id_occurrencesAll .outside [] program]
      refine Decidable.byContradiction fun other => ?_
      rw [resolve_distances, Occurrence.getElem?_recordAll_of_not_mem other,
        Std.TreeMap.getElem?_emptyc] at entry
      cases entry
    rw [← Stmt.map_id_mentionsAll] at known
    exact List.mem_map.mp known

/-- The `a` that initializes an inner `a` refers to the outer one, past the scope of the inner
one. -/
theorem distances_lexical_shadowing :
    (resolve (parse (scannedTokens (scan "\x7b var a; \x7b var a = a; \x7d \x7d")) 0).statements
      ).distances[0]? = some 1 := by
  have statements :
      (parse (scannedTokens (scan "\x7b var a; \x7b var a = a; \x7d \x7d")) 0).statements =
        [.block [.declare ⟨.identifier, "a", 1⟩ none, .block [.declare ⟨.identifier, "a", 1⟩
          (some (.reference 0 ⟨.identifier, "a", 1⟩))]]] := by decide +kernel
  obtain ⟨_, lexical, _⟩ := distances_lexical
    (scannedTokens (scan "\x7b var a; \x7b var a = a; \x7d \x7d")) 0 (by decide +kernel)
  have stands : Mention.StandsIn ⟨0, ⟨.identifier, "a", 1⟩⟩
      (parse (scannedTokens (scan "\x7b var a; \x7b var a = a; \x7d \x7d")) 0).statements
      [[], ["a"]] := by
    rw [statements]
    have initializer : Stmt.Holds ⟨0, ⟨.identifier, "a", 1⟩⟩ (.declare ⟨.identifier, "a", 1⟩
        (some (.reference 0 ⟨.identifier, "a", 1⟩))) [] [] := .initializer List.mem_cons_self
    have inner := @Stmt.Holds.block _ [] [] _ _ _ initializer
    exact ⟨_, List.mem_singleton.mpr rfl, _, @Stmt.Holds.block _ [_] [] _ _ _ inner⟩
  refine ((lexical _ _ stands).1 1).mpr ⟨⟨["a"], rfl, List.mem_singleton.mpr rfl⟩, ?_⟩
  rintro nearer less names found
  obtain rfl : nearer = 0 := by omega
  cases found
  exact List.not_mem_nil

end LoxLang
