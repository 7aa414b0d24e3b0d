import LoxLang.Proofs.Parsing.Reading
import LoxLang.Proofs.Scope.Occurrences
import LoxLang.Proofs.Token.Genuine

/-!
# Trees that are read

A reading hands out the identities of its occurrences one by one, so those in the tree it makes are
different from each other and lie between the two places. Its names are genuine tokens, and only
blocks and programs hold declarations.
-/

namespace LoxLang

namespace Occurrence

/-- Occurrences with different identities between two bounds. -/
structure Within (low high : Nat) (occurrences : List Occurrence) : Prop where
  distinct : (occurrences.map Occurrence.id).Nodup
  bounds : ∀ occurrence ∈ occurrences, low ≤ occurrence.id ∧ occurrence.id < high

namespace Within

variable {low middle high : Nat} {first second : List Occurrence}

/-- No occurrence is within any ids. -/
theorem nil : Within low high [] :=
  ⟨List.nodup_nil, nofun⟩

/-- One occurrence is within the ids around its own. -/
theorem single {id : Nat} {address? : Option Nat} (above : low ≤ id) (below : id < high) :
    Within low high [⟨id, address?⟩] :=
  ⟨by simp, by simpa using ⟨above, below⟩⟩

/-- Occurrences are within more ids, too. -/
theorem mono {lower higher : Nat} (within : Within low high first) (below : lower ≤ low)
    (above : high ≤ higher) : Within lower higher first :=
  ⟨within.distinct, fun occurrence member =>
    ⟨Nat.le_trans below (within.bounds occurrence member).1,
      Nat.lt_of_lt_of_le (within.bounds occurrence member).2 above⟩⟩

/-- Ids below a number do not occur among those from it on. -/
theorem disjoint (before : Within low middle first) (behind : Within middle high second) :
    ∀ id ∈ first.map Occurrence.id, id ∉ second.map Occurrence.id := by
  intro id left right
  obtain ⟨early, earlyMember, rfl⟩ := List.mem_map.mp left
  obtain ⟨late, lateMember, same⟩ := List.mem_map.mp right
  have below := (before.bounds early earlyMember).2
  have above := (behind.bounds late lateMember).1
  omega

/-- Ids issued one after another are within all of them. -/
theorem append (before : Within low middle first) (behind : Within middle high second)
    (ordered : low ≤ middle) (further : middle ≤ high) : Within low high (first ++ second) := by
  constructor
  · rw [List.map_append, List.nodup_append]
    refine ⟨before.distinct, behind.distinct, fun id left other right same => ?_⟩
    exact before.disjoint behind id left (same ▸ right)
  · intro occurrence member
    rcases List.mem_append.mp member with member | member
    · exact (before.mono (Nat.le_refl _) further).bounds occurrence member
    · exact (behind.mono ordered (Nat.le_refl _)).bounds occurrence member

/-- The order in which occurrences are listed need not be that of their identities. -/
theorem swap (within : Within low high (first ++ second)) : Within low high (second ++ first) := by
  constructor
  · have distinct := within.distinct
    rw [List.map_append] at distinct ⊢
    exact (List.perm_append_comm.nodup_iff).mp distinct
  · intro occurrence member
    exact within.bounds occurrence (by simpa [or_comm] using member)

end Within

end Occurrence

mutual

/-- An expression whose `super` tokens are spelled as such. -/
def Expr.Proper : Expr → Prop
  | .literal _ => True
  | .grouping inner => inner.Proper
  | .unary _ operand => operand.Proper
  | .binary left _ right => left.Proper ∧ right.Proper
  | .logical left _ right => left.Proper ∧ right.Proper
  | .reference _ _ => True
  | .assign _ _ value => value.Proper
  | .call callee _ arguments => callee.Proper ∧ Expr.ProperAll arguments
  | .get object _ => object.Proper
  | .set object _ value => object.Proper ∧ value.Proper
  | .this _ _ => True
  | .super _ keyword _ => keyword.lexeme = "super"

/-- Several proper expressions. -/
def Expr.ProperAll : List Expr → Prop
  | [] => True
  | first :: rest => first.Proper ∧ Expr.ProperAll rest

end

/-- A proper expression, if there is one. -/
def Expr.ProperOptional : Option Expr → Prop
  | none => True
  | some value => value.Proper

/-- Whether a statement declares a name. -/
def Stmt.declares : Stmt → Bool
  | .declare _ _ => true
  | .function _ => true
  | .class _ _ _ => true
  | _ => false

/-- No name is spelled like `super`. -/
def Token.Ordinary (name : Token) : Prop :=
  name.lexeme ≠ "super"

mutual

/-- A statement with proper expressions and ordinary names, in which branches and loops declare
nothing and every superclass is a name. -/
def Stmt.Proper : Stmt → Prop
  | .expression value => value.Proper
  | .print _ value => value.Proper
  | .declare name initializer => name.Ordinary ∧ Expr.ProperOptional initializer
  | .block body => Stmt.ProperAll body
  | .branch condition whenTrue none =>
    condition.Proper ∧ whenTrue.Proper ∧ whenTrue.declares = false
  | .branch condition whenTrue (some whenFalse) =>
    condition.Proper ∧ (whenTrue.Proper ∧ whenTrue.declares = false) ∧
      whenFalse.Proper ∧ whenFalse.declares = false
  | .loop condition body => condition.Proper ∧ body.Proper ∧ body.declares = false
  | .function declaration => declaration.Proper
  | .return _ value => Expr.ProperOptional value
  | .class name none methods => name.Ordinary ∧ FunctionDecl.ProperAll methods
  | .class name (some superclass) methods =>
    name.Ordinary ∧ (∃ id parent, superclass = .reference id parent) ∧
      FunctionDecl.ProperAll methods

/-- Several proper statements. -/
def Stmt.ProperAll : List Stmt → Prop
  | [] => True
  | first :: rest => first.Proper ∧ Stmt.ProperAll rest

/-- A function with ordinary names and a proper body. -/
def FunctionDecl.Proper : FunctionDecl → Prop
  | .mk name parameters body =>
    name.Ordinary ∧ (∀ parameter ∈ parameters, parameter.Ordinary) ∧ Stmt.ProperAll body

/-- Several proper functions. -/
def FunctionDecl.ProperAll : List FunctionDecl → Prop
  | [] => True
  | first :: rest => first.Proper ∧ FunctionDecl.ProperAll rest

end

/-- A proper expression with identities between two bounds. -/
structure Expr.Issued (low high : Nat) (tree : Expr) : Prop where
  proper : tree.Proper
  identities : ∀ inside chain, Occurrence.Within low high (tree.occurrences inside chain)

/-- Proper expressions with identities between two bounds. -/
structure Expr.IssuedAll (low high : Nat) (trees : List Expr) : Prop where
  proper : Expr.ProperAll trees
  identities : ∀ inside chain, Occurrence.Within low high (Expr.occurrencesAll inside chain trees)

namespace Expr.Issued

variable {low middle high : Nat} {left right : Expr}

/-- An operator joins the occurrences of its operands. -/
theorem combine {level : Level} {operator : Token} (first : left.Issued low middle)
    (second : right.Issued middle high) (ordered : low ≤ middle) (further : middle ≤ high) :
    (level.combine left operator right).Issued low high := by
  have joined (inside : ClassContext) (chain : Chain) :=
    (first.identities inside chain).append (second.identities inside chain) ordered further
  cases level with
  | disjunction | conjunction => exact ⟨⟨first.proper, second.proper⟩, joined⟩
  | _ => exact ⟨⟨first.proper, second.proper⟩, joined⟩

/-- The ids of a call are those of its callee and then those of its arguments. -/
theorem call {paren : Token} {arguments : List Expr} (callee : left.Issued low middle)
    (list : IssuedAll middle high arguments) (ordered : low ≤ middle) (further : middle ≤ high) :
    (Expr.call left paren arguments).Issued low high :=
  ⟨⟨callee.proper, list.proper⟩, fun inside chain =>
    (callee.identities inside chain).append (list.identities inside chain) ordered further⟩

/-- A value that is stored was read behind the target. -/
theorem assign {id : Nat} {name : Token} (target : (Expr.reference id name).Issued low middle)
    (value : right.Issued middle high) (ordered : low ≤ middle) (further : middle ≤ high) :
    (Expr.assign id name right).Issued low high :=
  ⟨value.proper, fun inside chain =>
    ((target.identities inside chain).append (value.identities inside chain) ordered further).swap⟩

/-- The ids of an assignment to a property are those of the object and then those of the value. -/
theorem set {name : Token} (target : (Expr.get left name).Issued low middle)
    (value : right.Issued middle high) (ordered : low ≤ middle) (further : middle ≤ high) :
    (Expr.set left name right).Issued low high :=
  ⟨⟨target.proper, value.proper⟩, fun inside chain =>
    ((target.identities inside chain).append (value.identities inside chain) ordered further).swap⟩

end Expr.Issued

/-- What a phrase hands out: the identities of its tree, or those it adds to the tree before it. -/
def ExprPhrase.Issues (start after : Place) : ExprPhrase → Prop
  | .expression tree => tree.Issued start.nextId after.nextId
  | .chain _ tree => tree.Issued start.nextId after.nextId
  | .unary tree => tree.Issued start.nextId after.nextId
  | .primary tree => tree.Issued start.nextId after.nextId
  | .chainRest _ left tree =>
    ∀ low ≤ start.nextId, left.Issued low start.nextId → tree.Issued low after.nextId
  | .accesses object tree =>
    ∀ low ≤ start.nextId, object.Issued low start.nextId → tree.Issued low after.nextId
  | .arguments _ trees => Expr.IssuedAll start.nextId after.nextId trees

/-- An operand of a level issues what the phrase of the level below does. -/
theorem ExprPhrase.issues_operand {level : Level} {tree : Expr} {start after : Place} :
    (ExprPhrase.operand level tree).Issues start after ↔
      tree.Issued start.nextId after.nextId := by
  cases level <;> exact Iff.rfl

/-- The tokens left to read are genuine. -/
def Place.Genuine (place : Place) : Prop :=
  ∀ token ∈ place.remaining, token.Genuine

/-- Tokens further on are genuine, too. -/
theorem Place.Genuine.of_suffix {start after : Place} (genuine : start.Genuine)
    (suffix : after.remaining <:+ start.remaining) : after.Genuine :=
  fun token member => genuine token (suffix.subset member)

/-- The tokens behind the first are genuine, too. -/
theorem Place.Genuine.tail {token : Token} {rest : List Token} {nextId : Nat}
    (genuine : Place.Genuine ⟨token :: rest, nextId⟩) : Place.Genuine ⟨rest, nextId⟩ :=
  genuine.of_suffix (List.suffix_cons _ _)

/-- A reading of an expression hands out the identities of its tree. -/
theorem ExprReads.issues {phrase : ExprPhrase} {start after : Place}
    (reads : ExprReads phrase start after) (genuine : start.Genuine) :
    start.nextId ≤ after.nextId ∧ phrase.Issues start after := by
  induction reads with
  | plain _ _ target => exact target genuine
  | assign target _ _ foundTarget foundValue =>
    obtain ⟨ordered, first⟩ := foundTarget genuine
    obtain ⟨further, second⟩ := foundValue (genuine.of_suffix target.suffix).tail
    exact ⟨Nat.le_trans ordered further, first.assign second ordered further⟩
  | set target _ _ foundTarget foundValue =>
    obtain ⟨ordered, first⟩ := foundTarget genuine
    obtain ⟨further, second⟩ := foundValue (genuine.of_suffix target.suffix).tail
    exact ⟨Nat.le_trans ordered further, first.set second ordered further⟩
  | chain operand _ foundOperand foundRest =>
    obtain ⟨ordered, first⟩ := foundOperand genuine
    obtain ⟨further, rest⟩ := foundRest (genuine.of_suffix operand.suffix)
    exact ⟨Nat.le_trans ordered further, rest _ ordered (ExprPhrase.issues_operand.mp first)⟩
  | chainEnd _ | accessesEnd _ _ => exact ⟨Nat.le_refl _, fun _ _ issued => issued⟩
  | chainMore _ operand _ foundOperand foundMore =>
    obtain ⟨ordered, second⟩ := foundOperand genuine.tail
    obtain ⟨further, rest⟩ := foundMore (genuine.tail.of_suffix operand.suffix)
    refine ⟨Nat.le_trans ordered further, fun low below first => ?_⟩
    exact rest low (Nat.le_trans below ordered)
      (first.combine (ExprPhrase.issues_operand.mp second) below ordered)
  | prefixed _ _ found =>
    obtain ⟨ordered, inner⟩ := found genuine.tail
    exact ⟨ordered, inner.proper, inner.identities⟩
  | accessed head _ foundHead foundMore =>
    obtain ⟨ordered, first⟩ := foundHead genuine
    obtain ⟨further, rest⟩ := foundMore (genuine.of_suffix head.suffix)
    exact ⟨Nat.le_trans ordered further, rest _ ordered first⟩
  | call _ list _ _ foundList foundMore =>
    obtain ⟨ordered, listed⟩ := foundList genuine.tail
    obtain ⟨further, rest⟩ := foundMore (genuine.tail.of_suffix list.suffix).tail
    refine ⟨Nat.le_trans ordered further, fun low below callee => ?_⟩
    exact rest low (Nat.le_trans below ordered) (callee.call listed below ordered)
  | callEmpty _ _ _ found =>
    obtain ⟨further, rest⟩ := found genuine.tail.tail
    refine ⟨further, fun low below callee => rest low below ?_⟩
    exact callee.call ⟨trivial, fun _ _ => .nil⟩ below (Nat.le_refl _)
  | property _ _ _ found =>
    obtain ⟨further, rest⟩ := found genuine.tail.tail
    refine ⟨further, fun low below object => rest low below ?_⟩
    exact ⟨object.proper, object.identities⟩
  | lastArgument _ _ _ found | trailingArgument _ _ _ _ found =>
    obtain ⟨ordered, entry⟩ := found genuine
    refine ⟨ordered, ⟨entry.proper, trivial⟩, fun inside chain => ?_⟩
    exact (entry.identities inside chain).append .nil ordered (Nat.le_refl _)
  | moreArguments _ entry _ _ foundEntry foundMore =>
    obtain ⟨ordered, first⟩ := foundEntry genuine
    obtain ⟨further, rest⟩ := foundMore (genuine.of_suffix entry.suffix).tail
    refine ⟨Nat.le_trans ordered further, ⟨first.proper, rest.proper⟩, fun inside chain => ?_⟩
    exact (first.identities inside chain).append (rest.identities inside chain) ordered further
  | falseLiteral _ | trueLiteral _ | nilLiteral _ | number _ | string _ =>
    exact ⟨Nat.le_refl _, trivial, fun _ _ => .nil⟩
  | this _ =>
    refine ⟨Nat.le_succ _, trivial, fun inside chain => ?_⟩
    cases inside <;> exact .single (Nat.le_refl _) (Nat.lt_succ_self _)
  | super mark _ _ =>
    refine ⟨Nat.le_succ _, (genuine _ List.mem_cons_self).keyword _ mark, fun inside chain => ?_⟩
    cases inside <;> exact .single (Nat.le_refl _) (Nat.lt_succ_self _)
  | reference _ =>
    exact ⟨Nat.le_succ _, trivial, fun _ _ => .single (Nat.le_refl _) (Nat.lt_succ_self _)⟩
  | group _ _ _ found =>
    obtain ⟨ordered, inner⟩ := found genuine.tail
    exact ⟨ordered, inner.proper, inner.identities⟩

/-- A proper expression with identities between two bounds, if there is one. -/
structure Expr.IssuedOptional (low high : Nat) (value : Option Expr) : Prop where
  proper : Expr.ProperOptional value
  identities : ∀ inside chain,
    Occurrence.Within low high (Expr.occurrencesOptional inside chain value)

/-- A proper statement with identities between two bounds. -/
structure Stmt.Issued (low high : Nat) (tree : Stmt) : Prop where
  proper : tree.Proper
  identities : ∀ inside chain, Occurrence.Within low high (tree.occurrences inside chain)

/-- Proper statements with identities between two bounds. -/
structure Stmt.IssuedAll (low high : Nat) (trees : List Stmt) : Prop where
  proper : Stmt.ProperAll trees
  identities : ∀ inside chain, Occurrence.Within low high (Stmt.occurrencesAll inside chain trees)

/-- A proper function with identities between two bounds. -/
structure FunctionDecl.Issued (low high : Nat) (tree : FunctionDecl) : Prop where
  proper : tree.Proper
  identities : ∀ inside chain, Occurrence.Within low high (tree.occurrences inside chain)

/-- Proper functions with identities between two bounds. -/
structure FunctionDecl.IssuedAll (low high : Nat) (trees : List FunctionDecl) : Prop where
  proper : FunctionDecl.ProperAll trees
  identities : ∀ inside chain,
    Occurrence.Within low high (FunctionDecl.occurrencesAll inside chain trees)

namespace Stmt

variable {low middle high : Nat} {first : Stmt} {rest : List Stmt}

/-- No statement issues no id. -/
theorem IssuedAll.nil : Stmt.IssuedAll low high [] :=
  ⟨trivial, fun _ _ => .nil⟩

/-- The ids of statements are those of the first and then those of the others. -/
theorem IssuedAll.cons (head : first.Issued low middle) (tail : Stmt.IssuedAll middle high rest)
    (ordered : low ≤ middle) (further : middle ≤ high) :
    Stmt.IssuedAll low high (first :: rest) :=
  ⟨⟨head.proper, tail.proper⟩, fun inside chain =>
    (head.identities inside chain).append (tail.identities inside _) ordered further⟩

/-- An expression statement issues the ids of its expression. -/
theorem Issued.expression {value : Expr} (issued : value.Issued low high) :
    (Stmt.expression value).Issued low high :=
  ⟨issued.proper, issued.identities⟩

/-- A block issues the ids of its statements. -/
theorem Issued.block {body : List Stmt} (issued : Stmt.IssuedAll low high body) :
    (Stmt.block body).Issued low high :=
  ⟨issued.proper, fun inside chain => issued.identities inside ([] :: chain)⟩

/-- A loop issues the ids of its condition and then those of its body. -/
theorem Issued.loop {test : Expr} {body : Stmt} (condition : test.Issued low middle)
    (inner : body.Issued middle high) (plain : body.declares = false) (ordered : low ≤ middle)
    (further : middle ≤ high) : (Stmt.loop test body).Issued low high :=
  ⟨⟨condition.proper, inner.proper, plain⟩, fun inside chain =>
    (condition.identities inside chain).append (inner.identities inside chain) ordered further⟩

/-- The third clause of a loop is read in front of the body and stands behind it in the tree. -/
theorem Issued.repeated {body : Stmt} {step : Expr} (increment : step.Issued low middle)
    (inner : body.Issued middle high) (ordered : low ≤ middle) (further : middle ≤ high) :
    (Stmt.block [body, .expression step]).Issued low high := by
  refine ⟨⟨inner.proper, increment.proper, trivial⟩, fun inside chain => ?_⟩
  have joined := (increment.identities inside (body.chainAfter ([] :: chain))).append
    (inner.identities inside ([] :: chain)) ordered further
  change Occurrence.Within low high (body.occurrences inside ([] :: chain) ++
    (step.occurrences inside (body.chainAfter ([] :: chain)) ++ []))
  rw [List.append_nil]
  exact joined.swap

/-- The clauses of a `for` loop are read in order, and the body behind them. -/
theorem Issued.forLoop {initializer : Option Stmt} {test increment : Option Expr} {body : Stmt}
    {tested stepped : Nat} (first : Stmt.IssuedAll low middle initializer.toList)
    (condition : Expr.IssuedOptional middle tested test)
    (step : Expr.IssuedOptional tested stepped increment) (inner : body.Issued stepped high)
    (plain : body.declares = false) (ordered : low ≤ middle) (second : middle ≤ tested)
    (third : tested ≤ stepped) (last : stepped ≤ high) :
    (Parse.forLoop initializer test increment body).Issued low high := by
  have loopTest : (test.getD (.literal (.bool true))).Issued middle tested := by
    cases test with
    | none => exact ⟨trivial, fun _ _ => .nil⟩
    | some value => exact ⟨condition.proper, condition.identities⟩
  have above := Nat.le_trans third last
  have further := Nat.le_trans second above
  have wrapped {repeated : Stmt} (inner : repeated.Issued tested high)
      (plain : repeated.declares = false) : (Stmt.block (initializer.toList ++
        [.loop (test.getD (.literal (.bool true))) repeated])).Issued low high := by
    have looped := Issued.loop loopTest inner plain second above
    cases initializer with
    | none =>
      exact .block (.cons ⟨looped.proper, fun inside chain =>
        (looped.identities inside chain).mono ordered (Nat.le_refl _)⟩ .nil
        (Nat.le_trans ordered further) (Nat.le_refl _))
    | some clause =>
      have clause : clause.Issued low middle :=
        ⟨first.proper.1, fun inside chain => by
          have identities := first.identities inside chain
          rwa [show Stmt.occurrencesAll inside chain (some clause).toList =
            clause.occurrences inside chain ++ [] from rfl, List.append_nil] at identities⟩
      exact .block (.cons clause (.cons looped .nil further (Nat.le_refl _)) ordered further)
  cases increment with
  | none =>
    exact wrapped ⟨inner.proper, fun inside chain =>
      (inner.identities inside chain).mono third (Nat.le_refl _)⟩ plain
  | some value =>
    have value : value.Issued tested stepped := ⟨step.proper, step.identities⟩
    exact wrapped (.repeated value inner third last) rfl

end Stmt

/-- What a phrase hands out: the identities of its trees. Statements other than declarations declare
nothing. -/
def StmtPhrase.Issues (start after : Place) : StmtPhrase → Prop
  | .optional _ value => Expr.IssuedOptional start.nextId after.nextId value
  | .variable tree => tree.Issued start.nextId after.nextId
  | .simple tree => tree.Issued start.nextId after.nextId ∧ tree.declares = false
  | .initializer clause => Stmt.IssuedAll start.nextId after.nextId clause.toList
  | .parameters _ names => ∀ name ∈ names, name.Ordinary
  | .routine tree => tree.Issued start.nextId after.nextId
  | .superclass parent =>
    Expr.IssuedOptional start.nextId after.nextId parent ∧
      ∀ tree, parent = some tree → ∃ id name, tree = .reference id name
  | .methods trees => FunctionDecl.IssuedAll start.nextId after.nextId trees
  | .declaration tree => tree.Issued start.nextId after.nextId
  | .statement tree => tree.Issued start.nextId after.nextId ∧ tree.declares = false
  | .block trees => Stmt.IssuedAll start.nextId after.nextId trees
  | .program trees => Stmt.IssuedAll start.nextId after.nextId trees

/-- A genuine identifier is spelled like neither `this` nor `super`. -/
theorem Place.Genuine.ordinary {token : Token} {rest : List Token} {nextId : Nat}
    (genuine : Place.Genuine ⟨token :: rest, nextId⟩) (named : token.kind = .identifier) :
    token.Ordinary :=
  (genuine token List.mem_cons_self).lexeme_ne named .superWord

/-- A class hands out the identity of its superclass and then those of its methods. -/
theorem Stmt.Issued.class {low middle high : Nat} {name : Token} {parent : Option Expr}
    {methods : List FunctionDecl} (ordinary : name.Ordinary)
    (derived : Expr.IssuedOptional low middle parent)
    (named : ∀ tree, parent = some tree → ∃ id name, tree = .reference id name)
    (members : FunctionDecl.IssuedAll middle high methods) (ordered : low ≤ middle)
    (further : middle ≤ high) : (Stmt.class name parent methods).Issued low high := by
  cases parent with
  | none =>
    refine ⟨⟨ordinary, members.proper⟩, fun inside chain => ?_⟩
    exact (members.identities .base _).mono ordered (Nat.le_refl _)
  | some superclass =>
    refine ⟨⟨ordinary, named superclass rfl, members.proper⟩, fun inside chain => ?_⟩
    exact (derived.identities .derived _).append (members.identities .derived _) ordered further

/-- A reading of a statement or of a program hands out the identities of its trees. -/
theorem StmtReads.issues {phrase : StmtPhrase} {start after : Place}
    (reads : StmtReads phrase start after) (genuine : start.Genuine) :
    start.nextId ≤ after.nextId ∧ phrase.Issues start after := by
  induction reads with
  | absent _ => exact ⟨Nat.le_refl _, trivial, fun _ _ => .nil⟩
  | present _ inner =>
    obtain ⟨ordered, value⟩ := inner.issues genuine
    exact ⟨ordered, value.proper, value.identities⟩
  | undefined named _ =>
    exact ⟨Nat.le_refl _, ⟨genuine.ordinary named, trivial⟩, fun _ _ => .nil⟩
  | initialized named _ inner _ =>
    obtain ⟨ordered, value⟩ := inner.issues genuine.tail.tail
    exact ⟨ordered, ⟨genuine.ordinary named, value.proper⟩, value.identities⟩
  | simple inner _ =>
    obtain ⟨ordered, value⟩ := inner.issues genuine
    exact ⟨ordered, .expression value, rfl⟩
  | noInitializer _ => exact ⟨Nat.le_refl _, .nil⟩
  | variableInitializer _ _ found =>
    obtain ⟨ordered, clause⟩ := found genuine.tail
    exact ⟨ordered, .cons clause .nil ordered (Nat.le_refl _)⟩
  | simpleInitializer _ found =>
    obtain ⟨ordered, clause, _⟩ := found genuine
    exact ⟨ordered, .cons clause .nil ordered (Nat.le_refl _)⟩
  | lastParameter _ named _ | trailingParameter _ named _ _ =>
    exact ⟨Nat.le_refl _, by simpa [StmtPhrase.Issues] using genuine.ordinary named⟩
  | moreParameters _ named _ _ found =>
    obtain ⟨ordered, names⟩ := found genuine.tail.tail
    exact ⟨ordered, List.forall_mem_cons.mpr ⟨genuine.ordinary named, names⟩⟩
  | routine named _ list _ _ _ foundList foundBody =>
    obtain ⟨ordered, names⟩ := foundList genuine.tail.tail
    obtain ⟨further, body⟩ := foundBody (genuine.tail.tail.of_suffix list.suffix).tail.tail
    refine ⟨Nat.le_trans ordered further, ⟨genuine.ordinary named, names, body.proper⟩, ?_⟩
    exact fun inside chain => (body.identities inside _).mono ordered (Nat.le_refl _)
  | routineEmpty named _ _ _ _ found =>
    obtain ⟨further, body⟩ := found genuine.tail.tail.tail.tail
    exact ⟨further, ⟨genuine.ordinary named, nofun, body.proper⟩,
      fun inside chain => body.identities inside _⟩
  | noSuperclass _ => exact ⟨Nat.le_refl _, ⟨trivial, fun _ _ => .nil⟩, nofun⟩
  | superclass _ _ =>
    refine ⟨Nat.le_succ _, ⟨trivial, fun _ _ => .single (Nat.le_refl _) (Nat.lt_succ_self _)⟩, ?_⟩
    rintro _ ⟨⟩
    exact ⟨_, _, rfl⟩
  | methodsEnd _ => exact ⟨Nat.le_refl _, trivial, fun _ _ => .nil⟩
  | methodsMore head _ foundHead foundMore =>
    obtain ⟨ordered, first⟩ := foundHead genuine
    obtain ⟨further, rest⟩ := foundMore (genuine.of_suffix head.suffix)
    refine ⟨Nat.le_trans ordered further, ⟨first.proper, rest.proper⟩, fun inside chain => ?_⟩
    exact (first.identities inside chain).append (rest.identities inside chain) ordered further
  | «class» _ named derived _ _ _ foundParent foundMembers =>
    obtain ⟨ordered, parent, reference⟩ := foundParent genuine.tail.tail
    obtain ⟨further, members⟩ := foundMembers (genuine.tail.tail.of_suffix derived.suffix).tail
    exact ⟨Nat.le_trans ordered further,
      .class (genuine.tail.ordinary named) parent reference members ordered further⟩
  | function _ _ found =>
    obtain ⟨ordered, inner⟩ := found genuine.tail
    exact ⟨ordered, inner.proper, fun inside chain => inner.identities inside _⟩
  | variableDeclaration _ _ found => exact found genuine.tail
  | plain _ found =>
    obtain ⟨ordered, inner, _⟩ := found genuine
    exact ⟨ordered, inner⟩
  | «for» _ _ first condition _ step _ _ foundFirst foundTest foundStep foundBody =>
    obtain ⟨ordered, initializer⟩ := foundFirst genuine.tail.tail
    have atTest := genuine.tail.tail.of_suffix first.suffix
    obtain ⟨second, test⟩ := foundTest atTest
    have atStep := (atTest.of_suffix condition.suffix).tail
    obtain ⟨third, increment⟩ := foundStep atStep
    obtain ⟨last, body, plain⟩ := foundBody (atStep.of_suffix step.suffix).tail
    have whole :=
      Stmt.Issued.forLoop initializer test increment body plain ordered second third last
    exact ⟨by simp only at *; omega, whole, rfl⟩
  | «if» _ _ condition _ _ _ found =>
    obtain ⟨ordered, test⟩ := condition.issues genuine.tail.tail
    obtain ⟨further, inner, plain⟩ := found (genuine.tail.tail.of_suffix condition.suffix).tail
    refine ⟨Nat.le_trans ordered further, ⟨⟨test.proper, inner.proper, plain⟩, ?_⟩, rfl⟩
    exact fun inside chain =>
      (test.identities inside chain).append (inner.identities inside chain) ordered further
  | ifElse _ _ condition _ inner _ _ foundInner foundOuter =>
    obtain ⟨ordered, test⟩ := condition.issues genuine.tail.tail
    have atInner := (genuine.tail.tail.of_suffix condition.suffix).tail
    obtain ⟨further, first, firstPlain⟩ := foundInner atInner
    obtain ⟨last, second, secondPlain⟩ := foundOuter (atInner.of_suffix inner.suffix).tail
    refine ⟨by simp only at *; omega,
      ⟨⟨test.proper, ⟨first.proper, firstPlain⟩, second.proper, secondPlain⟩, ?_⟩, rfl⟩
    exact fun inside chain =>
      ((test.identities inside chain).append (first.identities inside chain) ordered further).append
        (second.identities inside _) (Nat.le_trans ordered further) last
  | print _ inner _ =>
    obtain ⟨ordered, value⟩ := inner.issues genuine.tail
    exact ⟨ordered, ⟨value.proper, value.identities⟩, rfl⟩
  | «return» _ _ _ found =>
    obtain ⟨ordered, value⟩ := found genuine.tail
    exact ⟨ordered, ⟨value.proper, value.identities⟩, rfl⟩
  | «while» _ _ condition _ _ found =>
    obtain ⟨ordered, test⟩ := condition.issues genuine.tail.tail
    obtain ⟨further, inner, plain⟩ := found (genuine.tail.tail.of_suffix condition.suffix).tail
    exact ⟨Nat.le_trans ordered further, .loop test inner plain ordered further, rfl⟩
  | block _ _ found =>
    obtain ⟨ordered, body⟩ := found genuine.tail
    exact ⟨ordered, .block body, rfl⟩
  | expression _ found => exact found genuine
  | blockEnd _ => exact ⟨Nat.le_refl _, .nil⟩
  | programEnd => exact ⟨Nat.le_refl _, .nil⟩
  | blockMore head _ foundHead foundMore | programMore head _ foundHead foundMore =>
    obtain ⟨ordered, first⟩ := foundHead genuine
    obtain ⟨further, rest⟩ := foundMore (genuine.of_suffix head.suffix)
    exact ⟨Nat.le_trans ordered further, .cons first rest ordered further⟩

end LoxLang
