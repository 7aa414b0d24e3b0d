import LoxLang.Proofs.Machine.Evolution
import LoxLang.Proofs.Parsing.Trees

/-!
# Closures that know their scopes

Which scope an occurrence refers to was found before the program ran; which frames there are is
found out while it runs. `Store.Covers` ties the two together: an environment covers a chain if each
of its frames binds the names of one scope. A value is valid if every function in it was resolved in
a chain that its environment covers, and a store is valid if all values in it are. Validity lasts,
since frames never lose a name.
-/

namespace LoxLang

/-- Where the occurrences of the identities issued so far refer to. -/
structure Addressing where
  issued : Nat
  address? : Nat → Option Nat

namespace Addressing

variable {addressing later : Addressing} {first second : List Occurrence}

/-- Occurrences refer to where they are said to. -/
def Holds (addressing : Addressing) (occurrences : List Occurrence) : Prop :=
  ∀ occurrence ∈ occurrences, occurrence.id < addressing.issued ∧
    addressing.address? occurrence.id = occurrence.address?

/-- An addressing holds of two lists of occurrences together exactly when it holds of both. -/
@[simp] theorem holds_append :
    addressing.Holds (first ++ second) ↔ addressing.Holds first ∧ addressing.Holds second :=
  List.forall_mem_append

/-- An addressing holds of one occurrence when it gives the occurrence's id that address. -/
@[simp] theorem holds_single {occurrence : Occurrence} :
    addressing.Holds [occurrence] ↔ occurrence.id < addressing.issued ∧
      addressing.address? occurrence.id = occurrence.address? := by
  simp [Holds]

/-- A later addressing leaves the identities of an earlier one as they are. -/
structure Extends (addressing later : Addressing) : Prop where
  issued : addressing.issued ≤ later.issued
  address? : ∀ id < addressing.issued, later.address? id = addressing.address? id

/-- What an addressing says of issued ids stays when later ids get addresses. -/
theorem Holds.extend (holds : addressing.Holds first) (extension : addressing.Extends later) :
    later.Holds first := by
  intro occurrence member
  obtain ⟨known, found⟩ := holds occurrence member
  exact ⟨Nat.lt_of_lt_of_le known extension.issued, (extension.address? _ known).trans found⟩

end Addressing

namespace Chain

/-- Wherever `super` is found, `this` is in the next scope inside. -/
def SuperBeside (chain : Chain) : Prop :=
  ∀ distance, chain.address? "super" = some distance →
    ∃ inner names, distance = inner + 1 ∧ chain[inner]? = some names ∧ "this" ∈ names

variable {chain : Chain} {names : List String} {name : String} {distance : Nat}

/-- The distance found for a name leads to a scope of the chain that holds the name. -/
theorem exists_of_address? (found : chain.address? name = some distance) :
    ∃ names, chain[distance]? = some names ∧ name ∈ names := by
  obtain ⟨inside, holds, _⟩ := List.findIdx?_eq_some_iff_getElem.mp found
  exact ⟨chain[distance], List.getElem?_eq_getElem inside, by simpa using holds⟩

/-- A name is found where it was before another one was defined. -/
theorem address?_define {other : String} (different : name ≠ other) :
    (chain.define other).address? name = chain.address? name := by
  cases chain with
  | nil => rfl
  | cons names chain =>
    rw [Chain.define, address?, address?, List.findIdx?_cons, List.findIdx?_cons]
    simp [different]

/-- Without local scopes there is no `super` to stand beside. -/
theorem SuperBeside.nil : SuperBeside [] :=
  nofun

/-- A scope without `super` inside the others. -/
theorem SuperBeside.cons (beside : chain.SuperBeside) (ordinary : "super" ∉ names) :
    SuperBeside (names :: chain) := by
  intro distance found
  rw [address?, List.findIdx?_cons] at found
  simp only [ordinary, decide_false, Bool.false_eq_true, if_false, Option.map_eq_some_iff] at found
  obtain ⟨outer, found, rfl⟩ := found
  obtain ⟨inner, others, rfl, there, member⟩ := beside outer found
  exact ⟨inner + 1, others, rfl, there, member⟩

/-- One more name that is not `super`. -/
theorem SuperBeside.define (beside : chain.SuperBeside) (ordinary : name ≠ "super") :
    (chain.define name).SuperBeside := by
  cases chain with
  | nil => exact nil
  | cons names chain =>
    intro distance found
    rw [address?_define (Ne.symm ordinary)] at found
    obtain ⟨inner, others, rfl, there, bound⟩ := beside distance found
    cases inner with
    | zero =>
      obtain rfl : names = others := by simpa using there
      exact ⟨0, name :: names, rfl, rfl, List.mem_cons_of_mem _ bound⟩
    | succ inner => exact ⟨inner + 1, others, rfl, there, bound⟩

/-- Entering a class keeps `this` bound right inside the scope of `super`. -/
theorem SuperBeside.enterClass (beside : chain.SuperBeside) (inside : ClassContext) :
    (chain.enterClass inside).SuperBeside := by
  cases inside with
  | outside | base => exact beside.cons (by decide)
  | derived =>
    intro distance found
    obtain rfl : 1 = distance := by
      simpa [Chain.enterClass, address?, List.findIdx?_cons] using found
    exact ⟨0, ["this"], rfl, rfl, by decide⟩

/-- Ordinary parameters bind neither `this` nor `super`, so the chain keeps its form. -/
theorem SuperBeside.enterFunction {parameters : List Token} (beside : chain.SuperBeside)
    (ordinary : ∀ parameter ∈ parameters, parameter.Ordinary) :
    (chain.enterFunction parameters).SuperBeside := by
  unfold Chain.enterFunction
  rw [Chain.parameters_cons]
  refine (beside.cons ?_).cons (by simp)
  intro member
  obtain ⟨parameter, listed, same⟩ : ∃ parameter ∈ parameters, parameter.lexeme = "super" := by
    simpa using member
  exact ordinary parameter listed same

end Chain

namespace Store

/-- Each frame of an environment exists and binds the names of one scope; outermost are the
globals. -/
def Covers (store : Store) : Chain → Environment → Prop
  | [], environment => environment = globalEnvironment ∧ 0 < store.frames.size
  | names :: chain, frame :: environment =>
    (frame < store.frames.size ∧ ∀ name ∈ names, (store.binding? frame name).isSome) ∧
      store.Covers chain environment
  | _ :: _, [] => False

variable {store after : Store} {chain : Chain} {environment : Environment}

/-- Frames that only gain names keep covering the chain. -/
theorem Covers.mono (covers : store.Covers chain environment) (grows : store.Grows after) :
    after.Covers chain environment := by
  induction chain generalizing environment with
  | nil => exact ⟨covers.1, Nat.lt_of_lt_of_le covers.2 grows.frames⟩
  | cons names chain inductionHypothesis =>
    cases environment with
    | nil => exact covers.elim
    | cons frame environment =>
      obtain ⟨⟨inside, bound⟩, outer⟩ := covers
      refine ⟨⟨Nat.lt_of_lt_of_le inside grows.frames, fun name member => ?_⟩,
        inductionHypothesis outer⟩
      exact grows.bound frame name (bound name member)

/-- A name of a scope is bound in the frame at the scope's distance. -/
theorem Covers.bound (covers : store.Covers chain environment) {distance : Nat}
    {names : List String} {name : String} (there : chain[distance]? = some names)
    (member : name ∈ names) :
    ∃ frame, environment[distance]? = some frame ∧ (store.binding? frame name).isSome := by
  induction chain generalizing environment distance with
  | nil => cases there
  | cons first chain inductionHypothesis =>
    cases environment with
    | nil => exact covers.elim
    | cons frame environment =>
      cases distance with
      | zero =>
        obtain rfl : first = names := by simpa using there
        exact ⟨frame, rfl, covers.1.2 name member⟩
      | succ distance => exact inductionHypothesis covers.2 there

/-- A new frame covers a new scope. -/
theorem Covers.push (covers : store.Covers chain environment) {names : List String}
    {bindings : Bindings} (bound : ∀ name ∈ names, (bindings[name]?).isSome) :
    (store.addFrame bindings).Covers (names :: chain) (store.frames.size :: environment) := by
  refine ⟨⟨by simp [addFrame], fun name member => ?_⟩, covers.mono (.addFrame store bindings)⟩
  simpa [Store.binding?, addFrame, Tables.value?_push] using bound name member

/-- Defining a name in the innermost frame covers a chain that defines it. -/
theorem Covers.define {frame : Nat} {outer : Environment}
    (covers : store.Covers chain (frame :: outer)) (name : String) (value : Value) :
    (store.define frame name value).Covers (chain.define name) (frame :: outer) := by
  cases chain with
  | nil => exact covers.mono (.define store frame name value)
  | cons names chain =>
    have inside := covers.1.1
    obtain ⟨⟨stillInside, bound⟩, behind⟩ := covers.mono (.define store frame name value)
    refine ⟨⟨stillInside, fun wanted member => ?_⟩, behind⟩
    rcases List.mem_cons.mp member with rfl | member
    · simp [Store.binding?, Store.define, Tables.value?_set, inside]
    · exact bound wanted member

end Store

/-- An expression whose occurrences were resolved in a chain. -/
structure Expr.Placed (addressing : Addressing) (inside : ClassContext) (chain : Chain)
    (tree : Expr) : Prop where
  proper : tree.Proper
  addressed : addressing.Holds (tree.occurrences inside chain)

/-- Expressions whose occurrences were resolved in a chain. -/
structure Expr.PlacedAll (addressing : Addressing) (inside : ClassContext) (chain : Chain)
    (trees : List Expr) : Prop where
  proper : Expr.ProperAll trees
  addressed : addressing.Holds (Expr.occurrencesAll inside chain trees)

/-- A statement whose occurrences were resolved in a chain. -/
structure Stmt.Placed (addressing : Addressing) (inside : ClassContext) (chain : Chain)
    (tree : Stmt) : Prop where
  proper : tree.Proper
  parents : tree.ProperParents
  addressed : addressing.Holds (tree.occurrences inside chain)

/-- Statements whose occurrences were resolved in a chain. -/
structure Stmt.PlacedAll (addressing : Addressing) (inside : ClassContext) (chain : Chain)
    (trees : List Stmt) : Prop where
  proper : Stmt.ProperAll trees
  parents : Stmt.ProperParentsAll trees
  addressed : addressing.Holds (Stmt.occurrencesAll inside chain trees)

/-- A function whose occurrences were resolved in a chain. -/
structure FunctionDecl.Placed (addressing : Addressing) (inside : ClassContext) (chain : Chain)
    (tree : FunctionDecl) : Prop where
  proper : tree.Proper
  parents : tree.ProperParents
  addressed : addressing.Holds (tree.occurrences inside chain)

section Placed

variable {addressing later : Addressing} {inside : ClassContext} {chain : Chain}

namespace Expr.Placed

variable {left right : Expr} {token : Token}

/-- Both operands of a placed binary expression are placed. -/
theorem binary (placed : (Expr.binary left token right).Placed addressing inside chain) :
    left.Placed addressing inside chain ∧ right.Placed addressing inside chain := by
  obtain ⟨first, second⟩ := Addressing.holds_append.mp placed.addressed
  exact ⟨⟨placed.proper.1, first⟩, placed.proper.2, second⟩

/-- Both operands of a placed logical expression are placed. -/
theorem logical (placed : (Expr.logical left token right).Placed addressing inside chain) :
    left.Placed addressing inside chain ∧ right.Placed addressing inside chain := by
  obtain ⟨first, second⟩ := Addressing.holds_append.mp placed.addressed
  exact ⟨⟨placed.proper.1, first⟩, placed.proper.2, second⟩

/-- The object is resolved behind the value that it is given. -/
theorem set (placed : (Expr.set left token right).Placed addressing inside chain) :
    left.Placed addressing inside chain ∧ right.Placed addressing inside chain := by
  obtain ⟨second, first⟩ := Addressing.holds_append.mp placed.addressed
  exact ⟨⟨placed.proper.1, first⟩, placed.proper.2, second⟩

/-- The callee and the arguments of a placed call are placed. -/
theorem call {arguments : List Expr}
    (placed : (Expr.call left token arguments).Placed addressing inside chain) :
    left.Placed addressing inside chain ∧ Expr.PlacedAll addressing inside chain arguments := by
  obtain ⟨first, second⟩ := Addressing.holds_append.mp placed.addressed
  exact ⟨⟨placed.proper.1, first⟩, placed.proper.2, second⟩

/-- A placed assignment has a placed value, and its id has the address of its name. -/
theorem assign {id : Nat} (placed : (Expr.assign id token right).Placed addressing inside chain) :
    right.Placed addressing inside chain ∧
      addressing.address? id = chain.address? token.lexeme := by
  obtain ⟨first, second⟩ := Addressing.holds_append.mp placed.addressed
  exact ⟨⟨placed.proper, first⟩, (Addressing.holds_single.mp second).2⟩

/-- The id of a placed reference has the address of its name. -/
theorem reference {id : Nat} (placed : (Expr.reference id token).Placed addressing inside chain) :
    addressing.address? id = chain.address? token.lexeme :=
  (Addressing.holds_single.mp placed.addressed).2

/-- An occurrence of `this` that has an address refers to where the keyword is found. -/
theorem this {id distance : Nat} (placed : (Expr.this id token).Placed addressing inside chain)
    (found : addressing.address? id = some distance) :
    chain.address? token.lexeme = some distance := by
  have addressed := placed.addressed
  cases inside with
  | outside =>
    have missing := (Addressing.holds_single.mp addressed).2
    cases found.symm.trans missing
  | base | derived => exact (Addressing.holds_single.mp addressed).2.symm.trans found

/-- An occurrence of `super` that has an address refers to where `super` is found. -/
theorem super {id distance : Nat} {method : Token}
    (placed : (Expr.super id token method).Placed addressing inside chain)
    (found : addressing.address? id = some distance) :
    chain.address? "super" = some distance := by
  have addressed := placed.addressed
  have spelled : token.lexeme = "super" := placed.proper
  cases inside with
  | outside | base =>
    have missing := (Addressing.holds_single.mp addressed).2
    cases found.symm.trans missing
  | derived =>
    rw [← spelled]
    exact (Addressing.holds_single.mp addressed).2.symm.trans found

end Expr.Placed

/-- Placed expressions are a placed first one and placed others. -/
theorem Expr.PlacedAll.uncons {first : Expr} {rest : List Expr}
    (placed : Expr.PlacedAll addressing inside chain (first :: rest)) :
    first.Placed addressing inside chain ∧ Expr.PlacedAll addressing inside chain rest := by
  obtain ⟨head, tail⟩ := Addressing.holds_append.mp placed.addressed
  exact ⟨⟨placed.proper.1, head⟩, placed.proper.2, tail⟩

/-- Placed statements are a placed first one and others placed in the scopes behind it. -/
theorem Stmt.PlacedAll.uncons {first : Stmt} {rest : List Stmt}
    (placed : Stmt.PlacedAll addressing inside chain (first :: rest)) :
    first.Placed addressing inside chain ∧
      Stmt.PlacedAll addressing inside (first.chainAfter chain) rest := by
  obtain ⟨head, tail⟩ := Addressing.holds_append.mp placed.addressed
  exact ⟨⟨placed.proper.1, placed.parents.1, head⟩, placed.proper.2, placed.parents.2, tail⟩

/-- At top level, where no scope is recorded, each statement is resolved in the same chain. -/
theorem Stmt.PlacedAll.forall_of_global {trees : List Stmt}
    (placed : Stmt.PlacedAll addressing inside [] trees) :
    ∀ tree ∈ trees, tree.Placed addressing inside [] := by
  induction trees with
  | nil => exact nofun
  | cons first rest inductionHypothesis =>
    obtain ⟨head, tail⟩ := placed.uncons
    rw [first.chainAfter_nil] at tail
    exact List.forall_mem_cons.mpr ⟨head, inductionHypothesis tail⟩

/-- A placed function has ordinary parameters and a body placed in its own scope. -/
theorem FunctionDecl.Placed.body {declaration : FunctionDecl}
    (placed : declaration.Placed addressing inside chain) :
    (∀ parameter ∈ declaration.parameters, parameter.Ordinary) ∧
      Stmt.PlacedAll addressing inside (chain.enterFunction declaration.parameters)
        declaration.body := by
  obtain ⟨name, parameters, body⟩ := declaration
  exact ⟨placed.proper.2.1, placed.proper.2.2, placed.parents, placed.addressed⟩

/-- A placed function stays so when later ids get addresses. -/
theorem FunctionDecl.Placed.extend {declaration : FunctionDecl}
    (placed : declaration.Placed addressing inside chain) (extension : addressing.Extends later) :
    declaration.Placed later inside chain :=
  { placed with addressed := placed.addressed.extend extension }

/-- A statement that declares nothing leaves the chain as it is. -/
theorem Stmt.chainAfter_of_plain (chain : Chain) :
    ∀ statement : Stmt, statement.Proper → statement.declares = false →
      statement.chainAfter chain = chain
  | .declare _ _, _, plain | .function _, _, plain | .class _ _ _, _, plain => nomatch plain
  | .branch _ whenTrue none, proper, _ =>
    whenTrue.chainAfter_of_plain chain proper.2.1 proper.2.2
  | .branch _ whenTrue (some whenFalse), proper, _ => by
    rw [chainAfter, whenTrue.chainAfter_of_plain chain proper.2.1.1 proper.2.1.2]
    exact whenFalse.chainAfter_of_plain chain proper.2.2.1 proper.2.2.2
  | .loop _ body, proper, _ => body.chainAfter_of_plain chain proper.2.1 proper.2.2
  | .expression _, _, _ | .print _ _, _, _ | .block _, _, _ | .return _ _, _, _ => rfl

/-- Each of several methods was resolved if all of them were. -/
theorem FunctionDecl.placed_of_mem {declarations : List FunctionDecl}
    (proper : FunctionDecl.ProperAll declarations)
    (parents : FunctionDecl.ProperParentsAll declarations)
    (addressed : addressing.Holds (FunctionDecl.occurrencesAll inside chain declarations)) :
    ∀ declaration ∈ declarations, declaration.Placed addressing inside chain := by
  induction declarations with
  | nil => exact nofun
  | cons first rest inductionHypothesis =>
    obtain ⟨head, tail⟩ := Addressing.holds_append.mp addressed
    intro declaration member
    rcases List.mem_cons.mp member with rfl | member
    · exact ⟨proper.1, parents.1, head⟩
    · exact inductionHypothesis proper.2 parents.2 tail declaration member

namespace Stmt.Placed

variable {name : Token} {condition : Expr} {body : Stmt} {methods : List FunctionDecl}

/-- A placed loop has placed parts, and its body declares nothing. -/
theorem loop (placed : (Stmt.loop condition body).Placed addressing inside chain) :
    condition.Placed addressing inside chain ∧ body.Placed addressing inside chain ∧
      body.declares = false := by
  obtain ⟨first, second⟩ := Addressing.holds_append.mp placed.addressed
  exact ⟨⟨placed.proper.1, first⟩, ⟨placed.proper.2.1, placed.parents, second⟩, placed.proper.2.2⟩

/-- Neither side of a branch declares anything, so both are resolved in the same chain. -/
theorem branch {other : Option Stmt}
    (placed : (Stmt.branch condition body other).Placed addressing inside chain) :
    condition.Placed addressing inside chain ∧
      (body.Placed addressing inside chain ∧ body.chainAfter chain = chain) ∧
      ∀ statement, other = some statement →
        statement.Placed addressing inside chain ∧ statement.chainAfter chain = chain := by
  obtain ⟨proper, parents, addressed⟩ := placed
  cases other with
  | none =>
    obtain ⟨first, second⟩ := Addressing.holds_append.mp addressed
    have same := body.chainAfter_of_plain chain proper.2.1 proper.2.2
    exact ⟨⟨proper.1, first⟩, ⟨⟨proper.2.1, parents, second⟩, same⟩, nofun⟩
  | some other =>
    obtain ⟨properCondition, ⟨properBody, plainBody⟩, properOther, plainOther⟩ := proper
    have same := body.chainAfter_of_plain chain properBody plainBody
    obtain ⟨early, third⟩ := Addressing.holds_append.mp addressed
    obtain ⟨first, second⟩ := Addressing.holds_append.mp early
    rw [same] at third
    refine ⟨⟨properCondition, first⟩, ⟨⟨properBody, parents.1, second⟩, same⟩, ?_⟩
    rintro _ ⟨⟩
    exact ⟨⟨properOther, parents.2, third⟩, other.chainAfter_of_plain chain properOther plainOther⟩

/-- A placed class without superclass has an ordinary name and placed methods. -/
theorem base (placed : (Stmt.class name none methods).Placed addressing inside chain) :
    name.Ordinary ∧ ∀ method ∈ methods,
      method.Placed addressing .base ((chain.define name.lexeme).enterClass .base) :=
  ⟨placed.proper.1, FunctionDecl.placed_of_mem placed.proper.2 placed.parents placed.addressed⟩

/-- A superclass is never the class itself, so it is found without the name of the class. -/
theorem derived {superclass : Expr}
    (placed : (Stmt.class name (some superclass) methods).Placed addressing inside chain) :
    name.Ordinary ∧ superclass.Placed addressing inside chain ∧ ∀ method ∈ methods,
      method.Placed addressing .derived ((chain.define name.lexeme).enterClass .derived) := by
  obtain ⟨⟨ordinary, ⟨id, parent, rfl⟩, proper⟩, ⟨other, parents⟩, addressed⟩ := placed
  obtain ⟨first, second⟩ := Addressing.holds_append.mp addressed
  refine ⟨ordinary, ⟨trivial, ?_⟩, FunctionDecl.placed_of_mem proper parents second⟩
  have same : (chain.define name.lexeme).address? parent.lexeme = chain.address? parent.lexeme :=
    Chain.address?_define (other id parent rfl)
  simpa [Expr.occurrences, same] using first

end Stmt.Placed

end Placed

/-- A closure that may be called: its function was resolved in a chain that its environment covers,
and an initializer finds its instance in the innermost frame. -/
def Closure.Valid (addressing : Addressing) (store : Store) (closure : Closure) : Prop :=
  ∃ inside chain, chain.SuperBeside ∧ store.Covers chain closure.environment ∧
    closure.declaration.Placed addressing inside chain ∧
    (closure.isInitializer = true → ∃ names outer, chain = names :: outer ∧ "this" ∈ names)

/-- The methods of a class were resolved in a chain that its environment covers but for the scope of
`this`, whose frame comes with each instance. -/
def ClassBody.Valid (addressing : Addressing) (store : Store) (body : ClassBody) : Prop :=
  ∃ inside chain, Chain.SuperBeside (["this"] :: chain) ∧ store.Covers chain body.environment ∧
    ∀ method ∈ body.methods, method.Placed addressing inside (["this"] :: chain)

/-- A class all of whose bodies are valid. -/
def ClassObject.Valid (addressing : Addressing) (store : Store) (origin : ClassObject) : Prop :=
  ∀ body ∈ origin.lineage, body.Valid addressing store

/-- A value whose functions know their scopes. -/
def Value.Valid (addressing : Addressing) (store : Store) : Value → Prop
  | .function _ closure => closure.Valid addressing store
  | .classObject origin => origin.Valid addressing store
  | .object _ origin => origin.Valid addressing store
  | _ => True

/-- A store that holds valid values only. -/
def Store.Valid (addressing : Addressing) (store : Store) : Prop :=
  store.Keeps (fun _ => Value.Valid addressing store) (Value.Valid addressing store)

/-- A value that is neither callable nor an instance has no functions. -/
theorem Value.IsPlain.valid {addressing : Addressing} {store : Store} {value : Value}
    (plain : value.IsPlain) : value.Valid addressing store := by
  cases value with
  | function | classObject | object => exact plain.elim
  | _ => trivial

section Lasting

variable {addressing later : Addressing} {store after : Store}

/-- A valid class stays valid as frames and names are added. -/
theorem ClassObject.Valid.mono {origin : ClassObject} (valid : origin.Valid addressing store)
    (grows : store.Grows after) : origin.Valid addressing after := by
  intro body member
  obtain ⟨inside, chain, beside, covers, placed⟩ := valid body member
  exact ⟨inside, chain, beside, covers.mono grows, placed⟩

/-- A valid class stays valid as later ids get addresses. -/
theorem ClassObject.Valid.extend {origin : ClassObject} (valid : origin.Valid addressing store)
    (extension : addressing.Extends later) : origin.Valid later store := by
  intro body member
  obtain ⟨inside, chain, beside, covers, placed⟩ := valid body member
  refine ⟨inside, chain, beside, covers, fun method listed => ?_⟩
  exact (placed method listed).extend extension

/-- A valid closure stays valid as frames and names are added. -/
theorem Closure.Valid.mono {closure : Closure} (valid : closure.Valid addressing store)
    (grows : store.Grows after) : closure.Valid addressing after := by
  obtain ⟨inside, chain, beside, covers, placed⟩ := valid
  exact ⟨inside, chain, beside, covers.mono grows, placed⟩

/-- A valid closure stays valid as later ids get addresses. -/
theorem Closure.Valid.extend {closure : Closure} (valid : closure.Valid addressing store)
    (extension : addressing.Extends later) : closure.Valid later store := by
  obtain ⟨inside, chain, beside, covers, placed, initializes⟩ := valid
  exact ⟨inside, chain, beside, covers, placed.extend extension, initializes⟩

/-- A valid value stays valid as frames and names are added. -/
theorem Value.Valid.mono {value : Value} (valid : value.Valid addressing store)
    (grows : store.Grows after) : value.Valid addressing after := by
  cases value with
  | function identity closure => exact Closure.Valid.mono valid grows
  | classObject origin => exact ClassObject.Valid.mono valid grows
  | object identity origin => exact ClassObject.Valid.mono valid grows
  | _ => trivial

/-- A valid value stays valid as later ids get addresses. -/
theorem Value.Valid.extend {value : Value} (valid : value.Valid addressing store)
    (extension : addressing.Extends later) : value.Valid later store := by
  cases value with
  | function identity closure => exact Closure.Valid.extend valid extension
  | classObject origin => exact ClassObject.Valid.extend valid extension
  | object identity origin => exact ClassObject.Valid.extend valid extension
  | _ => trivial

/-- The values of a store are valid for later identities as well. -/
theorem Store.Valid.extend (valid : store.Valid addressing) (extension : addressing.Extends later) :
    store.Valid later :=
  valid.imp (fun _ _ known => known.extend extension) fun _ known => known.extend extension

/-- What is valid in a store is so in a later one. -/
theorem Store.Valid.mono (valid : store.Valid addressing) (grows : store.Grows after) :
    store.Keeps (fun _ => Value.Valid addressing after) (Value.Valid addressing after) :=
  valid.imp (fun _ _ known => known.mono grows) fun _ known => known.mono grows

end Lasting

end LoxLang
