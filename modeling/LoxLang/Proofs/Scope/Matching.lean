import LoxLang.Proofs.Scope.Occurrences
import LoxLang.Proofs.Tree.Matching

/-!
# Resolution of matching trees

Trees that match each other are resolved alike: their occurrences refer to scopes at the same
distances. A marked scope holds its names in another spelling, which no name of another scope has.
-/

namespace LoxLang

section

variable (correspondence : Correspondence)

/-- A chain of scopes and the same chain as the other tree spells it. -/
inductive Chain.Respelled : List Bool → Chain → Chain → Prop where
  | nil (marks : List Bool) : Chain.Respelled marks [] []
  | cons {marks : List Bool} {chain image : Chain} (mark : Bool) {names : List String}
      (visible : ∀ name ∈ names, correspondence.visible name)
      (outer : Chain.Respelled marks chain image) :
      Chain.Respelled (mark :: marks) (names :: chain)
        (names.map (correspondence.spelling mark) :: image)

/-- Occurrences that stand for each other and refer to scopes at the same distance. -/
structure Occurrence.Matches (occurrence image : Occurrence) : Prop where
  ids : correspondence.ids occurrence.id image.id
  address? : image.address? = occurrence.address?

/-- A correspondence knows where occurrences refer to. -/
def Correspondence.Knows (occurrences : List Occurrence) : Prop :=
  ∀ occurrence ∈ occurrences, correspondence.address? occurrence.id = occurrence.address?

end

variable {correspondence : Correspondence} {marks : List Bool} {chain image : Chain}

/-- A correspondence knows two lists of occurrences when it knows each. -/
theorem Correspondence.knows_append {first second : List Occurrence} :
    correspondence.Knows (first ++ second) ↔
      correspondence.Knows first ∧ correspondence.Knows second :=
  List.forall_mem_append

/-- A correspondence knows one occurrence when it gives its id the address. -/
theorem Correspondence.knows_singleton {occurrence : Occurrence} :
    correspondence.Knows [occurrence] ↔
      correspondence.address? occurrence.id = occurrence.address? :=
  List.forall_mem_singleton

namespace Chain.Respelled

/-- A name is defined on both sides, in the spelling of its scope. -/
theorem define (respelled : Chain.Respelled correspondence marks chain image)
    {name spelled : Token} (declares : correspondence.Declares marks name spelled) :
    Chain.Respelled correspondence marks (chain.define name.lexeme)
      (image.define spelled.lexeme) := by
  obtain ⟨visible, rfl⟩ := declares
  cases respelled with
  | nil => exact .nil marks
  | cons mark known outer =>
    exact .cons mark (List.forall_mem_cons.mpr ⟨visible, known⟩) outer

/-- The two scopes of a function are entered on both sides. -/
theorem enterFunction (respelled : Chain.Respelled correspondence marks chain image)
    (outer inner : Bool) {parameters : List Token}
    (visible : ∀ parameter ∈ parameters, correspondence.visible parameter.lexeme) :
    Chain.Respelled correspondence (inner :: outer :: marks) (chain.enterFunction parameters)
      (image.enterFunction (parameters.map (correspondence.respelled outer))) := by
  have entered : ∀ {chain image : Chain},
      Chain.Respelled correspondence (outer :: marks) chain image →
      Chain.Respelled correspondence (outer :: marks)
        (parameters.foldl (fun inner name => inner.define name.lexeme) chain)
        ((parameters.map (correspondence.respelled outer)).foldl
          (fun inner name => inner.define name.lexeme) image) := by
    induction parameters with
    | nil => exact id
    | cons first rest inductionHypothesis =>
      intro chain image respelled
      obtain ⟨head, tail⟩ := List.forall_mem_cons.mp visible
      exact inductionHypothesis tail (respelled.define ⟨head, rfl⟩)
  exact .cons inner (List.forall_mem_nil _)
    (entered (.cons outer (List.forall_mem_nil _) respelled))

/-- The scope of a class is entered on both sides, unmarked. -/
theorem enterClass (respelled : Chain.Respelled correspondence marks chain image) :
    Chain.Respelled correspondence (false :: marks) (chain.enterClass .base)
      (image.enterClass .base) :=
  .cons false (List.forall_mem_singleton.mpr correspondence.visible_this) respelled

/-- The two scopes of a derived class are entered on both sides, unmarked. -/
theorem enterDerived (respelled : Chain.Respelled correspondence marks chain image) :
    Chain.Respelled correspondence (false :: false :: marks) (chain.enterClass .derived)
      (image.enterClass .derived) :=
  .cons false (List.forall_mem_singleton.mpr correspondence.visible_this)
    (.cons false (List.forall_mem_singleton.mpr correspondence.visible_super) respelled)

/-- A name in the spelling of the scope it refers to is found in that scope. -/
theorem address? (respelled : Chain.Respelled correspondence marks chain image) {name : String}
    (visible : correspondence.visible name) :
    image.address? (correspondence.spelling
      (((chain.address? name).bind fun distance => marks[distance]?).getD false) name) =
        chain.address? name := by
  unfold Chain.address?
  induction respelled with
  | nil => rfl
  | @cons marks chain image mark names known outer inductionHypothesis =>
    rw [List.findIdx?_cons, List.findIdx?_cons]
    by_cases here : name ∈ names
    · simp only [here, decide_true, if_true, Option.bind_some, List.getElem?_cons_zero,
        Option.getD_some]
      simp [List.mem_map_of_mem here]
    · -- A name of this scope is spelled like no other visible name, whatever the marks are.
      have absent (further : Bool) : correspondence.spelling further name ∉
          names.map (correspondence.spelling mark) := by
        intro member
        obtain ⟨other, listed, same⟩ := List.mem_map.mp member
        exact here (Correspondence.eq_of_spelling (known other listed) visible same ▸ listed)
      have further : (((chain.findIdx? fun names => decide (name ∈ names)).map (· + 1)).bind
          fun distance => (mark :: marks)[distance]?) =
            (chain.findIdx? fun names => decide (name ∈ names)).bind
              fun distance => marks[distance]? := by
        cases chain.findIdx? fun names => decide (name ∈ names) <;> rfl
      simp only [here, decide_false, absent, Bool.false_eq_true, if_false]
      rw [further, inductionHypothesis]

end Chain.Respelled

/-- Matching occurrences of a name refer to scopes at the same distance. -/
theorem Chain.Respelled.occurrence (respelled : Chain.Respelled correspondence marks chain image)
    {id otherId : Nat} {name spelled : Token}
    (occurs : correspondence.Occurs marks id name otherId spelled)
    (known : correspondence.address? id = chain.address? name.lexeme) :
    Occurrence.Matches correspondence ⟨id, chain.address? name.lexeme⟩
      ⟨otherId, image.address? spelled.lexeme⟩ := by
  obtain ⟨ids, visible, rfl⟩ := occurs
  refine ⟨ids, ?_⟩
  have found := respelled.address? visible
  rw [← known] at found ⊢
  exact found

/-- Matching statements declare the same names, in the spelling of the innermost scope. -/
theorem Stmt.chainAfter_respelled : ∀ (statement other : Stmt) {chain image : Chain},
    statement.Matches correspondence marks other →
    Chain.Respelled correspondence marks chain image →
    Chain.Respelled correspondence marks (statement.chainAfter chain) (other.chainAfter image)
  | .declare _ _, _, _, _, ⟨_, _, rfl, declares, _⟩, respelled => respelled.define declares
  | .function _, _, _, _, ⟨_, rfl, declares, matching⟩, respelled =>
    respelled.define (matching.name ▸ declares)
  | .class _ none _, _, _, _, ⟨_, rfl, declares, _⟩, respelled => respelled.define declares
  | .class _ (some _) _, _, _, _, ⟨_, _, rfl, declares, _⟩, respelled =>
    respelled.define declares
  | .branch _ whenTrue none, _, _, _, ⟨_, other, rfl, _, matching⟩, respelled =>
    whenTrue.chainAfter_respelled other matching respelled
  | .branch _ whenTrue (some whenFalse), _, _, _, ⟨_, first, second, rfl, _, head, tail⟩,
      respelled =>
    whenFalse.chainAfter_respelled second tail (whenTrue.chainAfter_respelled first head respelled)
  | .loop _ body, _, _, _, ⟨_, other, rfl, _, matching⟩, respelled =>
    body.chainAfter_respelled other matching respelled
  | .expression _, _, _, _, ⟨_, rfl, _⟩, respelled
  | .print _ _, _, _, _, ⟨_, rfl, _⟩, respelled
  | .block _, _, _, _, ⟨_, _, rfl, _⟩, respelled
  | .return _ _, _, _, _, ⟨_, rfl, _⟩, respelled => respelled

mutual

/-- Matching expressions have matching occurrences. -/
theorem Expr.occurrences_match (inside : ClassContext)
    (respelled : Chain.Respelled correspondence marks chain image) :
    ∀ (expression other : Expr), expression.Matches correspondence marks other →
      correspondence.Knows (expression.occurrences inside chain) →
      List.Forall₂ (Occurrence.Matches correspondence) (expression.occurrences inside chain)
        (other.occurrences inside image)
  | .literal _, _, rfl, _ => .nil
  | .grouping inner, _, ⟨other, rfl, matching⟩, knows =>
    inner.occurrences_match inside respelled other matching knows
  | .unary _ operand, _, ⟨other, rfl, matching⟩, knows =>
    operand.occurrences_match inside respelled other matching knows
  | .binary left _ right, _, ⟨first, second, rfl, head, tail⟩, knows
  | .logical left _ right, _, ⟨first, second, rfl, head, tail⟩, knows =>
    have ⟨before, behind⟩ := Correspondence.knows_append.mp knows
    List.rel_append (left.occurrences_match inside respelled first head before)
      (right.occurrences_match inside respelled second tail behind)
  | .reference _ _, _, ⟨_, _, rfl, occurs⟩, knows =>
    .cons (respelled.occurrence occurs (Correspondence.knows_singleton.mp knows)) .nil
  | .assign _ _ value, _, ⟨_, _, given, rfl, occurs, matching⟩, knows =>
    have ⟨before, behind⟩ := Correspondence.knows_append.mp knows
    List.rel_append (value.occurrences_match inside respelled given matching before)
      (.cons (respelled.occurrence occurs (Correspondence.knows_singleton.mp behind)) .nil)
  | .call callee _ arguments, _, ⟨first, others, rfl, head, tail⟩, knows =>
    have ⟨before, behind⟩ := Correspondence.knows_append.mp knows
    List.rel_append (callee.occurrences_match inside respelled first head before)
      (Expr.occurrencesAll_match inside respelled arguments others tail behind)
  | .get object _, _, ⟨other, rfl, matching⟩, knows =>
    object.occurrences_match inside respelled other matching knows
  | .set object _ value, _, ⟨first, second, rfl, head, tail⟩, knows =>
    have ⟨before, behind⟩ := Correspondence.knows_append.mp knows
    List.rel_append (value.occurrences_match inside respelled second tail before)
      (object.occurrences_match inside respelled first head behind)
  | .this _ _, _, ⟨_, _, rfl, occurs⟩, knows => by
    cases inside with
    | outside => exact .cons ⟨occurs.ids, rfl⟩ .nil
    | base | derived =>
      exact .cons (respelled.occurrence occurs (Correspondence.knows_singleton.mp knows)) .nil
  | .super _ _ _, _, ⟨_, _, rfl, occurs⟩, knows => by
    cases inside with
    | outside | base => exact .cons ⟨occurs.ids, rfl⟩ .nil
    | derived =>
      exact .cons (respelled.occurrence occurs (Correspondence.knows_singleton.mp knows)) .nil

/-- Matching expressions have matching occurrences. -/
theorem Expr.occurrencesAll_match (inside : ClassContext)
    (respelled : Chain.Respelled correspondence marks chain image) :
    ∀ (expressions others : List Expr),
      Expr.MatchesAll correspondence marks expressions others →
      correspondence.Knows (Expr.occurrencesAll inside chain expressions) →
      List.Forall₂ (Occurrence.Matches correspondence)
        (Expr.occurrencesAll inside chain expressions) (Expr.occurrencesAll inside image others)
  | [], _, rfl, _ => .nil
  | first :: rest, _, ⟨other, others, rfl, head, tail⟩, knows =>
    have ⟨before, behind⟩ := Correspondence.knows_append.mp knows
    List.rel_append (first.occurrences_match inside respelled other head before)
      (Expr.occurrencesAll_match inside respelled rest others tail behind)

end

/-- Matching optional expressions have matching occurrences. -/
theorem Expr.occurrencesOptional_match (inside : ClassContext)
    (respelled : Chain.Respelled correspondence marks chain image) (value other : Option Expr)
    (matching : Expr.MatchesOptional correspondence marks value other)
    (knows : correspondence.Knows (Expr.occurrencesOptional inside chain value)) :
    List.Forall₂ (Occurrence.Matches correspondence)
      (Expr.occurrencesOptional inside chain value)
      (Expr.occurrencesOptional inside image other) := by
  cases value with
  | none =>
    obtain rfl : other = none := matching
    exact .nil
  | some value =>
    obtain ⟨other, rfl, matching⟩ := matching
    exact value.occurrences_match inside respelled other matching knows

mutual

/-- Matching statements have matching occurrences. -/
theorem Stmt.occurrences_match (inside : ClassContext) {marks : List Bool} {chain image : Chain}
    (respelled : Chain.Respelled correspondence marks chain image) :
    ∀ (statement other : Stmt), statement.Matches correspondence marks other →
      correspondence.Knows (statement.occurrences inside chain) →
      List.Forall₂ (Occurrence.Matches correspondence) (statement.occurrences inside chain)
        (other.occurrences inside image)
  | .expression value, _, ⟨other, rfl, matching⟩, knows
  | .print _ value, _, ⟨other, rfl, matching⟩, knows =>
    value.occurrences_match inside respelled other matching knows
  | .declare _ initializer, _, ⟨_, other, rfl, _, matching⟩, knows =>
    Expr.occurrencesOptional_match inside respelled initializer other matching knows
  | .block body, _, ⟨mark, others, rfl, matching⟩, knows =>
    Stmt.occurrencesAll_match inside (.cons mark (List.forall_mem_nil _) respelled) body others
      matching knows
  | .branch condition whenTrue none, _, ⟨test, other, rfl, head, tail⟩, knows =>
    have ⟨before, behind⟩ := Correspondence.knows_append.mp knows
    List.rel_append (condition.occurrences_match inside respelled test head before)
      (whenTrue.occurrences_match inside respelled other tail behind)
  | .branch condition whenTrue (some whenFalse), _,
      ⟨test, first, second, rfl, head, middle, tail⟩, knows =>
    have ⟨early, late⟩ := Correspondence.knows_append.mp knows
    have ⟨before, behind⟩ := Correspondence.knows_append.mp early
    List.rel_append
      (List.rel_append (condition.occurrences_match inside respelled test head before)
        (whenTrue.occurrences_match inside respelled first middle behind))
      (whenFalse.occurrences_match inside (whenTrue.chainAfter_respelled first middle respelled)
        second tail late)
  | .loop condition body, _, ⟨test, other, rfl, head, tail⟩, knows =>
    have ⟨before, behind⟩ := Correspondence.knows_append.mp knows
    List.rel_append (condition.occurrences_match inside respelled test head before)
      (body.occurrences_match inside respelled other tail behind)
  | .function declaration, _, ⟨other, rfl, declares, matching⟩, knows =>
    declaration.occurrences_match inside (respelled.define (matching.name ▸ declares)) other
      matching knows
  | .return _ value, _, ⟨other, rfl, matching⟩, knows =>
    Expr.occurrencesOptional_match inside respelled value other matching knows
  | .class _ none methods, _, ⟨others, rfl, declares, matching⟩, knows =>
    FunctionDecl.occurrencesAll_match .base (respelled.define declares).enterClass methods others
      matching knows
  | .class _ (some superclass) methods, _, ⟨parent, others, rfl, declares, head, tail⟩, knows =>
    have ⟨before, behind⟩ := Correspondence.knows_append.mp knows
    have defined := respelled.define declares
    List.rel_append (superclass.occurrences_match .derived defined parent head before)
      (FunctionDecl.occurrencesAll_match .derived defined.enterDerived methods others tail behind)

/-- Matching statements have matching occurrences. -/
theorem Stmt.occurrencesAll_match (inside : ClassContext) {marks : List Bool} {chain image : Chain}
    (respelled : Chain.Respelled correspondence marks chain image) :
    ∀ (statements others : List Stmt), Stmt.MatchesAll correspondence marks statements others →
      correspondence.Knows (Stmt.occurrencesAll inside chain statements) →
      List.Forall₂ (Occurrence.Matches correspondence)
        (Stmt.occurrencesAll inside chain statements) (Stmt.occurrencesAll inside image others)
  | [], _, rfl, _ => .nil
  | first :: rest, _, ⟨other, others, rfl, head, tail⟩, knows =>
    have ⟨before, behind⟩ := Correspondence.knows_append.mp knows
    List.rel_append (first.occurrences_match inside respelled other head before)
      (Stmt.occurrencesAll_match inside (first.chainAfter_respelled other head respelled) rest
        others tail behind)

/-- Matching functions have matching occurrences. -/
theorem FunctionDecl.occurrences_match (inside : ClassContext) {marks : List Bool}
    {chain image : Chain} (respelled : Chain.Respelled correspondence marks chain image) :
    ∀ (declaration other : FunctionDecl), declaration.Matches correspondence marks other →
      correspondence.Knows (declaration.occurrences inside chain) →
      List.Forall₂ (Occurrence.Matches correspondence) (declaration.occurrences inside chain)
        (other.occurrences inside image)
  | .mk _ _ body, _, ⟨outer, inner, others, rfl, visible, matching⟩, knows =>
    Stmt.occurrencesAll_match inside (respelled.enterFunction outer inner visible) body others
      matching knows

/-- Matching methods have matching occurrences. -/
theorem FunctionDecl.occurrencesAll_match (inside : ClassContext) {marks : List Bool}
    {chain image : Chain} (respelled : Chain.Respelled correspondence marks chain image) :
    ∀ (declarations others : List FunctionDecl),
      FunctionDecl.MatchesAll correspondence marks declarations others →
      correspondence.Knows (FunctionDecl.occurrencesAll inside chain declarations) →
      List.Forall₂ (Occurrence.Matches correspondence)
        (FunctionDecl.occurrencesAll inside chain declarations)
        (FunctionDecl.occurrencesAll inside image others)
  | [], _, rfl, _ => .nil
  | first :: rest, _, ⟨other, others, rfl, head, tail⟩, knows =>
    have ⟨before, behind⟩ := Correspondence.knows_append.mp knows
    List.rel_append (first.occurrences_match inside respelled other head before)
      (FunctionDecl.occurrencesAll_match inside respelled rest others tail behind)

end

/-- Matching occurrences leave the same entries under identities that stand for each other. -/
theorem Occurrence.recordAll_match {occurrences others : List Occurrence}
    (matching : List.Forall₂ (Occurrence.Matches correspondence) occurrences others)
    {distances table : Distances}
    (same : ∀ id other, correspondence.ids id other → table[other]? = distances[id]?) :
    ∀ id other, correspondence.ids id other →
      (recordAll others table)[other]? = (recordAll occurrences distances)[id]? := by
  induction matching generalizing distances table with
  | nil => exact same
  | @cons occurrence image _ _ head _ inductionHypothesis =>
    refine inductionHypothesis fun id other related => ?_
    rw [getElem?_record, getElem?_record, head.address?, same id other related]
    simp only [correspondence.oneToOne head.ids related]

/-- Matching programs get the same distances. -/
theorem resolve_distances_match {program other : List Stmt}
    (matching : Stmt.MatchesAll correspondence marks program other)
    (knows : correspondence.Knows (Stmt.occurrencesAll .outside [] program)) {id otherId : Nat}
    (related : correspondence.ids id otherId) :
    (resolve other).distances[otherId]? = (resolve program).distances[id]? := by
  have occurrences := Stmt.occurrencesAll_match .outside (.nil marks) program other matching knows
  rw [resolve_distances, resolve_distances]
  exact Occurrence.recordAll_match occurrences (by simp) id otherId related

end LoxLang
