import LoxLang.Proofs.Machine.Agreement
import LoxLang.Proofs.Machine.Matching
import LoxLang.Proofs.Machine.Pacing

/-!
# Matching programs run alike

Evaluation finds a local by its distance and its spelling in one frame, so it does the same with a
tree in which identities and the spelling of locals differ: it ends in the same way, at the same
fault or for want of fuel, and leaves matching machines. The two runs make a lawful pairing,
`hygiene`. The tasks on the one side are sound, so no local is undefined, and a fault never shows
how a local is spelled.
-/

namespace LoxLang

section

variable (correspondence : Correspondence)

/-- Endings that match each other, from frames with these marks on. -/
inductive Ending.Matches (frames marks : List Bool) : Ending Unit → Ending Unit → Prop where
  | value {later : List Bool} {machine other : Machine} (grows : frames <+: later)
      (matching : Machine.Matches correspondence later marks machine other) :
      Ending.Matches frames marks (.value () machine) (.value () other)
  | fault {later : List Bool} {error image : RuntimeError} {machine other : Machine}
      (grows : frames <+: later)
      (matching : Machine.Matches correspondence later marks machine other)
      (like : RuntimeError.Matches correspondence error image) :
      Ending.Matches frames marks (.fault error machine) (.fault image other)
  | outOfFuel : Ending.Matches frames marks .outOfFuel .outOfFuel

/-- Two machines that match each other, with the marks of their frames and of their environment. -/
structure MatchingMachines where
  frames : List Bool
  marks : List Bool
  machine : Machine
  other : Machine
  matching : Machine.Matches correspondence frames marks machine other

end

variable {correspondence : Correspondence} {frames marks : List Bool}

namespace Machine.Matches

variable {machine other : Machine}
  (matching : Machine.Matches correspondence frames marks machine other)
include matching

/-- Machines go on matching with matching stores. -/
theorem withStore {store image : Store} {later : List Bool} (grows : frames <+: later)
    (like : Store.Matches correspondence later store image) :
    Machine.Matches correspondence later marks { machine with store }
      { other with store := image } :=
  { matching with
    store := like
    globals := mark_mono matching.globals grows
    marked := matching.marked.mono grows }

/-- The mark at an occurrence of a local is that of the frame it refers to. -/
theorem mark_of_address {id distance frame : Nat}
    (address : correspondence.address? id = some distance)
    (there : machine.environment[distance]? = some frame) :
    frames[frame]? = some (correspondence.markAt marks id) := by
  obtain ⟨mark, known, marked⟩ := matching.marked.mark there
  simpa [Correspondence.markAt, address, known] using marked

/-- The same globals are bound to matching values. -/
theorem global {name : String} (visible : correspondence.visible name) :
    Option.Rel (Value.Matches correspondence frames) (machine.store.get? globalEnvironment name)
      (other.store.get? globalEnvironment name) := by
  have alone (store : Store) :
      store.get? globalEnvironment name = store.binding? globalFrame name := by
    unfold Store.get? globalEnvironment
    rw [List.findSome?_cons]
    cases store.binding? globalFrame name <;> rfl
  rw [alone, alone]
  exact matching.store.binding? globalFrame false matching.globals name visible

/-- The same globals are bound. -/
theorem owner?_global {name : String} (visible : correspondence.visible name) :
    other.store.owner? globalEnvironment name = machine.store.owner? globalEnvironment name := by
  have related := matching.store.binding? globalFrame false matching.globals name visible
  rw [Correspondence.spelling_false] at related
  unfold Store.owner? globalEnvironment
  rw [List.find?_cons, List.find?_cons]
  rcases absent_or_related related with ⟨missing, also⟩ | ⟨found, image, here, there, _⟩
  · rw [missing, also]
    rfl
  · rw [here, there]
    rfl

/-- A declared name is bound under its spelling in the innermost scope. -/
theorem define {value image : Value} (like : Value.Matches correspondence frames value image)
    {name spelled : Token} (declares : correspondence.Declares marks name spelled) :
    Machine.Matches correspondence frames marks (machine.define name.lexeme value)
      (other.define spelled.lexeme image) := by
  obtain ⟨_, rfl⟩ := declares
  unfold Machine.define
  have same := matching.environment
  have marked := matching.marked
  cases here : machine.environment with
  | nil =>
    rw [same, here]
    exact matching
  | cons frame outer =>
    rw [here] at marked same
    rw [same]
    cases marked with
    | cons head _ =>
      have stored := matching.withStore List.prefix_rfl
        (matching.store.define head name.lexeme like)
      rw [here, same] at stored
      exact stored

/-- A new frame has the mark that is chosen for it. -/
theorem mark_new (mark : Bool) : (frames ++ [mark])[machine.store.frames.size]? = some mark := by
  simp [matching.store.size]

/-- A block is opened with any mark. -/
theorem openBlock (mark : Bool) :
    Machine.Matches correspondence (frames ++ [mark]) (mark :: marks) machine.openBlock
      other.openBlock := by
  have grows := List.prefix_append frames [mark]
  have opened := matching.withStore grows (matching.store.addFrame mark .empty)
  have size : other.store.frames.size = machine.store.frames.size :=
    matching.store.sizeImage.trans matching.store.size.symm
  exact { opened with
    marked := .cons (matching.mark_new mark) (matching.marked.mono grows)
    environment := congrArg₂ List.cons size matching.environment }

/-- A matching function is entered with the marks of its parameters and of its body. -/
theorem enter {closure image : Closure}
    (like : Closure.Matches correspondence frames [] closure image) {arguments others : List Value}
    (same : List.Forall₂ (Value.Matches correspondence frames) arguments others) :
    ∃ later around, frames <+: later ∧
      Machine.Matches correspondence later around (machine.enter closure arguments)
        (other.enter image others) ∧
      Stmt.MatchesAll correspondence around closure.declaration.body image.declaration.body := by
  obtain ⟨around, known, declaration⟩ := like.declaration
  obtain ⟨outer, inner, parameters, bodies⟩ := declaration.parameters
  have bound : Bindings.Matches correspondence frames outer
      (Eval.parameterBindings closure.declaration.parameters arguments)
      (Eval.parameterBindings image.declaration.parameters others) := by
    rw [parameters]
    exact .parameterBindings _ same
  have first := List.prefix_append frames [outer]
  have second := List.prefix_append (frames ++ [outer]) [inner]
  have opened := matching.withStore first (matching.store.addFrame outer bound)
  have entered := opened.withStore second (opened.store.addFrame inner .empty)
  have size : other.store.frames.size = machine.store.frames.size :=
    matching.store.sizeImage.trans matching.store.size.symm
  have sizeInner : (other.store.addFrame
      (Eval.parameterBindings image.declaration.parameters others)).frames.size =
      (machine.store.addFrame
        (Eval.parameterBindings closure.declaration.parameters arguments)).frames.size :=
    opened.store.sizeImage.trans opened.store.size.symm
  refine ⟨_, inner :: outer :: around, first.trans second, { entered with
    marked := .cons (opened.mark_new inner) (.cons (mark_mono (matching.mark_new outer) second)
      (known.mono (first.trans second)))
    environment := congrArg₂ List.cons sizeInner (congrArg₂ List.cons size like.environment)
    callDepth := congrArg (· + 1) matching.callDepth }, bodies⟩

end Machine.Matches

/-- A bad superclass is reported at matching tokens. -/
theorem Eval.superclassToken_matches (name : Token) {superclass image : Expr}
    (like : superclass.Matches correspondence marks image) :
    Token.Matches correspondence (superclassToken name superclass)
      (superclassToken name image) := by
  cases superclass with
  | reference id parent =>
    obtain ⟨otherId, token, rfl, occurs⟩ := like
    exact .inr ⟨occurs.visible, _, occurs.spelled⟩
  | literal => obtain rfl := like; exact .inl rfl
  | grouping | unary | get => obtain ⟨_, rfl, _⟩ := like; exact .inl rfl
  | binary | logical | call | set | this | super =>
    obtain ⟨_, _, rfl, _⟩ := like; exact .inl rfl
  | assign => obtain ⟨_, _, _, rfl, _⟩ := like; exact .inl rfl

namespace Eval

/-- A sound run beside the run of a matching program on a matching machine. -/
def hygiene (correspondence : Correspondence) (addressing : Addressing) : Pairing where
  World := MatchingMachines correspondence
  machine := MatchingMachines.machine
  other := MatchingMachines.other
  Later := fun before after => before.frames <+: after.frames
  extra := 0
  known := fun task machine => task.Sound addressing machine
  native := fun builtin => builtin = .dump → correspondence.Transparent
  closure := fun world => Closure.Matches correspondence world.frames []
  method := fun world => Closure.Matches correspondence world.frames [false]
  origin := fun world => ClassObject.Matches correspondence world.frames
  token := Token.Matches correspondence
  Context := List Bool
  stands := fun marks world => world.machine.environment.Marked world.frames marks
  declares := correspondence.Declares
  occurs := correspondence.Occurs
  expr := Expr.Matches correspondence
  stmt := Stmt.Matches correspondence

namespace hygiene

variable {addressing : Addressing} {world : MatchingMachines correspondence}

/-- The values that stand for each other are those that match. -/
theorem twin_iff {value image : Value} :
    (hygiene correspondence addressing).Twin world value image ↔
      Value.Matches correspondence world.frames value image := by
  constructor
  · intro twin
    cases twin with
    | nil => exact .nil
    | bool value => exact .bool value
    | number value => exact .number value
    | string contents => exact .string contents
    | native builtin blind => exact .native builtin blind
    | function identity like => exact .function identity like
    | classObject like => exact .classObject like
    | object identity like => exact .object identity like
  · intro like
    cases like with
    | nil => exact .nil
    | bool value => exact .bool value
    | number value => exact .number value
    | string contents => exact .string contents
    | native builtin blind => exact .native builtin blind
    | function identity like => exact .function identity like
    | classObject like => exact .classObject like
    | object identity like => exact .object identity like

/-- Values in matching tables stand for each other. -/
theorem rel_twin {value image : Option Value}
    (like : Option.Rel (Value.Matches correspondence world.frames) value image) :
    Option.Rel ((hygiene correspondence addressing).Twin world) value image := by
  cases like with
  | none => exact .none
  | some like => exact .some (twin_iff.mpr like)

/-- A token stands for itself. -/
theorem mark (token : Token) : (hygiene correspondence addressing).Mark token token :=
  ⟨.inl rfl, rfl, rfl⟩

/-- Matching expressions have matching parts. -/
theorem exprParts {expression image : Expr}
    (like : expression.Matches correspondence marks image) :
    (hygiene correspondence addressing).ExprParts marks expression image := by
  cases expression with
  | literal | grouping => exact like
  | unary =>
    obtain ⟨_, rfl, like⟩ := like
    exact ⟨_, _, rfl, mark _, like⟩
  | binary | logical =>
    obtain ⟨_, _, rfl, left, right⟩ := like
    exact ⟨_, _, _, rfl, left, mark _, right⟩
  | reference | this | assign => exact like
  | call =>
    obtain ⟨_, _, rfl, callee, arguments⟩ := like
    exact ⟨_, _, _, rfl, callee, mark _, arguments.forall₂⟩
  | get =>
    obtain ⟨_, rfl, like⟩ := like
    exact ⟨_, _, rfl, like, mark _⟩
  | set =>
    obtain ⟨_, _, rfl, object, value⟩ := like
    exact ⟨_, _, _, rfl, object, mark _, value⟩
  | super =>
    obtain ⟨_, _, rfl, occurs⟩ := like
    exact ⟨_, _, _, rfl, occurs, mark _⟩

/-- Matching statements have matching parts. -/
theorem stmtParts {statement image : Stmt}
    (like : statement.Matches correspondence marks image) :
    (hygiene correspondence addressing).StmtParts marks statement image := by
  cases statement with
  | expression => exact like
  | print =>
    obtain ⟨_, rfl, like⟩ := like
    exact ⟨_, _, rfl, .inl rfl, like⟩
  | declare =>
    obtain ⟨_, _, rfl, declares, like⟩ := like
    exact ⟨_, _, rfl, declares, like.rel⟩
  | branch condition whenTrue whenFalse =>
    cases whenFalse with
    | none =>
      obtain ⟨_, _, rfl, test, like⟩ := like
      exact ⟨_, _, _, rfl, test, like, .none⟩
    | some =>
      obtain ⟨_, _, _, rfl, test, like, other⟩ := like
      exact ⟨_, _, _, rfl, test, like, .some other⟩
  | loop => exact like
  | «return» =>
    obtain ⟨_, rfl, like⟩ := like
    exact ⟨_, _, rfl, like.rel⟩
  | «class» name superclass methods =>
    cases superclass with
    | none => trivial
    | some superclass =>
      obtain ⟨_, _, rfl, _, parent, _⟩ := like
      exact ⟨_, _, _, rfl, parent, superclassToken_matches name parent⟩
  | block | function => trivial

/-- A name that is bound in a frame is read there, however it is spelled. -/
theorem finds_bound {environment : Environment} {distance frame : Nat} {mark : Bool}
    {name image : Token} (there : environment[distance]? = some frame)
    (marked : world.frames[frame]? = some mark)
    (bound : (world.machine.store.binding? frame name.lexeme).isSome)
    (visible : correspondence.visible name.lexeme)
    (spelled : image.lexeme = correspondence.spelling mark name.lexeme) :
    (hygiene correspondence addressing).Finds world
      (lookupAt environment distance name world.machine)
      (lookupAt environment distance image world.other) := by
  have related := world.matching.store.binding? frame mark marked name.lexeme visible
  obtain ⟨value, here, found⟩ := lookupAt_of_bound there bound
  rw [found, ← spelled] at related
  rcases absent_or_related related with ⟨missing, _⟩ | ⟨_, other, same, also, like⟩
  · cases missing
  · obtain rfl := Option.some.inj same
    have foundToo : lookupAt environment distance image world.other = .value other world.other := by
      simp [lookupAt, Store.getAt?, there, also, orUndefined]
    rw [here, foundToo]
    exact .found (twin_iff.mpr like)

/-- A value that is `this` is read in the frame that binds it. -/
theorem finds_this {environment : Environment} {distance frame line : Nat}
    (marked : environment.Marked world.frames marks) (there : environment[distance]? = some frame)
    (bound : (world.machine.store.binding? frame "this").isSome) :
    (hygiene correspondence addressing).Finds world
      (lookupAt environment distance (.implicit "this" line) world.machine)
      (lookupAt environment distance (.implicit "this" line) world.other) := by
  obtain ⟨mark, _, known⟩ := marked.mark there
  exact finds_bound there known bound correspondence.visible_this
    (Correspondence.spelling_this mark).symm

/-- A name at occurrences that stand for each other is found, or it is the same undefined global. -/
theorem finds_lookup {id otherId : Nat} {name image : Token}
    (stands : world.machine.environment.Marked world.frames marks)
    (occurs : correspondence.Occurs marks id name otherId image)
    (sound : (Task.lookup id name).Sound addressing world.machine) :
    (hygiene correspondence addressing).Finds world (lookup id name world.machine)
      (lookup otherId image world.other) := by
  obtain ⟨ids, visible, rfl⟩ := occurs
  have matching : Machine.Matches correspondence world.frames marks world.machine world.other :=
    { world.matching with marked := stands }
  obtain ⟨here, there⟩ := matching.distances id otherId ids
  rw [lookup_apply, lookup_apply, there, matching.environment]
  cases address : correspondence.address? id with
  | none =>
    have unmarked : correspondence.markAt marks id = false := by
      simp [Correspondence.markAt, address]
    rw [here.trans address, unmarked]
    unfold lookupGlobal
    have related := matching.global visible
    rw [Correspondence.respelled_false]
    simp only [Option.elim_none]
    rcases absent_or_related related with ⟨missing, also⟩ | ⟨value, other, found, foundToo, like⟩
    · rw [missing, also]
      exact .missing (.inl rfl) rfl
    · rw [found, foundToo]
      exact .found (twin_iff.mpr like)
  | some distance =>
    have entry := here.trans address
    obtain ⟨frame, outside, bound⟩ := sound.binds_lookup entry
    rw [entry]
    exact finds_bound outside (matching.mark_of_address address outside) bound visible
      (Correspondence.respelled_lexeme _ name)

/-- What changes both machines of a world alike leads to a later world. -/
theorem moves {machine other : Machine} {later around : List Bool}
    {kind : MatchingMachines correspondence → Prop} (grows : world.frames <+: later)
    (matching : Machine.Matches correspondence later around machine other)
    (known : kind ⟨later, around, machine, other, matching⟩) :
    (hygiene correspondence addressing).Moves world machine other kind :=
  ⟨⟨later, around, machine, other, matching⟩, rfl, rfl, grows, known⟩

/-- Matching stores of a world lead to a later world. -/
theorem moves_store {store image : Store} {later : List Bool}
    {kind : MatchingMachines correspondence → Prop} (grows : world.frames <+: later)
    (like : Store.Matches correspondence later store image)
    (known : ∀ matching, kind ⟨later, world.marks, { world.machine with store },
      { world.other with store := image }, matching⟩) :
    (hygiene correspondence addressing).Moves world { world.machine with store }
      { world.other with store := image } kind :=
  moves grows (world.matching.withStore grows like) (known _)

/-- A name at occurrences that stand for each other gets matching values. -/
theorem meets_assign {id otherId : Nat} {name spelled : Token} {value image : Value}
    (stands : world.machine.environment.Marked world.frames marks)
    (occurs : correspondence.Occurs marks id name otherId spelled)
    (like : Value.Matches correspondence world.frames value image)
    (sound : (Task.assign id name value).Sound addressing world.machine) :
    (hygiene correspondence addressing).Meets world (fun _ _ _ => True)
      (assign id name value world.machine) (assign otherId spelled image world.other) := by
  obtain ⟨ids, visible, rfl⟩ := occurs
  have matching : Machine.Matches correspondence world.frames marks world.machine world.other :=
    { world.matching with marked := stands }
  have stored {frame : Nat} {mark : Bool} (marked : world.frames[frame]? = some mark) :
      (hygiene correspondence addressing).Meets world (fun _ _ _ => True)
        (bindIn name value (some frame) world.machine)
        (bindIn (correspondence.respelled mark name) image (some frame) world.other) := by
    have moved : (hygiene correspondence addressing).Moves world _ _ fun _ => True :=
      moves_store List.prefix_rfl (world.matching.store.define marked name.lexeme like)
        fun _ => trivial
    exact moved.meets rfl rfl
  obtain ⟨here, there⟩ := matching.distances id otherId ids
  rw [assign_apply, assign_apply, there, matching.environment]
  cases address : correspondence.address? id with
  | none =>
    have unmarked : correspondence.markAt marks id = false := by
      simp [Correspondence.markAt, address]
    rw [here.trans address, unmarked, Correspondence.respelled_false]
    simp only [Option.elim_none, matching.owner?_global visible]
    cases owned : world.machine.store.owner? globalEnvironment name.lexeme with
    | none =>
      have ready : (hygiene correspondence addressing).Next world world :=
        ⟨List.prefix_rfl, rfl, rfl⟩
      exact .fault ready (.inl rfl) rfl
    | some frame =>
      obtain rfl : frame = globalFrame := by
        simpa [globalEnvironment] using List.mem_of_find?_eq_some owned
      exact stored matching.globals
  | some distance =>
    have entry := here.trans address
    obtain ⟨frame, outside, _⟩ := sound.binds_assign entry
    rw [entry]
    simp only [Option.elim_some, outside]
    exact stored (matching.mark_of_address address outside)

end hygiene

open hygiene in
instance (correspondence : Correspondence) (addressing : Addressing) :
    (hygiene correspondence addressing).Lawful where
  refl := fun _ => List.prefix_rfl
  trans := fun first second => first.trans second
  beside := fun world =>
    { nextIdentity := world.matching.nextIdentity
      environment := world.matching.environment
      sink := world.matching.sink
      callDepth := world.matching.callDepth
      clock := world.matching.clock
      readings := world.matching.readings
      callLimit := Nat.le_of_eq world.matching.callLimit.symm
      frames := world.matching.store.sizeImage.trans world.matching.store.size.symm
      objects := world.matching.store.objects }
  back := fun {outer inner} grows =>
    moves List.prefix_rfl { inner.matching with
      marked := outer.matching.marked.mono grows
      environment := outer.matching.environment
      callDepth := outer.matching.callDepth } grows
  stands := by
    intro marks world after marked next
    have same : after.machine.environment = world.machine.environment := next.environment
    have grown := Environment.Marked.mono marked next.later
    rw [← same] at grown
    exact grown
  lead := fun sound leads => sound.step leads
  closureLater := fun like grows => like.mono grows
  originLater := fun like grows => like.mono grows
  closureName := fun like => by
    obtain ⟨_, _, declaration⟩ := like.declaration
    rw [declaration.name]
  closureArity := fun like => like.arity
  closureFlag := fun like => like.isInitializer
  methodArity := fun like => like.arity
  originIdentity := fun like => like.identity
  originName := fun like => like.name
  originMethod := fun like name => like.method? name
  field := fun world object name => rel_twin (world.matching.store.field? object name)
  listing := fun {world} blind => world.matching.store.listing (blind rfl) _ _ _
  exprParts := fun like => exprParts like
  stmtParts := fun like => stmtParts like
  occurrence := fun occurs => .inr ⟨occurs.visible, _, occurs.spelled⟩
  distance := fun {_ world _ _ _ _} _ occurs =>
    let ⟨here, there⟩ := world.matching.distances _ _ occurs.ids
    there.trans here.symm
  lookup := fun stands occurs sound => finds_lookup stands occurs sound
  assign := fun stands occurs twin sound => meets_assign stands occurs (twin_iff.mp twin) sound
  inherits := by
    rintro marks world id keyword _ _ method outer stands ⟨ids, visible, rfl⟩ sound entry
    have matching : Machine.Matches correspondence world.frames marks world.machine world.other :=
      { world.matching with marked := stands }
    have address := (matching.distances id _ ids).1.symm.trans entry
    obtain ⟨⟨frame, outside, bound⟩, inner, same, nearer, inside, boundThis⟩ :=
      Task.Sound.binds_superMethod sound entry
    obtain rfl := Nat.succ.inj same
    exact ⟨finds_bound outside (matching.mark_of_address address outside) bound visible
      (Correspondence.respelled_lexeme _ keyword), finds_this stands inside boundThis⟩
  receiver := by
    rintro world closure image like _ sound
    obtain ⟨around, marked, declaration⟩ := like.declaration
    obtain ⟨frame, outer, here, bound⟩ := Task.Sound.bound_receiver sound
    have there : closure.environment[0]? = some frame := by simp [here]
    rw [like.environment, declaration.name]
    exact finds_this marked there bound
  aside := fun world _ _ _ =>
    moves List.prefix_rfl { world.matching with
      sink := rfl, nextIdentity := rfl, readings := rfl } trivial
  declare := fun {_ world _ _ _ _} stands declares twin =>
    have matching : Machine.Matches correspondence world.frames _ world.machine world.other :=
      { world.matching with marked := stands }
    moves List.prefix_rfl (matching.define (twin_iff.mp twin) declares) trivial
  newObject := fun {world _ _} _ =>
    moves_store List.prefix_rfl world.matching.store.addObject fun _ => trivial
  setField := fun {world _ _ _ _} twin =>
    moves_store List.prefix_rfl (world.matching.store.setField _ _ (twin_iff.mp twin))
      fun _ => trivial
  bindMethod := by
    rintro world method image receiver other like twin
    have grows := List.prefix_append world.frames [false]
    obtain ⟨around, known, declaration⟩ := (like.mono grows).declaration
    refine moves_store grows
      (world.matching.store.addFrame false (.singleton "this" (twin_iff.mp twin))) fun _ => ?_
    exact ⟨⟨false :: around, .cons (world.matching.mark_new false) known, declaration⟩,
      congrArg (_ :: ·) like.environment, like.isInitializer⟩
  enter := fun {world _ _ _ _} like twins =>
    let ⟨_, around, grows, matching, bodies⟩ :=
      world.matching.enter like (twins.imp fun _ _ => twin_iff.mp)
    moves grows matching ⟨around, matching.marked, bodies.forall₂⟩
  block := by
    rintro marks world body _ stands ⟨mark, images, rfl, bodies⟩
    have matching : Machine.Matches correspondence world.frames marks world.machine world.other :=
      { world.matching with marked := stands }
    have opened := matching.openBlock mark
    exact ⟨images, rfl, moves (List.prefix_append _ _) opened
      ⟨_, opened.marked, bodies.forall₂⟩⟩
  function := by
    rintro marks world declaration _ stands ⟨image, rfl, declares, like⟩
    refine ⟨image, rfl, ?_, ⟨marks, stands, like⟩, rfl, rfl⟩
    rw [like.name]
    exact declares
  base := by
    rintro marks world name methods _ stands ⟨images, rfl, declares, like⟩
    exact ⟨name, images, rfl, declares, fun _ =>
      ⟨rfl, rfl, .cons ⟨⟨marks, stands, like.forall₂⟩, rfl⟩ .nil⟩⟩
  derived := by
    rintro marks world name superclass methods _ _ _ ancestor image stands
      ⟨_, _, same, declares, _, like⟩ inherited
    cases same
    have grows := List.prefix_append world.frames [false]
    have marked := Environment.Marked.mono stands grows
    refine ⟨declares, moves_store grows (world.matching.store.addFrame false
      (.singleton "super" (.classObject inherited))) fun _ _ => ?_⟩
    exact ⟨rfl, rfl, .cons ⟨⟨false :: marks,
      .cons (world.matching.mark_new false) marked, like.forall₂⟩, rfl⟩
      (ClassObject.Matches.mono grows inherited).lineage⟩

/-- Matching programs end in the same way, and at the top level again. -/
theorem interpret_mirrors {addressing : Addressing} (fuel : Nat) {machine other : Machine}
    {statements images : List Stmt}
    (matching : Machine.Matches correspondence frames [false] machine other)
    (sound : (Task.topLevel fuel statements).Sound addressing machine)
    (like : Stmt.MatchesAll correspondence [false] statements images) :
    Ending.Matches correspondence frames [false] (interpret fuel statements machine)
      (interpret fuel images other) := by
  let world : MatchingMachines correspondence := ⟨frames, [false], machine, other, matching⟩
  have known : (hygiene correspondence addressing).known (.topLevel fuel statements)
      ((hygiene correspondence addressing).machine world) := sound
  have stands : (hygiene correspondence addressing).stands [false] world := matching.marked
  have paces := Pairing.Lawful.paces_topLevel fuel known stands like.forall₂
  have amount : (hygiene correspondence addressing).extra + fuel = fuel := Nat.zero_add fuel
  rw [amount] at paces
  change (hygiene correspondence addressing).Paced _ _ _ (executeTopLevel fuel statements machine)
    (executeTopLevel fuel images other) at paces
  unfold interpret atTopLevel
  generalize executeTopLevel fuel statements machine = ending,
    executeTopLevel fuel images other = image at paces ⊢
  cases paces with
  | meets meets =>
    cases meets with
    | @value after _ _ next =>
      have same : after.machine.environment = machine.environment := next.environment
      have marked := Environment.Marked.mono matching.marked next.later
      rw [← same] at marked
      exact .value next.later { after.matching with marked }
    | @fault after _ _ next token same =>
      exact .fault next.later { after.matching with
        marked := .cons after.matching.globals .nil, environment := rfl, callDepth := rfl }
        ⟨token, same⟩
  | @overflow after _ _ _ lower =>
    exact absurd after.matching.callLimit (Nat.ne_of_gt lower)
  | outOfFuel also =>
    obtain rfl := also rfl
    exact .outOfFuel

end Eval

end LoxLang
