import LoxLang.Proofs.Machine.Evolution
import LoxLang.Proofs.Machine.Pairing
import LoxLang.Proofs.Machine.Settling

/-!
# Evaluators keep pace

From a world of a lawful pairing, the evaluators of both runs end in a next world, with results that
stand for each other or at the same fault (`Pairing.Lawful.paces`). The second run may have more
fuel and a higher limit: nothing is asked of it where the first one runs out of fuel, and where the
first one overflows, the second goes on and writes behind what has been written by then. There is
one rule for each operation, and one walk through the evaluators, by induction on their fuel.
-/

namespace LoxLang

namespace Task

variable {task later : Task} {machine between : Machine} {text : String}

/-- If a task ends, it has written more behind a text. -/
def Outwrites (task : Task) (machine : Machine) (text : String) : Prop :=
  ∀ after, task.Leaves machine after → ∃ more, after.sink.written = text ++ more

/-- A task writes behind what had been written. -/
theorem outwrites : task.Outwrites machine machine.sink.written :=
  fun _ left => left.evolves.output

/-- What a part of a run has written stays in front of what the run writes. -/
theorem Outwrites.of_leads (outwrites : later.Outwrites between text)
    (leads : task.Leads machine later between) : task.Outwrites machine text := by
  intro after left
  have evaluates : ¬ task.IsAccess := by cases leads <;> exact id
  have known : Eval.evolution.known task (Eval.evolution.machine machine) := trivial
  obtain ⟨inner, final, ended, rfl, behind⟩ :=
    Discipline.Lawful.settles known (evolves evaluates) leads left
  obtain ⟨more, written⟩ := outwrites inner (Task.leaves_iff.mpr ended)
  obtain ⟨further, output⟩ := behind.output
  exact ⟨more ++ further, by rw [← String.append_assoc, ← written]; exact output⟩

end Task

namespace Pairing

open Eval

variable {α β : Type} {P : Pairing}

section Paces

variable (P) (beyond : String → Prop) (world : P.World) (kind : P.World → α → α → Prop)

/-- How two runs end: they meet; or the first one overflows where the second has a higher limit, and
then something is known of what has been written by then; or the first one runs out of fuel, and so
does the second if it has no more. -/
inductive Paced : Ending α → Ending α → Prop where
  | meets {ending image : Ending α} (meets : P.Meets world kind ending image) : Paced ending image
  | overflow {after : P.World} {token : Token} {image : Ending α} (next : P.Next world after)
      (lower : (P.machine after).callLimit < (P.other after).callLimit)
      (known : beyond (P.machine after).sink.written) :
      Paced (.fault { token, fault := .stackOverflow } (P.machine after)) image
  | outOfFuel {image : Ending α} (also : P.extra = 0 → image = .outOfFuel) :
      Paced .outOfFuel image

/-- Computations that are run side by side keep pace. -/
def Paces (computation image : Eval α) : Prop :=
  P.Paced beyond world kind (computation (P.machine world)) (image (P.other world))

end Paces

variable {beyond : String → Prop} {world between : P.World} {early wider : P.World → α → α → Prop}
  {kind : P.World → β → β → Prop} {first firstImage : Eval α} {next nextImage : α → Eval β}
  {ending image : Ending α}

/-! ### Ways to keep pace -/

/-- What is known of a text if the first run overflows may be weakened. -/
theorem Paces.lessKnown {further : String → Prop}
    (paces : P.Paces beyond world early first firstImage)
    (weaken : ∀ text, beyond text → further text) :
    P.Paces further world early first firstImage := by
  unfold Paces at paces ⊢
  generalize first (P.machine world) = ending, firstImage (P.other world) = image at paces ⊢
  cases paces with
  | meets meets => exact .meets meets
  | overflow next lower known => exact .overflow next lower (weaken _ known)
  | outOfFuel also => exact .outOfFuel also

/-- What a part of the second run writes behind, the whole run writes behind. -/
theorem Paces.within {task later : Task} {start ready : Machine}
    (paces : P.Paces (later.Outwrites ready) world early first firstImage)
    (leads : task.Leads start later ready) :
    P.Paces (task.Outwrites start) world early first firstImage :=
  paces.lessKnown fun _ outwrites => outwrites.of_leads leads

/-- What the results are like may be weakened. -/
theorem Meets.imp (meets : P.Meets world early ending image)
    (weaken : ∀ after result image, P.Next world after → early after result image →
      wider after result image) : P.Meets world wider ending image := by
  cases meets with
  | value next like => exact .value next (weaken _ _ _ next like)
  | fault next token same => exact .fault next token same

/-- What the results are like may be weakened. -/
theorem Paces.imp (paces : P.Paces beyond world early first firstImage)
    (weaken : ∀ after result image, P.Next world after → early after result image →
      wider after result image) : P.Paces beyond world wider first firstImage := by
  unfold Paces at paces ⊢
  generalize first (P.machine world) = ending, firstImage (P.other world) = image at paces ⊢
  cases paces with
  | meets meets => exact .meets (meets.imp weaken)
  | overflow next lower known => exact .overflow next lower known
  | outOfFuel also => exact .outOfFuel also

variable [lawful : P.Lawful]
include lawful

/-- Nothing has happened yet in a world itself. -/
theorem Next.refl (world : P.World) : P.Next world world :=
  ⟨lawful.refl world, rfl, rfl⟩

/-- Two stretches of a run make one. -/
theorem Next.trans {first second third : P.World} (before : P.Next first second)
    (behind : P.Next second third) : P.Next first third where
  later := lawful.trans before.later behind.later
  environment := behind.environment.trans before.environment
  callDepth := behind.callDepth.trans before.callDepth

/-- In a next world there are as many calls around the second machine, too. -/
theorem Next.otherDepth (next : P.Next world between) :
    (P.other between).callDepth = (P.other world).callDepth := by
  rw [(lawful.beside between).callDepth, (lawful.beside world).callDepth, next.callDepth]

/-- A move behind a later world is one behind the world before. -/
theorem Moves.behind {machine other : Machine} {holds : P.World → Prop}
    (moves : P.Moves between machine other holds) (later : P.Later world between) :
    P.Moves world machine other holds :=
  let ⟨after, here, there, further, known⟩ := moves
  ⟨after, here, there, lawful.trans later further, known⟩

/-- What meets behind a next world meets behind the world before. -/
theorem Meets.behind (meets : P.Meets between early ending image) (next : P.Next world between) :
    P.Meets world early ending image := by
  cases meets with
  | value further like => exact .value (next.trans further) like
  | fault further token same => exact .fault (next.trans further) token same

/-- What keeps pace behind a next world keeps pace behind the world before. -/
theorem Paced.behind (paced : P.Paced beyond between early ending image)
    (next : P.Next world between) : P.Paced beyond world early ending image := by
  cases paced with
  | meets meets => exact .meets (meets.behind next)
  | overflow further lower known => exact .overflow (next.trans further) lower known
  | outOfFuel also => exact .outOfFuel also

/-- Runs keep pace one after the other: the second parts start where the first ones met. -/
theorem Paces.bind (before : P.Paces beyond world early first firstImage)
    (behind : ∀ between result image, first (P.machine world) = .value result (P.machine between) →
      firstImage (P.other world) = .value image (P.other between) → P.Next world between →
      early between result image → P.Paces beyond between kind (next result) (nextImage image)) :
    P.Paces beyond world kind (first >>= next) (firstImage >>= nextImage) := by
  unfold Paces at before ⊢
  rw [bind_apply, bind_apply]
  generalize ended : first (P.machine world) = ending,
    also : firstImage (P.other world) = image at before
  cases before with
  | meets meets =>
    cases meets with
    | value next like => exact (behind _ _ _ ended also next like).behind next
    | fault next token same => exact .meets (.fault next token same)
  | overflow next lower known => exact .overflow next lower known
  | outOfFuel also =>
    refine .outOfFuel fun none => ?_
    rw [also none]

/-- Results that stand for each other are returned at once. -/
theorem Paces.pure {result image : α} (like : early world result image) :
    P.Paces beyond world early (pure result) (pure image) :=
  .meets (.value (.refl world) like)

/-- Both runs stop at the same fault. -/
theorem Paces.fail {token image : Token} (stands : P.token token image) (fault : RuntimeFault) :
    P.Paces beyond world early (fail token fault) (Eval.fail image fault) :=
  .meets (.fault (.refl world) stands rfl)

/-- An outcome is the same on both sides, a plain value or a fault. -/
theorem Paces.ofExcept {token image : Token} (stands : P.token token image)
    {outcome : Except RuntimeFault Value}
    (plain : ∀ result, outcome = .ok result → result.IsPlain) :
    P.Paces beyond world P.Twin (ofExcept token outcome) (Eval.ofExcept image outcome) := by
  cases outcome with
  | ok result => exact .pure (.ofPlain (plain result rfl))
  | error fault => exact .fail stands fault

omit lawful in
/-- Machines that a law leads to are those of a next world if they stand where the first ones do. -/
theorem Paces.moves {result image : α} {machine other : Machine} {holds : P.World → Prop}
    (ended : first (P.machine world) = .value result machine)
    (also : firstImage (P.other world) = .value image other)
    (moves : P.Moves world machine other holds)
    (environment : machine.environment = (P.machine world).environment)
    (callDepth : machine.callDepth = (P.machine world).callDepth)
    (like : ∀ after, P.machine after = machine → P.Next world after → holds after →
      early after result image) : P.Paces beyond world early first firstImage := by
  obtain ⟨after, rfl, rfl, later, known⟩ := moves
  have next : P.Next world after := ⟨later, environment, callDepth⟩
  unfold Paces
  rw [ended, also]
  exact .meets (.value next (like after rfl next known))

/-! ### What stands aside -/

/-- The same is written on both sides. -/
theorem Lawful.moves_sink (world : P.World) (sink : Sink) :
    P.Moves world { P.machine world with sink } { P.other world with sink } fun _ => True := by
  have beside := lawful.beside world
  have moves := lawful.aside world sink (P.machine world).nextIdentity (P.machine world).readings
  rw [show ({ P.other world with sink } : Machine) = { P.other world with
    sink, nextIdentity := (P.machine world).nextIdentity
    readings := (P.machine world).readings } by rw [← beside.nextIdentity, ← beside.readings]]
  exact moves

/-- One more identity is used up on both sides. -/
theorem Lawful.moves_identity (world : P.World) :
    P.Moves world
      { P.machine world with nextIdentity := (P.machine world).nextIdentity + 1 }
      { P.other world with nextIdentity := (P.machine world).nextIdentity + 1 }
      fun _ => True := by
  have beside := lawful.beside world
  have moves := lawful.aside world (P.machine world).sink ((P.machine world).nextIdentity + 1)
    (P.machine world).readings
  rw [show ({ P.other world with nextIdentity := (P.machine world).nextIdentity + 1 } : Machine) =
    { P.other world with
      sink := (P.machine world).sink, nextIdentity := (P.machine world).nextIdentity + 1
      readings := (P.machine world).readings } by rw [← beside.sink, ← beside.readings]]
  exact moves

/-- The clock is read on both sides. -/
theorem Lawful.moves_readings (world : P.World) :
    P.Moves world { P.machine world with readings := (P.machine world).readings + 1 }
      { P.other world with readings := (P.machine world).readings + 1 } fun _ => True := by
  have beside := lawful.beside world
  have moves := lawful.aside world (P.machine world).sink (P.machine world).nextIdentity
    ((P.machine world).readings + 1)
  rw [show ({ P.other world with readings := (P.machine world).readings + 1 } : Machine) =
    { P.other world with
      sink := (P.machine world).sink, nextIdentity := (P.machine world).nextIdentity
      readings := (P.machine world).readings + 1 } by
    rw [← beside.sink, ← beside.nextIdentity]]
  exact moves

/-- What is written is written on both sides, or fails on both. -/
theorem Paces.write {token mark : Token} (stands : P.token token mark) (text : String) :
    P.Paces beyond world (fun _ _ _ => True) (write token text) (Eval.write mark text) := by
  have same := (lawful.beside world).sink
  unfold Paces Eval.write
  rw [same]
  cases (P.machine world).sink.obstacle with
  | none =>
    obtain ⟨after, here, there, later, _⟩ :=
      lawful.moves_sink world ((P.machine world).sink.append text)
    dsimp only
    rw [← here, ← there]
    exact .meets (.value ⟨later, by rw [here], by rw [here]⟩ trivial)
  | some reason =>
    obtain ⟨after, here, there, later, _⟩ :=
      lawful.moves_sink world (P.machine world).sink.attempt
    dsimp only [Eval.fail]
    rw [← here, ← there]
    exact .meets (.fault ⟨later, by rw [here], by rw [here]⟩ stands rfl)

/-- A new identity is the same on both sides. -/
theorem Paces.newIdentity :
    P.Paces beyond world (fun _ => Eq) newIdentity newIdentity := by
  have same := (lawful.beside world).nextIdentity
  have also : Eval.newIdentity (P.other world) = .value (P.machine world).nextIdentity
      { P.other world with nextIdentity := (P.machine world).nextIdentity + 1 } := by
    rw [← same]
    rfl
  exact .moves rfl also (lawful.moves_identity world) rfl rfl fun _ _ _ _ => rfl

/-- Functions that stand for each other become values that do. -/
theorem Paces.newFunction {closure image : Closure} (like : P.closure world closure image) :
    P.Paces beyond world P.Twin (newFunction closure) (newFunction image) := by
  refine .bind .newIdentity fun between identity _ _ _ next same => ?_
  subst same
  exact .pure (.function identity (lawful.closureLater like next.later))

/-- The environment is the same on both sides. -/
theorem Paces.environment :
    P.Paces beyond world (fun after here image => world = after ∧ here = image ∧
      here = (P.machine world).environment) environment environment :=
  .meets (.value (.refl world) ⟨rfl, (lawful.beside world).environment.symm, rfl⟩)

/-- Occurrences that stand for each other have the same distance. -/
theorem Paces.distance? {context : P.Context} {id otherId : Nat} {name spelled : Token}
    (stands : P.stands context world) (occurs : P.occurs context id name otherId spelled) :
    P.Paces beyond world (fun after here image => world = after ∧ here = image ∧
      here = (P.machine world).distances[id]?) (distance? id) (distance? otherId) :=
  .meets (.value (.refl world) ⟨rfl, (lawful.distance stands occurs).symm, rfl⟩)

/-- Searches that find values which stand for each other keep pace. -/
theorem Paces.finds {search searchImage : Eval Value}
    (finds : P.Finds world (search (P.machine world)) (searchImage (P.other world))) :
    P.Paces beyond world (fun after value image => world = after ∧ P.Twin world value image) search
      searchImage := by
  unfold Paces
  generalize search (P.machine world) = ending, searchImage (P.other world) = image at finds ⊢
  cases finds with
  | found twin => exact .meets (.value (.refl world) ⟨rfl, twin⟩)
  | missing token same => exact .meets (.fault (.refl world) token same)

/-- What searches find stands for each other. -/
theorem Paces.found {search searchImage : Eval Value}
    (finds : P.Finds world (search (P.machine world)) (searchImage (P.other world))) :
    P.Paces beyond world P.Twin search searchImage :=
  Paces.imp (.finds finds) fun _ _ _ _ ⟨same, twin⟩ => same ▸ twin

/-- A native function that stands for itself does the same on both sides. -/
theorem Paces.callNative {paren mark : Token} (stands : P.token paren mark) {builtin : Native}
    (known : P.native builtin) :
    P.Paces beyond world P.Twin (callNative paren builtin) (callNative mark builtin) := by
  have beside := lawful.beside world
  cases builtin with
  | clock =>
    have also : Eval.callNative mark .clock (P.other world) =
        .value (.number (Binary64.ofField false (Binary64.nearestField
          ((P.machine world).clock (P.machine world).readings) 1000000)))
          { P.other world with readings := (P.machine world).readings + 1 } := by
      rw [← beside.clock, ← beside.readings]
      rfl
    exact .moves rfl also (lawful.moves_readings world) rfl rfl fun _ _ _ _ => .number _
  | dump =>
    have listed : P.Paces beyond world (fun _ => Eq) frameListing frameListing := by
      unfold Paces Eval.frameListing
      rw [beside.environment]
      exact .meets (.value (.refl world) (lawful.listing known).symm)
    refine .bind listed fun _ text _ _ _ _ same => ?_
    subst same
    exact .bind (.write stands text) fun _ _ _ _ _ _ _ => .pure .nil

/-! ### Instances and classes -/

/-- Instances of classes that stand for each other are made. -/
theorem Paces.newObject {origin other : ClassObject} (like : P.origin world origin other) :
    P.Paces beyond world P.Twin (newObject origin) (newObject other) := by
  have also : Eval.newObject other (P.other world) =
      .value (.object (P.machine world).store.objects.size other)
        { P.other world with store := (P.other world).store.addObject } := by
    rw [← (lawful.beside world).objects]
    rfl
  exact .moves rfl also (lawful.newObject like) rfl rfl fun _ _ next _ =>
    .object _ (lawful.originLater like next.later)

/-- A field is set to values that stand for each other. -/
theorem Paces.setField {object : Nat} {name : String} {value image : Value}
    (twin : P.Twin world value image) :
    P.Paces beyond world P.Twin (do setField object name value; return value)
      (do Eval.setField object name image; return image) := by
  have stored : P.Paces beyond world (fun after _ _ => P.Twin after value image)
      (Eval.setField object name value) (Eval.setField object name image) :=
    .moves rfl rfl (lawful.setField twin) rfl rfl fun _ _ next _ => twin.later next.later
  exact .bind stored fun _ _ _ _ _ _ twin => .pure twin

/-- Methods that stand for each other are bound to instances that do. -/
theorem Paces.bindMethod {method image : Closure} {receiver other : Value}
    (like : P.method world method image) (twin : P.Twin world receiver other) :
    P.Paces beyond world P.closure (bindMethod method receiver) (bindMethod image other) := by
  have also : Eval.bindMethod image other (P.other world) = .value
      { image with environment := (P.machine world).store.frames.size :: image.environment }
      { P.other world with
        store := (P.other world).store.addFrame (Std.TreeMap.empty.insert "this" other) } := by
    rw [bindMethod_apply, (lawful.beside world).frames]
  exact .moves (bindMethod_apply _ _ _) also (lawful.bindMethod like twin) rfl rfl
    fun _ _ _ like => like

/-- A method that both classes have is bound to both instances. -/
theorem Paces.inherited {origin other : ClassObject} (like : P.origin world origin other)
    {receiver image : Value} (twin : P.Twin world receiver image) {name mark : Token}
    (stands : P.Mark name mark) :
    P.Paces beyond world P.Twin (inherited origin receiver name) (inherited other image mark) := by
  unfold Eval.inherited
  rw [stands.lexeme]
  rcases absent_or_related (lawful.originMethod like name.lexeme) with
    ⟨missing, also⟩ | ⟨found, method, here, there, like⟩
  · rw [missing, also]
    exact .fail stands.token _
  · rw [here, there]
    exact .bind (.bindMethod like twin) fun _ _ _ _ _ _ like => .newFunction like

/-- A property is found on both sides, or on none. -/
theorem Paces.property {value image : Value} (twin : P.Twin world value image) {name mark : Token}
    (stands : P.Mark name mark) :
    P.Paces beyond world P.Twin (property value name) (property image mark) := by
  cases twin with
  | @object identity origin other like =>
    have read : P.Paces beyond world (fun after => Option.Rel (P.Twin after))
        (field? identity name.lexeme) (field? identity mark.lexeme) := by
      rw [stands.lexeme]
      exact .meets (.value (.refl world) (lawful.field world identity name.lexeme))
    refine .bind read fun between found image _ _ next same => ?_
    have like := lawful.originLater like next.later
    cases same with
    | some twin => exact .pure twin
    | none => exact .inherited like (.object identity like) stands
  | _ => exact .fail stands.token _

/-- At occurrences of `super` that stand for each other, methods that do are bound. -/
theorem Paces.superMethod {context : P.Context} {id otherId : Nat}
    {keyword spelled method mark : Token} (stands : P.stands context world)
    (occurs : P.occurs context id keyword otherId spelled) (marks : P.Mark method mark)
    (known : P.known (.superMethod id keyword method) (P.machine world)) :
    P.Paces beyond world P.Twin (superMethod id keyword method)
      (superMethod otherId spelled mark) := by
  have unavailable : P.Paces beyond world P.Twin (Eval.fail keyword .superUnavailable)
      (Eval.fail spelled .superUnavailable) := .fail (lawful.occurrence occurs) _
  refine .bind (.distance? stands occurs) ?_
  rintro _ distance _ _ _ _ ⟨rfl, rfl, read⟩
  match distance with
  | none => exact unavailable
  | some 0 => exact unavailable
  | some (outer + 1) =>
    obtain ⟨parents, receivers⟩ := lawful.inherits stands occurs known read.symm
    refine .bind .environment ?_
    rintro _ _ _ _ _ _ ⟨rfl, rfl, rfl⟩
    refine .bind (.finds parents) ?_
    rintro _ parent parentImage _ _ _ ⟨rfl, parents⟩
    refine .bind (.finds receivers) ?_
    rintro _ receiver receiverImage _ _ _ ⟨rfl, receivers⟩
    cases parents with
    | classObject ancestor =>
      cases receivers with
      | object identity origin => exact .inherited ancestor (.object identity origin) marks
      | _ => exact unavailable
    | _ => exact unavailable

/-- Superclasses are classes that stand for each other, or neither is one. -/
theorem Paces.asSuperclass {token mark : Token} (stands : P.token token mark) {value image : Value}
    (twin : P.Twin world value image) :
    P.Paces beyond world P.origin (asSuperclass token value) (asSuperclass mark image) := by
  cases twin with
  | classObject like => exact .pure like
  | _ => exact .fail stands _

/-- Calls of twins with equally many arguments pass the same check. -/
theorem Paces.checkCall {callee image : Value} (twin : P.Twin world callee image)
    {paren mark : Token} (stands : P.token paren mark) {arguments others : List Value}
    (same : List.Forall₂ (P.Twin world) arguments others) :
    P.Paces beyond world (fun _ _ _ => True) (checkCall callee paren arguments)
      (checkCall image mark others) := by
  unfold Eval.checkCall
  rw [twin.arity?, same.length_eq]
  cases callee.arity? with
  | none => exact .fail stands _
  | some arity =>
    dsimp only
    split
    case isTrue => exact .pure trivial
    case isFalse => exact .fail stands _

/-- Names that stand for each other are bound to values that do. -/
theorem Paces.define {context : P.Context} {name spelled : Token} {value image : Value}
    (stands : P.stands context world) (declares : P.declares context name spelled)
    (twin : P.Twin world value image) :
    P.Paces beyond world (fun _ _ _ => True) (define name.lexeme value)
      (Eval.define spelled.lexeme image) :=
  .moves (define_apply _ _ _) (define_apply _ _ _) (lawful.declare stands declares twin)
    (Machine.define_environment _ _ _) (Machine.define_callDepth _ _ _) fun _ _ _ _ => trivial

/-- A declared name is bound, and control goes on behind it. -/
theorem Paces.declared {context : P.Context} {name spelled : Token} {value image : Value}
    (stands : P.stands context world) (declares : P.declares context name spelled)
    (twin : P.Twin world value image) :
    P.Paces beyond world P.Parting (do Eval.define name.lexeme value; return Flow.normal)
      (do Eval.define spelled.lexeme image; return Flow.normal) :=
  .bind (.define stands declares twin) fun _ _ _ _ _ _ _ => .pure .normal

/-- A class is bound under its name, behind its methods and what it inherits. -/
theorem Paces.defineBase {context : P.Context} {name spelled : Token}
    {methods others : List FunctionDecl} (stands : P.stands context world)
    (declares : P.declares context name spelled)
    (origins : ∀ identity, P.origin world
      ⟨identity, name.lexeme, [⟨methods, (P.machine world).environment⟩]⟩
      ⟨identity, spelled.lexeme, [⟨others, (P.machine world).environment⟩]⟩) :
    P.Paces beyond world (fun _ _ _ => True) (defineClass name none methods)
      (defineClass spelled none others) := by
  obtain ⟨between, here, there, later, _⟩ := lawful.moves_identity world
  have next : P.Next world between := ⟨later, by rw [here], by rw [here]⟩
  have twin := origins (P.machine world).nextIdentity
  have moves := lawful.declare (lawful.stands stands next) declares
    (.classObject (lawful.originLater twin later))
  rw [here, there] at moves
  have beside := lawful.beside world
  have also : defineClass spelled none others (P.other world) = .value ()
      (Machine.define { P.other world with nextIdentity := (P.machine world).nextIdentity + 1 }
        spelled.lexeme (.classObject ⟨(P.machine world).nextIdentity, spelled.lexeme,
          [⟨others, (P.machine world).environment⟩]⟩)) := by
    rw [← beside.nextIdentity, ← beside.environment]
    exact defineClass_none _ _ _
  exact .moves (defineClass_none name methods _) also (moves.behind later)
    (Machine.define_environment _ _ _) (Machine.define_callDepth _ _ _) fun _ _ _ _ => trivial

/-- A derived class is bound under its name, behind a frame of its own for its superclass. -/
theorem Paces.defineDerived {context : P.Context} {name spelled : Token} {superclass parent : Expr}
    {methods others : List FunctionDecl} {ancestor image : ClassObject}
    (stands : P.stands context world)
    (like : P.stmt context (.class name (some superclass) methods)
      (.class spelled (some parent) others)) (inherited : P.origin world ancestor image) :
    P.Paces beyond world (fun _ _ _ => True) (defineClass name (some ancestor) methods)
      (defineClass spelled (some image) others) := by
  obtain ⟨between, here, there, later, _⟩ := lawful.moves_identity world
  have next : P.Next world between := ⟨later, by rw [here], by rw [here]⟩
  obtain ⟨declares, moves⟩ := lawful.derived (lawful.stands stands next) like
    (lawful.originLater inherited later)
  obtain ⟨ready, readyHere, readyThere, further, origins⟩ := moves
  have standing : P.stands context ready := by
    refine lawful.stands (lawful.stands stands next) ⟨further, ?_, ?_⟩ <;> rw [readyHere]
  have moves := lawful.declare standing declares
    (.classObject (origins (P.machine world).nextIdentity))
  rw [readyHere, readyThere, here, there] at moves
  have beside := lawful.beside world
  have also : defineClass spelled (some image) others (P.other world) = .value ()
      (Machine.define
        { P.other world with
          store := (P.other world).store.addFrame
            (Std.TreeMap.empty.insert "super" (.classObject image))
          nextIdentity := (P.machine world).nextIdentity + 1 }
        spelled.lexeme (.classObject ⟨(P.machine world).nextIdentity, spelled.lexeme,
          ⟨others, (P.machine world).store.frames.size :: (P.machine world).environment⟩ ::
            image.lineage⟩)) := by
    rw [← beside.nextIdentity, ← beside.environment, ← beside.frames]
    exact defineClass_some _ _ _ _
  exact .moves (defineClass_some name ancestor methods _) also
    (moves.behind (lawful.trans later further)) (Machine.define_environment _ _ _)
    (Machine.define_callDepth _ _ _) fun _ _ _ _ => trivial

/-! ### Bodies and blocks -/

/-- Runs that keep pace elsewhere keep pace when they have come back. -/
theorem Paces.elsewhere {inner : P.World} {second secondImage : Eval α}
    {change otherChange : Machine → Machine}
    (ended : first (P.machine world) = (second (P.machine inner)).adjust change)
    (also : firstImage (P.other world) = (secondImage (P.other inner)).adjust otherChange)
    (later : P.Later world inner)
    (back : ∀ after, P.Next inner after →
      change (P.machine after) = (P.machine after).backTo (P.machine world) ∧
        otherChange (P.other after) = (P.other after).backTo (P.other world))
    (paces : P.Paces beyond inner early second secondImage)
    (given : ∀ after final result image, P.Later after final → P.Next world final →
      early after result image → wider final result image) :
    P.Paces beyond world wider first firstImage := by
  have returning {after : P.World} (next : P.Next inner after) :
      ∃ final, P.machine final = change (P.machine after) ∧
        P.other final = otherChange (P.other after) ∧ P.Next world final ∧
        P.Later after final := by
    obtain ⟨final, here, there, behind, later⟩ := lawful.back (lawful.trans later next.later)
    obtain ⟨same, alike⟩ := back after next
    rw [same, alike]
    refine ⟨final, here, there, ⟨later, ?_, ?_⟩, behind⟩ <;> rw [here] <;> rfl
  unfold Paces at paces ⊢
  rw [ended, also]
  generalize second (P.machine inner) = ending, secondImage (P.other inner) = image at paces
  cases paces with
  | meets meets =>
    cases meets with
    | value next like =>
      obtain ⟨final, here, there, next, behind⟩ := returning next
      simp only [Ending.adjust, ← here, ← there]
      exact .meets (.value next (given _ _ _ _ behind next like))
    | fault next token same =>
      obtain ⟨final, here, there, next, _⟩ := returning next
      simp only [Ending.adjust, ← here, ← there]
      exact .meets (.fault next token same)
  | @overflow after token _ next lower known =>
    obtain ⟨same, alike⟩ := back after next
    obtain ⟨final, here, there, next, _⟩ := returning next
    simp only [Ending.adjust, ← here]
    refine .overflow next ?_ ?_
    · rw [here, there, same, alike]
      exact lower
    · rw [here, same]
      exact known
  | outOfFuel also =>
    refine .outOfFuel fun none => ?_
    rw [also none]
    rfl

/-- The body of a call is executed where the call enters, on both sides. Where only the first call
is at its limit, the second goes on and writes behind. -/
theorem Paces.runBody {closure image : Closure} {arguments others : List Value} {fuel more : Nat}
    (like : P.closure world closure image) {paren mark : Token} (stands : P.token paren mark)
    (same : List.Forall₂ (P.Twin world) arguments others)
    (writes : beyond (P.machine world).sink.written)
    (body : ∀ inner context, P.machine inner = (P.machine world).enter closure arguments →
      P.other inner = (P.other world).enter image others →
      (P.machine world).callDepth < (P.machine world).callLimit →
      (P.other world).callDepth < (P.other world).callLimit → P.stands context inner →
      List.Forall₂ (P.stmt context) closure.declaration.body image.declaration.body →
      P.Paces beyond inner P.Parting (executeAll fuel closure.declaration.body)
        (executeAll more image.declaration.body)) :
    P.Paces beyond world P.Parting (runBody fuel closure paren arguments)
      (runBody more image mark others) := by
  have beside := lawful.beside world
  have ended := runBody_apply fuel closure paren arguments (P.machine world)
  have also := runBody_apply more image mark others (P.other world)
  by_cases reached : (P.machine world).callLimit ≤ (P.machine world).callDepth
  · rw [if_pos reached] at ended
    unfold Paces
    rw [ended]
    by_cases reachedToo : (P.other world).callLimit ≤ (P.other world).callDepth
    · rw [also, if_pos reachedToo]
      exact .meets (.fault (.refl world) stands rfl)
    · have depth := beside.callDepth
      exact .overflow (.refl world) (by omega) writes
  · have within := Nat.lt_of_not_le reached
    have withinToo : (P.other world).callDepth < (P.other world).callLimit := by
      rw [beside.callDepth]
      exact Nat.lt_of_lt_of_le within beside.callLimit
    rw [if_neg reached] at ended
    rw [if_neg (Nat.not_le_of_lt withinToo)] at also
    obtain ⟨inner, entered, enteredToo, later, context, standing, statements⟩ :=
      lawful.enter like same
    rw [← entered] at ended
    rw [← enteredToo] at also
    refine .elsewhere ended also later ?_
      (body inner context entered enteredToo within withinToo standing statements) ?_
    · exact fun after next => ⟨Machine.leaveCall_eq_backTo (entered ▸ next.callDepth),
        Machine.leaveCall_eq_backTo (enteredToo ▸ next.otherDepth)⟩
    · exact fun _ _ _ _ later _ like => like.later later

/-! ### The walk -/

section Evaluators

variable (P)

/-- The evaluators of both runs keep pace at one fuel, on code and values that stand for each
other. What the second run writes after an overflow of the first, it writes behind. -/
structure PacedAt (fuel : Nat) : Prop where
  evaluate : ∀ {world context expression image},
    P.known (.evaluate fuel expression) (P.machine world) → P.stands context world →
    P.expr context expression image →
    P.Paces ((Task.evaluate (P.extra + fuel) image).Outwrites (P.other world)) world P.Twin
      (evaluate fuel expression) (evaluate (P.extra + fuel) image)
  evaluateAll : ∀ {world context expressions images},
    P.known (.evaluateAll fuel expressions) (P.machine world) → P.stands context world →
    List.Forall₂ (P.expr context) expressions images →
    P.Paces ((Task.evaluateAll (P.extra + fuel) images).Outwrites (P.other world)) world
      (fun after => List.Forall₂ (P.Twin after)) (evaluateAll fuel expressions)
      (evaluateAll (P.extra + fuel) images)
  call : ∀ {world callee image paren mark arguments others},
    P.known (.call fuel callee paren arguments) (P.machine world) → P.Twin world callee image →
    P.token paren mark → List.Forall₂ (P.Twin world) arguments others →
    P.Paces ((Task.call (P.extra + fuel) image mark others).Outwrites (P.other world)) world
      P.Twin (call fuel callee paren arguments) (call (P.extra + fuel) image mark others)
  invoke : ∀ {world closure image paren mark arguments others},
    P.known (.invoke fuel closure paren arguments) (P.machine world) →
    P.closure world closure image → P.token paren mark →
    List.Forall₂ (P.Twin world) arguments others →
    P.Paces ((Task.invoke (P.extra + fuel) image mark others).Outwrites (P.other world)) world
      P.Twin (invoke fuel closure paren arguments) (invoke (P.extra + fuel) image mark others)
  execute : ∀ {world context statement image},
    P.known (.execute fuel statement) (P.machine world) → P.stands context world →
    P.stmt context statement image →
    P.Paces ((Task.execute (P.extra + fuel) image).Outwrites (P.other world)) world P.Parting
      (execute fuel statement) (execute (P.extra + fuel) image)
  executeAll : ∀ {world context statements images},
    P.known (.executeAll fuel statements) (P.machine world) → P.stands context world →
    List.Forall₂ (P.stmt context) statements images →
    P.Paces ((Task.executeAll (P.extra + fuel) images).Outwrites (P.other world)) world P.Parting
      (executeAll fuel statements) (executeAll (P.extra + fuel) images)
  repeatWhile : ∀ {world context condition test body image},
    P.known (.repeatWhile fuel condition body) (P.machine world) → P.stands context world →
    P.expr context condition test → P.stmt context body image →
    P.Paces ((Task.repeatWhile (P.extra + fuel) test image).Outwrites (P.other world)) world
      P.Parting (repeatWhile fuel condition body) (repeatWhile (P.extra + fuel) test image)

end Evaluators

namespace PacedAt

omit lawful in
/-- Without fuel nothing is asked of the second run, unless it has none either. -/
theorem zero : P.PacedAt 0 where
  evaluate := fun _ _ _ => .outOfFuel fun none => by rw [none]; rfl
  evaluateAll := fun _ _ _ => .outOfFuel fun none => by rw [none]; rfl
  call := fun _ _ _ _ => .outOfFuel fun none => by rw [none]; rfl
  invoke := fun _ _ _ _ => .outOfFuel fun none => by rw [none]; rfl
  execute := fun _ _ _ => .outOfFuel fun none => by rw [none]; rfl
  executeAll := fun _ _ _ => .outOfFuel fun none => by rw [none]; rfl
  repeatWhile := fun _ _ _ _ => .outOfFuel fun none => by rw [none]; rfl

variable {fuel : Nat} {context : P.Context} (smaller : P.PacedAt fuel)
include smaller

/-- The right operand of a logical operator is evaluated on both sides or on none. -/
theorem evaluate_logical {left right first second : Expr} {operator sign : Token}
    (known : P.known (.evaluate (fuel + 1) (.logical left operator right)) (P.machine world))
    (stands : P.stands context world) (leftLike : P.expr context left first)
    (mark : P.Mark operator sign) (rightLike : P.expr context right second) :
    P.Paces ((Task.evaluate (P.extra + fuel + 1) (.logical first sign second)).Outwrites
        (P.other world)) world P.Twin
      (Eval.evaluate (fuel + 1) (.logical left operator right))
      (Eval.evaluate (P.extra + fuel + 1) (.logical first sign second)) := by
  refine .bind ((smaller.evaluate (lawful.lead known .deciding) stands leftLike).within
    .deciding) ?_
  intro between leftValue leftImage ended also next twin
  have decides := twin.leftDecides operator.kind
  rw [mark.kind, decides]
  split
  case isTrue => exact .pure twin
  case isFalse undecided =>
    have open_ : leftDecides operator.kind leftValue = false := by simpa using undecided
    exact (smaller.evaluate (lawful.lead known (.undecided ended open_))
      (lawful.stands stands next) rightLike).within
        (.undecided also (by rw [mark.kind, decides, open_]))

/-- Calls are evaluated alike: the callee, the arguments, and the call itself if it is checked. -/
theorem evaluate_call {callee other : Expr} {paren mark : Token} {arguments others : List Expr}
    (known : P.known (.evaluate (fuel + 1) (.call callee paren arguments)) (P.machine world))
    (stands : P.stands context world) (calleeLike : P.expr context callee other)
    (marks : P.Mark paren mark) (same : List.Forall₂ (P.expr context) arguments others) :
    P.Paces ((Task.evaluate (P.extra + fuel + 1) (.call other mark others)).Outwrites
        (P.other world)) world P.Twin
      (Eval.evaluate (fuel + 1) (.call callee paren arguments))
      (Eval.evaluate (P.extra + fuel + 1) (.call other mark others)) := by
  refine .bind ((smaller.evaluate (lawful.lead known .callee) stands calleeLike).within
    .callee) ?_
  intro between target targetImage first firstToo next twin
  refine .bind ((smaller.evaluateAll (lawful.lead known (.arguments first))
    (lawful.stands stands next) same).within (.arguments firstToo)) ?_
  intro ready values images second secondToo further listed
  refine .bind (.checkCall (twin.later further.later) marks.token listed) ?_
  intro after _ _ checked checkedToo last _
  -- The check leaves the machine as it is, so the call starts where the arguments have ended.
  have unchanged := checkCall_same checked
  have unchangedToo := checkCall_same checkedToo
  rw [unchanged] at second checked
  rw [unchangedToo] at secondToo checkedToo
  have later := lawful.trans further.later last.later
  exact (smaller.call (lawful.lead known (.call first second checked)) (twin.later later)
    marks.token (listed.imp fun _ _ twin => twin.later last.later)).within
      (.call firstToo secondToo checkedToo)

/-- A field is set on both sides, behind its value, unless neither object is an instance. -/
theorem evaluate_set {object other value result : Expr} {name mark : Token}
    (known : P.known (.evaluate (fuel + 1) (.set object name value)) (P.machine world))
    (stands : P.stands context world) (objectLike : P.expr context object other)
    (marks : P.Mark name mark) (valueLike : P.expr context value result) :
    P.Paces ((Task.evaluate (P.extra + fuel + 1) (.set other mark result)).Outwrites
        (P.other world)) world P.Twin
      (Eval.evaluate (fuel + 1) (.set object name value))
      (Eval.evaluate (P.extra + fuel + 1) (.set other mark result)) := by
  refine .bind ((smaller.evaluate (lawful.lead known .changed) stands objectLike).within
    .changed) ?_
  intro between target targetImage first firstToo next twin
  cases twin with
  | object identity like =>
    refine .bind ((smaller.evaluate (lawful.lead known (.stored first))
      (lawful.stands stands next) valueLike).within (.stored firstToo)) ?_
    intro after result image _ _ _ twin
    rw [marks.lexeme]
    exact .setField twin
  | _ => exact .fail marks.token _

/-- Expressions that stand for each other keep pace with one more unit of fuel. -/
theorem evaluate_succ {expression image : Expr}
    (known : P.known (.evaluate (fuel + 1) expression) (P.machine world))
    (stands : P.stands context world) (like : P.expr context expression image) :
    P.Paces ((Task.evaluate (P.extra + fuel + 1) image).Outwrites (P.other world)) world P.Twin
      (Eval.evaluate (fuel + 1) expression) (Eval.evaluate (P.extra + fuel + 1) image) := by
  have parts := lawful.exprParts like
  cases expression with
  | literal value =>
    obtain rfl := parts
    exact .pure (.ofPlain value.value_isPlain)
  | grouping inner =>
    obtain ⟨other, rfl, innerLike⟩ := parts
    exact (smaller.evaluate (lawful.lead known .grouping) stands innerLike).within .grouping
  | unary operator operand =>
    obtain ⟨sign, other, rfl, mark, operandLike⟩ := parts
    refine .bind ((smaller.evaluate (lawful.lead known .operand) stands operandLike).within
      .operand) ?_
    intro between value result _ _ _ twin
    rw [mark.kind, twin.applyUnary]
    exact .ofExcept mark.token fun _ computed => isPlain_of_applyUnary computed
  | binary left operator right =>
    obtain ⟨first, sign, second, rfl, leftLike, mark, rightLike⟩ := parts
    refine .bind ((smaller.evaluate (lawful.lead known .left) stands leftLike).within .left) ?_
    intro between leftValue leftImage ended also next leftTwin
    refine .bind ((smaller.evaluate (lawful.lead known (.right ended))
      (lawful.stands stands next) rightLike).within (.right also)) ?_
    intro after rightValue rightImage _ _ further rightTwin
    rw [mark.kind, (leftTwin.later further.later).applyBinary rightTwin]
    exact .ofExcept mark.token fun _ computed => isPlain_of_applyBinary computed
  | logical left operator right =>
    obtain ⟨first, sign, second, rfl, leftLike, mark, rightLike⟩ := parts
    exact smaller.evaluate_logical known stands leftLike mark rightLike
  | reference id name =>
    obtain ⟨otherId, spelled, rfl, occurs⟩ := parts
    exact .found (lawful.lookup stands occurs (lawful.lead known .reference))
  | assign id name value =>
    obtain ⟨otherId, spelled, other, rfl, occurs, valueLike⟩ := parts
    refine .bind ((smaller.evaluate (lawful.lead known .assigned) stands valueLike).within
      .assigned) ?_
    intro between result resultImage ended _ next twin
    have stored := lawful.assign (lawful.stands stands next) occurs twin
      (lawful.lead known (.assign ended))
    exact .bind (.meets stored) fun _ _ _ _ _ next _ => .pure (twin.later next.later)
  | call callee paren arguments =>
    obtain ⟨other, mark, others, rfl, calleeLike, marks, same⟩ := parts
    exact smaller.evaluate_call known stands calleeLike marks same
  | get object name =>
    obtain ⟨other, mark, rfl, objectLike, marks⟩ := parts
    refine .bind ((smaller.evaluate (lawful.lead known .accessed) stands objectLike).within
      .accessed) ?_
    exact fun between value image _ _ _ twin => .property twin marks
  | set object name value =>
    obtain ⟨other, mark, result, rfl, objectLike, marks, valueLike⟩ := parts
    exact smaller.evaluate_set known stands objectLike marks valueLike
  | this id keyword =>
    obtain ⟨otherId, spelled, rfl, occurs⟩ := parts
    exact .found (lawful.lookup stands occurs (lawful.lead known .this))
  | super id keyword method =>
    obtain ⟨otherId, spelled, mark, rfl, occurs, marks⟩ := parts
    exact .superMethod stands occurs marks (lawful.lead known .super)

/-- Lists of expressions that stand for each other keep pace. -/
theorem evaluateAll_succ {expressions images : List Expr}
    (known : P.known (.evaluateAll (fuel + 1) expressions) (P.machine world))
    (stands : P.stands context world) (same : List.Forall₂ (P.expr context) expressions images) :
    P.Paces ((Task.evaluateAll (P.extra + fuel + 1) images).Outwrites (P.other world)) world
      (fun after => List.Forall₂ (P.Twin after)) (Eval.evaluateAll (fuel + 1) expressions)
      (Eval.evaluateAll (P.extra + fuel + 1) images) := by
  cases same with
  | nil => exact .pure .nil
  | cons like same =>
    refine .bind ((smaller.evaluate (lawful.lead known .firstArgument) stands like).within
      .firstArgument) ?_
    intro between value image ended also next twin
    refine .bind ((smaller.evaluateAll (lawful.lead known (.otherArguments ended))
      (lawful.stands stands next) same).within (.otherArguments also)) ?_
    exact fun _ _ _ _ _ further listed => .pure (.cons (twin.later further.later) listed)

/-- Calls of values that stand for each other keep pace: of a function, of a class or of a native
function. -/
theorem call_succ {callee image : Value} {paren mark : Token} {arguments others : List Value}
    (known : P.known (.call (fuel + 1) callee paren arguments) (P.machine world))
    (twin : P.Twin world callee image) (stands : P.token paren mark)
    (same : List.Forall₂ (P.Twin world) arguments others) :
    P.Paces ((Task.call (P.extra + fuel + 1) image mark others).Outwrites (P.other world)) world
      P.Twin (Eval.call (fuel + 1) callee paren arguments)
      (Eval.call (P.extra + fuel + 1) image mark others) := by
  cases twin with
  | native builtin blind => exact .callNative stands blind
  | function identity like =>
    exact (smaller.invoke (lawful.lead known .function) like stands same).within .function
  | classObject like =>
    refine .bind (.newObject like) ?_
    intro between created other making makingToo next receiver
    rcases absent_or_related (lawful.originMethod (lawful.originLater like next.later)
      initializerName) with ⟨missing, also⟩ | ⟨found, method, here, there, methods⟩
    · rw [missing, also]
      exact .pure receiver
    · rw [here, there]
      refine .bind (.bindMethod methods receiver) ?_
      intro ready bound boundImage binding bindingToo further closures
      have later := lawful.trans next.later further.later
      refine .bind ((smaller.invoke (lawful.lead known (.initializer making here binding)) closures
        stands (same.imp fun _ _ twin => twin.later later)).within
          (.initializer makingToo there bindingToo)) ?_
      exact fun _ _ _ _ _ last _ =>
        .pure (receiver.later (lawful.trans further.later last.later))
  | _ => exact .fail stands _

/-- Invocations keep pace: the bodies do, and initializers give the instances they are bound to. -/
theorem invoke_succ {closure image : Closure} {paren mark : Token} {arguments others : List Value}
    (known : P.known (.invoke (fuel + 1) closure paren arguments) (P.machine world))
    (like : P.closure world closure image) (stands : P.token paren mark)
    (same : List.Forall₂ (P.Twin world) arguments others) :
    P.Paces ((Task.invoke (P.extra + fuel + 1) image mark others).Outwrites (P.other world)) world
      P.Twin (Eval.invoke (fuel + 1) closure paren arguments)
      (Eval.invoke (P.extra + fuel + 1) image mark others) := by
  have writes : (Task.invoke (P.extra + fuel + 1) image mark others).Outwrites (P.other world)
      (P.machine world).sink.written := by
    rw [← (lawful.beside world).sink]
    exact Task.outwrites
  refine .bind (.runBody like stands same writes ?_) ?_
  · intro inner context entered enteredToo below belowToo standing statements
    refine Paces.within (smaller.executeAll ?_ standing statements) ?_
    · rw [entered]
      exact lawful.lead known (.enter below)
    · rw [enteredToo]
      exact .enter belowToo
  · intro between flow flowImage ran ranToo next parting
    have like := lawful.closureLater like next.later
    rw [lawful.closureFlag like]
    split
    case isTrue initializes =>
      exact .found (lawful.receiver like initializes
        (lawful.lead known (.receiver ran initializes)))
    case isFalse => exact .pure parting.result

/-- Blocks are executed in frames of their own on both sides. -/
theorem execute_block {body : List Stmt} {image : Stmt}
    (known : P.known (.execute (fuel + 1) (.block body)) (P.machine world))
    (stands : P.stands context world) (like : P.stmt context (.block body) image) :
    P.Paces ((Task.execute (P.extra + fuel + 1) image).Outwrites (P.other world)) world P.Parting
      (Eval.execute (fuel + 1) (.block body)) (Eval.execute (P.extra + fuel + 1) image) := by
  obtain ⟨others, rfl, inner, opened, openedToo, later, within, standing, same⟩ :=
    lawful.block stands like
  have ended := Eval.execute_block fuel body (P.machine world)
  have also := Eval.execute_block (P.extra + fuel) others (P.other world)
  rw [← Machine.openBlock, ← opened] at ended
  rw [← Machine.openBlock, ← openedToo] at also
  refine .elsewhere ended also later ?_ (Paces.within (smaller.executeAll ?_ standing same) ?_)
    fun _ _ _ _ later _ parting => parting.later later
  · intro after next
    refine ⟨Machine.leaveBlock_eq_backTo (next.callDepth.trans (by rw [opened]; rfl)),
      Machine.leaveBlock_eq_backTo (next.otherDepth.trans (by rw [openedToo]; rfl))⟩
  · rw [opened]
    exact lawful.lead known (.block rfl)
  · rw [openedToo]
    exact .block rfl

/-- The same branch is taken on both sides. -/
theorem execute_branch {condition test : Expr} {whenTrue first : Stmt}
    {whenFalse second : Option Stmt}
    (known : P.known (.execute (fuel + 1) (.branch condition whenTrue whenFalse))
      (P.machine world))
    (stands : P.stands context world) (testLike : P.expr context condition test)
    (trueLike : P.stmt context whenTrue first)
    (falseLike : Option.Rel (P.stmt context) whenFalse second) :
    P.Paces ((Task.execute (P.extra + fuel + 1) (.branch test first second)).Outwrites
        (P.other world)) world P.Parting
      (Eval.execute (fuel + 1) (.branch condition whenTrue whenFalse))
      (Eval.execute (P.extra + fuel + 1) (.branch test first second)) := by
  refine .bind ((smaller.evaluate (lawful.lead known .condition) stands testLike).within
    .condition) ?_
  intro between value image ended also next twin
  rw [twin.isTruthy]
  split
  case isTrue holds =>
    exact (smaller.execute (lawful.lead known (.whenTrue ended holds))
      (lawful.stands stands next) trueLike).within (.whenTrue also (twin.isTruthy.trans holds))
  case isFalse fails =>
    have fails : value.isTruthy = false := by simpa using fails
    cases falseLike with
    | none => exact .pure .normal
    | some falseLike =>
      exact (smaller.execute (lawful.lead known (.whenFalse ended fails))
        (lawful.stands stands next) falseLike).within
          (.whenFalse also (twin.isTruthy.trans fails))

/-- Statements that stand for each other keep pace with one more unit of fuel. -/
theorem execute_succ {statement image : Stmt}
    (known : P.known (.execute (fuel + 1) statement) (P.machine world))
    (stands : P.stands context world) (like : P.stmt context statement image) :
    P.Paces ((Task.execute (P.extra + fuel + 1) image).Outwrites (P.other world)) world P.Parting
      (Eval.execute (fuel + 1) statement) (Eval.execute (P.extra + fuel + 1) image) := by
  have parts := lawful.stmtParts like
  cases statement with
  | expression value =>
    obtain ⟨other, rfl, valueLike⟩ := parts
    refine .bind ((smaller.evaluate (lawful.lead known .expression) stands valueLike).within
      .expression) ?_
    exact fun _ _ _ _ _ _ _ => .pure .normal
  | print keyword value =>
    obtain ⟨mark, other, rfl, token, valueLike⟩ := parts
    refine .bind ((smaller.evaluate (lawful.lead known .print) stands valueLike).within
      .print) ?_
    intro between result image _ _ _ twin
    rw [twin.display]
    exact .bind (.write token _) fun _ _ _ _ _ _ _ => .pure .normal
  | declare name initializer =>
    obtain ⟨spelled, other, rfl, declares, initializers⟩ := parts
    cases initializers with
    | none => exact .declared stands declares .nil
    | some valueLike =>
      refine .bind ((smaller.evaluate (lawful.lead known .declare) stands valueLike).within
        .declare) ?_
      exact fun _ _ _ _ _ next twin => .declared (lawful.stands stands next) declares twin
  | block body => exact smaller.execute_block known stands like
  | branch condition whenTrue whenFalse =>
    obtain ⟨test, first, second, rfl, testLike, trueLike, falseLike⟩ := parts
    exact smaller.execute_branch known stands testLike trueLike falseLike
  | loop condition body =>
    obtain ⟨test, other, rfl, testLike, bodyLike⟩ := parts
    exact (smaller.repeatWhile (lawful.lead known .loop) stands testLike bodyLike).within .loop
  | function declaration =>
    obtain ⟨other, rfl, declares, closures⟩ := lawful.function stands like
    refine .bind .environment ?_
    rintro _ _ _ _ _ _ ⟨rfl, rfl, rfl⟩
    exact .bind (.newFunction closures) fun _ _ _ _ _ next twin =>
      .declared (lawful.stands stands next) declares twin
  | «return» keyword value =>
    obtain ⟨mark, other, rfl, values⟩ := parts
    cases values with
    | none => exact .pure (.returned .nil)
    | some valueLike =>
      refine .bind ((smaller.evaluate (lawful.lead known .return) stands valueLike).within
        .return) ?_
      exact fun _ _ _ _ _ _ twin => .pure (.returned twin)
  | «class» name superclass methods =>
    cases superclass with
    | none =>
      obtain ⟨spelled, others, rfl, declares, origins⟩ := lawful.base stands like
      exact .bind (.defineBase stands declares origins) fun _ _ _ _ _ _ _ => .pure .normal
    | some superclass =>
      obtain ⟨spelled, parent, others, rfl, parentLike, token⟩ := parts
      refine .bind ((smaller.evaluate (lawful.lead known .superclass) stands parentLike).within
        .superclass) ?_
      intro between value image _ _ next twin
      refine .bind (.asSuperclass token twin) fun after ancestor other _ _ further inherited => ?_
      exact .bind (.defineDerived (lawful.stands stands (next.trans further)) like inherited)
        fun _ _ _ _ _ _ _ => .pure .normal

/-- Lists of statements that stand for each other keep pace. -/
theorem executeAll_succ {statements images : List Stmt}
    (known : P.known (.executeAll (fuel + 1) statements) (P.machine world))
    (stands : P.stands context world) (same : List.Forall₂ (P.stmt context) statements images) :
    P.Paces ((Task.executeAll (P.extra + fuel + 1) images).Outwrites (P.other world)) world
      P.Parting (Eval.executeAll (fuel + 1) statements)
      (Eval.executeAll (P.extra + fuel + 1) images) := by
  cases same with
  | nil => exact .pure .normal
  | cons like same =>
    refine .bind ((smaller.execute (lawful.lead known .firstStatement) stands like).within
      .firstStatement) ?_
    intro between flow image ran ranToo next parting
    cases parting with
    | returned twin => exact .pure (.returned twin)
    | normal =>
      exact (smaller.executeAll (lawful.lead known (.otherStatements ran))
        (lawful.stands stands next) same).within (.otherStatements ranToo)

/-- Loops that stand for each other keep pace. -/
theorem repeatWhile_succ {condition test : Expr} {body image : Stmt}
    (known : P.known (.repeatWhile (fuel + 1) condition body) (P.machine world))
    (stands : P.stands context world) (testLike : P.expr context condition test)
    (like : P.stmt context body image) :
    P.Paces ((Task.repeatWhile (P.extra + fuel + 1) test image).Outwrites (P.other world)) world
      P.Parting (Eval.repeatWhile (fuel + 1) condition body)
      (Eval.repeatWhile (P.extra + fuel + 1) test image) := by
  refine .bind ((smaller.evaluate (lawful.lead known .test) stands testLike).within .test) ?_
  intro between value valueImage first firstToo next twin
  rw [twin.isTruthy]
  split
  case isTrue holds =>
    have holdsToo := twin.isTruthy.trans holds
    have standing := lawful.stands stands next
    refine .bind ((smaller.execute (lawful.lead known (.repeated first holds)) standing
      like).within (.repeated firstToo holdsToo)) ?_
    intro after flow flowImage second secondToo further parting
    cases parting with
    | returned twin => exact .pure (.returned twin)
    | normal =>
      exact (smaller.repeatWhile (lawful.lead known (.again first holds second))
        (lawful.stands standing further) testLike like).within
          (.again firstToo holdsToo secondToo)
  case isFalse => exact .pure .normal

end PacedAt

/-- All evaluators keep pace, however much fuel the first run has. -/
theorem Lawful.paces (fuel : Nat) : P.PacedAt fuel := by
  induction fuel with
  | zero => exact .zero
  | succ fuel smaller =>
    exact
      { evaluate := smaller.evaluate_succ
        evaluateAll := smaller.evaluateAll_succ
        call := smaller.call_succ
        invoke := smaller.invoke_succ
        execute := smaller.execute_succ
        executeAll := smaller.executeAll_succ
        repeatWhile := smaller.repeatWhile_succ }

/-- Top-level statements that stand for each other keep pace. -/
theorem Lawful.paces_topLevel {context : P.Context} (fuel : Nat) {statements images : List Stmt}
    (known : P.known (.topLevel fuel statements) (P.machine world))
    (stands : P.stands context world) (same : List.Forall₂ (P.stmt context) statements images) :
    P.Paces ((Task.topLevel (P.extra + fuel) images).Outwrites (P.other world)) world
      (fun _ _ _ => True) (executeTopLevel fuel statements)
      (executeTopLevel (P.extra + fuel) images) := by
  induction same generalizing world with
  | nil => exact .pure trivial
  | cons like same inductionHypothesis =>
    refine .bind (((lawful.paces fuel).execute (lawful.lead known .topStatement) stands
      like).within .topStatement) ?_
    intro between flow image ran ranToo next _
    exact (inductionHypothesis (lawful.lead known (.nextStatements ran))
      (lawful.stands stands next)).within (.nextStatements ranToo)

end Pairing

end LoxLang
