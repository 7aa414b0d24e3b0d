import LoxLang.Proofs.Machine.Operation
import LoxLang.Proofs.Scope.Leveled

/-!
# Frames that fix `this` and `super`

A method is bound to its instance by a frame of its own, in which `this` is the instance, and a
derived class has a frame in which `super` is its superclass. `Store.Fixes` says that a later store
leaves both as they were, in every frame that an earlier one has. `Store.Nearest` says where a name
is found from an environment outwards, and `Store.Roots` that code a number of scopes inside a
method finds its instance and its superclass there. A value is *rooted* if all its functions are, if
every class in it leads from body to body along the frames of `super`, and if its instances exist.
-/

namespace LoxLang

namespace Store

/-- A later store has at least the frames and instances of an earlier one, and the earlier frames
bind `this` and `super` as they did. -/
structure Fixes (before after : Store) : Prop where
  frames : before.frames.size ≤ after.frames.size
  objects : before.objects.size ≤ after.objects.size
  bindings : ∀ frame name, frame < before.frames.size → name = "this" ∨ name = "super" →
    after.binding? frame name = before.binding? frame name

namespace Fixes

variable {store middle after : Store}

/-- A store fixes what it has itself. -/
theorem refl (store : Store) : store.Fixes store where
  frames := Nat.le_refl _
  objects := Nat.le_refl _
  bindings := fun _ _ _ _ => rfl

/-- What stays fixed on two stretches stays fixed on both together. -/
theorem trans (first : store.Fixes middle) (second : middle.Fixes after) : store.Fixes after where
  frames := Nat.le_trans first.frames second.frames
  objects := Nat.le_trans first.objects second.objects
  bindings := fun frame name there reserved =>
    (second.bindings frame name (Nat.lt_of_lt_of_le there first.frames) reserved).trans
      (first.bindings frame name there reserved)

/-- A variable is neither `this` nor `super`. -/
theorem define (store : Store) (frame : Nat) {name : Token} (value : Value)
    (named : name.Unreserved) : store.Fixes (store.define frame name.lexeme value) where
  frames := by simp [Store.define, Tables.set]
  objects := Nat.le_refl _
  bindings := by
    intro other wanted _ reserved
    have different : wanted ≠ name.lexeme := by
      rintro rfl
      exact reserved.elim named.1 named.2
    simp [Store.binding?, Store.define, Tables.value?_set, different]

/-- A further frame leaves what `this` and `super` stand for in the others. -/
theorem addFrame (store : Store) (bindings : Bindings) : store.Fixes (store.addFrame bindings) where
  frames := by simp [Store.addFrame]
  objects := Nat.le_refl _
  bindings := by
    intro frame name there _
    simp [Store.binding?, Store.addFrame, Tables.value?_push, Nat.ne_of_lt there]

/-- A further object leaves what `this` and `super` stand for. -/
theorem addObject (store : Store) : store.Fixes store.addObject where
  frames := Nat.le_refl _
  objects := by simp [Store.addObject]
  bindings := fun _ _ _ _ => rfl

/-- A field leaves what `this` and `super` stand for. -/
theorem setField (store : Store) (object : Nat) (name : String) (value : Value) :
    store.Fixes (store.setField object name value) where
  frames := Nat.le_refl _
  objects := by simp [Store.setField, Tables.set]
  bindings := fun _ _ _ _ => rfl

end Fixes

/-- Only a frame that exists binds a name. -/
theorem lt_of_binding? {store : Store} {frame : Nat} {name : String} {value : Value}
    (bound : store.binding? frame name = some value) : frame < store.frames.size := by
  obtain ⟨bindings, there, _⟩ := Option.bind_eq_some_iff.mp bound
  exact (Array.getElem?_eq_some_iff.mp there).1

/-- A further frame binds what it is made with. -/
theorem binding?_addFrame (store : Store) (bindings : Bindings) (name : String) :
    (store.addFrame bindings).binding? store.frames.size name = bindings[name]? := by
  simp [Store.binding?, Store.addFrame, Tables.value?_push]

/-- From an environment outwards, a name is found first in the frame at a distance, with a value. -/
inductive Nearest (store : Store) (name : String) (value : Value) : Environment → Nat → Prop where
  | here {frame : Nat} {outer : Environment} (bound : store.binding? frame name = some value) :
      Nearest store name value (frame :: outer) 0
  | further {frame distance : Nat} {outer : Environment} (there : frame < store.frames.size)
      (free : store.binding? frame name = none) (rest : Nearest store name value outer distance) :
      Nearest store name value (frame :: outer) (distance + 1)

namespace Nearest

variable {store after : Store} {name : String} {value other : Value} {environment : Environment}
  {distance further : Nat}

/-- A reserved name keeps its nearest binding while the store keeps what is fixed. -/
theorem mono (nearest : store.Nearest name value environment distance)
    (reserved : name = "this" ∨ name = "super") (fixes : store.Fixes after) :
    after.Nearest name value environment distance := by
  induction nearest with
  | here bound =>
    exact .here ((fixes.bindings _ name (lt_of_binding? bound) reserved).trans bound)
  | further there free _ inductionHypothesis =>
    exact .further (Nat.lt_of_lt_of_le there fixes.frames)
      ((fixes.bindings _ name there reserved).trans free) inductionHypothesis

/-- What is found first is found at its distance. -/
theorem getAt? (nearest : store.Nearest name value environment distance) :
    store.getAt? environment distance name = some value := by
  induction nearest with
  | here bound => exact bound
  | further _ _ _ inductionHypothesis => exact inductionHypothesis

/-- There is one nearest frame. -/
theorem unique (nearest : store.Nearest name value environment distance)
    (again : store.Nearest name other environment further) :
    value = other ∧ distance = further := by
  induction nearest generalizing further with
  | here bound =>
    cases again with
    | here second => exact ⟨Option.some.inj (bound.symm.trans second), rfl⟩
    | further _ free _ => cases bound.symm.trans free
  | further _ free _ inductionHypothesis =>
    cases again with
    | here bound => cases free.symm.trans bound
    | further _ _ rest =>
      obtain ⟨same, equal⟩ := inductionHypothesis rest
      exact ⟨same, congrArg (· + 1) equal⟩

/-- A new frame without the name lies in between. -/
theorem push (nearest : store.Nearest name value environment distance)
    (reserved : name = "this" ∨ name = "super") {bindings : Bindings}
    (free : bindings[name]? = none) :
    (store.addFrame bindings).Nearest name value (store.frames.size :: environment)
      (distance + 1) :=
  .further (by simp [Store.addFrame]) ((store.binding?_addFrame bindings name).trans free)
    (nearest.mono reserved (.addFrame store bindings))

end Nearest

/-- Code a number of scopes inside the scope of `this` finds its instance at that distance and, in a
derived class, its superclass one frame further. -/
structure Roots (store : Store) (inside : ClassContext) (level : Nat)
    (environment : Environment) : Prop where
  this : inside ≠ .outside → ∃ identity origin,
    store.Nearest "this" (.object identity origin) environment level
  super : inside = .derived → ∃ parent,
    store.Nearest "super" (.classObject parent) environment (level + 1)

namespace Roots

variable {store after : Store} {inside : ClassContext} {level : Nat} {environment : Environment}

/-- An environment keeps its roots while the store keeps what is fixed. -/
theorem mono (roots : store.Roots inside level environment) (fixes : store.Fixes after) :
    after.Roots inside level environment where
  this := by
    intro within
    obtain ⟨identity, origin, nearest⟩ := roots.this within
    exact ⟨identity, origin, nearest.mono (.inl rfl) fixes⟩
  super := by
    intro within
    obtain ⟨parent, nearest⟩ := roots.super within
    exact ⟨parent, nearest.mono (.inr rfl) fixes⟩

/-- A frame of variables lies in between. -/
theorem push (roots : store.Roots inside level environment) {bindings : Bindings}
    (this : bindings["this"]? = none) (super : bindings["super"]? = none) :
    (store.addFrame bindings).Roots inside (level + 1) (store.frames.size :: environment) where
  this := by
    intro within
    obtain ⟨identity, origin, nearest⟩ := roots.this within
    exact ⟨identity, origin, nearest.push (.inl rfl) this⟩
  super := by
    intro within
    obtain ⟨parent, nearest⟩ := roots.super within
    exact ⟨parent, nearest.push (.inr rfl) super⟩

end Roots

/-- The bodies of a class and its ancestors: the methods of each but the last share a frame in which
`super` is the class whose bodies follow. -/
inductive Lineage (addressing : Addressing) (store : Store) : List ClassBody → Prop where
  | base {methods : List FunctionDecl} {environment : Environment}
      (members : ∀ method ∈ methods, method.Leveled addressing .base 0) :
      Lineage addressing store [⟨methods, environment⟩]
  | derived {methods : List FunctionDecl} {environment : Environment} {parent : ClassObject}
      (members : ∀ method ∈ methods, method.Leveled addressing .derived 0)
      (super : store.Nearest "super" (.classObject parent) environment 0)
      (ancestors : Lineage addressing store parent.lineage) :
      Lineage addressing store (⟨methods, environment⟩ :: parent.lineage)

end Store

/-- A method that awaits its instance: in a derived class it finds its superclass at once. -/
def Closure.Awaiting (addressing : Addressing) (store : Store) (method : Closure) : Prop :=
  ∃ inside, method.declaration.Leveled addressing inside 0 ∧ (inside = .derived → ∃ parent,
    store.Nearest "super" (.classObject parent) method.environment 0)

/-- A closure whose code finds its instance and its superclass. -/
def Closure.Rooted (addressing : Addressing) (store : Store) (closure : Closure) : Prop :=
  ∃ inside level, closure.declaration.Leveled addressing inside level ∧
    store.Roots inside level closure.environment

/-- A value whose functions are rooted, whose classes know their ancestors and whose instances
exist. -/
def Value.Rooted (addressing : Addressing) (store : Store) : Value → Prop
  | .function _ closure => closure.Rooted addressing store
  | .classObject origin => store.Lineage addressing origin.lineage
  | .object identity origin =>
    identity < store.objects.size ∧ store.Lineage addressing origin.lineage
  | _ => True

section Lasting

variable {addressing later : Addressing} {store after : Store}

/-- A line of classes stays known while the store keeps what is fixed. -/
theorem Store.Lineage.mono {lineage : List ClassBody} (known : store.Lineage addressing lineage)
    (fixes : store.Fixes after) : after.Lineage addressing lineage := by
  induction known with
  | base members => exact .base members
  | derived members super _ inductionHypothesis =>
    exact .derived members (super.mono (.inr rfl) fixes) inductionHypothesis

/-- A line of classes stays known as declarations are added. -/
theorem Store.Lineage.extend {lineage : List ClassBody} (known : store.Lineage addressing lineage)
    (includes : later.Includes addressing) : store.Lineage later lineage := by
  induction known with
  | base members =>
    exact .base fun method listed => method.leveled_mono includes (members method listed)
  | derived members super _ inductionHypothesis =>
    exact .derived (fun method listed => method.leveled_mono includes (members method listed))
      super inductionHypothesis

/-- The methods of a class await their instance. -/
theorem Store.Lineage.method {lineage : List ClassBody} (known : store.Lineage addressing lineage)
    {name : String} {method : Closure}
    (found : lineage.findSome? (·.method? name) = some method) :
    method.Awaiting addressing store := by
  have listed {body : ClassBody} (own : body.method? name = some method) :
      method.declaration ∈ body.methods ∧ method.environment = body.environment := by
    obtain ⟨declaration, member, rfl⟩ := Option.map_eq_some_iff.mp own
    exact ⟨List.mem_reverse.mp (List.mem_of_find?_eq_some member), rfl⟩
  induction known with
  | base members =>
    rw [List.findSome?_cons] at found
    split at found
    case h_1 own =>
      obtain rfl := Option.some.inj found
      exact ⟨.base, members _ (listed own).1, nofun⟩
    case h_2 => cases found
  | @derived methods environment parent members super _ inductionHypothesis =>
    rw [List.findSome?_cons] at found
    split at found
    case h_1 own =>
      obtain rfl := Option.some.inj found
      obtain ⟨member, same⟩ := listed own
      exact ⟨.derived, members _ member, fun _ => ⟨parent, same ▸ super⟩⟩
    case h_2 => exact inductionHypothesis found

/-- A closure stays rooted while the store keeps what is fixed. -/
theorem Closure.Rooted.mono {closure : Closure} (rooted : closure.Rooted addressing store)
    (fixes : store.Fixes after) : closure.Rooted addressing after := by
  obtain ⟨inside, level, leveled, roots⟩ := rooted
  exact ⟨inside, level, leveled, roots.mono fixes⟩

/-- A value stays rooted while the store keeps what is fixed. -/
theorem Value.Rooted.mono {value : Value} (rooted : value.Rooted addressing store)
    (fixes : store.Fixes after) : value.Rooted addressing after := by
  cases value with
  | function identity closure => exact Closure.Rooted.mono rooted fixes
  | classObject origin => exact Store.Lineage.mono rooted fixes
  | object identity origin =>
    exact ⟨Nat.lt_of_lt_of_le rooted.1 fixes.objects, rooted.2.mono fixes⟩
  | _ => trivial

/-- A value stays rooted as declarations are added. -/
theorem Value.Rooted.extend {value : Value} (rooted : value.Rooted addressing store)
    (includes : later.Includes addressing) : value.Rooted later store := by
  cases value with
  | function identity closure =>
    obtain ⟨inside, level, leveled, roots⟩ := rooted
    exact ⟨inside, level, closure.declaration.leveled_mono includes leveled, roots⟩
  | classObject origin => exact Store.Lineage.extend rooted includes
  | object identity origin => exact ⟨rooted.1, rooted.2.extend includes⟩
  | _ => trivial

/-- A plain value is rooted. -/
theorem Value.IsPlain.rooted {value : Value} (plain : value.IsPlain) :
    value.Rooted addressing store := by
  cases value with
  | function | classObject | object => exact plain.elim
  | _ => trivial

/-- An instance is as rooted as its class. -/
theorem Value.Rooted.lineage {value : Value} {origin : ClassObject}
    (rooted : value.Rooted addressing store) (given : value.origin? = some origin) :
    store.Lineage addressing origin.lineage := by
  cases value with
  | classObject =>
    cases given
    exact rooted
  | object =>
    cases given
    exact rooted.2
  | _ => cases given

end Lasting

namespace Machine

/-- A machine that keeps rooted values only and looks occurrences up where they were resolved. -/
structure Rooted (addressing : Addressing) (machine : Machine) : Prop where
  distances : ∀ id, machine.distances[id]? = addressing.address? id
  kept : machine.store.Keeps (fun _ => Value.Rooted addressing machine.store)
    (Value.Rooted addressing machine.store)

variable {addressing : Addressing} {inside : ClassContext} {level : Nat}
  {machine middle after : Machine}

namespace Rooted

variable (rooted : machine.Rooted addressing)
include rooted

/-- What a machine keeps stays rooted whatever else it is busy with. -/
theorem sameStore (distances : after.distances = machine.distances)
    (store : after.store = machine.store) : after.Rooted addressing where
  distances := fun id => by rw [distances, rooted.distances]
  kept := store ▸ rooted.kept

/-- A later machine is rooted if it keeps what was rooted before. -/
theorem later (distances : after.distances = machine.distances)
    (fixes : machine.store.Fixes after.store)
    (kept : after.store.Keeps (fun _ => Value.Rooted addressing machine.store)
      (Value.Rooted addressing machine.store)) : after.Rooted addressing where
  distances := fun id => by rw [distances, rooted.distances]
  kept := kept.imp (fun _ _ known => known.mono fixes) fun _ known => known.mono fixes

/-- Binding an unreserved name to a rooted value keeps the machine rooted. -/
theorem bind (frame : Nat) {name : Token} {value : Value} (named : name.Unreserved)
    (given : value.Rooted addressing machine.store) :
    Rooted addressing
      { machine with store := machine.store.define frame name.lexeme value } :=
  rooted.later rfl (.define machine.store frame value named) (rooted.kept.define frame given)

/-- A further frame with one rooted value keeps the machine rooted. -/
theorem addSingle (name : String) {value : Value} (given : value.Rooted addressing machine.store) :
    Rooted addressing { machine with
      store := machine.store.addFrame (Std.TreeMap.empty.insert name value) } :=
  rooted.later rfl (.addFrame _ _) (rooted.kept.addSingle given)

/-- A frame without names is added for a block. -/
theorem addEmpty (environment : Environment) :
    Rooted addressing { machine with store := machine.store.addFrame ∅, environment } :=
  rooted.later rfl (.addFrame _ _) rooted.kept.addEmpty

/-- A fresh object has no fields, so the machine stays rooted. -/
theorem addObject : Rooted addressing { machine with store := machine.store.addObject } :=
  rooted.later rfl (.addObject _) rooted.kept.addObject

/-- A rooted value as a field keeps the machine rooted. -/
theorem setField (object : Nat) (name : String) {value : Value}
    (given : value.Rooted addressing machine.store) :
    Rooted addressing { machine with store := machine.store.setField object name value } :=
  rooted.later rfl (.setField _ _ _ _) (rooted.kept.setField object name given)

/-- A variable is defined in the innermost frame, and `this` and `super` are bound as before. -/
theorem define {name : Token} {value : Value} (named : name.Unreserved)
    (given : value.Rooted addressing machine.store) :
    (machine.define name.lexeme value).Rooted addressing ∧
      machine.store.Fixes (machine.define name.lexeme value).store := by
  unfold Machine.define
  split
  case h_1 => exact ⟨rooted, .refl _⟩
  case h_2 frame _ _ => exact ⟨rooted.bind frame named given, .define _ _ _ named⟩

/-- The frame of the parameters and that of the body are added. -/
theorem enter {closure : Closure} {arguments : List Value}
    (listed : ∀ argument ∈ arguments, argument.Rooted addressing machine.store) :
    (machine.enter closure arguments).Rooted addressing :=
  rooted.later rfl ((Store.Fixes.addFrame _ _).trans (.addFrame _ _))
    (Machine.enter_keeps rooted.kept fun _ value found =>
      listed value (Eval.forall_parameterBindings found))

end Rooted

end Machine

/-- The two frames of a call lie between the body of a function and its environment. -/
theorem Store.Nearest.enter {machine : Machine} {closure : Closure} {arguments : List Value}
    {name : String} {value : Value} {distance : Nat}
    (nearest : machine.store.Nearest name value closure.environment distance)
    (reserved : name = "this" ∨ name = "super")
    (named : ∀ parameter ∈ closure.declaration.parameters, parameter.Unreserved) :
    (machine.enter closure arguments).store.Nearest name value
      (machine.enter closure arguments).environment (distance + 2) := by
  refine (nearest.push reserved (Eval.parameterBindings_free fun parameter member => ?_)).push
    reserved (by simp)
  rcases reserved with rfl | rfl
  · exact (named parameter member).1
  · exact (named parameter member).2

end LoxLang
