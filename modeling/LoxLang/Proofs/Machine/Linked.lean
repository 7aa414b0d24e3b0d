import LoxLang.Proofs.Machine.Operation
import LoxLang.Proofs.Store.Links

/-!
# Machines whose environments follow links

An environment is a `Links.Chain` if each of its frames is enclosed by the next one, up to the
globals. A machine is `Machine.Linked` if some links between its frames make chains of its current
environment and of every environment that a stored value keeps. One link is added for each new
frame, and none ever changes, so chains stay chains.
-/

namespace LoxLang

namespace Links

/-- Every link of an earlier time is still there. -/
def Extends (links later : Links) : Prop :=
  ∀ frame outer, links.enclosing? frame = some outer → later.enclosing? frame = some outer

/-- Each frame of an environment is enclosed by the next one, and the globals come last. -/
inductive Chain (links : Links) : Environment → Prop where
  | globals : Chain links globalEnvironment
  | inner {frame outer : Nat} {environment : Environment}
      (linked : links.enclosing? frame = some outer) (rest : Chain links (outer :: environment)) :
      Chain links (frame :: outer :: environment)

variable {links middle later : Links} {environment : Environment} {frame outer : Nat}

/-- Links extend themselves. -/
theorem Extends.refl (links : Links) : links.Extends links :=
  fun _ _ linked => linked

/-- Links are extended one after another. -/
theorem Extends.trans (first : links.Extends middle) (second : middle.Extends later) :
    links.Extends later :=
  fun frame outer linked => second frame outer (first frame outer linked)

/-- A frame that was not enclosed may be enclosed later. -/
theorem extends_enclose {inner : Nat} (free : links.enclosing? inner = .none)
    (older : outer < inner) : links.Extends (links.enclose inner outer older) := by
  intro frame found linked
  refine (if_neg ?_).trans linked
  rintro rfl
  rw [free] at linked
  cases linked

/-- Nothing encloses the globals. -/
theorem enclosing?_globalFrame (links : Links) : links.enclosing? globalFrame = .none := by
  cases linked : links.enclosing? globalFrame with
  | none => rfl
  | some outer => exact absurd (links.older linked) (Nat.not_lt_zero outer)

namespace Chain

/-- A chain of frames stays one as links are added. -/
theorem extend (chain : links.Chain environment) (grows : links.Extends later) :
    later.Chain environment := by
  induction chain with
  | globals => exact .globals
  | inner linked _ inductionHypothesis => exact .inner (grows _ _ linked) inductionHypothesis

/-- A chain has an innermost frame. -/
theorem innermost (chain : links.Chain environment) :
    ∃ frame outer, environment = frame :: outer := by
  cases chain <;> exact ⟨_, _, rfl⟩

/-- A chain is what is found by following the links. -/
theorem eq_trail (chain : links.Chain environment) :
    ∃ frame, environment = links.trail frame := by
  suffices general : ∀ environment, links.Chain environment →
      ∀ frame outer, environment = frame :: outer → links.trail frame = environment by
    obtain ⟨frame, outer, same⟩ := chain.innermost
    exact ⟨frame, (general environment chain frame outer same).symm⟩
  intro environment chain
  induction chain with
  | globals =>
    rintro frame outer same
    obtain ⟨rfl, _⟩ := List.cons.inj same
    exact trail_of_none links.enclosing?_globalFrame
  | inner linked _ inductionHypothesis =>
    rintro frame others same
    obtain ⟨rfl, _⟩ := List.cons.inj same
    rw [trail_of_some linked, inductionHypothesis _ _ rfl]

/-- No frame comes twice in a chain. -/
theorem nodup (chain : links.Chain environment) : environment.Nodup := by
  obtain ⟨frame, rfl⟩ := chain.eq_trail
  exact links.trail_nodup frame

/-- The last frame of a chain is that of the globals. -/
theorem getLast? (chain : links.Chain environment) :
    environment.getLast? = some globalFrame := by
  induction chain with
  | globals => rfl
  | inner _ _ inductionHypothesis => rwa [List.getLast?_cons_cons]

/-- Only enclosed frames and the globals stand in a chain. -/
theorem enclosed (chain : links.Chain environment) (member : frame ∈ environment) :
    frame = globalFrame ∨ ∃ outer, links.enclosing? frame = some outer := by
  induction chain with
  | globals => exact .inl (List.mem_singleton.mp member)
  | inner linked _ inductionHypothesis =>
    rcases List.mem_cons.mp member with rfl | member
    · exact .inr ⟨_, linked⟩
    · exact inductionHypothesis member

/-- A new frame is enclosed by the innermost frame of a chain. -/
theorem enclose {inner : Nat} (chain : links.Chain (outer :: environment))
    (free : links.enclosing? inner = .none) (older : outer < inner) :
    (links.enclose inner outer older).Chain (inner :: outer :: environment) :=
  .inner (if_pos rfl) (chain.extend (extends_enclose free older))

end Chain

end Links

/-- The environments of the methods of a class, its own and the inherited ones. -/
def ClassObject.environments (origin : ClassObject) : List Environment :=
  origin.lineage.map ClassBody.environment

/-- A method has the environment of the class body that it stands in. -/
theorem ClassObject.mem_environments {origin : ClassObject} {name : String} {method : Closure}
    (found : origin.method? name = some method) : method.environment ∈ origin.environments := by
  obtain ⟨body, member, own⟩ := List.exists_of_findSome?_eq_some found
  obtain ⟨declaration, _, rfl⟩ := Option.map_eq_some_iff.mp own
  exact List.mem_map.mpr ⟨body, member, rfl⟩

namespace Value

/-- The environments that a value keeps: that of a function, or those of the methods of a class. -/
def environments : Value → List Environment
  | .function _ closure => [closure.environment]
  | .classObject origin => origin.environments
  | .object _ origin => origin.environments
  | _ => []

/-- A value that keeps chains only. -/
def Linked (links : Links) (value : Value) : Prop :=
  ∀ environment ∈ value.environments, links.Chain environment

/-- A linked value stays so as links are added. -/
theorem Linked.extend {links later : Links} {value : Value} (linked : value.Linked links)
    (grows : links.Extends later) : value.Linked later :=
  fun environment member => (linked environment member).extend grows

end Value

/-- The methods of a class and of its instances have environments of that class. -/
theorem Value.environments_of_origin? {value : Value} {origin : ClassObject}
    (given : value.origin? = some origin) : value.environments = origin.environments := by
  cases value with
  | classObject | object =>
    cases given
    rfl
  | _ => cases given

/-- A plain value keeps no environment. -/
theorem Value.IsPlain.linked {links : Links} {value : Value} (plain : value.IsPlain) :
    value.Linked links := by
  cases value with
  | function | classObject | object | native => exact plain.elim
  | _ => exact nofun

namespace Machine

/-- Links between existing frames, along which the environment of a machine and those that its
values keep lead to the globals. -/
structure Linked (links : Links) (machine : Machine) : Prop where
  inside : ∀ {frame outer : Nat}, links.enclosing? frame = some outer →
    frame < machine.store.frames.size
  globals : globalFrame < machine.store.frames.size
  environment : links.Chain machine.environment
  kept : machine.store.Keeps (fun _ => Value.Linked links) (Value.Linked links)

variable {links later : Links} {machine after : Machine}

namespace Linked

variable (linked : machine.Linked links)
include linked

/-- The frames of a chain exist. -/
theorem lt_of_mem {environment : Environment} (chain : links.Chain environment) {frame : Nat}
    (member : frame ∈ environment) : frame < machine.store.frames.size := by
  rcases chain.enclosed member with rfl | ⟨outer, found⟩
  · exact linked.globals
  · exact linked.inside found

/-- A frame that does not exist yet is not enclosed. -/
theorem fresh : links.enclosing? machine.store.frames.size = none := by
  cases found : links.enclosing? machine.store.frames.size with
  | none => rfl
  | some outer => exact absurd (linked.inside found) (Nat.lt_irrefl _)

/-- What a machine keeps stays linked whatever else it is busy with, in the environment of any
chain. -/
theorem sameStore (chain : links.Chain after.environment)
    (store : after.store = machine.store) : after.Linked links where
  inside found := store ▸ linked.inside found
  globals := store ▸ linked.globals
  environment := chain
  kept := store ▸ linked.kept

/-- A value that keeps chains may be bound to a name. -/
theorem bind (frame : Nat) (name : String) {value : Value} (given : value.Linked links) :
    Linked links { machine with store := machine.store.define frame name value } where
  inside found := (machine.store.size_define frame name value).symm ▸ linked.inside found
  globals := (machine.store.size_define frame name value).symm ▸ linked.globals
  environment := linked.environment
  kept := linked.kept.define frame given

/-- A definition of a linked value keeps the machine linked. -/
theorem define (name : String) {value : Value} (given : value.Linked links) :
    (machine.define name value).Linked links := by
  unfold Machine.define
  split
  case h_1 => exact linked
  case h_2 => exact linked.bind _ name given

/-- A new frame may be enclosed by the innermost frame of a chain. -/
theorem addFrame {bindings : Bindings} {outer : Nat} {environment : Environment}
    (chain : links.Chain (outer :: environment))
    (given : ∀ (name : String) (value : Value), bindings[name]? = some value →
      value.Linked links) :
    ∃ later, links.Extends later ∧
      later.Chain (machine.store.frames.size :: outer :: environment) ∧
      Linked later { machine with store := machine.store.addFrame bindings } := by
  have older := linked.lt_of_mem chain List.mem_cons_self
  have more := Links.extends_enclose linked.fresh older
  refine ⟨_, more, chain.enclose linked.fresh older, fun {frame next} found => ?_, ?_,
    linked.environment.extend more, ?_⟩
  · rw [Store.addFrame, Array.size_push]
    by_cases same : frame = machine.store.frames.size
    · exact same ▸ Nat.lt_succ_self _
    · exact Nat.lt_succ_of_lt (linked.inside ((if_neg same).symm.trans found))
  · rw [Store.addFrame, Array.size_push]
    exact Nat.lt_succ_of_lt linked.globals
  · exact (linked.kept.addFrame given).imp (fun _ _ known => known.extend more)
      fun _ known => known.extend more

/-- A frame with one value may be enclosed by the innermost frame of a chain. -/
theorem addSingle {environment : Environment} (chain : links.Chain environment) (name : String)
    {value : Value} (given : value.Linked links) :
    ∃ later, links.Extends later ∧ later.Chain (machine.store.frames.size :: environment) ∧
      Linked later { machine with
        store := machine.store.addFrame (Std.TreeMap.empty.insert name value) } := by
  obtain ⟨outer, rest, rfl⟩ := chain.innermost
  refine linked.addFrame chain fun wanted found present => ?_
  rw [Std.TreeMap.getElem?_insert] at present
  split at present
  case isTrue => exact Option.some.inj present ▸ given
  case isFalse => simp at present

/-- A frame without names may be enclosed by the innermost frame of a chain. -/
theorem addEmpty {environment : Environment} (chain : links.Chain environment) :
    ∃ later, links.Extends later ∧ later.Chain (machine.store.frames.size :: environment) ∧
      Linked later { machine with store := machine.store.addFrame ∅ } := by
  obtain ⟨outer, rest, rfl⟩ := chain.innermost
  exact linked.addFrame chain (by simp)

/-- A fresh object has no fields, so the machine stays linked. -/
theorem addObject : Linked links { machine with store := machine.store.addObject } where
  inside := linked.inside
  globals := linked.globals
  environment := linked.environment
  kept := linked.kept.addObject

/-- A linked value as a field keeps the machine linked. -/
theorem setField (object : Nat) (name : String) {value : Value} (given : value.Linked links) :
    Linked links { machine with store := machine.store.setField object name value } where
  inside := linked.inside
  globals := linked.globals
  environment := linked.environment
  kept := linked.kept.setField object name given

/-- The two frames of a call extend the environment of the function. -/
theorem enter {closure : Closure} {arguments : List Value}
    (chain : links.Chain closure.environment)
    (listed : ∀ argument ∈ arguments, argument.Linked links) :
    ∃ later, links.Extends later ∧ (machine.enter closure arguments).Linked later := by
  obtain ⟨outer, rest, same⟩ := chain.innermost
  obtain ⟨middle, grows, parameters, outerLinked⟩ := linked.addFrame (same ▸ chain)
    fun _ value found => listed value (Eval.forall_parameterBindings found)
  obtain ⟨later, more, body, innerLinked⟩ := outerLinked.addEmpty parameters
  refine ⟨later, grows.trans more, innerLinked.sameStore ?_ rfl⟩
  rw [← same] at body
  exact body

end Linked

end Machine

end LoxLang
