import LoxLang.Proofs.Machine.Agreement
import LoxLang.Proofs.Machine.Moments

/-!
# Methods bound to instances

What a closure means by `this` and by `super` is read off its environment: `Closure.Serves` and
`Closure.Inherits` name the instance and the class that the nearest frames have for them. Both last
as long as the frames do. Binding a method to an instance makes a closure that serves it and
inherits from where the method does (`Closure.BoundTo`), and in a rooted function body `this` and
`super` come to what the closure serves and inherits from.
-/

namespace LoxLang

/-- The instance that the code of a closure means by `this`. -/
def Closure.Serves (store : Store) (closure : Closure) (receiver : Value) : Prop :=
  ∃ distance, store.Nearest "this" receiver closure.environment distance

/-- The class that the code of a closure means by `super`. -/
def Closure.Inherits (store : Store) (closure : Closure) (parent : ClassObject) : Prop :=
  ∃ distance, store.Nearest "super" (.classObject parent) closure.environment distance

/-- A closure is a method bound to an instance, an initializer if the method is called so. -/
structure Closure.BoundTo (store : Store) (bound method : Closure) (receiver : Value) : Prop where
  declaration : bound.declaration = method.declaration
  isInitializer : bound.isInitializer = (method.declaration.name.lexeme == initializerName)
  serves : bound.Serves store receiver
  inherits : ∀ parent, method.Inherits store parent → bound.Inherits store parent

/-- A class comes from a declaration with these methods and this superclass: its own methods mean
the superclass by `super`, and the other methods are those of the superclass. -/
def ClassObject.Derives (store : Store) (origin : ClassObject) (methods : List FunctionDecl)
    (parent : ClassObject) : Prop :=
  ∃ environment, origin.lineage = ⟨methods, environment⟩ :: parent.lineage ∧
    ∀ name method, ClassBody.method? ⟨methods, environment⟩ name = some method →
      method.Inherits store parent

/-- An instance is there if the store has fields for it; values of other types always are. -/
def Value.Exists (store : Store) : Value → Prop
  | .object identity _ => identity < store.objects.size
  | _ => True

/-- An expression comes to the first method of this name from a class upwards, bound to an instance,
or to the fault that there is none. -/
def Ending.GivesMethod (machine : Machine) (parent : ClassObject) (method : Token)
    (receiver : Value) (ending : Ending Value) : Prop :=
  match parent.method? method.lexeme with
  | some found => ∃ identity bound after,
    ending = .value (.function identity bound) after ∧ bound.BoundTo after.store found receiver
  | none => ending = .fault ⟨method, .undefinedProperty method.lexeme⟩ machine

section Lasting

variable {store after : Store} (fixes : store.Fixes after)
include fixes

/-- A function goes on serving its receiver. -/
theorem Closure.Serves.mono {closure : Closure} {receiver : Value}
    (serves : closure.Serves store receiver) : closure.Serves after receiver := by
  obtain ⟨distance, nearest⟩ := serves
  exact ⟨distance, nearest.mono (.inl rfl) fixes⟩

/-- A function goes on inheriting from the class above it. -/
theorem Closure.Inherits.mono {closure : Closure} {parent : ClassObject}
    (inherits : closure.Inherits store parent) : closure.Inherits after parent := by
  obtain ⟨distance, nearest⟩ := inherits
  exact ⟨distance, nearest.mono (.inr rfl) fixes⟩

/-- An instance goes on existing. -/
theorem Value.Exists.mono {value : Value} (present : value.Exists store) :
    value.Exists after := by
  cases value with
  | object identity origin => exact Nat.lt_of_lt_of_le present fixes.objects
  | _ => trivial

end Lasting

theorem Value.Rooted.exists {addressing : Addressing} {store : Store} {value : Value}
    (rooted : value.Rooted addressing store) : value.Exists store := by
  cases value with
  | object identity origin => exact rooted.1
  | _ => trivial

/-- A method that is called `init` is an initializer. -/
theorem ClassObject.isInitializer_of_method? {origin : ClassObject} {name : String}
    {method : Closure} (found : origin.method? name = some method) :
    method.isInitializer = (method.declaration.name.lexeme == initializerName) := by
  obtain ⟨body, _, found⟩ := List.exists_of_findSome?_eq_some found
  obtain ⟨declaration, _, rfl⟩ := Option.map_eq_some_iff.mp found
  rfl

/-- There is always an innermost frame, and it exists. -/
theorem Machine.Sited.innermost_lt {addressing : Addressing} {chain : Chain} {machine : Machine}
    (sited : machine.Sited addressing chain) :
    ∃ frame outer, machine.environment = frame :: outer ∧ frame < machine.store.frames.size := by
  obtain ⟨frame, outer, here⟩ := sited.innermost
  have covers := sited.covers
  rw [here] at covers
  cases chain with
  | nil =>
    obtain ⟨global, there⟩ := covers
    obtain rfl : frame = globalFrame := (List.cons.inj global).1
    exact ⟨globalFrame, outer, here, there⟩
  | cons names chain => exact ⟨frame, outer, here, covers.1.1⟩

namespace Eval

variable {fuel : Nat} {machine between after : Machine}

/-- Binding gives a method its instance and leaves its superclass where it was. -/
theorem boundTo_of_bindMethod {origin : ClassObject} {name : String} {method bound : Closure}
    {receiver : Value} (found : origin.method? name = some method)
    (binds : bindMethod method receiver machine = .value bound after) :
    bound.BoundTo after.store method receiver := by
  have flagged := ClassObject.isInitializer_of_method? found
  obtain ⟨frame, opened, made, given⟩ := bind_eq_value_iff.mp binds
  cases made
  cases given
  refine ⟨rfl, flagged, ⟨0, .here ?_⟩, ?_⟩
  · simp [Store.binding?_addFrame]
  · rintro parent ⟨distance, nearest⟩
    refine ⟨distance + 1, .further (by simp [Store.addFrame]) ?_ nearest⟩
    simp [Store.binding?_addFrame]

/-- A method becomes a function value once it is bound. -/
theorem boundMethod_eq_value {origin : ClassObject} {name : String} {method : Closure}
    (found : origin.method? name = some method) (receiver : Value) (machine : Machine) :
    ∃ identity bound after,
      (do newFunction (← bindMethod method receiver)) machine =
        .value (.function identity bound) after ∧ bound.BoundTo after.store method receiver := by
  obtain ⟨bound, between, binds⟩ : ∃ bound between,
      bindMethod method receiver machine = .value bound between := ⟨_, _, rfl⟩
  have boundTo := boundTo_of_bindMethod found binds
  exact ⟨_, bound, _, bind_eq_value_iff.mpr ⟨bound, between, binds, rfl⟩, boundTo⟩

/-- A property that is no field is a method bound to the instance. -/
theorem property_eq_value {identity : Nat} {origin : ClassObject} {name : Token} {method : Closure}
    (absent : machine.store.field? identity name.lexeme = none)
    (found : origin.method? name.lexeme = some method) :
    ∃ number bound after,
      property (.object identity origin) name machine = .value (.function number bound) after ∧
        bound.BoundTo after.store method (.object identity origin) := by
  obtain ⟨number, bound, after, given, boundTo⟩ :=
    boundMethod_eq_value found (.object identity origin) machine
  refine ⟨number, bound, after, ?_, boundTo⟩
  have read : field? identity name.lexeme machine = .value none machine := by
    simp only [field?, absent]
  refine bind_eq_value_iff.mpr ⟨none, machine, read, ?_⟩
  simp only [found]
  exact given

/-- A class that is called gives an instance that did not exist. -/
theorem eq_of_call_class {origin : ClassObject} {paren : Token} {arguments : List Value}
    {result : Value}
    (ended : call (fuel + 1) (.classObject origin) paren arguments machine =
      .value result after) : result = .object machine.store.objects.size origin := by
  obtain ⟨created, between, made, ended⟩ := bind_eq_value_iff.mp ended
  have new : Value.object machine.store.objects.size origin = created := (Ending.value.inj made).1
  rw [new]
  cases found : origin.method? initializerName with
  | none =>
    simp only [found] at ended
    exact (Ending.value.inj ended).1.symm
  | some method =>
    simp only [found] at ended
    obtain ⟨bound, ready, _, ended⟩ := bind_eq_value_iff.mp ended
    obtain ⟨_, last, _, ended⟩ := bind_eq_value_iff.mp ended
    exact (Ending.value.inj ended).1.symm

/-- What is defined is found in the innermost frame. -/
theorem define_eq_value (machine : Machine) {frame : Nat} {outer : Environment} (name : String)
    (value : Value) (here : machine.environment = frame :: outer)
    (there : frame < machine.store.frames.size) :
    ∃ after, define name value machine = .value () after ∧
      after.store = machine.store.define frame name value ∧
      after.store.getAt? after.environment 0 name = some value := by
  refine ⟨{ machine with store := machine.store.define frame name value }, ?_, rfl, ?_⟩
  · simp only [define, here]
  · simp [Store.getAt?, here, Store.binding?, Store.define, Tables.value?_set, there]

/-- A declaration with a superclass defines a class that derives from it. -/
theorem execute_derived {name : Token} {superclass : Expr} {methods : List FunctionDecl}
    {parent : ClassObject} {frame : Nat} {outer : Environment}
    (given : evaluate fuel superclass machine = .value (.classObject parent) between)
    (here : between.environment = frame :: outer) (there : frame < between.store.frames.size)
    (named : name.Unreserved) :
    ∃ origin after,
      execute (fuel + 1) (.class name (some superclass) methods) machine =
        .value .normal after ∧
      after.store.getAt? after.environment 0 name.lexeme = some (.classObject origin) ∧
      origin.Derives after.store methods parent := by
  let ready : Machine :=
    { between with
      store := between.store.addFrame (Std.TreeMap.empty.insert "super" (.classObject parent))
      nextIdentity := between.nextIdentity + 1 }
  let shared := between.store.frames.size :: between.environment
  let origin : ClassObject :=
    ⟨between.nextIdentity, name.lexeme, ⟨methods, shared⟩ :: parent.lineage⟩
  have super : ready.store.Nearest "super" (.classObject parent) shared 0 :=
    .here (by simp [ready, Store.binding?_addFrame])
  obtain ⟨after, defined, store, found⟩ := define_eq_value ready name.lexeme (.classObject origin)
    here (Nat.lt_of_lt_of_le there (Store.Fixes.addFrame between.store _).frames)
  refine ⟨origin, after, ?_, found, shared, rfl, fun wanted method own => ?_⟩
  · refine bind_eq_value_iff.mpr ⟨_, between, given, ?_⟩
    refine bind_eq_value_iff.mpr ⟨parent, between, rfl, ?_⟩
    exact bind_eq_value_iff.mpr ⟨(), after, defined, rfl⟩
  · obtain ⟨declaration, _, rfl⟩ := Option.map_eq_some_iff.mp own
    rw [store]
    exact ⟨0, super.mono (.inr rfl) (.define ready.store frame _ named)⟩

/-- A function declaration defines a closure in the current environment. -/
theorem execute_function {declaration : FunctionDecl} {frame : Nat} {outer : Environment}
    (here : machine.environment = frame :: outer) (there : frame < machine.store.frames.size)
    (named : declaration.name.Unreserved) :
    ∃ identity after,
      execute (fuel + 1) (.function declaration) machine = .value .normal after ∧
      after.store.getAt? after.environment 0 declaration.name.lexeme =
        some (.function identity ⟨declaration, machine.environment, false⟩) ∧
      machine.store.Fixes after.store := by
  obtain ⟨after, defined, store, found⟩ := define_eq_value
    { machine with nextIdentity := machine.nextIdentity + 1 } declaration.name.lexeme
    (.function machine.nextIdentity ⟨declaration, machine.environment, false⟩) here there
  refine ⟨machine.nextIdentity, after, ?_, found, store ▸ .define machine.store frame _ named⟩
  refine bind_eq_value_iff.mpr ⟨_, machine, rfl, bind_eq_value_iff.mpr ⟨_, _, rfl, ?_⟩⟩
  exact bind_eq_value_iff.mpr ⟨(), after, defined, rfl⟩

/-- A name is read where it is found first. -/
theorem lookupAt_of_nearest {environment : Environment} {distance : Nat} {name : Token}
    {value : Value} (nearest : machine.store.Nearest name.lexeme value environment distance) :
    lookupAt environment distance name machine = .value value machine := by
  simp [lookupAt, nearest.getAt?, orUndefined]

end Eval

namespace Task.Rooted

open Eval

variable {addressing : Addressing} {inside : ClassContext} {level distance id : Nat}
  {fuel : Nat} {machine : Machine} {keyword method : Token} {receiver : Value}

/-- In a function body, `this` is the instance of the nearest frame that has one. -/
theorem evaluate_this
    (rooted : (Task.evaluate (fuel + 1) (.this id keyword)).Rooted addressing inside level machine)
    (nearest : machine.store.Nearest "this" receiver machine.environment distance) :
    Eval.evaluate (fuel + 1) (.this id keyword) machine = .value receiver machine := by
  obtain ⟨rooted, roots, spelled, within, address⟩ := rooted
  obtain ⟨identity, origin, own⟩ := roots.this within
  obtain ⟨rfl, rfl⟩ := own.unique nearest
  have entry : distance? id machine = .value (some level) machine := by
    rw [distance?, rooted.distances id, address]
  refine bind_eq_value_iff.mpr ⟨some level, machine, entry, ?_⟩
  refine bind_eq_value_iff.mpr ⟨machine.environment, machine, rfl, ?_⟩
  exact lookupAt_of_nearest (spelled ▸ own)

/-- In a function body, `super` finds a method from the class of the nearest frame that has one. -/
theorem evaluate_super
    (rooted : (Task.evaluate (fuel + 1) (.super id keyword method)).Rooted addressing inside level
      machine)
    (nearest : machine.store.Nearest "this" receiver machine.environment distance)
    {parent : ClassObject} {further : Nat}
    (above : machine.store.Nearest "super" (.classObject parent) machine.environment further) :
    (Eval.evaluate (fuel + 1) (.super id keyword method) machine).GivesMethod machine parent method
      receiver := by
  obtain ⟨rooted, roots, spelled, rfl, address⟩ := rooted
  obtain ⟨identity, origin, own⟩ := roots.this (by decide)
  obtain ⟨rfl, rfl⟩ := own.unique nearest
  obtain ⟨ancestor, ownParent⟩ := roots.super rfl
  obtain ⟨same, rfl⟩ := ownParent.unique above
  obtain rfl := Value.classObject.inj same
  have entry : distance? id machine = .value (some (level + 1)) machine := by
    rw [distance?, rooted.distances id, address]
  have parentFound : lookupAt machine.environment (level + 1) keyword machine =
      .value (.classObject ancestor) machine := lookupAt_of_nearest (spelled ▸ ownParent)
  have found : lookupAt machine.environment level (.implicit "this" keyword.line) machine =
      .value (.object identity origin) machine := lookupAt_of_nearest own
  unfold Ending.GivesMethod
  rw [Eval.evaluate, Eval.superMethod, bind_apply, entry]
  simp only [bind_apply, Eval.environment, parentFound, found]
  cases inherited : ancestor.method? method.lexeme with
  | some method => exact boundMethod_eq_value inherited _ machine
  | none => rfl

end Task.Rooted

/-- An initializer gives the instance that it serves. -/
theorem Task.eq_of_invoke_initializer {addressing : Addressing} {inside : ClassContext}
    {level fuel : Nat} {closure : Closure} {paren : Token} {arguments : List Value}
    {machine after : Machine} {receiver result : Value}
    (rooted : (Task.invoke fuel closure paren arguments).Rooted addressing inside level machine)
    (sound : (Task.invoke fuel closure paren arguments).Sound addressing machine)
    (initializes : closure.isInitializer = true) (serves : closure.Serves machine.store receiver)
    (ended : Eval.invoke fuel closure paren arguments machine = .value result after) :
    result = receiver := by
  cases fuel with
  | zero => cases ended
  | succ fuel =>
    obtain ⟨flow, between, ran, ended⟩ := Eval.bind_eq_value_iff.mp ended
    have leads := Leads.receiver ran initializes
    obtain ⟨_, _, _, fixes, _⟩ := rooted.step leads
    obtain ⟨frame, outer, here, bound⟩ := (sound.step leads).bound_receiver
    obtain ⟨distance, nearest⟩ := serves.mono fixes
    have innermost : between.store.Nearest "this" receiver closure.environment 0 := by
      rw [here] at nearest ⊢
      cases nearest with
      | here bound => exact .here bound
      | further _ free _ =>
        rw [free] at bound
        cases bound
    rw [if_pos initializes] at ended
    exact (Ending.value.inj ((Eval.lookupAt_of_nearest innermost).symm.trans ended)).1.symm

end LoxLang
