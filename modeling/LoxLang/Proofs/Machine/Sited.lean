import LoxLang.Proofs.Machine.Validity

/-!
# Machines that know their scopes

A machine is valid if it holds valid values only and looks occurrences up where they were resolved.
It is sited in a chain of scopes if its environment covers the chain. Every change of a machine that
the evaluators make keeps it valid. What is defined under a name may refer to itself by that name,
so it is valid no earlier than the name is bound.
-/

namespace LoxLang

namespace Machine

/-- A machine that holds valid values only and looks occurrences up where they were resolved. -/
structure Valid (addressing : Addressing) (machine : Machine) : Prop where
  distances : ∀ id, machine.distances[id]? = addressing.address? id
  store : machine.store.Valid addressing

/-- A valid machine whose environment covers the chain that the code to be run was resolved in. -/
structure Sited (addressing : Addressing) (chain : Chain) (machine : Machine) : Prop where
  valid : machine.Valid addressing
  beside : chain.SuperBeside
  covers : machine.store.Covers chain machine.environment

variable {addressing : Addressing} {chain : Chain} {machine after : Machine}

/-- A machine grows with a binding. -/
theorem define_grows (machine : Machine) (name : String) (value : Value) :
    machine.store.Grows (machine.define name value).store :=
  (Evolves.define machine name value).store

/-- A machine grows with the frames of a call. -/
theorem enter_grows (machine : Machine) (closure : Closure) (arguments : List Value) :
    machine.store.Grows (machine.enter closure arguments).store :=
  (Store.Grows.addFrame _ _).trans (.addFrame _ _)

namespace Valid

variable (valid : machine.Valid addressing)
include valid

/-- What a machine holds stays valid whatever else it is busy with. -/
theorem sameStore (distances : after.distances = machine.distances)
    (store : after.store = machine.store) : after.Valid addressing where
  distances := fun id => by rw [distances, valid.distances]
  store := store ▸ valid.store

/-- A later machine is valid if it keeps what was valid before. -/
theorem later (distances : after.distances = machine.distances)
    (grows : machine.store.Grows after.store)
    (kept : after.store.Keeps (fun _ => Value.Valid addressing machine.store)
      (Value.Valid addressing machine.store)) : after.Valid addressing where
  distances := fun id => by rw [distances, valid.distances]
  store := kept.imp (fun _ _ known => known.mono grows) fun _ known => known.mono grows

theorem bind (frame : Nat) (name : String) {value : Value}
    (given : value.Valid addressing machine.store) :
    Valid addressing { machine with store := machine.store.define frame name value } :=
  valid.later rfl (.define _ _ _ _) (valid.store.define frame given)

theorem addSingle (name : String) {value : Value} (given : value.Valid addressing machine.store) :
    Valid addressing { machine with
      store := machine.store.addFrame (Std.TreeMap.empty.insert name value) } :=
  valid.later rfl (.addFrame _ _) (valid.store.addSingle given)

/-- A frame without names is added for a block. -/
theorem addEmpty (environment : Environment) :
    Valid addressing { machine with store := machine.store.addFrame ∅, environment } :=
  valid.later rfl (.addFrame _ _) valid.store.addEmpty

theorem addObject : Valid addressing { machine with store := machine.store.addObject } :=
  valid.later rfl (.addObject _) valid.store.addObject

theorem setField (object : Nat) (name : String) {value : Value}
    (given : value.Valid addressing machine.store) :
    Valid addressing { machine with store := machine.store.setField object name value } :=
  valid.later rfl (.setField _ _ _ _) (valid.store.setField object name given)

/-- The value of a name may refer to itself by that name. -/
theorem define {name : String} {value : Value}
    (given : value.Valid addressing (machine.define name value).store) :
    (machine.define name value).Valid addressing where
  distances := fun id => by
    rw [← valid.distances]
    exact congrArg (·[id]?) (Evolves.define machine name value).distances
  store := Machine.define_keeps (valid.store.mono (define_grows machine name value)) given

/-- The frame of the parameters and that of the body are added. -/
theorem enter {closure : Closure} {arguments : List Value}
    (listed : ∀ argument ∈ arguments, argument.Valid addressing machine.store) :
    (machine.enter closure arguments).Valid addressing :=
  valid.later rfl (enter_grows _ _ _) (Machine.enter_keeps valid.store fun _ value found =>
    listed value (Eval.forall_parameterBindings found))

end Valid

/-- Code stands where it did if the environment is the same. -/
theorem Sited.mono (sited : machine.Sited addressing chain)
    (environment : after.environment = machine.environment)
    (grows : machine.store.Grows after.store) (valid : after.Valid addressing) :
    after.Sited addressing chain where
  valid := valid
  beside := sited.beside
  covers := environment ▸ sited.covers.mono grows

/-- An occurrence that was resolved in the chain is bound in the frame at its distance. -/
theorem Sited.bound (sited : machine.Sited addressing chain) {name : String} {distance : Nat}
    (found : chain.address? name = some distance) :
    ∃ frame, machine.environment[distance]? = some frame ∧
      (machine.store.binding? frame name).isSome := by
  obtain ⟨names, there, member⟩ := Chain.exists_of_address? found
  exact sited.covers.bound there member

/-- There is always an innermost frame. -/
theorem Sited.innermost (sited : machine.Sited addressing chain) :
    ∃ frame outer, machine.environment = frame :: outer := by
  have covers := sited.covers
  cases chain with
  | nil => exact ⟨globalFrame, [], covers.1⟩
  | cons names chain =>
    cases here : machine.environment with
    | nil =>
      rw [here] at covers
      exact covers.elim
    | cons frame outer => exact ⟨frame, outer, rfl⟩

/-- A name that is defined extends the innermost scope. -/
theorem Sited.define {name : String} {value : Value} (sited : machine.Sited addressing chain)
    (ordinary : name ≠ "super")
    (given : ∀ store, machine.store.Grows store →
      store.Covers (chain.define name) machine.environment → value.Valid addressing store) :
    (machine.define name value).Sited addressing (chain.define name) := by
  obtain ⟨frame, outer, here⟩ := sited.innermost
  have covers : (machine.define name value).store.Covers (chain.define name)
      machine.environment := by
    have covers := sited.covers
    unfold Machine.define
    rw [here] at covers ⊢
    exact covers.define name value
  refine ⟨sited.valid.define (given _ (define_grows _ _ _) covers),
    sited.beside.define ordinary, ?_⟩
  rw [Machine.define_environment]
  exact covers

/-- A block has a scope without names. -/
theorem Sited.block (sited : machine.Sited addressing chain) :
    Sited addressing ([] :: chain) { machine with
      store := machine.store.addFrame ∅
      environment := machine.store.frames.size :: machine.environment } where
  valid := sited.valid.addEmpty _
  beside := sited.beside.cons (by simp)
  covers := sited.covers.push (by simp)

end Machine

/-- A method that awaits its instance: it was resolved in a chain that its environment covers but
for the scope of `this`. -/
def Closure.Unbound (addressing : Addressing) (store : Store) (method : Closure) : Prop :=
  ∃ inside chain, Chain.SuperBeside (["this"] :: chain) ∧ store.Covers chain method.environment ∧
    method.declaration.Placed addressing inside (["this"] :: chain)

/-- The methods of a valid class await their instance. -/
theorem ClassObject.Valid.method {addressing : Addressing} {store : Store} {origin : ClassObject}
    (valid : origin.Valid addressing store) {name : String} {method : Closure}
    (found : origin.method? name = some method) : method.Unbound addressing store := by
  obtain ⟨body, member, found⟩ := List.exists_of_findSome?_eq_some found
  obtain ⟨inside, chain, beside, covers, placed⟩ := valid body member
  obtain ⟨declaration, listed, rfl⟩ := Option.map_eq_some_iff.mp found
  have listed := List.mem_reverse.mp (List.mem_of_find?_eq_some listed)
  exact ⟨inside, chain, beside, covers, placed declaration listed⟩

/-- A method that is bound finds its instance in the frame that was added for it. -/
theorem Closure.Unbound.bind {addressing : Addressing} {store : Store} {method : Closure}
    (awaiting : method.Unbound addressing store) (receiver : Value) :
    Closure.Valid addressing
      (store.addFrame (Std.TreeMap.empty.insert "this" receiver))
      { method with environment := store.frames.size :: method.environment } := by
  obtain ⟨inside, chain, beside, covers, placed⟩ := awaiting
  exact ⟨inside, _, beside, covers.push (by simp), placed,
    fun _ => ⟨_, _, rfl, List.mem_singleton_self _⟩⟩

/-- The two frames of a call cover the two scopes of a function. -/
theorem Closure.Valid.enter {addressing : Addressing} {machine : Machine} {closure : Closure}
    {arguments : List Value} (valid : closure.Valid addressing machine.store)
    (enough : arguments.length = closure.arity)
    (entered : (machine.enter closure arguments).Valid addressing) :
    ∃ inside chain, (machine.enter closure arguments).Sited addressing chain ∧
      Stmt.PlacedAll addressing inside chain closure.declaration.body := by
  obtain ⟨inside, chain, beside, covers, placed, _⟩ := valid
  obtain ⟨ordinary, body⟩ := placed.body
  refine ⟨inside, _, ⟨entered, beside.enterFunction ordinary, ?_⟩, body⟩
  unfold Chain.enterFunction
  rw [Chain.parameters_cons]
  have bound : ∀ name ∈ (closure.declaration.parameters.map Token.lexeme).reverse,
      ((Eval.parameterBindings closure.declaration.parameters arguments)[name]?).isSome :=
    fun name member => Eval.parameterBindings_isSome enough name (by simpa using member)
  have outer := covers.push bound
  have within : (Store.addFrame _ ∅).Covers ([] :: _ :: chain) _ := outer.push (by simp)
  simpa [Machine.enter, Store.addFrame] using within

/-- An initializer finds its instance in the innermost frame. -/
theorem Closure.Valid.receiver {addressing : Addressing} {store : Store} {closure : Closure}
    (valid : closure.Valid addressing store) (initializes : closure.isInitializer = true) :
    ∃ frame outer, closure.environment = frame :: outer ∧
      (store.binding? frame "this").isSome := by
  obtain ⟨inside, chain, _, covers, _, instanceScope⟩ := valid
  obtain ⟨names, scopes, rfl, member⟩ := instanceScope initializes
  cases here : closure.environment with
  | nil =>
    rw [here] at covers
    exact covers.elim
  | cons frame outer =>
    rw [here] at covers
    exact ⟨frame, outer, rfl, covers.1.2 "this" member⟩

end LoxLang
