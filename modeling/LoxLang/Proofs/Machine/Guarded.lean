import LoxLang.Proofs.Machine.Agreement
import LoxLang.Proofs.Parsing.Formed

/-!
# Faults that no checked program comes to

Some faults only a tree can come to that no parser built or no resolution accepted: an operator that
is none, a `super` without a superclass around it, an occurrence of `this` or `super` that is bound
nowhere. A machine is *guarded* if every function it keeps was built and checked, and if its frames
bind `this` to instances and `super` to classes only. Every change of a machine that the evaluators
make keeps it guarded, as long as the code that asks for it is formed.
-/

namespace LoxLang

/-- A fault that the static stages exclude. -/
def RuntimeFault.Internal : RuntimeFault → Prop
  | invalidUnaryOperator => True
  | invalidBinaryOperator => True
  | superUnavailable => True
  | undefinedVariable name => name = "this" ∨ name = "super"
  | _ => False

/-- The wordings of the faults that the static stages exclude. -/
def RuntimeFault.internalMessages : List String :=
  [superUnavailable.message, invalidUnaryOperator.message, invalidBinaryOperator.message,
    (undefinedVariable "this").message, (undefinedVariable "super").message]

/-- The message of an undefined variable tells its name. -/
theorem RuntimeFault.undefinedVariable_message {name other : String}
    (same : (undefinedVariable name).message = (undefinedVariable other).message) :
    name = other := by
  unfold message at same
  rwa [String.append_left_inj, String.append_right_inj] at same

/-- No other fault has such a wording. -/
theorem RuntimeFault.internal_of_message {fault : RuntimeFault}
    (worded : fault.message ∈ internalMessages) : fault.Internal := by
  simp only [internalMessages, List.mem_cons, List.not_mem_nil, or_false] at worded
  cases fault with
  | invalidUnaryOperator | invalidBinaryOperator | superUnavailable => trivial
  | undefinedVariable name =>
    rcases worded with same | same | same | same | same
    case inr.inr.inr.inl => exact .inl (undefinedVariable_message same)
    case inr.inr.inr.inr => exact .inr (undefinedVariable_message same)
    all_goals
      have front := congrArg (fun text => text.toList.take 12) same
      unfold message at front
      simp at front
  | _ =>
    -- A few letters from the front tell all other wordings apart.
    rcases worded with same | same | same | same | same <;>
    · have front := congrArg (fun text => text.toList.take 12) same
      unfold message at front
      simp at front

/-- What the trees are like that a machine with a table of distances runs: no variable is named like
`this` or `super`, and every occurrence of these has an entry. -/
def checkedRules (table : Distances) : TreeRules where
  named := fun name => name.lexeme ≠ "this" ∧ name.lexeme ≠ "super"
  anchored := fun id => (table[id]?).isSome

/-- A class with formed methods only. -/
def ClassObject.Formed (rules : TreeRules) (origin : ClassObject) : Prop :=
  ∀ body ∈ origin.lineage, ∀ method ∈ body.methods, method.Formed rules

/-- A value with formed functions only. -/
def Value.Formed (rules : TreeRules) : Value → Prop
  | .function _ closure => closure.declaration.Formed rules
  | .classObject origin => origin.Formed rules
  | .object _ origin => origin.Formed rules
  | _ => True

/-- A value that a frame may bind a name to: `this` is an instance and `super` a class. -/
structure Value.Suits (rules : TreeRules) (name : String) (value : Value) : Prop where
  formed : value.Formed rules
  instanceOf : name = "this" → ∃ identity origin, value = .object identity origin
  superclass : name = "super" → ∃ origin, value = .classObject origin

/-- A machine that keeps formed functions only and binds `this` and `super` properly. -/
structure Machine.Guarded (table : Distances) (machine : Machine) : Prop where
  distances : machine.distances = table
  kept : machine.store.Keeps (fun name value => value.Suits (checkedRules table) name)
    (Value.Formed (checkedRules table))

section Formed

variable {rules : TreeRules}

/-- A plain value has no functions. -/
theorem Value.IsPlain.formed {value : Value} (plain : value.IsPlain) : value.Formed rules := by
  cases value with
  | function | classObject | object => exact plain.elim
  | _ => trivial

/-- A method found in a formed class is formed. -/
theorem ClassObject.Formed.method {origin : ClassObject} (formed : origin.Formed rules)
    {name : String} {method : Closure} (found : origin.method? name = some method) :
    method.declaration.Formed rules := by
  obtain ⟨body, member, found⟩ := List.exists_of_findSome?_eq_some found
  obtain ⟨declaration, listed, rfl⟩ := Option.map_eq_some_iff.mp found
  exact formed body member declaration (List.mem_reverse.mp (List.mem_of_find?_eq_some listed))

/-- A formed function has parameters as the rules want them and a formed body. -/
theorem FunctionDecl.Formed.body {declaration : FunctionDecl} (formed : declaration.Formed rules) :
    (∀ parameter ∈ declaration.parameters, rules.named parameter) ∧
      Stmt.FormedAll rules declaration.body := by
  obtain ⟨name, parameters, body⟩ := declaration
  exact formed.2

end Formed

variable {table : Distances}

/-- A value under an ordinary name need only be formed. -/
theorem Value.Formed.suits {value : Value} {name : Token}
    (formed : value.Formed (checkedRules table)) (named : (checkedRules table).named name) :
    value.Suits (checkedRules table) name.lexeme :=
  ⟨formed, fun same => (named.1 same).elim, fun same => (named.2 same).elim⟩

namespace Machine.Guarded

variable {machine after : Machine} (guarded : machine.Guarded table)
include guarded

/-- A machine stays guarded if it keeps values of the same kinds. -/
theorem later (distances : after.distances = machine.distances)
    (kept : after.store.Keeps (fun name value => value.Suits (checkedRules table) name)
      (Value.Formed (checkedRules table))) : after.Guarded table where
  distances := distances.trans guarded.distances
  kept := kept

/-- What a machine keeps stays guarded whatever else it is busy with. -/
theorem sameStore (distances : after.distances = machine.distances)
    (store : after.store = machine.store) : after.Guarded table :=
  guarded.later distances (store ▸ guarded.kept)

/-- A definition of a formed value under a checked name keeps the machine guarded. -/
theorem define {name : Token} {value : Value} (formed : value.Formed (checkedRules table))
    (named : (checkedRules table).named name) :
    (machine.define name.lexeme value).Guarded table :=
  guarded.later (Evolves.define machine name.lexeme value).distances
    (Machine.define_keeps guarded.kept (formed.suits named))

/-- The frame of `this` binds an instance. -/
theorem addReceiver {identity : Nat} {origin : ClassObject}
    (formed : origin.Formed (checkedRules table)) :
    Guarded table { machine with
      store := machine.store.addFrame
        (Std.TreeMap.empty.insert "this" (.object identity origin)) } :=
  have suits : Value.Suits (checkedRules table) "this" (.object identity origin) :=
    ⟨formed, fun _ => ⟨identity, origin, rfl⟩, nofun⟩
  guarded.later rfl (guarded.kept.addSingle suits)

/-- The frame of `super` binds a class. -/
theorem addSuperclass {ancestor : ClassObject} (formed : ancestor.Formed (checkedRules table)) :
    Guarded table { machine with
      store := machine.store.addFrame
        (Std.TreeMap.empty.insert "super" (.classObject ancestor)) } :=
  have suits : Value.Suits (checkedRules table) "super" (.classObject ancestor) :=
    ⟨formed, nofun, fun _ => ⟨ancestor, rfl⟩⟩
  guarded.later rfl (guarded.kept.addSingle suits)

/-- Arguments are bound to parameters only. -/
theorem enter {closure : Closure} {arguments : List Value}
    (formed : closure.declaration.Formed (checkedRules table))
    (listed : ∀ argument ∈ arguments, argument.Formed (checkedRules table)) :
    (machine.enter closure arguments).Guarded table := by
  refine guarded.later rfl (Machine.enter_keeps guarded.kept fun name value found => ?_)
  obtain ⟨parameter, paired, rfl⟩ := Eval.mem_zip_of_parameterBindings found
  obtain ⟨member, given⟩ := List.of_mem_zip paired
  exact (listed value given).suits (formed.body.1 parameter member)

end Machine.Guarded

/-- What was checked against a table is so against one with more entries. -/
theorem checkedRules_implies {later : Distances}
    (grows : ∀ id : Nat, (table[id]?).isSome → (later[id]?).isSome) :
    (checkedRules table).Implies (checkedRules later) :=
  ⟨fun _ named => named, grows⟩

/-- A formed class is formed under weaker rules. -/
theorem ClassObject.Formed.mono {rules wider : TreeRules} {origin : ClassObject}
    (formed : origin.Formed rules) (implies : rules.Implies wider) : origin.Formed wider :=
  fun body member method listed => method.formed_mono implies (formed body member method listed)

/-- A formed value is formed under weaker rules. -/
theorem Value.Formed.mono {rules wider : TreeRules} {value : Value} (formed : value.Formed rules)
    (implies : rules.Implies wider) : value.Formed wider := by
  cases value with
  | function identity closure => exact closure.declaration.formed_mono implies formed
  | classObject origin => exact ClassObject.Formed.mono formed implies
  | object identity origin => exact ClassObject.Formed.mono formed implies
  | _ => trivial

/-- A guarded machine stays so when its table gains entries. -/
theorem Machine.Guarded.reload {machine : Machine} {later : Distances}
    (guarded : machine.Guarded table)
    (grows : ∀ id : Nat, (table[id]?).isSome → (later[id]?).isSome) :
    Machine.Guarded later { machine with distances := later } where
  distances := rfl
  kept := by
    have implies := checkedRules_implies grows
    refine guarded.kept.imp ?_ fun _ formed => formed.mono implies
    exact fun _ _ suits => ⟨suits.formed.mono implies, suits.instanceOf, suits.superclass⟩

/-! ### Faults -/

/-- The static stages exclude no ordinary fault. -/
theorem RuntimeFault.Ordinary.not_internal {fault : RuntimeFault} (ordinary : fault.Ordinary) :
    ¬ fault.Internal := by
  cases fault with
  | undefinedVariable | superUnavailable | invalidUnaryOperator | invalidBinaryOperator =>
    exact ordinary.elim
  | _ => exact id

/-- A prefix operator is an operator. -/
theorem applyUnary_ne_invalid {operator : Kind} (prefixed : operator ∈ prefixOperators)
    (operand : Value) : applyUnary operator operand ≠ .error .invalidUnaryOperator := by
  simp only [prefixOperators, List.mem_cons, List.not_mem_nil, or_false] at prefixed
  intro invalid
  rcases prefixed with rfl | rfl
  · cases invalid
  · cases operand <;> cases invalid

/-- An operation on numbers is no invalid operator. -/
theorem onNumbers_ne_invalid (operation : Float → Float → Value) (left right : Value) :
    onNumbers operation left right ≠ .error .invalidBinaryOperator := by
  intro invalid
  unfold onNumbers at invalid
  split at invalid <;> cases invalid

/-- An addition is no invalid operator. -/
theorem addValues_ne_invalid (left right : Value) :
    addValues left right ≠ .error .invalidBinaryOperator := by
  intro invalid
  unfold addValues at invalid
  split at invalid <;> cases invalid

/-- A strict operator is an operator. -/
theorem applyBinary_ne_invalid {operator : Kind} (strict : operator ∈ strictOperators)
    (left right : Value) : applyBinary operator left right ≠ .error .invalidBinaryOperator := by
  simp only [strictOperators, Level.operators, List.mem_append, List.mem_cons, List.not_mem_nil,
    or_false] at strict
  rcases strict with ((equality | comparison) | sum) | product
  · rcases equality with rfl | rfl <;>
    · intro invalid
      cases invalid
  · rcases comparison with rfl | rfl | rfl | rfl <;> exact onNumbers_ne_invalid _ left right
  · rcases sum with rfl | rfl
    · exact onNumbers_ne_invalid _ left right
    · exact addValues_ne_invalid left right
  · rcases product with rfl | rfl <;> exact onNumbers_ne_invalid _ left right

end LoxLang
