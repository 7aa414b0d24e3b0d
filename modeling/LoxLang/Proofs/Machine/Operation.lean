import LoxLang.Proofs.Machine.Ending
import LoxLang.Proofs.Store.Kept

/-!
# What the operations on a machine can do

For every operation that the evaluators are put together from there is one statement about all it
can do: which endings it has, and which machines it leaves. Proofs about evaluators go by these
statements and open no operation again.
-/

namespace LoxLang

/-- The machine that has come back to the environment and the call depth of another one. -/
def Machine.backTo (machine outer : Machine) : Machine :=
  { machine with environment := outer.environment, callDepth := outer.callDepth }

/-- The machine in which a name is bound in the innermost frame. -/
def Machine.define (machine : Machine) (name : String) (value : Value) : Machine :=
  match machine.environment with
  | [] => machine
  | frame :: _ => { machine with store := machine.store.define frame name value }

/-- The machine in which the body of a call starts: one call further in, in two new frames. -/
def Machine.enter (machine : Machine) (closure : Closure) (arguments : List Value) : Machine :=
  let bindings := Eval.parameterBindings closure.declaration.parameters arguments
  let outer := machine.store.addFrame bindings
  { machine with
    store := outer.addFrame ∅
    environment := outer.frames.size :: machine.store.frames.size :: closure.environment
    callDepth := machine.callDepth + 1 }

/-- The machine in which the body of a block starts, in a new frame. -/
def Machine.openBlock (machine : Machine) : Machine :=
  { machine with
    store := machine.store.addFrame ∅
    environment := machine.store.frames.size :: machine.environment }

/-- A change that concerns no frame, no instance and no call: something may be written, an identity
be used up, or the clock be read. -/
structure Machine.Aside (before after : Machine) : Prop where
  store : after.store = before.store
  environment : after.environment = before.environment
  distances : after.distances = before.distances
  callDepth : after.callDepth = before.callDepth
  callLimit : after.callLimit = before.callLimit
  clock : after.clock = before.clock
  output : ∃ text, after.sink.written = before.sink.written ++ text

/-- What concerns nothing but the sink, the identities and the clock, concerns nothing here. -/
theorem Machine.Aside.refl (machine : Machine) : machine.Aside machine where
  store := rfl
  environment := rfl
  distances := rfl
  callDepth := rfl
  callLimit := rfl
  clock := rfl
  output := ⟨"", by simp⟩

/-- A value that is neither callable nor an instance. -/
def Value.IsPlain : Value → Prop
  | .nil => True
  | .bool _ => True
  | .number _ => True
  | .string _ => True
  | _ => False

/-- The class of an instance, and of a class itself. -/
def Value.origin? : Value → Option ClassObject
  | .classObject origin => some origin
  | .object _ origin => some origin
  | _ => none

/-- A fault that any code may come to: values are of the wrong kind, or something is exhausted. -/
def RuntimeFault.Ordinary : RuntimeFault → Prop
  | .undefinedVariable _ => False
  | .superUnavailable => False
  | .invalidUnaryOperator => False
  | .invalidBinaryOperator => False
  | _ => True

section Plain

/-- A literal is no function, class or object. -/
theorem Literal.value_isPlain (literal : Literal) : literal.value.IsPlain := by
  cases literal <;> trivial

/-- What an operator gives is plain. -/
theorem isPlain_of_applyUnary {operator : Kind} {operand result : Value}
    (given : applyUnary operator operand = .ok result) : result.IsPlain := by
  unfold applyUnary at given
  split at given
  · split at given <;> cases given
    trivial
  · cases given
    trivial
  · cases given

/-- An operator comes to an ordinary fault unless it is none. -/
theorem ordinary_of_applyUnary {operator : Kind} {operand : Value} {fault : RuntimeFault}
    (stopped : applyUnary operator operand = .error fault) :
    fault.Ordinary ∨ fault = .invalidUnaryOperator := by
  unfold applyUnary at stopped
  split at stopped
  · split at stopped <;> cases stopped
    exact .inl trivial
  · cases stopped
  · cases stopped
    exact .inr rfl

/-- Numbers are what an operation on numbers needs. -/
theorem onNumbers_eq_ok {operation : Float → Float → Value} {left right result : Value}
    (given : onNumbers operation left right = .ok result) :
    ∃ first second, result = operation first second := by
  unfold onNumbers at given
  split at given
  · cases given
    exact ⟨_, _, rfl⟩
  · cases given

/-- A binary operator gives no function, class or object. -/
theorem isPlain_of_applyBinary {operator : Kind} {left right result : Value}
    (given : applyBinary operator left right = .ok result) : result.IsPlain := by
  unfold applyBinary at given
  split at given
  · unfold addValues at given
    split at given <;> cases given <;> trivial
  iterate 7
    obtain ⟨_, _, rfl⟩ := onNumbers_eq_ok given
    trivial
  iterate 2
    cases given
    trivial
  · cases given

/-- A binary operator stops on a fault a program can run into, or it is no binary operator. -/
theorem ordinary_of_applyBinary {operator : Kind} {left right : Value} {fault : RuntimeFault}
    (stopped : applyBinary operator left right = .error fault) :
    fault.Ordinary ∨ fault = .invalidBinaryOperator := by
  unfold applyBinary at stopped
  split at stopped
  · unfold addValues at stopped
    split at stopped <;> cases stopped
    exact .inl trivial
  iterate 7
    unfold onNumbers at stopped
    split at stopped <;> cases stopped
    exact .inl trivial
  iterate 2
    cases stopped
  · cases stopped
    exact .inr rfl

end Plain

/-- The endings that change nothing but what stands aside: a result of a certain kind, or an
ordinary fault. -/
inductive Ending.Aside {α : Type} (machine : Machine) (kind : α → Prop) : Ending α → Prop where
  | value {result : α} {after : Machine} (aside : machine.Aside after) (known : kind result) :
      Aside machine kind (.value result after)
  | fault {error : RuntimeError} {after : Machine} (aside : machine.Aside after)
      (ordinary : error.fault.Ordinary) : Aside machine kind (.fault error after)

namespace Eval

/-- A function value is made aside: only the next identity moves. -/
theorem newFunction_aside (closure : Closure) (machine : Machine) :
    (newFunction closure machine).Aside machine fun value =>
      ∃ identity, value = .function identity closure :=
  .value { Machine.Aside.refl machine with } ⟨_, rfl⟩

/-- A written text changes the output alone, or stops on the writer's fault. -/
theorem write_aside (token : Token) (text : String) (machine : Machine) :
    (write token text machine).Aside machine fun _ => True := by
  unfold write
  split
  case h_1 reason _ => exact .fault { Machine.Aside.refl machine with } trivial
  case h_2 => exact .value { Machine.Aside.refl machine with output := ⟨text, rfl⟩ } trivial

/-- A native function may write a listing or read the clock, and gives a plain value. -/
theorem callNative_aside (paren : Token) (builtin : Native) (machine : Machine) :
    (callNative paren builtin machine).Aside machine Value.IsPlain := by
  cases builtin with
  | clock => exact .value { Machine.Aside.refl machine with } trivial
  | dump =>
    have written := write_aside paren (machine.store.listing globalFrame 0 machine.environment)
      machine
    have listed : callNative paren .dump machine =
        (write paren (machine.store.listing globalFrame 0 machine.environment) >>= fun _ =>
          pure .nil) machine := rfl
    rw [listed, bind_apply]
    generalize write paren _ machine = ending at written ⊢
    cases written with
    | value aside _ => exact .value aside trivial
    | fault aside ordinary => exact .fault aside ordinary

/-- A superclass must be a class; the test changes nothing. -/
theorem asSuperclass_aside (token : Token) (value : Value) (machine : Machine) :
    (asSuperclass token value machine).Aside machine fun origin => value = .classObject origin := by
  unfold asSuperclass
  split
  case h_1 => exact .value (.refl machine) rfl
  case h_2 => exact .fault (.refl machine) trivial

/-- A call that passes its check has as many arguments as the value takes. -/
theorem checkCall_aside (callee : Value) (paren : Token) (arguments : List Value)
    (machine : Machine) :
    (checkCall callee paren arguments machine).Aside machine fun _ =>
      callee.arity? = some arguments.length := by
  unfold checkCall
  cases takes : callee.arity? with
  | none => exact .fault (.refl machine) trivial
  | some arity =>
    dsimp only
    split
    case isTrue same => exact .value (.refl machine) (same ▸ rfl)
    case isFalse => exact .fault (.refl machine) trivial

/-- The check of a call changes nothing. -/
theorem checkCall_same {callee : Value} {paren : Token} {arguments : List Value}
    {machine after : Machine}
    (checked : checkCall callee paren arguments machine = .value () after) : machine = after := by
  unfold checkCall at checked
  cases takes : callee.arity? with
  | none =>
    rw [takes] at checked
    cases checked
  | some arity =>
    rw [takes] at checked
    by_cases enough : arguments.length = arity
    · simp only [enough, if_true] at checked
      exact (Ending.value.inj checked).2
    · simp only [enough, if_false] at checked
      cases checked

/-- A call that has passed its check has as many arguments as the value takes. -/
theorem checkCall_fits {callee : Value} {paren : Token} {arguments : List Value}
    {machine after : Machine}
    (checked : checkCall callee paren arguments machine = .value () after) :
    callee.arity? = some arguments.length := by
  have aside := checkCall_aside callee paren arguments machine
  rw [checked] at aside
  cases aside with
  | value _ fits => exact fits

end Eval

/-- A class takes the arguments of its initializer. -/
theorem ClassObject.arity_of_initializer {origin : ClassObject} {method : Closure}
    (found : origin.method? initializerName = some method) : origin.arity = method.arity := by
  simp [ClassObject.arity, found]

/-! ### Names -/

/-- The endings of a search for a name: it is found in a frame, or it is undefined. -/
inductive Ending.Reads (machine : Machine) (name : Token) : Ending Value → Prop where
  | found {frame : Nat} {value : Value}
      (bound : machine.store.binding? frame name.lexeme = some value) :
      Reads machine name (.value value machine)
  | missing : Reads machine name (.fault (.undefined name) machine)

/-- A search leaves the machine as it is. -/
theorem Ending.Reads.leaves {machine after : Machine} {name : Token} {ending : Ending Value}
    (reads : ending.Reads machine name) (left : ending.Leaves after) : machine = after := by
  cases reads with
  | found => exact left
  | missing => exact left

/-- The endings of an assignment: some frame gains the value, or the name is undefined. -/
inductive Ending.Stores (machine : Machine) (name : Token) (value : Value) :
    Ending Unit → Prop where
  | stored (frame : Nat) :
      Stores machine name value
        (.value () { machine with store := machine.store.define frame name.lexeme value })
  | missing : Stores machine name value (.fault (.undefined name) machine)

namespace Eval

/-- A value that is bound in some frame is read; where none is found, the name is undefined. -/
theorem orUndefined_reads {found : Option Value} {name : Token} {machine : Machine}
    (bound : ∀ value, found = some value →
      ∃ frame, machine.store.binding? frame name.lexeme = some value) :
    (orUndefined name found machine).Reads machine name := by
  cases found with
  | none => exact .missing
  | some value =>
    obtain ⟨frame, there⟩ := bound value rfl
    exact .found there

/-- A lookup at a distance reads the name in some frame. -/
theorem lookupAt_reads (environment : Environment) (distance : Nat) (name : Token)
    (machine : Machine) : (lookupAt environment distance name machine).Reads machine name :=
  orUndefined_reads fun _ found =>
    let ⟨frame, _, bound⟩ := Option.bind_eq_some_iff.mp found
    ⟨frame, bound⟩

/-- A lookup among the globals reads the name there. -/
theorem lookupGlobal_reads (name : Token) (machine : Machine) :
    (lookupGlobal name machine).Reads machine name :=
  orUndefined_reads fun _ found =>
    let ⟨frame, _, bound⟩ := List.exists_of_findSome?_eq_some found
    ⟨frame, bound⟩

/-- A lookup searches the frame at the distance of the occurrence, or else the globals. -/
theorem lookup_apply (id : Nat) (name : Token) (machine : Machine) :
    lookup id name machine = (machine.distances[id]?).elim (lookupGlobal name machine)
      fun distance => lookupAt machine.environment distance name machine := by
  unfold lookup
  rw [bind_apply]
  unfold distance?
  cases machine.distances[id]? <;> rfl

/-- An assignment binds the name in the frame at the distance of the occurrence, or else in the
frame of the globals that binds it already. -/
theorem assign_apply (id : Nat) (name : Token) (value : Value) (machine : Machine) :
    assign id name value machine = bindIn name value ((machine.distances[id]?).elim
      (machine.store.owner? globalEnvironment name.lexeme)
      fun distance => machine.environment[distance]?) machine := by
  unfold assign
  rw [bind_apply]
  unfold distance?
  cases machine.distances[id]? <;> rfl

/-- A lookup reads the name in some frame, whatever its id resolves to. -/
theorem lookup_reads (id : Nat) (name : Token) (machine : Machine) :
    (lookup id name machine).Reads machine name := by
  rw [lookup_apply]
  cases machine.distances[id]? with
  | none => exact lookupGlobal_reads name machine
  | some distance => exact lookupAt_reads machine.environment distance name machine

/-- An assignment in a frame binds the name there, or the name is undefined. -/
theorem bindIn_stores (name : Token) (value : Value) (frame : Option Nat) (machine : Machine) :
    (bindIn name value frame machine).Stores machine name value := by
  cases frame with
  | none => exact .missing
  | some frame => exact .stored frame

/-- An assignment binds its name in some frame, whatever its id resolves to. -/
theorem assign_stores (id : Nat) (name : Token) (value : Value) (machine : Machine) :
    (assign id name value machine).Stores machine name value := by
  rw [assign_apply]
  exact bindIn_stores name value _ machine

/-- A definition binds the name in the innermost frame. -/
theorem define_apply (name : String) (value : Value) (machine : Machine) :
    define name value machine = .value () (machine.define name value) := by
  unfold define Machine.define
  cases machine.environment <;> rfl

/-! ### Values -/

/-- Binding a method adds a frame in front of the environment of the method. -/
theorem bindMethod_apply (method : Closure) (receiver : Value) (machine : Machine) :
    bindMethod method receiver machine =
      .value { method with environment := machine.store.frames.size :: method.environment }
        { machine with
          store := machine.store.addFrame (Std.TreeMap.empty.insert "this" receiver) } :=
  rfl

/-- The method of a class that a name stands for, bound to an instance. -/
abbrev inherited (origin : ClassObject) (receiver : Value) (name : Token) : Eval Value :=
  match origin.method? name.lexeme with
  | some method => do newFunction (← bindMethod method receiver)
  | none => fail name (.undefinedProperty name.lexeme)

/-- At an occurrence of `super` a method of a class that some frame binds is bound to an instance
that some frame binds to `this`; or there is a fault and nothing has changed. -/
theorem superMethod_cases (id : Nat) (keyword method : Token) (machine : Machine) :
    (∃ error, superMethod id keyword method machine = .fault error machine) ∨
      ∃ outer inner ancestor identity origin found,
        machine.store.binding? outer keyword.lexeme = some (.classObject ancestor) ∧
        machine.store.binding? inner "this" = some (.object identity origin) ∧
        ancestor.method? method.lexeme = some found ∧
        superMethod id keyword method machine =
          (do newFunction (← bindMethod found (.object identity origin))) machine := by
  unfold superMethod
  rw [bind_apply]
  unfold distance?
  cases machine.distances[id]? with
  | none => exact .inl ⟨_, rfl⟩
  | some distance =>
    cases distance with
    | zero => exact .inl ⟨_, rfl⟩
    | succ outer =>
      have parentReads := lookupAt_reads machine.environment (outer + 1) keyword machine
      have receiverReads := lookupAt_reads machine.environment outer
        (.implicit "this" keyword.line) machine
      dsimp only
      rw [bind_apply]
      unfold environment
      dsimp only
      rw [bind_apply]
      generalize lookupAt machine.environment (outer + 1) keyword machine = ending at parentReads ⊢
      cases parentReads with
      | missing => exact .inl ⟨_, rfl⟩
      | @found outerFrame parent parentBound =>
        dsimp only
        rw [bind_apply]
        generalize lookupAt machine.environment outer (.implicit "this" keyword.line) machine =
          ending at receiverReads ⊢
        cases receiverReads with
        | missing => exact .inl ⟨_, rfl⟩
        | @found innerFrame receiver receiverBound =>
          dsimp only
          split
          case h_2 => exact .inl ⟨_, rfl⟩
          case h_1 ancestor identity origin =>
            cases there : ancestor.method? method.lexeme with
            | none => exact .inl ⟨_, rfl⟩
            | some found =>
              exact .inr ⟨_, _, _, _, _, _, parentBound, receiverBound, there, rfl⟩

/-! ### Frames and calls -/

/-- A frame of parameters binds arguments to the parameters at their places. -/
theorem mem_zip_of_parameterBindings {parameters : List Token} {arguments : List Value}
    {name : String} {value : Value}
    (found : (parameterBindings parameters arguments)[name]? = some value) :
    ∃ parameter, (parameter, value) ∈ parameters.zip arguments ∧ parameter.lexeme = name := by
  suffices general : ∀ (pairs : List (Token × Value)) (bindings : Bindings),
      (pairs.foldl (fun bindings pair => bindings.insert pair.1.lexeme pair.2) bindings)[name]? =
        some value →
      (∃ parameter, (parameter, value) ∈ pairs ∧ parameter.lexeme = name) ∨
        bindings[name]? = some value by
    exact (general _ _ found).resolve_right (by simp)
  intro pairs
  induction pairs with
  | nil => exact fun _ found => .inr found
  | cons first rest inductionHypothesis =>
    intro bindings found
    rcases inductionHypothesis _ found with ⟨parameter, member, spelled⟩ | earlier
    · exact .inl ⟨parameter, List.mem_cons_of_mem _ member, spelled⟩
    · rw [Std.TreeMap.getElem?_insert] at earlier
      split at earlier
      case isTrue same =>
        obtain rfl := Option.some.inj earlier
        exact .inl ⟨first.1, List.mem_cons_self, by simpa using same⟩
      case isFalse => exact .inr earlier

/-- The frame of the parameters binds them to arguments only. -/
theorem forall_parameterBindings {parameters : List Token} {arguments : List Value} {name : String}
    {value : Value} (found : (parameterBindings parameters arguments)[name]? = some value) :
    value ∈ arguments :=
  let ⟨_, paired, _⟩ := mem_zip_of_parameterBindings found
  (List.of_mem_zip paired).2

/-- Only parameters are bound in the frame of the parameters. -/
theorem parameterBindings_free {parameters : List Token} {arguments : List Value} {name : String}
    (named : ∀ parameter ∈ parameters, parameter.lexeme ≠ name) :
    (parameterBindings parameters arguments)[name]? = none := by
  cases found : (parameterBindings parameters arguments)[name]? with
  | none => rfl
  | some value =>
    obtain ⟨parameter, paired, spelled⟩ := mem_zip_of_parameterBindings found
    exact absurd spelled (named parameter (List.of_mem_zip paired).1)

/-- Every parameter is bound if there are as many arguments. -/
theorem parameterBindings_isSome {parameters : List Token} {arguments : List Value}
    (enough : arguments.length = parameters.length) :
    ∀ name ∈ parameters.map Token.lexeme,
      ((parameterBindings parameters arguments)[name]?).isSome := by
  suffices general : ∀ name (pairs : List (Token × Value)) (bindings : Bindings),
      name ∈ pairs.map (fun pair => pair.1.lexeme) ∨ (bindings[name]?).isSome →
      ((pairs.foldl (fun bindings pair =>
        bindings.insert pair.1.lexeme pair.2) bindings)[name]?).isSome by
    intro name member
    refine general name _ _ (.inl ?_)
    have listed : (parameters.zip arguments).map Prod.fst = parameters :=
      List.map_fst_zip (Nat.le_of_eq enough.symm)
    rw [← listed, List.map_map] at member
    exact member
  intro name pairs
  induction pairs with
  | nil =>
    rintro bindings (member | bound)
    · cases member
    · exact bound
  | cons first rest inductionHypothesis =>
    intro bindings given
    refine inductionHypothesis _ ?_
    rw [Std.TreeMap.getElem?_insert]
    rcases given with member | bound
    · rcases List.mem_cons.mp member with rfl | member
      · exact .inr (by simp)
      · exact .inl member
    · refine .inr ?_
      split
      · rfl
      · exact bound

/-- The call of a function, as far as its body. -/
abbrev runBody (fuel : Nat) (closure : Closure) (paren : Token) (arguments : List Value) :
    Eval Flow :=
  asCall paren do
    let parameters ← newFrame (parameterBindings closure.declaration.parameters arguments)
    let body ← newFrame ∅
    inEnvironment (body :: parameters :: closure.environment)
      (executeAll fuel closure.declaration.body)

/-- A call overflows at the limit; below it the body is executed where the call enters. -/
theorem runBody_apply (fuel : Nat) (closure : Closure) (paren : Token) (arguments : List Value)
    (machine : Machine) :
    runBody fuel closure paren arguments machine =
      if machine.callLimit ≤ machine.callDepth then
        .fault { token := paren, fault := .stackOverflow } machine
      else
        (executeAll fuel closure.declaration.body (machine.enter closure arguments)).adjust
          fun after => Machine.leaveCall { after with environment := machine.environment } := by
  rw [runBody, asCall_apply]
  split
  case isTrue => rfl
  case isFalse =>
    change Ending.adjust Machine.leaveCall (Ending.adjust
      (fun after => { after with environment := machine.environment })
      (executeAll fuel closure.declaration.body (machine.enter closure arguments))) = _
    cases executeAll fuel closure.declaration.body (machine.enter closure arguments) <;> rfl

/-- A block is executed in a frame of its own. -/
theorem execute_block (fuel : Nat) (body : List Stmt) (machine : Machine) :
    execute (fuel + 1) (.block body) machine =
      (executeAll fuel body { machine with
        store := machine.store.addFrame ∅
        environment := machine.store.frames.size :: machine.environment }).adjust
        fun after => { after with environment := machine.environment } :=
  rfl

/-- A class without superclass is defined in one step, with the next identity. -/
theorem defineClass_none (name : Token) (methods : List FunctionDecl) (machine : Machine) :
    defineClass name none methods machine = .value ()
      (Machine.define { machine with nextIdentity := machine.nextIdentity + 1 } name.lexeme
        (.classObject ⟨machine.nextIdentity, name.lexeme, [⟨methods, machine.environment⟩]⟩)) := by
  rw [← define_apply]
  rfl

/-- The methods of a derived class see `super` in a frame of their own. -/
theorem defineClass_some (name : Token) (ancestor : ClassObject) (methods : List FunctionDecl)
    (machine : Machine) :
    defineClass name (some ancestor) methods machine = .value ()
      (Machine.define
        { machine with
          store := machine.store.addFrame
            (Std.TreeMap.empty.insert "super" (.classObject ancestor))
          nextIdentity := machine.nextIdentity + 1 }
        name.lexeme
        (.classObject ⟨machine.nextIdentity, name.lexeme,
          ⟨methods, machine.store.frames.size :: machine.environment⟩ :: ancestor.lineage⟩)) := by
  rw [← define_apply]
  rfl

end Eval

namespace Machine

/-- There is no way back to be gone from where the other machine stands. -/
theorem backTo_of_same {machine outer : Machine}
    (environment : machine.environment = outer.environment)
    (callDepth : machine.callDepth = outer.callDepth) : machine.backTo outer = machine := by
  rw [backTo, ← environment, ← callDepth]

/-- A call that counts itself out is back where it was made. -/
theorem leaveCall_eq_backTo {outer after : Machine} {closure : Closure} {arguments : List Value}
    (depth : after.callDepth = (outer.enter closure arguments).callDepth) :
    leaveCall { after with environment := outer.environment } = after.backTo outer := by
  simp [leaveCall, backTo, depth, enter]

/-- Control goes back from a block to the environment around it. -/
theorem leaveBlock_eq_backTo {outer after : Machine} (depth : after.callDepth = outer.callDepth) :
    { after with environment := outer.environment } = after.backTo outer := by
  simp [backTo, depth]

variable (machine : Machine) (name : String) (value : Value)

/-- A definition leaves the environment. -/
@[simp] theorem define_environment :
    (machine.define name value).environment = machine.environment := by
  unfold define
  split
  case h_1 => rfl
  case h_2 => rfl

/-- A definition leaves the call depth. -/
@[simp] theorem define_callDepth :
    (machine.define name value).callDepth = machine.callDepth := by
  unfold define
  split
  case h_1 => rfl
  case h_2 => rfl

variable {machine} {name value} {suits : String → Value → Prop} {kind : Value → Prop}
  (keeps : machine.store.Keeps suits kind)
include keeps

/-- A value that suits its name may be bound in the innermost frame. -/
theorem define_keeps (given : suits name value) :
    (machine.define name value).store.Keeps suits kind := by
  unfold define
  split
  case h_1 => exact keeps
  case h_2 => exact keeps.define _ given

/-- Arguments that suit the parameters may be passed to a function. -/
theorem enter_keeps {closure : Closure} {arguments : List Value}
    (given : ∀ (name : String) (value : Value),
      (Eval.parameterBindings closure.declaration.parameters arguments)[name]? = some value →
        suits name value) :
    (machine.enter closure arguments).store.Keeps suits kind :=
  (keeps.addFrame given).addEmpty

end Machine

end LoxLang
