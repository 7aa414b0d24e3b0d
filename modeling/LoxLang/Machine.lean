import LoxLang.Machine.Fault
import LoxLang.Scope.Resolution
import LoxLang.Store

/-!
# The machine

A `Machine` is the whole state of a running program. An `Eval` is a computation on it; it ends with
a result, stops at a runtime fault, or runs out of the fuel that bounds its recursion. The first two
endings keep the machine they leave behind.

Computations touch the machine only through the operations of this module. `inEnvironment` and
`asCall` are the two that change something for a while: whichever way the inner computation ends,
they put the environment and the call depth back.
-/

namespace LoxLang

/-- Where output goes: the text written so far, and what becomes of each attempt to write. -/
structure Sink where
  written : String
  /-- The reason why an attempt to write fails, if it does, by the number of attempts before it. -/
  failure : Nat → Option String
  /-- How many attempts have been made. -/
  attempts : Nat

namespace Sink

/-- A sink that has taken nothing yet and never fails. -/
def reliable : Sink :=
  { written := "", failure := fun _ => none, attempts := 0 }

/-- The reason why the next attempt fails, if it does. -/
def obstacle (sink : Sink) : Option String :=
  sink.failure sink.attempts

/-- The sink after an attempt that failed. -/
def attempt (sink : Sink) : Sink :=
  { sink with attempts := sink.attempts + 1 }

/-- The sink after a text was written to it. -/
def append (sink : Sink) (text : String) : Sink :=
  { sink.attempt with written := sink.written ++ text }

end Sink

/-- The state of a running program. -/
structure Machine where
  store : Store
  /-- The next unused identity of a function or class. -/
  nextIdentity : Nat
  /-- The frames visible at the current place. -/
  environment : Environment
  /-- Scope distances of all occurrences resolved so far. -/
  distances : Distances
  sink : Sink
  /-- The number of function bodies being executed. -/
  callDepth : Nat
  /-- The largest number of function bodies that may be executed at a time. -/
  callLimit : Nat
  /-- The readings of the clock, in microseconds, in the order in which they are taken. -/
  clock : Nat → Nat
  /-- How many readings have been taken. -/
  readings : Nat

/-- The frame of the globals. -/
def globalFrame : Nat := 0

/-- The environment of top-level code. -/
def globalEnvironment : Environment := [globalFrame]

/-- How many calls may nest unless a limit is given. -/
def defaultCallLimit : Nat := 1000

namespace Machine

/-- A machine that has run nothing: the globals hold the native functions. -/
def start (clock : Nat → Nat) (callLimit : Nat) : Machine :=
  let natives : Bindings := [Native.clock, Native.dump].foldl
    (fun bindings native => bindings.insert native.name (.native native)) ∅
  { store := Store.empty.addFrame natives
    nextIdentity := 0
    environment := globalEnvironment
    distances := ∅
    sink := .reliable
    callDepth := 0
    callLimit
    clock
    readings := 0 }

/-- A new machine binds the native functions, each under its own name, and nothing else. -/
theorem start_binding? {clock : Nat → Nat} {callLimit frame : Nat} {name : String} {value : Value}
    (present : (start clock callLimit).store.binding? frame name = some value) :
    ∃ native : Native, name = native.name ∧ value = .native native := by
  simp only [start, Store.binding?, Store.addFrame, Tables.value?_push] at present
  split at present
  case isTrue =>
    simp only [List.foldl_cons, List.foldl_nil, Std.TreeMap.getElem?_insert] at present
    split at present
    case isTrue same =>
      exact ⟨.dump, (Std.LawfulEqOrd.eq_of_compare same).symm, (Option.some.inj present).symm⟩
    case isFalse =>
      split at present
      case isTrue same =>
        exact ⟨.clock, (Std.LawfulEqOrd.eq_of_compare same).symm, (Option.some.inj present).symm⟩
      case isFalse => simp at present
  case isFalse => simp [Store.empty, Tables.value?] at present

/-- It has no instances. -/
theorem start_field? (clock : Nat → Nat) (callLimit object : Nat) (name : String) :
    (start clock callLimit).store.field? object name = none := by
  simp [start, Store.field?, Store.addFrame, Store.empty, Tables.value?]

/-- Add scope distances; an entry for the same occurrence is replaced. -/
def addDistances (machine : Machine) (distances : Distances) : Machine :=
  { machine with
    distances := distances.foldl (fun known id distance => known.insert id distance)
      machine.distances }

/-- Count one call less. -/
def leaveCall (machine : Machine) : Machine :=
  { machine with callDepth := machine.callDepth - 1 }

/-- The state between two top-level statements. -/
def atTopLevel (machine : Machine) : Machine :=
  { machine with environment := globalEnvironment, callDepth := 0 }

/-- Take what has been written so far. -/
def takeOutput (machine : Machine) : String × Machine :=
  (machine.sink.written, { machine with sink := { machine.sink with written := "" } })

/-- Let all writing fail for a reason, or succeed again. -/
def setFailure (machine : Machine) (failure : Option String) : Machine :=
  { machine with sink := { machine.sink with failure := fun _ => failure } }

end Machine

/-- How a computation ends. -/
inductive Ending (α : Type) where
  | value (result : α) (machine : Machine)
  | fault (error : RuntimeError) (machine : Machine)
  | outOfFuel

/-- A computation on a machine. -/
def Eval (α : Type) : Type :=
  Machine → Ending α

namespace Eval

variable {α β : Type}

/-- End at once with a result. -/
@[always_inline, inline]
protected def pure (result : α) : Eval α :=
  fun machine => .value result machine

/-- Go on with the result of a computation if it has one. -/
@[always_inline, inline]
protected def bind (first : Eval α) (next : α → Eval β) : Eval β :=
  fun machine =>
    match first machine with
    | .value result after => next result after
    | .fault error after => .fault error after
    | .outOfFuel => .outOfFuel

instance : Monad Eval where
  pure := Eval.pure
  bind := Eval.bind

/-- Stop at a token. -/
def fail (token : Token) (fault : RuntimeFault) : Eval α :=
  fun machine => .fault { token, fault } machine

/-- Stop for want of fuel. -/
def outOfFuel : Eval α :=
  fun _ => .outOfFuel

/-- The result, or the fault at a token. -/
def ofExcept (token : Token) : Except RuntimeFault α → Eval α
  | .ok result => pure result
  | .error fault => fail token fault

/-- Stop because a name is bound nowhere. -/
def failUndefined (name : Token) : Eval α :=
  fun machine => .fault (.undefined name) machine

/-- What was found for a name, or the fault that it is undefined. -/
def orUndefined (name : Token) : Option α → Eval α
  | some result => pure result
  | none => failUndefined name

/-- The current environment. -/
def environment : Eval Environment :=
  fun machine => .value machine.environment machine

/-- The scope distance of an occurrence, if it is local. -/
def distance? (id : Nat) : Eval (Option Nat) :=
  fun machine => .value machine.distances[id]? machine

/-- The value of a name in the frame a number of steps out of an environment. -/
def lookupAt (environment : Environment) (distance : Nat) (name : Token) : Eval Value :=
  fun machine => orUndefined name (machine.store.getAt? environment distance name.lexeme) machine

/-- The value of a global. -/
def lookupGlobal (name : Token) : Eval Value :=
  fun machine => orUndefined name (machine.store.get? globalEnvironment name.lexeme) machine

/-- The value at an occurrence of a name: local occurrences read the frame at their distance, all
others the globals. -/
def lookup (id : Nat) (name : Token) : Eval Value := do
  match ← distance? id with
  | some distance => lookupAt (← environment) distance name
  | none => lookupGlobal name

/-- Bind a name in the frame that was found for it, or stop because there is none. -/
def bindIn (name : Token) (value : Value) : Option Nat → Eval Unit
  | some frame => fun machine =>
    .value () { machine with store := machine.store.define frame name.lexeme value }
  | none => failUndefined name

/-- The frame that binds a global name, if it is bound. -/
def globalOwner? (name : String) : Eval (Option Nat) :=
  fun machine => .value (machine.store.owner? globalEnvironment name) machine

/-- Store a value at an occurrence of a name. -/
def assign (id : Nat) (name : Token) (value : Value) : Eval Unit := do
  match ← distance? id with
  | some distance => bindIn name value (← environment)[distance]?
  | none => bindIn name value (← globalOwner? name.lexeme)

/-- Bind a name in the innermost frame. -/
def define (name : String) (value : Value) : Eval Unit :=
  fun machine =>
    match machine.environment with
    | [] => .value () machine
    | frame :: _ => .value () { machine with store := machine.store.define frame name value }

/-- A new frame. -/
def newFrame (bindings : Bindings) : Eval Nat :=
  fun machine =>
    .value machine.store.frames.size { machine with store := machine.store.addFrame bindings }

/-- A new identity for a function or class. -/
def newIdentity : Eval Nat :=
  fun machine =>
    .value machine.nextIdentity { machine with nextIdentity := machine.nextIdentity + 1 }

/-- A new instance of a class. -/
def newObject (origin : ClassObject) : Eval Value :=
  fun machine =>
    .value (.object machine.store.objects.size origin)
      { machine with store := machine.store.addObject }

/-- The value of a field of an instance, if it has the field. -/
def field? (object : Nat) (name : String) : Eval (Option Value) :=
  fun machine => .value (machine.store.field? object name) machine

/-- Set a field of an instance. -/
def setField (object : Nat) (name : String) (value : Value) : Eval Unit :=
  fun machine => .value () { machine with store := machine.store.setField object name value }

/-- Write text; `token` is where the fault lies if that fails. -/
def write (token : Token) (text : String) : Eval Unit :=
  fun machine =>
    match machine.sink.obstacle with
    | some reason =>
      fail token (.outputFailed reason) { machine with sink := machine.sink.attempt }
    | none => .value () { machine with sink := machine.sink.append text }

/-- The listing of all frames that are visible at the current place. -/
def frameListing : Eval String :=
  fun machine => .value (machine.store.listing globalFrame 0 machine.environment) machine

/-- Read the clock, in seconds. -/
def readClock : Eval Value :=
  fun machine =>
    let microseconds := machine.clock machine.readings
    .value (.number (Binary64.ofField false (Binary64.nearestField microseconds 1000000)))
      { machine with readings := machine.readings + 1 }

/-- Count one more active call, unless the limit is reached. -/
def enterCall (paren : Token) : Eval Unit :=
  fun machine =>
    if machine.callLimit ≤ machine.callDepth then fail paren .stackOverflow machine
    else .value () { machine with callDepth := machine.callDepth + 1 }

/-- Run in another environment and come back to this one, however that ends. -/
@[inline]
def inEnvironment (inner : Environment) (computation : Eval α) : Eval α :=
  fun machine =>
    let outer := machine.environment
    match computation { machine with environment := inner } with
    | .value result after => .value result { after with environment := outer }
    | .fault error after => .fault error { after with environment := outer }
    | .outOfFuel => .outOfFuel

/-- Run as one more active call, which is over however that ends. -/
@[inline]
def asCall (paren : Token) (computation : Eval α) : Eval α := do
  enterCall paren
  fun machine =>
    match computation machine with
    | .value result after => .value result after.leaveCall
    | .fault error after => .fault error after.leaveCall
    | .outOfFuel => .outOfFuel

/-- Run top-level code: a fault leaves the machine at the top level. -/
def atTopLevel (computation : Eval α) : Eval α :=
  fun machine =>
    match computation machine with
    | .value result after => .value result after
    | .fault error after => .fault error after.atTopLevel
    | .outOfFuel => .outOfFuel

end Eval

end LoxLang
