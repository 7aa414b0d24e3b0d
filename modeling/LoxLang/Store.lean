import LoxLang.Value
import Std.Data.TreeMap

/-!
# The store

The store holds the bindings of every frame and the fields of every instance. Frames are never
removed, so an environment, which is just the list of its frames, stays meaningful for as long as a
closure keeps it. Names are kept in ascending order.
-/

namespace LoxLang

/-- Values by name. -/
abbrev Bindings := Std.TreeMap String Value

/-- Numbered tables of named values. -/
abbrev Tables := Array Bindings

namespace Tables

variable {tables : Tables} {index other : Nat} {name wanted : String} {value : Value}

/-- The value under a name in a table. -/
def value? (tables : Tables) (index : Nat) (name : String) : Option Value :=
  (tables[index]?).bind fun bindings => bindings[name]?

/-- Put a value under a name in a table, if there is such a table. -/
def set (tables : Tables) (index : Nat) (name : String) (value : Value) : Tables :=
  tables.modify index (·.insert name value)

/-- A value that is put into a table is seen there under its name, and nowhere else. -/
theorem value?_set :
    (tables.set index name value).value? other wanted =
      if other = index ∧ wanted = name ∧ index < tables.size then some value
      else tables.value? other wanted := by
  simp only [value?, set, Array.getElem?_modify]
  by_cases sameIndex : index = other
  · subst sameIndex
    by_cases inside : index < tables.size
    · by_cases sameName : name = wanted
      · simp [inside, sameName]
      · simp [inside, sameName, Ne.symm sameName, Std.TreeMap.getElem?_insert]
    · simp [inside]
  · simp [sameIndex, Ne.symm sameIndex]

/-- A new table is seen under the next number, and the others stay as they are. -/
theorem value?_push {bindings : Bindings} :
    Tables.value? (tables.push bindings) other wanted =
      if other = tables.size then bindings[wanted]? else tables.value? other wanted := by
  simp only [value?, Array.getElem?_push]
  split <;> rfl

end Tables

/-- The bindings of all frames and the fields of all instances. -/
structure Store where
  frames : Tables
  objects : Tables

namespace Store

/-- A store without frames and instances. -/
def empty : Store :=
  { frames := #[], objects := #[] }

/-- Add a frame; its number is the count of those before it. -/
def addFrame (store : Store) (bindings : Bindings) : Store :=
  { store with frames := store.frames.push bindings }

/-- Add an instance without fields; its number is the count of those before it. -/
def addObject (store : Store) : Store :=
  { store with objects := store.objects.push ∅ }

/-- The value that a frame itself binds a name to. -/
def binding? (store : Store) (frame : Nat) (name : String) : Option Value :=
  store.frames.value? frame name

/-- Bind a name in a frame, whether or not it was bound there. -/
def define (store : Store) (frame : Nat) (name : String) (value : Value) : Store :=
  { store with frames := store.frames.set frame name value }

theorem size_define (store : Store) (frame : Nat) (name : String) (value : Value) :
    (store.define frame name value).frames.size = store.frames.size := by
  rw [define, Tables.set, Array.size_modify]

/-- The value of a name in the nearest frame that binds it. -/
def get? (store : Store) (environment : Environment) (name : String) : Option Value :=
  environment.findSome? fun frame => store.binding? frame name

/-- The nearest frame that binds a name. -/
def owner? (store : Store) (environment : Environment) (name : String) : Option Nat :=
  environment.find? fun frame => (store.binding? frame name).isSome

/-- Change the binding of a name in the nearest frame that binds it. -/
def assign? (store : Store) (environment : Environment) (name : String) (value : Value) :
    Option Store :=
  (store.owner? environment name).map fun frame => store.define frame name value

/-- The value of a name in the frame a number of steps outwards. -/
def getAt? (store : Store) (environment : Environment) (distance : Nat) (name : String) :
    Option Value :=
  (environment[distance]?).bind fun frame => store.binding? frame name

/-- Bind a name in the frame a number of steps outwards. -/
def assignAt? (store : Store) (environment : Environment) (distance : Nat) (name : String)
    (value : Value) : Option Store :=
  (environment[distance]?).map fun frame => store.define frame name value

/-- The bindings of a frame, in ascending order of their names. -/
def bindings (store : Store) (frame : Nat) : List (String × Value) :=
  match store.frames[frame]? with
  | none => []
  | some bindings => bindings.toList

/-- The value of a field of an instance. -/
def field? (store : Store) (object : Nat) (name : String) : Option Value :=
  store.objects.value? object name

/-- Set a field of an instance, whether or not it was there. -/
def setField (store : Store) (object : Nat) (name : String) (value : Value) : Store :=
  { store with objects := store.objects.set object name value }

/-- One frame of a listing: its heading and a line for each binding. -/
def frameListing (store : Store) (heading : String) (frame : Nat) : String :=
  (store.bindings frame).foldl
    (fun text (name, value) => text ++ name ++ " = " ++ value.display ++ "\n") (heading ++ "\n")

/-- The frames of an environment from the innermost outwards; `distance` counts the frames that were
listed before. The frame `outermost` has a heading of its own. -/
def listing (store : Store) (outermost : Nat) : (distance : Nat) → Environment → String
  | _, [] => ""
  | distance, frame :: outer =>
    let heading := if frame = outermost then "== globals =="
      else "== scope " ++ naturalText distance ++ " =="
    store.frameListing heading frame ++ listing store outermost (distance + 1) outer

end Store

/-- The environment a number of steps outwards, if there are that many. -/
def Environment.ancestor? (environment : Environment) (distance : Nat) : Option Environment :=
  match environment.drop distance with
  | [] => none
  | outer => some outer

end LoxLang
