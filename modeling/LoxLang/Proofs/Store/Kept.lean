import LoxLang.Store

/-!
# The values that a store keeps

A store keeps values of certain kinds if its frames bind and its instances hold nothing else. What
may be bound can depend on the name. Every change of a store keeps the kinds of what it keeps, as
long as the new values are of these kinds.
-/

namespace LoxLang

namespace Store

/-- Every value that a frame binds suits its name, and every value that an instance holds is of a
certain kind. -/
structure Keeps (store : Store) (suits : String → Value → Prop) (kind : Value → Prop) : Prop where
  bound : ∀ {frame : Nat} {name : String} {value : Value},
    store.binding? frame name = some value → suits name value
  field : ∀ {object : Nat} {name : String} {value : Value},
    store.field? object name = some value → kind value

namespace Keeps

variable {store : Store} {suits widerSuits : String → Value → Prop} {kind wider : Value → Prop}

/-- The kinds may be widened. -/
theorem imp (keeps : store.Keeps suits kind)
    (bound : ∀ name value, suits name value → widerSuits name value)
    (field : ∀ value, kind value → wider value) : store.Keeps widerSuits wider where
  bound := fun present => bound _ _ (keeps.bound present)
  field := fun present => field _ (keeps.field present)

/-- A value may be bound to a name that it suits. -/
theorem define (keeps : store.Keeps suits kind) (frame : Nat) {name : String} {value : Value}
    (given : suits name value) : (store.define frame name value).Keeps suits kind where
  bound := by
    intro other wanted found present
    simp only [binding?, Store.define, Tables.value?_set] at present
    split at present
    case isTrue same =>
      obtain rfl := Option.some.inj present
      exact same.2.1 ▸ given
    case isFalse => exact keeps.bound present
  field := keeps.field

/-- A frame of values that suit their names may be added. -/
theorem addFrame (keeps : store.Keeps suits kind) {bindings : Bindings}
    (given : ∀ (name : String) (value : Value), bindings[name]? = some value → suits name value) :
    (store.addFrame bindings).Keeps suits kind where
  bound := by
    intro frame name value present
    simp only [binding?, Store.addFrame, Tables.value?_push] at present
    split at present
    case isTrue => exact given name value present
    case isFalse => exact keeps.bound present
  field := keeps.field

/-- An empty frame may be added. -/
theorem addEmpty (keeps : store.Keeps suits kind) : (store.addFrame ∅).Keeps suits kind :=
  keeps.addFrame (by simp)

/-- A frame with one value may be added. -/
theorem addSingle (keeps : store.Keeps suits kind) {name : String} {value : Value}
    (given : suits name value) :
    (store.addFrame (Std.TreeMap.empty.insert name value)).Keeps suits kind := by
  refine keeps.addFrame fun wanted found present => ?_
  rw [Std.TreeMap.getElem?_insert] at present
  split at present
  case isTrue same =>
    obtain rfl : name = wanted := by simpa using same
    exact Option.some.inj present ▸ given
  case isFalse => simp at present

/-- An instance without fields may be added. -/
theorem addObject (keeps : store.Keeps suits kind) : store.addObject.Keeps suits kind where
  bound := keeps.bound
  field := by
    intro object name value present
    simp only [field?, Store.addObject, Tables.value?_push] at present
    split at present
    case isTrue => simp at present
    case isFalse => exact keeps.field present

/-- A field may be set to a value of the kind. -/
theorem setField (keeps : store.Keeps suits kind) (object : Nat) (name : String) {value : Value}
    (given : kind value) : (store.setField object name value).Keeps suits kind where
  bound := keeps.bound
  field := by
    intro other wanted found present
    simp only [field?, Store.setField, Tables.value?_set] at present
    split at present
    case isTrue => exact Option.some.inj present ▸ given
    case isFalse => exact keeps.field present

end Keeps

end Store

end LoxLang
