import LoxLang.Proofs.Machine.Pairing
import LoxLang.Proofs.Scope.Identities
import LoxLang.Proofs.Tree.Moved

/-!
# Machines that differ in lines only

Two machines are alike if one of them might have come about from the same texts further down: their
functions and classes are the same up to the lines of their tokens. Their scope distances need only
agree below a limit that no identity in their functions reaches.
-/

namespace LoxLang

/-- The number of lines that something is moved by: none, or those given. -/
def IsOffset (lines offset : Nat) : Prop :=
  offset = 0 ∨ offset = lines

section

variable (limit lines : Nat)

/-- A function with identities below the limit, and the same function up to its lines. -/
structure FunctionDecl.Alike (declaration image : FunctionDecl) : Prop where
  below : Below limit declaration.ids
  moved : ∃ offset, IsOffset lines offset ∧ image = declaration.moved (.down offset)

/-- Closures of like functions. -/
structure Closure.Alike (closure image : Closure) : Prop where
  declaration : FunctionDecl.Alike limit lines closure.declaration image.declaration
  environment : image.environment = closure.environment
  isInitializer : image.isInitializer = closure.isInitializer

/-- Class bodies with like methods. -/
structure ClassBody.Alike (body image : ClassBody) : Prop where
  below : Below limit (FunctionDecl.idsAll body.methods)
  moved : ∃ offset, IsOffset lines offset ∧
    image.methods = FunctionDecl.movedAll (.down offset) body.methods
  environment : image.environment = body.environment

/-- Classes with like bodies. -/
structure ClassObject.Alike (origin image : ClassObject) : Prop where
  identity : image.identity = origin.identity
  name : image.name = origin.name
  lineage : List.Forall₂ (ClassBody.Alike limit lines) origin.lineage image.lineage

/-- Values that differ only in the lines of functions. -/
inductive Value.Alike : Value → Value → Prop where
  | nil : Value.Alike .nil .nil
  | bool (value : Bool) : Value.Alike (.bool value) (.bool value)
  | number (value : Float) : Value.Alike (.number value) (.number value)
  | string (contents : String) : Value.Alike (.string contents) (.string contents)
  | native (builtin : Native) : Value.Alike (.native builtin) (.native builtin)
  | function (identity : Nat) {closure image : Closure}
      (alike : Closure.Alike limit lines closure image) :
      Value.Alike (.function identity closure) (.function identity image)
  | classObject {origin image : ClassObject} (alike : ClassObject.Alike limit lines origin image) :
      Value.Alike (.classObject origin) (.classObject image)
  | object (identity : Nat) {origin image : ClassObject}
      (alike : ClassObject.Alike limit lines origin image) :
      Value.Alike (.object identity origin) (.object identity image)

/-- Bindings of the same names to like values. -/
def Bindings.Alike (bindings image : Bindings) : Prop :=
  ∀ name : String, Option.Rel (Value.Alike limit lines) bindings[name]? image[name]?

/-- Equally many tables with like values. -/
structure Tables.Alike (tables image : Tables) : Prop where
  size : image.size = tables.size
  value? : ∀ index name,
    Option.Rel (Value.Alike limit lines) (tables.value? index name) (image.value? index name)

/-- Stores with like frames and instances. -/
structure Store.Alike (store image : Store) : Prop where
  frames : Tables.Alike limit lines store.frames image.frames
  objects : Tables.Alike limit lines store.objects image.objects

/-- Machines that differ only in the lines of functions and in the distances of identities that no
function holds. -/
structure Machine.Alike (machine image : Machine) : Prop where
  store : Store.Alike limit lines machine.store image.store
  nextIdentity : image.nextIdentity = machine.nextIdentity
  environment : image.environment = machine.environment
  distances : ∀ id < limit, image.distances[id]? = machine.distances[id]?
  sink : image.sink = machine.sink
  callDepth : image.callDepth = machine.callDepth
  callLimit : image.callLimit = machine.callLimit
  clock : image.clock = machine.clock
  readings : image.readings = machine.readings

/-- The same fault at a token that may have been moved. -/
def RuntimeError.Alike (error image : RuntimeError) : Prop :=
  ∃ offset, IsOffset lines offset ∧ image = { error with token := error.token.moved offset }

end

variable {limit lines : Nat}

theorem IsOffset.self : IsOffset lines lines :=
  .inr rfl

/-- What is not moved at all may be moved. -/
theorem IsOffset.widen {offset : Nat} (moved : IsOffset 0 offset) : IsOffset lines offset :=
  .inl (moved.elim id id)

section Widening

variable {higher : Nat} (further : limit ≤ higher)
include further

/-- Declarations that are alike for old identities without moved lines are alike in general. -/
theorem FunctionDecl.Alike.widen {declaration image : FunctionDecl}
    (alike : FunctionDecl.Alike limit 0 declaration image) :
    FunctionDecl.Alike higher lines declaration image := by
  obtain ⟨offset, known, same⟩ := alike.moved
  exact ⟨alike.below.mono further, offset, known.widen, same⟩

/-- So are the bodies of classes. -/
theorem ClassBody.Alike.widen {body image : ClassBody}
    (alike : ClassBody.Alike limit 0 body image) :
    ClassBody.Alike higher lines body image := by
  obtain ⟨offset, known, same⟩ := alike.moved
  exact ⟨alike.below.mono further, ⟨offset, known.widen, same⟩, alike.environment⟩

/-- So are classes, one level of superclasses after the other. -/
theorem ClassObject.Alike.widen {origin image : ClassObject}
    (alike : ClassObject.Alike limit 0 origin image) :
    ClassObject.Alike higher lines origin image :=
  ⟨alike.identity, alike.name, alike.lineage.imp fun _ _ body => body.widen further⟩

/-- Values that do not differ at all are alike under any limit further up. -/
theorem Value.Alike.widen {value image : Value} (alike : Value.Alike limit 0 value image) :
    Value.Alike higher lines value image := by
  cases alike with
  | nil => exact .nil
  | bool value => exact .bool value
  | number value => exact .number value
  | string contents => exact .string contents
  | native builtin => exact .native builtin
  | function identity alike =>
    exact .function identity
      ⟨alike.declaration.widen further, alike.environment, alike.isInitializer⟩
  | classObject alike => exact .classObject (alike.widen further)
  | object identity alike => exact .object identity (alike.widen further)

/-- Tables that are alike without moved lines are alike in general. -/
theorem Tables.Alike.widen {tables image : Tables} (alike : Tables.Alike limit 0 tables image) :
    Tables.Alike higher lines tables image := by
  refine ⟨alike.size, fun index name => ?_⟩
  rcases absent_or_related (alike.value? index name) with
    ⟨missing, also⟩ | ⟨found, other, here, there, related⟩
  · rw [missing, also]
    exact .none
  · rw [here, there]
    exact .some (related.widen further)

/-- So are stores. -/
theorem Store.Alike.widen {store image : Store} (alike : Store.Alike limit 0 store image) :
    Store.Alike higher lines store image :=
  ⟨alike.frames.widen further, alike.objects.widen further⟩

end Widening

namespace ClassBody.Alike

variable {body image : ClassBody}

/-- Like bodies have like methods under each name. -/
theorem method? (alike : ClassBody.Alike limit lines body image) (name : String) :
    Option.Rel (Closure.Alike limit lines) (body.method? name) (image.method? name) := by
  obtain ⟨offset, known, methods⟩ := alike.moved
  unfold ClassBody.method?
  rw [methods, FunctionDecl.movedAll, FunctionDecl.relabelledAll_eq_map, ← List.map_reverse,
    List.find?_map]
  have named : ((fun declaration : FunctionDecl => declaration.name.lexeme == name) ∘
      FunctionDecl.moved (.down offset)) = fun declaration => declaration.name.lexeme == name := by
    funext declaration
    simp
  rw [named]
  cases found : body.methods.reverse.find? (fun declaration => declaration.name.lexeme == name) with
  | none => exact .none
  | some declaration =>
    have member := List.mem_reverse.mp (List.mem_of_find?_eq_some found)
    refine .some ⟨⟨FunctionDecl.below_of_mem alike.below member, offset, known, rfl⟩,
      alike.environment, ?_⟩
    simp

end ClassBody.Alike

namespace ClassObject.Alike

variable {origin image : ClassObject}

/-- Like classes have like methods under each name. -/
theorem method? (alike : ClassObject.Alike limit lines origin image) (name : String) :
    Option.Rel (Closure.Alike limit lines) (origin.method? name) (image.method? name) := by
  obtain ⟨_, _, lineage⟩ := alike
  unfold ClassObject.method?
  generalize origin.lineage = bodies, image.lineage = images at lineage
  induction lineage with
  | nil => exact .none
  | cons head _ inductionHypothesis =>
    rw [List.findSome?_cons, List.findSome?_cons]
    rcases absent_or_related (head.method? name) with
      ⟨missing, also⟩ | ⟨found, other, here, there, related⟩
    · rw [missing, also]
      exact inductionHypothesis
    · rw [here, there]
      exact .some related

end ClassObject.Alike

namespace Value.Alike

variable {value image left right leftImage rightImage : Value}

/-- Values that are alike are printed alike. -/
theorem display (alike : Value.Alike limit lines value image) : image.display = value.display := by
  cases alike with
  | function identity alike =>
    obtain ⟨offset, _, same⟩ := alike.declaration.moved
    simp [Value.display, same]
  | classObject alike => exact alike.name
  | object identity alike => simp [Value.display, alike.name]
  | _ => rfl

end Value.Alike

namespace Bindings.Alike

/-- No bindings at all are alike. -/
theorem empty : Bindings.Alike limit lines ∅ ∅ := by
  intro name
  rw [Std.TreeMap.getElem?_emptyc]
  exact .none

/-- Bindings stay alike when a name is bound to like values. -/
theorem insert {bindings other : Bindings} {value image : Value}
    (alike : Bindings.Alike limit lines bindings other) (name : String)
    (related : Value.Alike limit lines value image) :
    Bindings.Alike limit lines (bindings.insert name value) (other.insert name image) := by
  intro wanted
  rw [Std.TreeMap.getElem?_insert, Std.TreeMap.getElem?_insert]
  split
  · exact .some related
  · exact alike wanted

/-- Two bindings of one name to like values are alike. -/
theorem singleton {value image : Value} (name : String)
    (related : Value.Alike limit lines value image) :
    Bindings.Alike limit lines (Std.TreeMap.empty.insert name value)
      (Std.TreeMap.empty.insert name image) :=
  empty.insert name related

/-- Like bindings are listed alike. -/
theorem listed {bindings other : Bindings} (alike : Bindings.Alike limit lines bindings other) :
    other.toList.map (fun entry => (entry.1, entry.2.display)) =
      bindings.toList.map fun entry => (entry.1, entry.2.display) := by
  have lists (bindings : Bindings) :
      bindings.toList.map (fun entry => (entry.1, entry.2.display)) =
        (bindings.map fun _ value => value.display).toList := by
    rw [Std.TreeMap.toList_map]
  rw [lists, lists, ← Std.TreeMap.equiv_iff_toList_eq]
  refine .of_forall_constGet?_eq fun name => ?_
  rw [Std.TreeMap.getElem?_map, Std.TreeMap.getElem?_map]
  rcases absent_or_related (alike name) with ⟨missing, also⟩ | ⟨found, image, here, there, related⟩
  · rw [missing, also]
  · rw [here, there, Option.map_some, Option.map_some, related.display]

end Bindings.Alike

namespace Tables.Alike

variable {tables image : Tables}

/-- Tables stay alike when a name is bound to like values in one of them. -/
theorem set (alike : Tables.Alike limit lines tables image) (index : Nat) (name : String)
    {value other : Value} (related : Value.Alike limit lines value other) :
    Tables.Alike limit lines (tables.set index name value) (image.set index name other) where
  size := by simp [Tables.set, alike.size]
  value? := by
    intro wanted key
    rw [Tables.value?_set, Tables.value?_set, alike.size]
    split
    · exact .some related
    · exact alike.value? wanted key

/-- Tables stay alike when like tables are put behind them. -/
theorem push (alike : Tables.Alike limit lines tables image) {bindings other : Bindings}
    (related : Bindings.Alike limit lines bindings other) :
    Tables.Alike limit lines (tables.push bindings) (image.push other) where
  size := by simp [alike.size]
  value? := by
    intro wanted key
    rw [Tables.value?_push, Tables.value?_push, alike.size]
    split
    · exact related key
    · exact alike.value? wanted key

/-- Tables of the same number are both there, with like bindings, or both missing. -/
theorem table? (alike : Tables.Alike limit lines tables image) (index : Nat) :
    Option.Rel (Bindings.Alike limit lines) tables[index]? image[index]? := by
  by_cases inside : index < tables.size
  · have also : index < image.size := by
      rw [alike.size]
      exact inside
    rw [Array.getElem?_eq_getElem inside, Array.getElem?_eq_getElem also]
    refine .some fun name => ?_
    have related := alike.value? index name
    simpa only [Tables.value?, Array.getElem?_eq_getElem inside, Array.getElem?_eq_getElem also,
      Option.bind_some] using related
  · have also : ¬ index < image.size := by
      rw [alike.size]
      exact inside
    rw [Array.getElem?_eq_none (Nat.le_of_not_lt inside),
      Array.getElem?_eq_none (Nat.le_of_not_lt also)]
    exact .none

end Tables.Alike

namespace Store.Alike

variable {store image : Store}

/-- Stores stay alike when a name is bound to like values. -/
theorem define (alike : Store.Alike limit lines store image) (frame : Nat) (name : String)
    {value other : Value} (related : Value.Alike limit lines value other) :
    Store.Alike limit lines (store.define frame name value) (image.define frame name other) :=
  ⟨alike.frames.set frame name related, alike.objects⟩

/-- Stores stay alike when frames with like bindings are added. -/
theorem addFrame (alike : Store.Alike limit lines store image) {bindings other : Bindings}
    (related : Bindings.Alike limit lines bindings other) :
    Store.Alike limit lines (store.addFrame bindings) (image.addFrame other) :=
  ⟨alike.frames.push related, alike.objects⟩

/-- Stores stay alike when an instance is added to both. -/
theorem addObject (alike : Store.Alike limit lines store image) :
    Store.Alike limit lines store.addObject image.addObject :=
  ⟨alike.frames, alike.objects.push .empty⟩

/-- Stores stay alike when a field is set to like values. -/
theorem setField (alike : Store.Alike limit lines store image) (object : Nat) (name : String)
    {value other : Value} (related : Value.Alike limit lines value other) :
    Store.Alike limit lines (store.setField object name value)
      (image.setField object name other) :=
  ⟨alike.frames, alike.objects.set object name related⟩

/-- At any distance, stores that are alike hold like values or none. -/
theorem getAt? (alike : Store.Alike limit lines store image) (environment : Environment)
    (distance : Nat) (name : String) :
    Option.Rel (Value.Alike limit lines) (store.getAt? environment distance name)
      (image.getAt? environment distance name) := by
  unfold Store.getAt?
  cases environment[distance]? with
  | none => exact .none
  | some frame => exact alike.frames.value? frame name

/-- Along the whole environment, stores that are alike hold like values or none. -/
theorem get? (alike : Store.Alike limit lines store image) (environment : Environment)
    (name : String) :
    Option.Rel (Value.Alike limit lines) (store.get? environment name)
      (image.get? environment name) := by
  unfold Store.get?
  induction environment with
  | nil => exact .none
  | cons frame outer inductionHypothesis =>
    rw [List.findSome?_cons, List.findSome?_cons]
    rcases absent_or_related (alike.frames.value? frame name) with
      ⟨missing, also⟩ | ⟨found, other, here, there, related⟩
    · simp only [Store.binding?, missing, also]
      exact inductionHypothesis
    · simp only [Store.binding?, here, there]
      exact .some related

/-- The same frames bind a name. -/
theorem owner? (alike : Store.Alike limit lines store image) (environment : Environment)
    (name : String) : image.owner? environment name = store.owner? environment name := by
  unfold Store.owner?
  refine congrArg (environment.find? ·) (funext fun frame => ?_)
  unfold Store.binding?
  rcases absent_or_related (alike.frames.value? frame name) with
    ⟨missing, also⟩ | ⟨found, other, here, there, _⟩
  · rw [missing, also]
  · rw [here, there]
    rfl

/-- The listing of a frame shows the same names and the same printed values. -/
theorem frameListing (alike : Store.Alike limit lines store image) (heading : String)
    (frame : Nat) : image.frameListing heading frame = store.frameListing heading frame := by
  have lists (bindings : Bindings) : bindings.toList.foldl (fun text (entry : String × Value) =>
      text ++ entry.1 ++ " = " ++ entry.2.display ++ "\n") (heading ++ "\n") =
      (bindings.toList.map fun entry => (entry.1, entry.2.display)).foldl
        (fun text entry => text ++ entry.1 ++ " = " ++ entry.2 ++ "\n") (heading ++ "\n") := by
    rw [List.foldl_map]
  unfold Store.frameListing Store.bindings
  rcases absent_or_related (alike.frames.table? frame) with
    ⟨missing, also⟩ | ⟨found, other, here, there, related⟩
  · rw [missing, also]
  · rw [here, there]
    exact (lists other).trans ((congrArg _ related.listed).trans (lists found).symm)

/-- Like stores are listed alike. -/
theorem listing (alike : Store.Alike limit lines store image) (outermost distance : Nat)
    (environment : Environment) :
    image.listing outermost distance environment =
      store.listing outermost distance environment := by
  induction environment generalizing distance with
  | nil => rfl
  | cons frame outer inductionHypothesis =>
    simp only [Store.listing, alike.frameListing, inductionHypothesis]

end Store.Alike

end LoxLang
