import LoxLang.Proofs.Store.Links

/-!
# Lookups and writes over shared frames

A `Forest` is a store whose frames are enclosed by older frames; many frames may share an enclosing
one. Searching a name outwards, reading at a distance and writing agree about which binding is the
nearest one, and a write is seen from exactly those frames whose search ends at the written frame
(`Forest.lookups_agree`).
-/

namespace LoxLang

/-- Frames with their bindings, and the links between them. -/
structure Forest where
  store : Store
  links : Links
  inside : ∀ {frame outer : Nat}, links.enclosing? frame = some outer →
    frame < store.frames.size

namespace Forest

/-- A forest without frames. -/
def empty : Forest where
  store := .empty
  links := .none
  inside := nofun

/-- Add a frame that is not enclosed. -/
def new (forest : Forest) : Forest where
  store := forest.store.addFrame ∅
  links := forest.links
  inside linked := by
    rw [Store.addFrame, Array.size_push]
    exact Nat.lt_succ_of_lt (forest.inside linked)

/-- Add a frame that is enclosed by another one. -/
def child (forest : Forest) (outer : Fin forest.store.frames.size) : Forest where
  store := forest.store.addFrame ∅
  links := forest.links.enclose forest.store.frames.size outer outer.isLt
  inside := by
    intro frame found linked
    rw [Store.addFrame, Array.size_push]
    by_cases same : frame = forest.store.frames.size
    · exact same ▸ Nat.lt_succ_self _
    · exact Nat.lt_succ_of_lt (forest.inside ((if_neg same).symm.trans linked))

/-- Replace the bindings of the frames. -/
def withStore (forest : Forest) (later : Store)
    (same : later.frames.size = forest.store.frames.size) : Forest where
  store := later
  links := forest.links
  inside linked := same ▸ forest.inside linked

end Forest

section Writing

variable {store later : Store} {environment : Environment} {distance : Nat} {name : String}
  {value : Value}

/-- An assignment adds no frame. -/
theorem Store.size_assign (assigned : store.assign? environment name value = some later) :
    later.frames.size = store.frames.size := by
  obtain ⟨owner, _, rfl⟩ := Option.map_eq_some_iff.mp assigned
  exact store.size_define owner name value

/-- An assignment at a distance adds no frame. -/
theorem Store.size_assignAt
    (assigned : store.assignAt? environment distance name value = some later) :
    later.frames.size = store.frames.size := by
  obtain ⟨owner, _, rfl⟩ := Option.map_eq_some_iff.mp assigned
  exact store.size_define owner name value

end Writing

namespace Forest

section Operations

variable (forest : Forest) (frame : Nat)

/-- The frame that a number of links lead to, if there are that many. -/
def ancestor? (distance : Nat) : Option Nat :=
  forest.links.ancestor? frame distance

/-- How many links lead outwards from a frame. -/
def depth : Nat :=
  (forest.links.trail frame).length - 1

/-- The value that a frame itself binds a name to. -/
def binding? (name : String) : Option Value :=
  forest.store.binding? frame name

/-- Bind a name in a frame, whether or not it was bound there. -/
def define (name : String) (value : Value) : Forest :=
  forest.withStore (forest.store.define frame name value)
    (forest.store.size_define frame name value)

/-- The value of a name in the nearest frame that binds it. -/
def get? (name : String) : Option Value :=
  forest.store.get? (forest.links.trail frame) name

/-- The value of a name in the frame a number of links outwards. -/
def getAt? (distance : Nat) (name : String) : Option Value :=
  forest.store.getAt? (forest.links.trail frame) distance name

/-- The nearest frame that binds a name. -/
def owner? (name : String) : Option Nat :=
  forest.store.owner? (forest.links.trail frame) name

/-- Change the binding of a name in the nearest frame that binds it. -/
def assign? (name : String) (value : Value) : Option Forest :=
  match assigned : forest.store.assign? (forest.links.trail frame) name value with
  | none => none
  | some later => some (forest.withStore later (Store.size_assign assigned))

/-- Bind a name in the frame a number of links outwards. -/
def assignAt? (distance : Nat) (name : String) (value : Value) : Option Forest :=
  match assigned : forest.store.assignAt? (forest.links.trail frame) distance name value with
  | none => none
  | some later => some (forest.withStore later (Store.size_assignAt assigned))

/-- What can be asked of a forest. -/
inductive Request where
  | new
  | child (outer : Nat)
  | define (frame : Nat) (name : String) (value : Value)
  | assign (frame : Nat) (name : String) (value : Value)
  | assignAt (frame distance : Nat) (name : String) (value : Value)

/-- The forest after a request; one that fails changes nothing. -/
def perform : Request → Forest
  | .new => forest.new
  | .child outer =>
    if inside : outer < forest.store.frames.size then forest.child ⟨outer, inside⟩ else forest
  | .define frame name value => forest.define frame name value
  | .assign frame name value => (forest.assign? frame name value).getD forest
  | .assignAt frame distance name value =>
    (forest.assignAt? frame distance name value).getD forest

/-- The forest that is built by some requests, one after the other. -/
def built (requests : List Request) : Forest :=
  requests.foldl perform empty

/-- So many links lead from a frame to the nearest one that binds a name. -/
structure Nearest (name : String) (distance owner : Nat) : Prop where
  reached : forest.ancestor? frame distance = some owner
  binds : (forest.binding? owner name).isSome
  free : ∀ nearer < distance, ∀ between, forest.ancestor? frame nearer = some between →
    forest.binding? between name = none

end Operations

end Forest

/-- A search gives what the nearest frame that binds the name binds it to. -/
theorem Store.get?_eq_owner (store : Store) (environment : Environment) (name : String) :
    store.get? environment name =
      (store.owner? environment name).bind fun owner => store.binding? owner name := by
  unfold Store.get? Store.owner?
  induction environment with
  | nil => rfl
  | cons frame outer inductionHypothesis =>
    rw [List.findSome?_cons, List.find?_cons]
    cases bound : store.binding? frame name with
    | some value => exact bound.symm
    | none => exact inductionHypothesis

namespace Forest

variable {forest : Forest} {frame distance owner : Nat} {name : String} {value : Value}

/-- A lookup at a distance asks the ancestor at that distance. -/
theorem getAt?_eq : forest.getAt? frame distance name =
    (forest.ancestor? frame distance).bind fun owner => forest.binding? owner name :=
  congrArg (Option.bind · _) (forest.links.getElem?_trail frame distance)

/-- A lookup by name asks the owner of the name. -/
theorem get?_eq : forest.get? frame name =
    (forest.owner? frame name).bind fun owner => forest.binding? owner name :=
  forest.store.get?_eq_owner _ name

/-- An assignment by name defines it in its owner. -/
theorem assign?_eq : forest.assign? frame name value =
    (forest.owner? frame name).map fun owner => forest.define owner name value := by
  unfold assign?
  split
  case h_1 assigned => rw [owner?, Option.map_eq_none_iff.mp assigned]; rfl
  case h_2 later assigned =>
    obtain ⟨owner, found, rfl⟩ := Option.map_eq_some_iff.mp assigned
    rw [owner?, found]
    rfl

/-- The ancestors of a frame are those on its trail. -/
theorem ancestor?_eq : forest.ancestor? frame distance = (forest.links.trail frame)[distance]? :=
  (forest.links.getElem?_trail frame distance).symm

/-- An assignment at a distance defines the name in the ancestor at that distance. -/
theorem assignAt?_eq : forest.assignAt? frame distance name value =
    (forest.ancestor? frame distance).map fun owner => forest.define owner name value := by
  rw [ancestor?_eq]
  unfold assignAt?
  split
  case h_1 assigned => rw [Option.map_eq_none_iff.mp assigned]; rfl
  case h_2 later assigned =>
    obtain ⟨owner, found, rfl⟩ := Option.map_eq_some_iff.mp assigned
    rw [found]
    rfl

/-- The owner of a name is the nearest frame that binds it. -/
theorem owner?_eq_some_iff : forest.owner? frame name = some owner ↔
    ∃ distance, forest.Nearest frame name distance owner := by
  rw [owner?, Store.owner?, List.find?_eq_some_iff_getElem]
  constructor
  · rintro ⟨binds, distance, inside, same, free⟩
    refine ⟨distance, ?_, binds, fun nearer less between found => ?_⟩
    · rw [ancestor?_eq, List.getElem?_eq_getElem inside, same]
    · have closer := free nearer less
      rw [ancestor?_eq] at found
      obtain ⟨_, rfl⟩ := List.getElem?_eq_some_iff.mp found
      simpa [binding?] using closer
  · rintro ⟨distance, reached, binds, free⟩
    rw [ancestor?_eq] at reached
    obtain ⟨inside, same⟩ := List.getElem?_eq_some_iff.mp reached
    refine ⟨binds, distance, inside, same, fun nearer less => ?_⟩
    have found := free nearer less _
      (ancestor?_eq.trans (List.getElem?_eq_getElem (Nat.lt_trans less inside)))
    simpa [binding?] using found

/-- A lookup by name is one at the distance of the nearest frame. -/
theorem Nearest.get? (nearest : forest.Nearest frame name distance owner) :
    forest.get? frame name = forest.getAt? frame distance name := by
  rw [get?_eq, owner?_eq_some_iff.mpr ⟨distance, nearest⟩, getAt?_eq, nearest.reached]

/-- A name is found if some frame on the way outwards binds it. -/
theorem isSome_get?_iff : (forest.get? frame name).isSome ↔
    ∃ distance outer, forest.ancestor? frame distance = some outer ∧
      (forest.binding? outer name).isSome := by
  constructor
  · intro found
    obtain ⟨value, given⟩ := Option.isSome_iff_exists.mp found
    rw [get?_eq, Option.bind_eq_some_iff] at given
    obtain ⟨owner, owned, _⟩ := given
    obtain ⟨distance, nearest⟩ := owner?_eq_some_iff.mp owned
    exact ⟨distance, owner, nearest.reached, nearest.binds⟩
  · rintro ⟨distance, outer, reached, binds⟩
    rw [ancestor?_eq] at reached
    rw [Forest.get?, Store.get?, List.findSome?_isSome_iff]
    exact ⟨outer, List.mem_of_getElem? reached, binds⟩

/-- There is no value to read where no frame binds the name. -/
theorem get?_eq_none_iff : forest.get? frame name = none ↔ forest.owner? frame name = none := by
  rw [get?_eq]
  cases owned : forest.owner? frame name with
  | none => simp
  | some owner =>
    obtain ⟨_, nearest⟩ := owner?_eq_some_iff.mp owned
    simpa using Option.isSome_iff_ne_none.mp nearest.binds

/-- No frame is reached by more links than there are. -/
theorem ancestor?_eq_none_iff : forest.ancestor? frame distance = none ↔
    forest.depth frame < distance := by
  have positive := forest.links.length_trail_pos frame
  rw [ancestor?_eq, List.getElem?_eq_none_iff, depth]
  omega

/-- A frame that binds a name exists. -/
theorem inside_of_binds (binds : (forest.binding? owner name).isSome) :
    owner < forest.store.frames.size := by
  by_contra outside
  rw [binding?, Store.binding?, Tables.value?, Array.getElem?_eq_none (Nat.le_of_not_lt outside)]
    at binds
  cases binds

section Rewriting

variable (binds : (forest.binding? owner name).isSome)
include binds

/-- A binding that is changed is changed in its frame, and no other one is. -/
theorem binding?_define (value : Value) (other : Nat) (wanted : String) :
    (forest.define owner name value).binding? other wanted =
      if other = owner ∧ wanted = name then some value else forest.binding? other wanted := by
  change Tables.value? (forest.store.frames.set owner name value) other wanted = _
  rw [Tables.value?_set]
  simp only [inside_of_binds binds, and_true]
  rfl

/-- It moves no search to another frame. -/
theorem owner?_define (value : Value) (other : Nat) (wanted : String) :
    (forest.define owner name value).owner? other wanted = forest.owner? other wanted := by
  have stays (frame : Nat) : ((forest.define owner name value).binding? frame wanted).isSome =
      (forest.binding? frame wanted).isSome := by
    rw [binding?_define binds]
    split
    case isTrue same => rw [same.1, same.2, binds]; rfl
    case isFalse => rfl
  exact congrArg (List.find? · (forest.links.trail other)) (funext stays)

/-- It is seen from the frames whose search ends there. -/
theorem get?_define (value : Value) (other : Nat) (wanted : String) :
    (forest.define owner name value).get? other wanted =
      if wanted = name ∧ forest.owner? other name = some owner then some value
      else forest.get? other wanted := by
  rw [get?_eq, get?_eq, owner?_define binds]
  by_cases same : wanted = name
  · subst same
    cases owned : forest.owner? other wanted with
    | none => simp
    | some found => simp [binding?_define binds]
  · simp [binding?_define binds, same]

end Rewriting

/-- In a forest that was built by any requests, searching a name outwards gives the value in the
nearest frame that binds it, which is also read at the distance of that frame. An assignment fails
where the search fails, and changes nothing then. Otherwise it changes the binding that the search
comes to, and this is seen from exactly those frames whose search for the name comes to it, too. An
assignment at a distance fails, changing nothing, where there are fewer links, and otherwise binds
the name in the frame there. -/
theorem lookups_agree (requests : List Request) (frame : Nat) (name : String) :
    let forest := built requests
    ((forest.get? frame name).isSome ↔ ∃ distance outer,
      forest.ancestor? frame distance = some outer ∧ (forest.binding? outer name).isSome) ∧
    (∀ other owner, forest.owner? other name = some owner ↔
      ∃ distance, forest.Nearest other name distance owner) ∧
    (∀ distance owner, forest.Nearest frame name distance owner →
      forest.get? frame name = forest.getAt? frame distance name) ∧
    (∀ value, forest.assign? frame name value = none ↔ forest.get? frame name = none) ∧
    (∀ value, forest.assign? frame name value = none →
      forest.perform (.assign frame name value) = forest) ∧
    (∀ value later, forest.assign? frame name value = some later →
      later = forest.perform (.assign frame name value) ∧
      ∃ owner, forest.owner? frame name = some owner ∧ later.links = forest.links ∧
        (∀ other wanted, later.binding? other wanted =
          if other = owner ∧ wanted = name then some value else forest.binding? other wanted) ∧
        ∀ other wanted, later.get? other wanted =
          if wanted = name ∧ forest.owner? other name = some owner then some value
          else forest.get? other wanted) ∧
    ∀ distance value,
      (forest.assignAt? frame distance name value = none ↔ forest.depth frame < distance) ∧
      (forest.assignAt? frame distance name value = none →
        forest.perform (.assignAt frame distance name value) = forest) ∧
      ∀ outer, forest.ancestor? frame distance = some outer →
        forest.perform (.assignAt frame distance name value) =
          forest.perform (.define outer name value) := by
  intro forest
  refine ⟨isSome_get?_iff, fun _ _ => owner?_eq_some_iff, fun _ _ => Nearest.get?, fun value => ?_,
    fun value failed => ?_, fun value later assigned => ⟨?_, ?_⟩,
    fun distance value => ⟨?_, fun failed => ?_, fun outer reached => ?_⟩⟩
  · rw [assign?_eq, get?_eq_none_iff, Option.map_eq_none_iff]
  · rw [perform, failed, Option.getD_none]
  · rw [perform, assigned, Option.getD_some]
  · rw [assign?_eq, Option.map_eq_some_iff] at assigned
    obtain ⟨owner, owned, rfl⟩ := assigned
    obtain ⟨_, nearest⟩ := owner?_eq_some_iff.mp owned
    exact ⟨owner, owned, rfl, binding?_define nearest.binds value, get?_define nearest.binds value⟩
  · rw [assignAt?_eq, Option.map_eq_none_iff, ancestor?_eq_none_iff]
  · rw [perform, failed, Option.getD_none]
  · change (forest.assignAt? frame distance name value).getD forest = _
    rw [assignAt?_eq, reached]
    rfl

/-- Two children share a frame: what one of them assigns there is read from the other one, and a
frame beside them has no part in it. -/
example :
    let forest := built [.new, .child 0, .child 0, .new, .define 0 "a" (.bool true),
      .assign 1 "a" (.bool false), .assign 3 "a" .nil]
    [forest.get? 1 "a", forest.get? 2 "a", forest.get? 3 "a", forest.getAt? 2 1 "a"].map
      (Option.map Value.display) = [some "false", some "false", none, some "false"] := by
  decide +kernel

end Forest

end LoxLang
