import LoxLang.Proofs.Machine.Alike
import LoxLang.Proofs.Tree.Matching

/-!
# Machines that differ in identities and spellings

Two machines match if their functions do and if their frames bind the same names to matching values,
up to the spelling of names in marked frames. `frames` holds one mark for each frame that exists; it
grows at its end as the machines make new frames, and everything that matched goes on matching.
-/

namespace LoxLang

/-- The frames of an environment have these marks. -/
def Environment.Marked (frames : List Bool) (environment : Environment) (marks : List Bool) :
    Prop :=
  List.Forall₂ (fun frame mark => frames[frame]? = some mark) environment marks

section

variable (correspondence : Correspondence) (frames : List Bool)

/-- Closures of matching functions in the same environment. A method that is not bound yet lacks the
frames whose marks are given as `missing`. -/
structure Closure.Matches (missing : List Bool) (closure image : Closure) : Prop where
  declaration : ∃ marks, closure.environment.Marked frames marks ∧
    closure.declaration.Matches correspondence (missing ++ marks) image.declaration
  environment : image.environment = closure.environment
  isInitializer : image.isInitializer = closure.isInitializer

/-- Class bodies with matching methods in the same environment. -/
structure ClassBody.Matches (body image : ClassBody) : Prop where
  methods : ∃ marks, body.environment.Marked frames marks ∧
    List.Forall₂ (FunctionDecl.Matches correspondence (false :: marks)) body.methods image.methods
  environment : image.environment = body.environment

/-- Classes with matching bodies. -/
structure ClassObject.Matches (origin image : ClassObject) : Prop where
  identity : image.identity = origin.identity
  name : image.name = origin.name
  lineage : List.Forall₂ (ClassBody.Matches correspondence frames) origin.lineage image.lineage

/-- Values that differ only in their functions, and these match. What `dump` writes depends on all
names, so it matches itself only where no name differs. -/
inductive Value.Matches : Value → Value → Prop where
  | nil : Value.Matches .nil .nil
  | bool (value : Bool) : Value.Matches (.bool value) (.bool value)
  | number (value : Float) : Value.Matches (.number value) (.number value)
  | string (contents : String) : Value.Matches (.string contents) (.string contents)
  | native (builtin : Native) (blind : builtin = .dump → correspondence.Transparent) :
      Value.Matches (.native builtin) (.native builtin)
  | function (identity : Nat) {closure image : Closure}
      (matching : Closure.Matches correspondence frames [] closure image) :
      Value.Matches (.function identity closure) (.function identity image)
  | classObject {origin image : ClassObject}
      (matching : ClassObject.Matches correspondence frames origin image) :
      Value.Matches (.classObject origin) (.classObject image)
  | object (identity : Nat) {origin image : ClassObject}
      (matching : ClassObject.Matches correspondence frames origin image) :
      Value.Matches (.object identity origin) (.object identity image)

/-- Bindings of names to matching values, under the spelling of a frame with this mark. -/
def Bindings.Matches (mark : Bool) (bindings image : Bindings) : Prop :=
  ∀ name : String, correspondence.visible name →
    Option.Rel (Value.Matches correspondence frames) bindings[name]?
      image[correspondence.spelling mark name]?

/-- Stores with matching values in their frames, up to spelling, and in their instances. -/
structure Store.Matches (store image : Store) : Prop where
  size : store.frames.size = frames.length
  sizeImage : image.frames.size = frames.length
  binding? : ∀ frame mark, frames[frame]? = some mark → ∀ name, correspondence.visible name →
    Option.Rel (Value.Matches correspondence frames) (store.binding? frame name)
      (image.binding? frame (correspondence.spelling mark name))
  objects : image.objects.size = store.objects.size
  field? : ∀ object name, Option.Rel (Value.Matches correspondence frames)
    (store.field? object name) (image.field? object name)

/-- Machines that do the same with matching trees. The marks are those of the current
environment. -/
structure Machine.Matches (marks : List Bool) (machine image : Machine) : Prop where
  store : Store.Matches correspondence frames machine.store image.store
  globals : frames[globalFrame]? = some false
  marked : machine.environment.Marked frames marks
  distances : ∀ id other, correspondence.ids id other →
    machine.distances[id]? = correspondence.address? id ∧
      image.distances[other]? = correspondence.address? id
  nextIdentity : image.nextIdentity = machine.nextIdentity
  environment : image.environment = machine.environment
  sink : image.sink = machine.sink
  callDepth : image.callDepth = machine.callDepth
  callLimit : image.callLimit = machine.callLimit
  clock : image.clock = machine.clock
  readings : image.readings = machine.readings

/-- A token and what may stand in its place: itself, or a name as some scope spells it. -/
def Token.Matches (token image : Token) : Prop :=
  image = token ∨
    correspondence.visible token.lexeme ∧ ∃ mark, image = correspondence.respelled mark token

/-- The same fault at tokens that match. -/
structure RuntimeError.Matches (error image : RuntimeError) : Prop where
  token : Token.Matches correspondence error.token image.token
  fault : image.fault = error.fault

end

variable {correspondence : Correspondence} {frames marks : List Bool}

/-- Where names are the same everywhere, so are faults. -/
theorem Correspondence.Transparent.error (transparent : correspondence.Transparent)
    {error image : RuntimeError} (like : error.Matches correspondence image) : image = error := by
  have token : image.token = error.token := by
    rcases like.token with same | ⟨_, mark, same⟩
    · exact same
    · rw [same, transparent.respelled]
  cases error
  cases image
  exact congrArg₂ RuntimeError.mk token like.fault

/-- A frame keeps its mark when frames are added. -/
theorem mark_mono {frame : Nat} {mark : Bool} (known : frames[frame]? = some mark)
    {later : List Bool} (grows : frames <+: later) : later[frame]? = some mark := by
  obtain ⟨inside, same⟩ := List.getElem?_eq_some_iff.mp known
  rw [List.prefix_iff_getElem?.mp grows frame inside, same]

namespace Environment.Marked

variable {environment : Environment}

/-- A frame of an environment has the mark at its place. -/
theorem mark (marked : environment.Marked frames marks) {distance frame : Nat}
    (there : environment[distance]? = some frame) :
    ∃ mark, marks[distance]? = some mark ∧ frames[frame]? = some mark := by
  induction marked generalizing distance with
  | nil => simp at there
  | cons head _ inductionHypothesis =>
    cases distance with
    | zero =>
      obtain rfl := Option.some.inj there
      exact ⟨_, rfl, head⟩
    | succ distance => exact inductionHypothesis there

/-- The frames of an environment keep their marks when more frames come. -/
theorem mono (marked : environment.Marked frames marks) {later : List Bool}
    (grows : frames <+: later) : environment.Marked later marks :=
  marked.imp fun _ _ known => mark_mono known grows

end Environment.Marked

section Growing

variable {later : Correspondence} (extension : correspondence.Extends later) {further : List Bool}
  (grows : frames <+: further)
include extension grows

/-- Functions still match under a correspondence that says more and among more frames. -/
theorem Closure.Matches.carry {missing : List Bool} {closure image : Closure}
    (matching : Closure.Matches correspondence frames missing closure image) :
    Closure.Matches later further missing closure image := by
  obtain ⟨marks, marked, declaration⟩ := matching.declaration
  exact ⟨⟨marks, marked.mono grows, FunctionDecl.matches_extend extension _ declaration⟩,
    matching.environment, matching.isInitializer⟩

/-- So do classes, with the classes that they inherit from. -/
theorem ClassObject.Matches.carry {origin image : ClassObject}
    (matching : ClassObject.Matches correspondence frames origin image) :
    ClassObject.Matches later further origin image := by
  refine ⟨matching.identity, matching.name, matching.lineage.imp fun body other like => ?_⟩
  obtain ⟨marks, marked, methods⟩ := like.methods
  exact ⟨⟨marks, marked.mono grows,
    methods.imp fun _ _ => FunctionDecl.matches_extend extension _⟩, like.environment⟩

/-- Matching values go on matching with further identities and in further frames. -/
theorem Value.Matches.carry {value image : Value}
    (matching : Value.Matches correspondence frames value image) :
    Value.Matches later further value image := by
  cases matching with
  | nil => exact .nil
  | bool value => exact .bool value
  | number value => exact .number value
  | string contents => exact .string contents
  | native builtin blind => exact .native builtin fun same => extension.transparent (blind same)
  | function identity matching => exact .function identity (matching.carry extension grows)
  | classObject matching => exact .classObject (matching.carry extension grows)
  | object identity matching => exact .object identity (matching.carry extension grows)

/-- So do values that may be absent. -/
theorem Value.Matches.carryOption {value image : Option Value}
    (matching : Option.Rel (Value.Matches correspondence frames) value image) :
    Option.Rel (Value.Matches later further) value image := by
  cases matching with
  | none => exact .none
  | some matching => exact .some (matching.carry extension grows)

end Growing

/-- A correspondence says as much as itself. -/
theorem Correspondence.Extends.refl (correspondence : Correspondence) :
    correspondence.Extends correspondence :=
  ⟨fun _ _ => id, fun _ _ _ => rfl, rfl, rfl⟩

section Mono

variable {later : List Bool} (grows : frames <+: later)
include grows

/-- Classes still match among more frames. -/
theorem ClassObject.Matches.mono {origin image : ClassObject}
    (matching : ClassObject.Matches correspondence frames origin image) :
    ClassObject.Matches correspondence later origin image :=
  matching.carry (.refl correspondence) grows

/-- Functions still match among more frames. -/
theorem Closure.Matches.mono {missing : List Bool} {closure image : Closure}
    (matching : Closure.Matches correspondence frames missing closure image) :
    Closure.Matches correspondence later missing closure image :=
  matching.carry (.refl correspondence) grows

end Mono

/-- Searches along matching lists find matching entries, if they look for the same. -/
theorem find?_forall₂ {α : Type} {related : α → α → Prop} {test : α → Bool}
    (same : ∀ first second, related first second → test second = test first) {left right : List α}
    (listed : List.Forall₂ related left right) :
    Option.Rel related (left.find? test) (right.find? test) := by
  induction listed with
  | nil => exact .none
  | cons head _ inductionHypothesis =>
    rw [List.find?_cons, List.find?_cons, same _ _ head]
    split
    · exact .some head
    · exact inductionHypothesis

/-- Matching bodies have matching methods under each name. -/
theorem ClassBody.Matches.method? {body image : ClassBody}
    (matching : ClassBody.Matches correspondence frames body image) (name : String) :
    Option.Rel (Closure.Matches correspondence frames [false]) (body.method? name)
      (image.method? name) := by
  obtain ⟨marks, marked, methods⟩ := matching.methods
  have named (first second : FunctionDecl)
      (like : first.Matches correspondence (false :: marks) second) :
      (second.name.lexeme == name) = (first.name.lexeme == name) := by
    rw [like.name]
  unfold ClassBody.method?
  rcases absent_or_related (find?_forall₂ named (List.forall₂_reverse_iff.mpr methods)) with
    ⟨missing, also⟩ | ⟨found, other, here, there, related⟩
  · rw [missing, also]
    exact .none
  · rw [here, there]
    refine .some ⟨⟨marks, marked, related⟩, matching.environment, ?_⟩
    simp only [related.name]

namespace ClassObject.Matches

variable {origin image : ClassObject}

/-- Matching classes have matching methods under each name. -/
theorem method? (matching : ClassObject.Matches correspondence frames origin image)
    (name : String) :
    Option.Rel (Closure.Matches correspondence frames [false]) (origin.method? name)
      (image.method? name) := by
  obtain ⟨_, _, lineage⟩ := matching
  unfold ClassObject.method?
  generalize origin.lineage = bodies, image.lineage = images at lineage
  induction lineage with
  | nil => exact .none
  | cons head _ inductionHypothesis =>
    rw [List.findSome?_cons, List.findSome?_cons]
    rcases absent_or_related (head.method? name) with
      ⟨missing, also⟩ | ⟨found, other, here, there, related⟩
    · rw [missing, also]
      exact inductionHypothesis
    · rw [here, there]
      exact .some related

end ClassObject.Matches

/-- Matching functions take equally many arguments. -/
theorem Closure.Matches.arity {missing : List Bool} {closure image : Closure}
    (matching : Closure.Matches correspondence frames missing closure image) :
    image.arity = closure.arity := by
  obtain ⟨marks, _, declaration⟩ := matching.declaration
  obtain ⟨outer, inner, parameters, _⟩ := declaration.parameters
  simp [Closure.arity, parameters]

namespace Value.Matches

variable {value image left right leftImage rightImage : Value}

/-- Values that match are printed alike, for nothing that is printed is renamed. -/
theorem display (matching : Value.Matches correspondence frames value image) :
    image.display = value.display := by
  cases matching with
  | function identity matching =>
    obtain ⟨marks, _, declaration⟩ := matching.declaration
    simp [Value.display, declaration.name]
  | classObject matching => exact matching.name
  | object identity matching => simp [Value.display, matching.name]
  | _ => rfl

end Value.Matches

namespace Bindings.Matches

variable {mark : Bool} {bindings image : Bindings} {value other : Value}

/-- No bindings at all match. -/
theorem empty : Bindings.Matches correspondence frames mark ∅ ∅ := by
  intro name _
  rw [Std.TreeMap.getElem?_emptyc, Std.TreeMap.getElem?_emptyc]
  exact .none

/-- Bindings go on matching when a name, respelled by the mark of their frame, is bound. -/
theorem insert (matching : Bindings.Matches correspondence frames mark bindings image)
    (name : String) (like : Value.Matches correspondence frames value other) :
    Bindings.Matches correspondence frames mark (bindings.insert name value)
      (image.insert (correspondence.spelling mark name) other) := by
  intro wanted visible
  rw [Std.TreeMap.getElem?_insert, Std.TreeMap.getElem?_insert]
  simp only [Std.LawfulEqCmp.compare_eq_iff_eq, Correspondence.spelling_inj]
  split
  · exact .some like
  · exact matching wanted visible

/-- A frame without a mark holds the same name on both sides. -/
theorem singleton (name : String) (like : Value.Matches correspondence frames value other) :
    Bindings.Matches correspondence frames false (Std.TreeMap.empty.insert name value)
      (Std.TreeMap.empty.insert name other) :=
  empty.insert name like

/-- Matching bindings go on matching when respelled names get matching values. -/
theorem insertAll (matching : Bindings.Matches correspondence frames mark bindings image)
    (names : List Token) {values others : List Value}
    (like : List.Forall₂ (Value.Matches correspondence frames) values others) :
    Bindings.Matches correspondence frames mark
      ((names.zip values).foldl (fun known entry => known.insert entry.1.lexeme entry.2) bindings)
      (((names.map (correspondence.respelled mark)).zip others).foldl
        (fun known entry => known.insert entry.1.lexeme entry.2) image) := by
  induction names generalizing values others bindings image with
  | nil => exact matching
  | cons name rest inductionHypothesis =>
    cases like with
    | nil => exact matching
    | cons head tail => exact inductionHypothesis (matching.insert name.lexeme head) tail

/-- Parameters are bound to matching arguments. -/
theorem parameterBindings (parameters : List Token) {arguments others : List Value}
    (like : List.Forall₂ (Value.Matches correspondence frames) arguments others) :
    Bindings.Matches correspondence frames mark (Eval.parameterBindings parameters arguments)
      (Eval.parameterBindings (parameters.map (correspondence.respelled mark)) others) :=
  empty.insertAll parameters like

/-- Matching bindings are listed alike where no name differs. -/
theorem listed (transparent : correspondence.Transparent)
    (matching : Bindings.Matches correspondence frames mark bindings image) :
    image.toList.map (fun entry => (entry.1, entry.2.display)) =
      bindings.toList.map fun entry => (entry.1, entry.2.display) := by
  have lists (bindings : Bindings) :
      bindings.toList.map (fun entry => (entry.1, entry.2.display)) =
        (bindings.map fun _ value => value.display).toList := by
    rw [Std.TreeMap.toList_map]
  rw [lists, lists, ← Std.TreeMap.equiv_iff_toList_eq]
  refine .of_forall_constGet?_eq fun name => ?_
  have related := matching name (transparent.visible name)
  rw [transparent.spelling] at related
  rw [Std.TreeMap.getElem?_map, Std.TreeMap.getElem?_map]
  rcases absent_or_related related with ⟨missing, also⟩ | ⟨found, other, here, there, like⟩
  · rw [missing, also]
  · rw [here, there, Option.map_some, Option.map_some, like.display]

end Bindings.Matches

namespace Store.Matches

variable {store image : Store} {value other : Value}

/-- Matching stores go on matching with further identities. -/
theorem extend (matching : Store.Matches correspondence frames store image)
    {later : Correspondence} (extension : correspondence.Extends later) :
    Store.Matches later frames store image where
  size := matching.size
  sizeImage := matching.sizeImage
  binding? := by
    intro frame mark marked name visible
    rw [extension.spelling]
    exact Value.Matches.carryOption extension List.prefix_rfl
      (matching.binding? frame mark marked name (extension.visible ▸ visible))
  objects := matching.objects
  field? := fun object name =>
    Value.Matches.carryOption extension List.prefix_rfl (matching.field? object name)

/-- Stores go on matching when a name is bound in a frame of this mark. -/
theorem define (matching : Store.Matches correspondence frames store image) {frame : Nat}
    {mark : Bool} (marked : frames[frame]? = some mark) (name : String)
    (like : Value.Matches correspondence frames value other) :
    Store.Matches correspondence frames (store.define frame name value)
      (image.define frame (correspondence.spelling mark name) other) where
  size := by simpa [Store.define, Tables.set] using matching.size
  sizeImage := by simpa [Store.define, Tables.set] using matching.sizeImage
  binding? := by
    intro wanted mark' marked' key visible
    have inside : frame < frames.length := (List.getElem?_eq_some_iff.mp marked).1
    simp only [Store.binding?, Store.define, Tables.value?_set, matching.size, matching.sizeImage,
      inside, and_true]
    by_cases here : wanted = frame
    · subst here
      obtain rfl := Option.some.inj (marked.symm.trans marked')
      simp only [true_and, Correspondence.spelling_inj]
      split
      · exact .some like
      · exact matching.binding? wanted mark marked key visible
    · simp only [here, false_and, if_false]
      exact matching.binding? wanted mark' marked' key visible
  objects := matching.objects
  field? := matching.field?

/-- Stores go on matching when a frame is added whose mark is listed for it. -/
theorem addFrame (matching : Store.Matches correspondence frames store image)
    {bindings others : Bindings} (mark : Bool)
    (like : Bindings.Matches correspondence frames mark bindings others) :
    Store.Matches correspondence (frames ++ [mark]) (store.addFrame bindings)
      (image.addFrame others) where
  size := by simp [Store.addFrame, matching.size]
  sizeImage := by simp [Store.addFrame, matching.sizeImage]
  binding? := by
    intro wanted mark' marked key visible
    have grows := List.prefix_append frames [mark]
    simp only [Store.binding?, Store.addFrame, Tables.value?_push, matching.size,
      matching.sizeImage]
    by_cases new : wanted = frames.length
    · subst new
      obtain rfl : mark = mark' := by simpa using marked
      simp only [if_true]
      exact Value.Matches.carryOption (.refl _) grows (like key visible)
    · have inside : wanted < frames.length := by
        have := (List.getElem?_eq_some_iff.mp marked).1
        simp at this
        omega
      rw [List.getElem?_append_left inside] at marked
      simp only [new, if_false]
      exact Value.Matches.carryOption (.refl _) grows
        (matching.binding? wanted mark' marked key visible)
  objects := matching.objects
  field? := fun object name =>
    Value.Matches.carryOption (.refl _) (List.prefix_append _ _) (matching.field? object name)

/-- Stores go on matching when an instance is added to both. -/
theorem addObject (matching : Store.Matches correspondence frames store image) :
    Store.Matches correspondence frames store.addObject image.addObject where
  size := matching.size
  sizeImage := matching.sizeImage
  binding? := matching.binding?
  objects := by simp [Store.addObject, matching.objects]
  field? := by
    intro object name
    simp only [Store.field?, Store.addObject, Tables.value?_push, matching.objects]
    split
    · rw [Std.TreeMap.getElem?_emptyc]
      exact .none
    · exact matching.field? object name

/-- Stores go on matching when a field, which is never respelled, is set. -/
theorem setField (matching : Store.Matches correspondence frames store image) (object : Nat)
    (name : String) (like : Value.Matches correspondence frames value other) :
    Store.Matches correspondence frames (store.setField object name value)
      (image.setField object name other) where
  size := matching.size
  sizeImage := matching.sizeImage
  binding? := matching.binding?
  objects := by simpa [Store.setField, Tables.set] using matching.objects
  field? := by
    intro wanted key
    simp only [Store.field?, Store.setField, Tables.value?_set, matching.objects]
    split
    · exact .some like
    · exact matching.field? wanted key

/-- The bindings of a frame match as a whole. -/
theorem table? (matching : Store.Matches correspondence frames store image) (frame : Nat) :
    Option.Rel (fun bindings others => ∃ mark,
      Bindings.Matches correspondence frames mark bindings others)
      store.frames[frame]? image.frames[frame]? := by
  by_cases inside : frame < frames.length
  · have here : frame < store.frames.size := matching.size ▸ inside
    have there : frame < image.frames.size := matching.sizeImage ▸ inside
    rw [Array.getElem?_eq_getElem here, Array.getElem?_eq_getElem there]
    refine .some ⟨frames[frame], fun name visible => ?_⟩
    have related := matching.binding? frame _ (List.getElem?_eq_getElem inside) name visible
    simpa only [Store.binding?, Tables.value?, Array.getElem?_eq_getElem here,
      Array.getElem?_eq_getElem there, Option.bind_some] using related
  · have here : store.frames.size ≤ frame := matching.size ▸ Nat.le_of_not_lt inside
    have there : image.frames.size ≤ frame := matching.sizeImage ▸ Nat.le_of_not_lt inside
    rw [Array.getElem?_eq_none here, Array.getElem?_eq_none there]
    exact .none

section Transparent

variable (transparent : correspondence.Transparent)
  (matching : Store.Matches correspondence frames store image)
include transparent matching

/-- Listings of a top-level frame are the same, for no name of it is respelled. -/
theorem frameListing (heading : String) (frame : Nat) :
    image.frameListing heading frame = store.frameListing heading frame := by
  have lists (bindings : Bindings) : bindings.toList.foldl (fun text (entry : String × Value) =>
      text ++ entry.1 ++ " = " ++ entry.2.display ++ "\n") (heading ++ "\n") =
      (bindings.toList.map fun entry => (entry.1, entry.2.display)).foldl
        (fun text entry => text ++ entry.1 ++ " = " ++ entry.2 ++ "\n") (heading ++ "\n") := by
    rw [List.foldl_map]
  unfold Store.frameListing Store.bindings
  rcases absent_or_related (matching.table? frame) with
    ⟨missing, also⟩ | ⟨found, other, here, there, mark, related⟩
  · rw [missing, also]
  · rw [here, there]
    exact (lists other).trans
      ((congrArg _ (related.listed transparent)).trans (lists found).symm)

/-- Matching stores are listed alike where no name differs. -/
theorem listing (outermost distance : Nat) (environment : Environment) :
    image.listing outermost distance environment =
      store.listing outermost distance environment := by
  induction environment generalizing distance with
  | nil => rfl
  | cons frame outer inductionHypothesis =>
    simp only [Store.listing, matching.frameListing transparent, inductionHypothesis]

end Transparent

end Store.Matches

/-- A machine matches itself if its store does and if it holds the distances on both sides. -/
theorem Machine.Matches.refl {machine : Machine}
    (store : Store.Matches correspondence frames machine.store machine.store)
    (globals : frames[globalFrame]? = some false) (marked : machine.environment.Marked frames marks)
    (distances : ∀ id other, correspondence.ids id other →
      machine.distances[id]? = correspondence.address? id ∧
        machine.distances[other]? = correspondence.address? id) :
    Machine.Matches correspondence frames marks machine machine where
  store
  globals
  marked
  distances
  nextIdentity := rfl
  environment := rfl
  sink := rfl
  callDepth := rfl
  callLimit := rfl
  clock := rfl
  readings := rfl

/-- The globals at the start match themselves, unless `dump` can be told from itself. -/
theorem Machine.start_matches (blind : correspondence.visible Native.dump.name →
    correspondence.Transparent) (clock : Nat → Nat) (callLimit : Nat) :
    Store.Matches correspondence [false] (Machine.start clock callLimit).store
      (Machine.start clock callLimit).store := by
  have empty : Store.Matches correspondence [] Store.empty Store.empty :=
    ⟨rfl, rfl, nofun, rfl, fun _ _ => .none⟩
  refine empty.addFrame false fun name visible => ?_
  simp only [List.foldl_cons, List.foldl_nil, Std.TreeMap.getElem?_insert,
    Correspondence.spelling_false]
  split
  case isTrue same =>
    obtain rfl : Native.dump.name = name := by simpa using same
    exact .some (.native .dump fun _ => blind visible)
  case isFalse =>
    split
    · exact .some (.native .clock nofun)
    · rw [Std.TreeMap.getElem?_emptyc]
      exact .none

end LoxLang
