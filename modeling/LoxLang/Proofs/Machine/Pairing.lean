import Mathlib.Data.List.Forall2
import LoxLang.Proofs.Machine.Activity
import LoxLang.Proofs.Machine.Operation

/-!
# Runs side by side

A `Pairing` says how two runs keep together: what their machines have in common, which functions and
classes stand for each other, and which code of the second run stands for code of the first. It is
`Lawful` if the parts of code stand for each other where the whole does, and if each change that an
evaluator makes on both sides leads to worlds where all this still holds. How the evaluators then
keep together is proved once, for all lawful pairings.
-/

namespace LoxLang

/-- Related options are both absent or both present and related. -/
theorem absent_or_related {α : Type} {related : α → α → Prop} {left right : Option α}
    (rel : Option.Rel related left right) :
    left = none ∧ right = none ∨
      ∃ first second, left = some first ∧ right = some second ∧ related first second := by
  cases rel with
  | none => exact .inl ⟨rfl, rfl⟩
  | some holds => exact .inr ⟨_, _, rfl, rfl, holds⟩

/-- What two machines have in common that may differ in their stores and their scope distances. The
second one may have a higher limit. -/
structure Machine.Beside (machine other : Machine) : Prop where
  nextIdentity : other.nextIdentity = machine.nextIdentity
  environment : other.environment = machine.environment
  sink : other.sink = machine.sink
  callDepth : other.callDepth = machine.callDepth
  clock : other.clock = machine.clock
  readings : other.readings = machine.readings
  callLimit : machine.callLimit ≤ other.callLimit
  frames : other.store.frames.size = machine.store.frames.size
  objects : other.store.objects.size = machine.store.objects.size

/-- How two runs keep together. -/
structure Pairing where
  /-- Two machines together with what is known about them. -/
  World : Type
  machine : World → Machine
  other : World → Machine
  /-- The second world may come behind the first, wherever the two stand. -/
  Later : World → World → Prop
  /-- How much more fuel the second run has. -/
  extra : Nat
  /-- What is known of the tasks that come about in the first run. -/
  known : Task → Machine → Prop := fun _ _ => True
  /-- The native functions that stand for themselves. -/
  native : Native → Prop := fun _ => True
  /-- Functions that stand for each other. -/
  closure : World → Closure → Closure → Prop
  /-- Methods that stand for each other before they are bound. -/
  method : World → Closure → Closure → Prop
  /-- Classes that stand for each other. -/
  origin : World → ClassObject → ClassObject → Prop
  /-- Tokens that faults may be reported at. -/
  token : Token → Token → Prop
  /-- What is known statically of the place where code stands. -/
  Context : Type
  /-- The world stands at a place of this kind. -/
  stands : Context → World → Prop
  /-- A name that is declared at a place, and the name that stands for it. -/
  declares : Context → Token → Token → Prop
  /-- An occurrence of a name at a place, and the one that stands for it. -/
  occurs : Context → Nat → Token → Nat → Token → Prop
  expr : Context → Expr → Expr → Prop
  stmt : Context → Stmt → Stmt → Prop

namespace Pairing

variable (P : Pairing)

/-- Values that stand for each other: they differ in functions and classes only. -/
inductive Twin (world : P.World) : Value → Value → Prop where
  | nil : Twin world .nil .nil
  | bool (value : Bool) : Twin world (.bool value) (.bool value)
  | number (value : Float) : Twin world (.number value) (.number value)
  | string (contents : String) : Twin world (.string contents) (.string contents)
  | native (builtin : Native) (known : P.native builtin) :
      Twin world (.native builtin) (.native builtin)
  | function (identity : Nat) {closure image : Closure} (like : P.closure world closure image) :
      Twin world (.function identity closure) (.function identity image)
  | classObject {origin image : ClassObject} (like : P.origin world origin image) :
      Twin world (.classObject origin) (.classObject image)
  | object (identity : Nat) {origin image : ClassObject} (like : P.origin world origin image) :
      Twin world (.object identity origin) (.object identity image)

/-- Ways to leave control that carry values which stand for each other. -/
inductive Parting (world : P.World) : Flow → Flow → Prop where
  | normal : Parting world .normal .normal
  | returned {value image : Value} (like : P.Twin world value image) :
      Parting world (.returned value) (.returned image)

/-- A token of the code that stands for another one where the program looks at it. -/
structure Mark (sign image : Token) : Prop where
  token : P.token sign image
  kind : image.kind = sign.kind
  lexeme : image.lexeme = sign.lexeme

/-- A later world in the same environment, with as many calls around it. -/
structure Next (before after : P.World) : Prop where
  later : P.Later before after
  environment : (P.machine after).environment = (P.machine before).environment
  callDepth : (P.machine after).callDepth = (P.machine before).callDepth

/-- The machines may be those of a later world of a certain kind. -/
def Moves (world : P.World) (machine other : Machine) (kind : P.World → Prop) : Prop :=
  ∃ after, P.machine after = machine ∧ P.other after = other ∧ P.Later world after ∧ kind after

/-- Endings in a next world: with results that stand for each other, or at the same fault. -/
inductive Meets (world : P.World) {α : Type} (kind : P.World → α → α → Prop) :
    Ending α → Ending α → Prop where
  | value {after : P.World} {result image : α} (next : P.Next world after)
      (like : kind after result image) :
      Meets world kind (.value result (P.machine after)) (.value image (P.other after))
  | fault {after : P.World} {error image : RuntimeError} (next : P.Next world after)
      (token : P.token error.token image.token) (same : image.fault = error.fault) :
      Meets world kind (.fault error (P.machine after)) (.fault image (P.other after))

/-- Endings of a search for a name: values that stand for each other are found, or both searches
stop at the same fault, and nothing has changed. -/
inductive Finds (world : P.World) : Ending Value → Ending Value → Prop where
  | found {value image : Value} (twin : P.Twin world value image) :
      Finds world (.value value (P.machine world)) (.value image (P.other world))
  | missing {error image : RuntimeError} (token : P.token error.token image.token)
      (same : image.fault = error.fault) :
      Finds world (.fault error (P.machine world)) (.fault image (P.other world))

/-- The expression that stands for another one has parts that stand for the parts. -/
def ExprParts (context : P.Context) : Expr → Expr → Prop
  | .literal value, image => image = .literal value
  | .grouping inner, image => ∃ other, image = .grouping other ∧ P.expr context inner other
  | .unary operator operand, image => ∃ sign other, image = .unary sign other ∧
    P.Mark operator sign ∧ P.expr context operand other
  | .binary left operator right, image => ∃ first sign second,
    image = .binary first sign second ∧ P.expr context left first ∧ P.Mark operator sign ∧
      P.expr context right second
  | .logical left operator right, image => ∃ first sign second,
    image = .logical first sign second ∧ P.expr context left first ∧ P.Mark operator sign ∧
      P.expr context right second
  | .reference id name, image => ∃ otherId spelled, image = .reference otherId spelled ∧
    P.occurs context id name otherId spelled
  | .assign id name value, image => ∃ otherId spelled other,
    image = .assign otherId spelled other ∧ P.occurs context id name otherId spelled ∧
      P.expr context value other
  | .call callee paren arguments, image => ∃ other mark others, image = .call other mark others ∧
    P.expr context callee other ∧ P.Mark paren mark ∧
      List.Forall₂ (P.expr context) arguments others
  | .get object name, image => ∃ other mark, image = .get other mark ∧
    P.expr context object other ∧ P.Mark name mark
  | .set object name value, image => ∃ other mark result, image = .set other mark result ∧
    P.expr context object other ∧ P.Mark name mark ∧ P.expr context value result
  | .this id keyword, image => ∃ otherId spelled, image = .this otherId spelled ∧
    P.occurs context id keyword otherId spelled
  | .super id keyword method, image => ∃ otherId spelled mark,
    image = .super otherId spelled mark ∧ P.occurs context id keyword otherId spelled ∧
      P.Mark method mark

/-- The statement that stands for another one has parts that stand for the parts. Blocks, functions
and classes are treated where the world is known. -/
def StmtParts (context : P.Context) : Stmt → Stmt → Prop
  | .expression value, image => ∃ other, image = .expression other ∧ P.expr context value other
  | .print keyword value, image => ∃ mark other, image = .print mark other ∧
    P.token keyword mark ∧ P.expr context value other
  | .declare name initializer, image => ∃ spelled other, image = .declare spelled other ∧
    P.declares context name spelled ∧ Option.Rel (P.expr context) initializer other
  | .branch condition whenTrue whenFalse, image => ∃ test first second,
    image = .branch test first second ∧ P.expr context condition test ∧
      P.stmt context whenTrue first ∧ Option.Rel (P.stmt context) whenFalse second
  | .loop condition body, image => ∃ test other, image = .loop test other ∧
    P.expr context condition test ∧ P.stmt context body other
  | .return _ value, image => ∃ mark other, image = .return mark other ∧
    Option.Rel (P.expr context) value other
  | .class name (some superclass) _, image => ∃ spelled parent others,
    image = .class spelled (some parent) others ∧ P.expr context superclass parent ∧
      P.token (Eval.superclassToken name superclass) (Eval.superclassToken spelled parent)
  | .class _ none _, _ => True
  | .block _, _ => True
  | .function _, _ => True

/-- The laws about worlds. -/
structure Orderly : Prop where
  refl : ∀ world, P.Later world world
  trans : ∀ {first second third}, P.Later first second → P.Later second third →
    P.Later first third
  beside : ∀ world, (P.machine world).Beside (P.other world)
  /-- From wherever code has gone there is a way back. -/
  back : ∀ {outer inner}, P.Later outer inner →
    P.Moves inner ((P.machine inner).backTo (P.machine outer))
      ((P.other inner).backTo (P.other outer)) (P.Later outer)
  stands : ∀ {context world after}, P.stands context world → P.Next world after →
    P.stands context after := by intros; trivial
  lead : ∀ {task later machine between}, P.known task machine →
    task.Leads machine later between → P.known later between := by intros; trivial

/-- The laws about what stands for what. -/
structure Faithful : Prop where
  closureLater : ∀ {world after closure image}, P.closure world closure image →
    P.Later world after → P.closure after closure image
  originLater : ∀ {world after origin image}, P.origin world origin image →
    P.Later world after → P.origin after origin image
  closureName : ∀ {world closure image}, P.closure world closure image →
    image.declaration.name.lexeme = closure.declaration.name.lexeme
  closureArity : ∀ {world closure image}, P.closure world closure image →
    image.arity = closure.arity
  closureFlag : ∀ {world closure image}, P.closure world closure image →
    image.isInitializer = closure.isInitializer
  methodArity : ∀ {world method image}, P.method world method image → image.arity = method.arity
  originIdentity : ∀ {world origin image}, P.origin world origin image →
    image.identity = origin.identity
  originName : ∀ {world origin image}, P.origin world origin image → image.name = origin.name
  originMethod : ∀ {world origin image}, P.origin world origin image → ∀ name,
    Option.Rel (P.method world) (origin.method? name) (image.method? name)
  field : ∀ world object name, Option.Rel (P.Twin world)
    ((P.machine world).store.field? object name) ((P.other world).store.field? object name)
  listing : ∀ {world}, P.native .dump →
    (P.other world).store.listing globalFrame 0 (P.machine world).environment =
      (P.machine world).store.listing globalFrame 0 (P.machine world).environment
  exprParts : ∀ {context expression image}, P.expr context expression image →
    P.ExprParts context expression image
  stmtParts : ∀ {context statement image}, P.stmt context statement image →
    P.StmtParts context statement image

/-- The laws about names. -/
structure Naming : Prop where
  occurrence : ∀ {context id name otherId spelled}, P.occurs context id name otherId spelled →
    P.token name spelled
  distance : ∀ {context world id name otherId spelled}, P.stands context world →
    P.occurs context id name otherId spelled →
    (P.other world).distances[otherId]? = (P.machine world).distances[id]?
  lookup : ∀ {context world id name otherId spelled}, P.stands context world →
    P.occurs context id name otherId spelled → P.known (.lookup id name) (P.machine world) →
    P.Finds world (Eval.lookup id name (P.machine world))
      (Eval.lookup otherId spelled (P.other world))
  assign : ∀ {context world id name otherId spelled value image}, P.stands context world →
    P.occurs context id name otherId spelled → P.Twin world value image →
    P.known (.assign id name value) (P.machine world) →
    P.Meets world (fun _ _ _ => True) (Eval.assign id name value (P.machine world))
      (Eval.assign otherId spelled image (P.other world))
  /-- The superclass and the instance are found around an occurrence of `super`. -/
  inherits : ∀ {context world id keyword otherId spelled method outer},
    P.stands context world → P.occurs context id keyword otherId spelled →
    P.known (.superMethod id keyword method) (P.machine world) →
    (P.machine world).distances[id]? = some (outer + 1) →
    P.Finds world
      (Eval.lookupAt (P.machine world).environment (outer + 1) keyword (P.machine world))
      (Eval.lookupAt (P.machine world).environment (outer + 1) spelled (P.other world)) ∧
    P.Finds world
      (Eval.lookupAt (P.machine world).environment outer (.implicit "this" keyword.line)
        (P.machine world))
      (Eval.lookupAt (P.machine world).environment outer (.implicit "this" spelled.line)
        (P.other world))
  receiver : ∀ {world closure image}, P.closure world closure image →
    closure.isInitializer = true → P.known (.receiver closure) (P.machine world) →
    P.Finds world
      (Eval.lookupAt closure.environment 0 (.implicit "this" closure.declaration.name.line)
        (P.machine world))
      (Eval.lookupAt image.environment 0 (.implicit "this" image.declaration.name.line)
        (P.other world))

/-- The laws about what evaluators do to both machines. -/
structure Effective : Prop where
  aside : ∀ world sink nextIdentity readings,
    P.Moves world { P.machine world with sink, nextIdentity, readings }
      { P.other world with sink, nextIdentity, readings } fun _ => True
  declare : ∀ {context world name spelled value image}, P.stands context world →
    P.declares context name spelled → P.Twin world value image →
    P.Moves world ((P.machine world).define name.lexeme value)
      ((P.other world).define spelled.lexeme image) fun _ => True
  newObject : ∀ {world origin image}, P.origin world origin image →
    P.Moves world { P.machine world with store := (P.machine world).store.addObject }
      { P.other world with store := (P.other world).store.addObject } fun _ => True
  setField : ∀ {world object name value image}, P.Twin world value image →
    P.Moves world
      { P.machine world with store := (P.machine world).store.setField object name value }
      { P.other world with store := (P.other world).store.setField object name image }
      fun _ => True
  bindMethod : ∀ {world method image receiver other}, P.method world method image →
    P.Twin world receiver other →
    P.Moves world
      { P.machine world with
        store := (P.machine world).store.addFrame (Std.TreeMap.empty.insert "this" receiver) }
      { P.other world with
        store := (P.other world).store.addFrame (Std.TreeMap.empty.insert "this" other) }
      fun after => P.closure after
        { method with environment := (P.machine world).store.frames.size :: method.environment }
        { image with environment := (P.machine world).store.frames.size :: image.environment }
  enter : ∀ {world closure image arguments others}, P.closure world closure image →
    List.Forall₂ (P.Twin world) arguments others →
    P.Moves world ((P.machine world).enter closure arguments)
      ((P.other world).enter image others)
      fun after => ∃ context, P.stands context after ∧
        List.Forall₂ (P.stmt context) closure.declaration.body image.declaration.body
  block : ∀ {context world body image}, P.stands context world →
    P.stmt context (.block body) image → ∃ others, image = .block others ∧
      P.Moves world ((P.machine world).openBlock) ((P.other world).openBlock) fun after =>
        ∃ inner, P.stands inner after ∧ List.Forall₂ (P.stmt inner) body others
  function : ∀ {context world declaration image}, P.stands context world →
    P.stmt context (.function declaration) image → ∃ other, image = .function other ∧
      P.declares context declaration.name other.name ∧
      P.closure world ⟨declaration, (P.machine world).environment, false⟩
        ⟨other, (P.machine world).environment, false⟩
  base : ∀ {context world name methods image}, P.stands context world →
    P.stmt context (.class name none methods) image → ∃ spelled others,
      image = .class spelled none others ∧ P.declares context name spelled ∧
      ∀ identity, P.origin world
        ⟨identity, name.lexeme, [⟨methods, (P.machine world).environment⟩]⟩
        ⟨identity, spelled.lexeme, [⟨others, (P.machine world).environment⟩]⟩
  derived : ∀ {context world name superclass methods spelled parent others ancestor image},
    P.stands context world →
    P.stmt context (.class name (some superclass) methods) (.class spelled (some parent) others) →
    P.origin world ancestor image → P.declares context name spelled ∧
      P.Moves world
        { P.machine world with
          store := (P.machine world).store.addFrame
            (Std.TreeMap.empty.insert "super" (.classObject ancestor)) }
        { P.other world with
          store := (P.other world).store.addFrame
            (Std.TreeMap.empty.insert "super" (.classObject image)) }
        fun after => ∀ identity, P.origin after
          ⟨identity, name.lexeme,
            ⟨methods, (P.machine world).store.frames.size :: (P.machine world).environment⟩ ::
              ancestor.lineage⟩
          ⟨identity, spelled.lexeme,
            ⟨others, (P.machine world).store.frames.size :: (P.machine world).environment⟩ ::
              image.lineage⟩

/-- A pairing that the evaluators keep. -/
class Lawful : Prop extends P.Orderly, P.Faithful, P.Naming, P.Effective

/-! ### What does not tell twins apart -/

variable {P} {world after : P.World} {value image left leftImage right rightImage : Value}

/-- A plain value stands for itself. -/
theorem Twin.ofPlain (plain : value.IsPlain) : P.Twin world value value := by
  cases value with
  | nil => exact .nil
  | bool value => exact .bool value
  | number value => exact .number value
  | string contents => exact .string contents
  | _ => exact plain.elim

/-- Twins are as true as each other. -/
theorem Twin.isTruthy (twin : P.Twin world value image) : image.isTruthy = value.isTruthy := by
  cases twin <;> rfl

/-- A logical operator decides the same on twins. -/
theorem Twin.leftDecides (twin : P.Twin world value image) (operator : Kind) :
    leftDecides operator image = leftDecides operator value := by
  simp only [LoxLang.leftDecides, twin.isTruthy]

/-- A unary operator does not look into functions and classes. -/
theorem Twin.applyUnary (twin : P.Twin world value image) (operator : Kind) :
    applyUnary operator image = applyUnary operator value := by
  unfold LoxLang.applyUnary
  split
  · cases twin <;> rfl
  · rw [twin.isTruthy]
  · rfl

/-- The sum of twins is the same. -/
theorem Twin.addValues (first : P.Twin world left leftImage)
    (second : P.Twin world right rightImage) :
    addValues leftImage rightImage = addValues left right := by
  cases first <;> cases second <;> rfl

/-- What is computed from numbers is the same for twins. -/
theorem Twin.onNumbers (operation : Float → Float → Value) (first : P.Twin world left leftImage)
    (second : P.Twin world right rightImage) :
    onNumbers operation leftImage rightImage = onNumbers operation left right := by
  cases first <;> cases second <;> rfl

/-- Machines of a later world meet where the first ones stand. -/
theorem Moves.meets {machine other : Machine} {kind : P.World → Prop}
    (moves : P.Moves world machine other kind)
    (environment : machine.environment = (P.machine world).environment)
    (callDepth : machine.callDepth = (P.machine world).callDepth) :
    P.Meets world (fun _ _ _ => True) (.value () machine) (.value () other) := by
  obtain ⟨after, rfl, rfl, later, _⟩ := moves
  exact .value ⟨later, environment, callDepth⟩ trivial

/-- The results of bodies that were left alike stand for each other. -/
theorem Parting.result {flow other : Flow} (parting : P.Parting world flow other) :
    P.Twin world flow.result other.result := by
  cases parting with
  | normal => exact .nil
  | returned like => exact like

variable [lawful : P.Lawful]
include lawful

/-- Values go on standing for each other. -/
theorem Twin.later (twin : P.Twin world value image) (later : P.Later world after) :
    P.Twin after value image := by
  cases twin with
  | nil => exact .nil
  | bool value => exact .bool value
  | number value => exact .number value
  | string contents => exact .string contents
  | native builtin known => exact .native builtin known
  | function identity like => exact .function identity (lawful.closureLater like later)
  | classObject like => exact .classObject (lawful.originLater like later)
  | object identity like => exact .object identity (lawful.originLater like later)

/-- Ways to leave control go on carrying values that stand for each other. -/
theorem Parting.later {flow other : Flow} (parting : P.Parting world flow other)
    (later : P.Later world after) : P.Parting after flow other := by
  cases parting with
  | normal => exact .normal
  | returned like => exact .returned (like.later later)

/-- Classes that stand for each other take equally many arguments. -/
theorem Lawful.originArity {origin other : ClassObject} (like : P.origin world origin other) :
    other.arity = origin.arity := by
  unfold ClassObject.arity
  rcases absent_or_related (lawful.originMethod like initializerName) with
    ⟨missing, also⟩ | ⟨found, method, here, there, like⟩
  · rw [missing, also]
  · rw [here, there, Option.map_some, Option.map_some, lawful.methodArity like]

/-- Twins take equally many arguments. -/
theorem Twin.arity? (twin : P.Twin world value image) : image.arity? = value.arity? := by
  cases twin with
  | function identity like => exact congrArg some (lawful.closureArity like)
  | classObject like => exact congrArg some (lawful.originArity like)
  | _ => rfl

/-- Twins are displayed alike. -/
theorem Twin.display (twin : P.Twin world value image) : image.display = value.display := by
  cases twin with
  | function identity like => simp [Value.display, lawful.closureName like]
  | classObject like => exact lawful.originName like
  | object identity like => simp [Value.display, lawful.originName like]
  | _ => rfl

/-- Functions, classes and instances are compared by identity. -/
theorem Twin.same (first : P.Twin world left leftImage)
    (second : P.Twin world right rightImage) : leftImage.same rightImage = left.same right := by
  cases first with
  | classObject like =>
    cases second with
    | classObject other =>
      simp [Value.same, lawful.originIdentity like, lawful.originIdentity other]
    | _ => rfl
  | _ => cases second <;> rfl

/-- A binary operator gives the same on twins. -/
theorem Twin.applyBinary (first : P.Twin world left leftImage)
    (second : P.Twin world right rightImage) (operator : Kind) :
    applyBinary operator leftImage rightImage = applyBinary operator left right := by
  unfold LoxLang.applyBinary
  split
  · exact first.addValues second
  iterate 7 exact first.onNumbers _ second
  · rw [first.same second]
  · rw [first.same second]
  · rfl

end Pairing

end LoxLang
