import LoxLang.Proofs.Machine.Pacing

/-!
# Computations with a higher limit

Nothing but the entry of a call looks at the call limit. So a computation that has a higher limit
and more fuel ends as the one with less does, in a machine that differs in its limit only, unless
that one overflows or runs out of fuel. Where that one overflows the other goes on, and what has
been written by then stays in front of whatever else it writes. The two runs make a lawful pairing,
`outlasting`; with the limit left as it is, it says that more fuel changes nothing.
-/

namespace LoxLang

variable {α : Type} {higher extra : Nat}

/-- The same machine with another call limit. -/
def Machine.withLimit (machine : Machine) (callLimit : Nat) : Machine :=
  { machine with callLimit }

namespace Ending

/-- A computation that ended has written more behind a text. -/
def WritesBehind (text : String) (ending : Ending α) : Prop :=
  ending.Holds (fun _ after => ∃ more, after.sink.written = text ++ more)
    (fun _ after => ∃ more, after.sink.written = text ++ more)

/-- How a computation with a higher limit and more fuel ends, beside the one with less. -/
inductive OutlastedBy (higher : Nat) : Ending α → Ending α → Prop where
  | value (result : α) {machine : Machine} (within : machine.callLimit ≤ higher) :
      OutlastedBy higher (.value result machine) (.value result (machine.withLimit higher))
  | fault (error : RuntimeError) {machine : Machine} (within : machine.callLimit ≤ higher) :
      OutlastedBy higher (.fault error machine) (.fault error (machine.withLimit higher))
  | overflow (token : Token) {machine : Machine} {image : Ending α}
      (lower : machine.callLimit < higher) (writes : image.WritesBehind machine.sink.written) :
      OutlastedBy higher (.fault { token, fault := .stackOverflow } machine) image
  | outOfFuel (image : Ending α) : OutlastedBy higher .outOfFuel image

end Ending

namespace Eval

/-- A run beside the run of the same code that has a higher limit and more fuel. -/
def outlasting (higher extra : Nat) : Pairing where
  World := { machine : Machine // machine.callLimit ≤ higher }
  machine := Subtype.val
  other := fun world => world.val.withLimit higher
  Later := fun _ _ => True
  extra := extra
  closure := fun _ => Eq
  method := fun _ => Eq
  origin := fun _ => Eq
  token := Eq
  Context := Unit
  stands := fun _ _ => True
  declares := fun _ => Eq
  occurs := fun _ id name otherId spelled => otherId = id ∧ spelled = name
  expr := fun _ => Eq
  stmt := fun _ => Eq

namespace outlasting

variable {world : { machine : Machine // machine.callLimit ≤ higher }}

/-- Only equal values stand for each other. -/
theorem twin_iff {value image : Value} :
    (outlasting higher extra).Twin world value image ↔ value = image := by
  constructor
  · intro twin
    cases twin with
    | function _ like | classObject like | object _ like => cases like; rfl
    | _ => rfl
  · rintro rfl
    cases value with
    | nil => exact .nil
    | bool value => exact .bool value
    | number value => exact .number value
    | string contents => exact .string contents
    | native builtin => exact .native builtin trivial
    | function identity closure => exact .function identity rfl
    | classObject origin => exact .classObject rfl
    | object identity origin => exact .object identity rfl

/-- Only equal lists of values stand for each other. -/
theorem eq_of_twins {values images : List Value}
    (twins : List.Forall₂ ((outlasting higher extra).Twin world) values images) :
    values = images :=
  List.forall₂_eq_eq_eq ▸ twins.imp fun _ _ => twin_iff.mp

/-- A token stands for itself. -/
theorem mark (token : Token) : (outlasting higher extra).Mark token token :=
  ⟨rfl, rfl, rfl⟩

/-- An option of which the contents are related to themselves. -/
theorem rel_self {related : α → α → Prop} (reflexive : ∀ part, related part part)
    (parts : Option α) : Option.Rel related parts parts := by
  cases parts with
  | none => exact .none
  | some part => exact .some (reflexive part)

/-- The parts of an expression stand for themselves. -/
theorem exprParts (expression : Expr) :
    (outlasting higher extra).ExprParts () expression expression := by
  cases expression with
  | literal => rfl
  | grouping => exact ⟨_, rfl, rfl⟩
  | unary => exact ⟨_, _, rfl, mark _, rfl⟩
  | binary | logical => exact ⟨_, _, _, rfl, rfl, mark _, rfl⟩
  | reference | this => exact ⟨_, _, rfl, rfl, rfl⟩
  | assign => exact ⟨_, _, _, rfl, ⟨rfl, rfl⟩, rfl⟩
  | call => exact ⟨_, _, _, rfl, rfl, mark _, List.forall₂_same.mpr fun _ _ => rfl⟩
  | get => exact ⟨_, _, rfl, rfl, mark _⟩
  | set => exact ⟨_, _, _, rfl, rfl, mark _, rfl⟩
  | super => exact ⟨_, _, _, rfl, ⟨rfl, rfl⟩, mark _⟩

/-- The parts of a statement stand for themselves. -/
theorem stmtParts (statement : Stmt) :
    (outlasting higher extra).StmtParts () statement statement := by
  cases statement with
  | expression => exact ⟨_, rfl, rfl⟩
  | print => exact ⟨_, _, rfl, rfl, rfl⟩
  | declare => exact ⟨_, _, rfl, rfl, rel_self (fun _ => rfl) _⟩
  | branch => exact ⟨_, _, _, rfl, rfl, rfl, rel_self (fun _ => rfl) _⟩
  | loop => exact ⟨_, _, rfl, rfl, rfl⟩
  | «return» => exact ⟨_, _, rfl, rel_self (fun _ => rfl) _⟩
  | «class» name superclass methods =>
    cases superclass with
    | none => trivial
    | some => exact ⟨_, _, _, rfl, rfl, rfl⟩
  | block | function => trivial

/-- What is bound, or not, is bound with every limit. -/
theorem finds_orUndefined (name : Token) (found : Option Value) :
    (outlasting higher extra).Finds world (orUndefined name found world.val)
      (orUndefined name found (world.val.withLimit higher)) := by
  cases found with
  | none => exact .missing rfl rfl
  | some value => exact .found (twin_iff.mpr rfl)

/-- A name is found with every limit. -/
theorem finds_lookup (id : Nat) (name : Token) :
    (outlasting higher extra).Finds world (lookup id name world.val)
      (lookup id name (world.val.withLimit higher)) := by
  rw [lookup_apply, lookup_apply]
  have same : (world.val.withLimit higher).distances = world.val.distances := rfl
  rw [same]
  cases world.val.distances[id]? with
  | none => exact finds_orUndefined name _
  | some distance => exact finds_orUndefined name _

/-- A frame that binds the name takes the value with every limit. -/
theorem meets_bindIn (name : Token) (value : Value) (frame : Option Nat) :
    (outlasting higher extra).Meets world (fun _ _ _ => True) (bindIn name value frame world.val)
      (bindIn name value frame (world.val.withLimit higher)) := by
  have ready : (outlasting higher extra).Next world world := ⟨trivial, rfl, rfl⟩
  cases frame with
  | none => exact .fault ready rfl rfl
  | some frame =>
    let after : { machine : Machine // machine.callLimit ≤ higher } :=
      ⟨{ world.val with store := world.val.store.define frame name.lexeme value }, world.property⟩
    have next : (outlasting higher extra).Next world after := ⟨trivial, rfl, rfl⟩
    exact .value next trivial

/-- A name is assigned with every limit. -/
theorem meets_assign (id : Nat) (name : Token) (value : Value) :
    (outlasting higher extra).Meets world (fun _ _ _ => True) (assign id name value world.val)
      (assign id name value (world.val.withLimit higher)) := by
  rw [assign_apply, assign_apply]
  exact meets_bindIn name value _

/-- What is done to a machine is done with every limit. -/
theorem moves {machine other : Machine}
    {kind : { machine : Machine // machine.callLimit ≤ higher } → Prop}
    (limit : machine.callLimit = world.val.callLimit) (same : machine.withLimit higher = other)
    (known : ∀ after, kind after) : (outlasting higher extra).Moves world machine other kind :=
  ⟨⟨machine, limit ▸ world.property⟩, rfl, same, trivial, known _⟩

/-- A definition leaves the limit. -/
theorem define_callLimit (machine : Machine) (name : String) (value : Value) :
    (machine.define name value).callLimit = machine.callLimit := by
  unfold Machine.define
  split <;> rfl

/-- A name is bound with every limit. -/
theorem withLimit_define (machine : Machine) (name : String) (value : Value) :
    (machine.withLimit higher).define name value =
      (machine.define name value).withLimit higher := by
  unfold Machine.define
  have same : (machine.withLimit higher).environment = machine.environment := rfl
  rw [same]
  split <;> rfl

end outlasting

open outlasting in
instance (higher extra : Nat) : (outlasting higher extra).Lawful where
  refl := fun _ => trivial
  trans := fun _ _ => trivial
  beside := fun world =>
    { nextIdentity := rfl
      environment := rfl
      sink := rfl
      callDepth := rfl
      clock := rfl
      readings := rfl
      callLimit := world.property
      frames := rfl
      objects := rfl }
  back := fun _ => moves rfl rfl fun _ => trivial
  closureLater := fun same _ => same
  originLater := fun same _ => same
  closureName := fun same => same ▸ rfl
  closureArity := fun same => same ▸ rfl
  closureFlag := fun same => same ▸ rfl
  methodArity := fun same => same ▸ rfl
  originIdentity := fun same => same ▸ rfl
  originName := fun same => same ▸ rfl
  originMethod := fun same _ => same ▸ rel_self (fun _ => rfl) _
  field := fun _ _ _ => rel_self (fun _ => twin_iff.mpr rfl) _
  listing := fun _ => rfl
  exprParts := fun {_ expression _} same => same ▸ exprParts expression
  stmtParts := fun {_ statement _} same => same ▸ stmtParts statement
  occurrence := fun occurs => occurs.2.symm
  distance := fun _ ⟨sameId, _⟩ => sameId ▸ rfl
  lookup := by
    rintro _ world id name _ _ _ ⟨rfl, rfl⟩ _
    exact finds_lookup _ _
  assign := by
    rintro _ world id name _ _ value _ _ ⟨rfl, rfl⟩ twin _
    obtain rfl := twin_iff.mp twin
    exact meets_assign _ _ _
  inherits := by
    rintro _ world id keyword _ _ method outer _ ⟨rfl, rfl⟩ _ _
    exact ⟨finds_orUndefined _ _, finds_orUndefined _ _⟩
  receiver := by
    rintro world closure _ rfl _ _
    exact finds_orUndefined _ _
  aside := fun _ _ _ _ => moves rfl rfl fun _ => trivial
  declare := by
    rintro _ world name _ value _ _ rfl twin
    obtain rfl := twin_iff.mp twin
    exact moves (define_callLimit _ _ _) (withLimit_define _ _ _).symm fun _ => trivial
  newObject := fun _ => moves rfl rfl fun _ => trivial
  setField := by
    rintro world object name value _ twin
    obtain rfl := twin_iff.mp twin
    exact moves rfl rfl fun _ => trivial
  bindMethod := by
    rintro world method _ receiver _ rfl twin
    obtain rfl := twin_iff.mp twin
    exact moves rfl rfl fun _ => rfl
  enter := by
    rintro world closure _ arguments _ rfl twins
    obtain rfl := eq_of_twins twins
    exact moves rfl rfl fun _ => ⟨(), trivial, List.forall₂_same.mpr fun _ _ => rfl⟩
  block := by
    rintro _ world body _ _ rfl
    exact ⟨body, rfl, moves rfl rfl fun _ => ⟨(), trivial, List.forall₂_same.mpr fun _ _ => rfl⟩⟩
  function := by
    rintro _ world declaration _ _ rfl
    exact ⟨declaration, rfl, rfl, rfl⟩
  base := by
    rintro _ world name methods _ _ rfl
    exact ⟨name, methods, rfl, rfl, fun _ => rfl⟩
  derived := by
    rintro _ world name superclass methods _ _ _ ancestor _ _ same rfl
    cases same
    exact ⟨rfl, moves rfl rfl fun _ _ => rfl⟩

/-- Programs are outlasted by themselves. -/
theorem interpret_outlasted (extra fuel : Nat) (program : List Stmt) {machine : Machine}
    (within : machine.callLimit ≤ higher) :
    Ending.OutlastedBy higher (interpret fuel program machine)
      (interpret (extra + fuel) program (machine.withLimit higher)) := by
  let world : { machine : Machine // machine.callLimit ≤ higher } := ⟨machine, within⟩
  have known : (outlasting higher extra).known (.topLevel fuel program)
      ((outlasting higher extra).machine world) := trivial
  have stands : (outlasting higher extra).stands () world := trivial
  have paces := Pairing.Lawful.paces_topLevel fuel known stands
    (List.forall₂_same.mpr fun _ _ => rfl)
  unfold Pairing.Paces at paces
  unfold interpret atTopLevel
  change (outlasting higher extra).Paced _ _ _ (executeTopLevel fuel program machine)
    (executeTopLevel (extra + fuel) program (machine.withLimit higher)) at paces
  generalize executeTopLevel fuel program machine = ending,
    ran : executeTopLevel (extra + fuel) program (machine.withLimit higher) = image at paces ⊢
  cases paces with
  | meets meets =>
    cases meets with
    | @value after => exact .value () after.property
    | @fault after error other _ token same =>
      have equal : error = other := by
        cases error
        cases other
        exact congr (congrArg RuntimeError.mk token) same.symm
      exact equal ▸ .fault error after.property
  | @overflow after token _ _ lower writes =>
    refine .overflow token lower ?_
    have behind (last : Machine) (left : image.Leaves last) :
        ∃ more, last.sink.written = after.val.sink.written ++ more := by
      rw [← ran] at left
      exact writes last left
    cases image with
    | value result last => exact behind last rfl
    | fault error last => exact behind last rfl
    | outOfFuel => trivial
  | outOfFuel => exact .outOfFuel _

/-- Programs leave the limit as it is. -/
theorem interpret_callLimit (fuel : Nat) (program : List Stmt) (machine : Machine) :
    (interpret fuel program machine).Holds
      (fun _ after => after.callLimit = machine.callLimit)
      (fun _ after => after.callLimit = machine.callLimit) := by
  have evolved := executeTopLevel_evolving fuel program machine
  unfold interpret atTopLevel
  cases ending : executeTopLevel fuel program machine with
  | value result after =>
    rw [ending] at evolved
    exact evolved.callLimit
  | fault error after =>
    rw [ending] at evolved
    exact evolved.callLimit
  | outOfFuel => trivial

/-- More fuel does not change how a program ends. -/
theorem interpret_of_more_fuel {fuel : Nat} {program : List Stmt} {machine : Machine}
    (ended : interpret fuel program machine ≠ .outOfFuel) (extra : Nat) :
    interpret (extra + fuel) program machine = interpret fuel program machine := by
  have outlasted := interpret_outlasted extra fuel program (Nat.le_refl machine.callLimit)
  have limited := interpret_callLimit fuel program machine
  have same : machine.withLimit machine.callLimit = machine := rfl
  rw [same] at outlasted
  generalize interpret fuel program machine = ending,
    interpret (extra + fuel) program machine = image at ended outlasted limited
  cases outlasted with
  | @value result after within =>
    have kept : after.callLimit = machine.callLimit := limited
    rw [← kept]
    rfl
  | @fault error after within =>
    have kept : after.callLimit = machine.callLimit := limited
    rw [← kept]
    rfl
  | @overflow token after image lower writes =>
    have kept : after.callLimit = machine.callLimit := limited
    omega
  | outOfFuel => exact (ended rfl).elim

end Eval

end LoxLang
