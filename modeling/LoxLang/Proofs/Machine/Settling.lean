import LoxLang.Proofs.Machine.Leading

/-!
# What ended tasks leave

When a task has ended, so have the tasks that it started, and what they left comes before what the
task left (`Discipline.Lawful.settles`). What is started last leaves what the task leaves; behind
anything else there is more to do, which leads to later worlds in turn (`Discipline.Tends`).
-/

namespace LoxLang

namespace Discipline

open Eval

variable {α β : Type} {D : Discipline} {world : D.World} {context : D.Context} {first : Eval α}
  {next : α → Eval β} {early : D.World → α → Prop} {task later : Task}
  {machine between outer : Machine} {fuel : Nat}

/-- Whichever way a computation ends, it leaves a later world. -/
def Tends (world : D.World) (computation : Eval α) : Prop :=
  ∀ machine, (computation (D.machine world)).Leaves machine →
    ∃ after, D.machine after = machine ∧ D.Later world after

/-- A computation has ended in a world that comes before a machine. -/
def Settled (D : Discipline) (computation : Eval α) (machine outer : Machine) : Prop :=
  ∃ inner final, (computation machine).Leaves (D.machine inner) ∧ D.machine final = outer ∧
    D.Later inner final

/-- A computation that obeys leads to later worlds. -/
theorem Obeys.tends (obeys : D.Obeys world first early) : D.Tends world first := by
  intro machine left
  cases ending : first (D.machine world) with
  | value result last =>
    rw [ending] at left
    obtain ⟨after, same, next, _⟩ := obeys.result ending
    exact ⟨after, same.trans left, next.later⟩
  | fault error last =>
    rw [ending] at left
    obtain ⟨_, after, same, next⟩ := obeys.stops ending
    exact ⟨after, same.trans left, next.later⟩
  | outOfFuel =>
    rw [ending] at left
    exact left.elim

/-- Behind a result, a computation leaves what its second part leaves. -/
theorem leaves_behind {result : α} (given : first machine = .value result between)
    (ended : ((first >>= next) machine).Leaves outer) : (next result between).Leaves outer := by
  rwa [bind_apply, given] at ended

/-- What comes back to where it started has ended there. -/
theorem leaves_adjust {ending : Ending α} {change : Machine → Machine}
    (ended : (ending.adjust change).Leaves outer) :
    ∃ inner, ending.Leaves inner ∧ change inner = outer := by
  cases ending with
  | value result last => exact ⟨last, rfl, ended⟩
  | fault error last => exact ⟨last, rfl, ended⟩
  | outOfFuel => exact ended.elim

variable [lawful : D.Lawful]
include lawful

/-- A result is returned at once, whatever follows. -/
theorem Tends.pure (result : α) : D.Tends world (pure result) := by
  rintro machine rfl
  exact ⟨world, rfl, lawful.refl world⟩

/-- A fault stops at once. -/
theorem Tends.fail (token : Token) (fault : RuntimeFault) :
    D.Tends world (fail token fault : Eval α) := by
  rintro machine rfl
  exact ⟨world, rfl, lawful.refl world⟩

/-- An outcome is there at once. -/
theorem Tends.ofExcept (token : Token) (outcome : Except RuntimeFault α) :
    D.Tends world (ofExcept token outcome) := by
  cases outcome with
  | ok result => exact .pure result
  | error fault => exact .fail token fault

/-- The first part of a computation that has ended has ended, and the second part went on from
there. -/
theorem settles_head (obeys : D.Obeys world first early)
    (ended : ((first >>= next) (D.machine world)).Leaves outer)
    (rest : ∀ inner result, first (D.machine world) = .value result (D.machine inner) →
      D.Next world inner → early inner result → D.Tends inner (next result)) :
    D.Settled first (D.machine world) outer := by
  rw [bind_apply] at ended
  cases ending : first (D.machine world) with
  | value result machine =>
    obtain ⟨inner, rfl, step, known⟩ := obeys.result ending
    rw [ending] at ended
    obtain ⟨final, same, later⟩ := rest inner result ending step known outer ended
    exact ⟨inner, final, by rw [ending]; rfl, same, later⟩
  | fault error machine =>
    obtain ⟨_, inner, rfl, _⟩ := obeys.stops ending
    rw [ending] at ended
    exact ⟨inner, inner, by rw [ending]; rfl, ended, lawful.refl inner⟩
  | outOfFuel =>
    rw [ending] at ended
    exact ended.elim

/-- A run tends to its end if its first part obeys and what follows each of its results tends to its
own. -/
theorem Tends.bind (before : D.Obeys world first early)
    (behind : ∀ inner result, first (D.machine world) = .value result (D.machine inner) →
      D.Next world inner → early inner result → D.Tends inner (next result)) :
    D.Tends world (first >>= next) := by
  intro machine ended
  rw [bind_apply] at ended
  cases ending : first (D.machine world) with
  | value result between =>
    obtain ⟨inner, rfl, step, known⟩ := before.result ending
    rw [ending] at ended
    obtain ⟨after, same, later⟩ := behind inner result ending step known machine ended
    exact ⟨after, same, lawful.trans step.later later⟩
  | fault error between =>
    obtain ⟨_, after, same, step⟩ := before.stops ending
    rw [ending] at ended
    exact ⟨after, same.trans ended, step.later⟩
  | outOfFuel =>
    rw [ending] at ended
    exact ended.elim

/-- A lookup at a distance asks the store alone. -/
theorem Tends.lookupAt (environment : Environment) (distance : Nat) (name : Token) :
    D.Tends world (lookupAt environment distance name) := by
  intro machine left
  have reads := lookupAt_reads environment distance name (D.machine world)
  generalize Eval.lookupAt environment distance name (D.machine world) = ending at reads left
  cases reads with
  | found | missing => exact ⟨world, left, lawful.refl world⟩

/-- Whatever is left to do, it comes behind what has ended. -/
theorem settles_rest {second : Eval β} {γ : Type} {first : Eval γ} {next : γ → Eval α}
    {start : Machine}
    (settled : ∀ machine, (first (D.machine world)).Leaves machine →
      D.Settled second start machine)
    (ended : ((first >>= next) (D.machine world)).Leaves outer)
    (rest : ∀ after result, D.Tends after (next result)) : D.Settled second start outer := by
  rw [bind_apply] at ended
  cases ending : first (D.machine world) with
  | value result machine =>
    rw [ending] at ended settled
    obtain ⟨inner, between, left, rfl, later⟩ := settled machine rfl
    obtain ⟨final, same, further⟩ := rest between result outer ended
    exact ⟨inner, final, left, same, lawful.trans later further⟩
  | fault error machine =>
    rw [ending] at ended settled
    exact settled outer ended
  | outOfFuel =>
    rw [ending] at ended
    exact ended.elim

/-- What was run elsewhere has ended before control came back. -/
theorem settles_elsewhere {inner : D.World} {change : Machine → Machine}
    (later : D.Later world inner)
    (back : ∀ after, D.Next inner after →
      change (D.machine after) = (D.machine after).backTo (D.machine world))
    (obeys : D.Obeys inner first early)
    (ended : ((first (D.machine inner)).adjust change).Leaves outer) :
    D.Settled first (D.machine inner) outer := by
  have returning {machine : Machine} (left : (first (D.machine inner)).Leaves machine)
      (same : change machine = outer)
      (reached : ∃ after, D.machine after = machine ∧ D.Next inner after) :
      D.Settled first (D.machine inner) outer := by
    obtain ⟨after, rfl, next⟩ := reached
    obtain ⟨final, returned, behind, _⟩ := lawful.back (lawful.trans later next.later)
    exact ⟨after, final, left, returned.trans ((back after next).symm.trans same), behind⟩
  obtain ⟨machine, left, same⟩ := leaves_adjust ended
  cases ending : first (D.machine inner) with
  | value result last =>
    obtain ⟨after, rfl, next, _⟩ := obeys.result ending
    exact returning left same ⟨after, by rw [ending] at left; exact left, next⟩
  | fault error last =>
    obtain ⟨_, after, rfl, next⟩ := obeys.stops ending
    exact returning left same ⟨after, by rw [ending] at left; exact left, next⟩
  | outOfFuel =>
    rw [ending] at left
    exact left.elim

/-- What is started last leaves what the task leaves. -/
theorem Lawful.settled_last (known : D.known task (D.machine world))
    (admits : D.Admits context world task) (leads : task.Leads (D.machine world) later between)
    (ended : later.Leaves between outer) : D.Settled later.run between outer := by
  obtain ⟨inner, after, rfl, _, admits, _⟩ := lawful.step known admits leads
  obtain ⟨final, same, _⟩ := lawful.leaves (lawful.lead known leads) admits ended
  exact ⟨final, final, Task.leaves_iff.mp (same ▸ ended), same, lawful.refl final⟩

/-! ### One step -/

/-- What an expression leads to is settled by the part of the run that it belongs to. -/
theorem Lawful.settles_evaluate {expression : Expr}
    (known : D.known (.evaluate fuel expression) (D.machine world))
    (admits : D.Admits context world (.evaluate fuel expression))
    (leads : Task.Leads (.evaluate fuel expression) (D.machine world) later between)
    (ended : (evaluate fuel expression (D.machine world)).Leaves outer) :
    D.Settled later.run between outer := by
  have last (left : later.Leaves between outer) := lawful.settled_last known admits leads left
  obtain ⟨stands, holds⟩ := admits
  have all := lawful.obeys
  cases leads with
  | grouping | reference | this | super => exact last ended
  | operand =>
    have operand := (lawful.exprParts holds).1
    exact settles_head ((all _).evaluate (lawful.lead known .operand) stands operand) ended
      fun _ _ _ _ _ => .ofExcept _ _
  | left =>
    obtain ⟨head, tail, _⟩ := lawful.exprParts holds
    refine settles_head ((all _).evaluate (lawful.lead known .left) stands head) ended ?_
    intro inner value ran next _
    exact .bind ((all _).evaluate (lawful.lead known (.right ran)) (lawful.stands stands next) tail)
      fun _ _ _ _ _ => .ofExcept _ _
  | right first =>
    obtain ⟨head, tail, _⟩ := lawful.exprParts holds
    obtain ⟨_, rfl, _, stands, _⟩ := lawful.evaluated (lawful.lead known .left) stands head first
    have behind := leaves_behind first ended
    exact settles_head ((all _).evaluate (lawful.lead known (.right first)) stands tail) behind
      fun _ _ _ _ _ => .ofExcept _ _
  | deciding =>
    obtain ⟨head, tail⟩ := lawful.exprParts holds
    refine settles_head ((all _).evaluate (lawful.lead known .deciding) stands head) ended ?_
    intro inner value ran next _
    split
    case isTrue => exact .pure _
    case isFalse undecided =>
      exact ((all _).evaluate (lawful.lead known (.undecided ran (by simpa using undecided)))
        (lawful.stands stands next) tail).tends
  | undecided first undecided =>
    have behind := leaves_behind first ended
    rw [if_neg (by simp [undecided])] at behind
    exact last behind
  | assigned =>
    refine settles_head ((all _).evaluate (lawful.lead known .assigned) stands
      (lawful.exprParts holds)) ended ?_
    intro inner value ran next kept
    exact .bind (.assign (lawful.lead known (.assign ran)) (lawful.stands stands next) holds kept)
      fun _ _ _ _ _ => .pure _
  | assign first =>
    obtain ⟨_, rfl, _, stands, kept⟩ :=
      lawful.evaluated (lawful.lead known .assigned) stands (lawful.exprParts holds) first
    have behind := leaves_behind first ended
    exact settles_head (.assign (lawful.lead known (.assign first)) stands holds kept) behind
      fun _ _ _ _ _ => .pure _
  | callee =>
    obtain ⟨head, tail⟩ := lawful.exprParts holds
    refine settles_head ((all _).evaluate (lawful.lead known .callee) stands head) ended ?_
    intro inner target ran next kept
    exact ((all _).arguments known ran (lawful.stands stands next) holds kept).tends
  | arguments first =>
    obtain ⟨head, tail⟩ := lawful.exprParts holds
    obtain ⟨_, rfl, _, stands, kept⟩ :=
      lawful.evaluated (lawful.lead known .callee) stands head first
    have behind := leaves_behind first ended
    refine settles_head ((all _).evaluateAll (lawful.lead known (.arguments first)) stands tail)
      behind ?_
    intro ready values listing further listed
    exact ((all _).checkedCall known first listing (lawful.stands stands further) holds
      (lawful.value kept further.later) listed).tends
  | call first second checked =>
    have behind := leaves_behind first ended
    have behind := leaves_behind second behind
    have behind := leaves_behind checked behind
    exact last behind
  | accessed =>
    refine settles_head ((all _).evaluate (lawful.lead known .accessed) stands
      (lawful.exprParts holds)) ended ?_
    exact fun _ _ _ _ kept => (Obeys.property kept _).tends
  | changed =>
    refine settles_head ((all _).evaluate (lawful.lead known .changed) stands
      (lawful.exprParts holds).1) ended ?_
    exact fun _ _ ran next _ => ((all _).stored known ran (lawful.stands stands next) holds).tends
  | stored first =>
    obtain ⟨head, tail⟩ := lawful.exprParts holds
    obtain ⟨_, rfl, _, stands, _⟩ :=
      lawful.evaluated (lawful.lead known .changed) stands head first
    have behind := leaves_behind first ended
    exact settles_head ((all _).evaluate (lawful.lead known (.stored first)) stands tail) behind
      fun _ _ _ _ kept => (Obeys.setField kept).tends

/-- What a call leads to is settled by the part of the run that it belongs to. -/
theorem Lawful.settles_call {callee : Value} {paren : Token} {arguments : List Value}
    (known : D.known (.call fuel callee paren arguments) (D.machine world))
    (admits : D.Admits context world (.call fuel callee paren arguments))
    (leads : Task.Leads (.call fuel callee paren arguments) (D.machine world) later between)
    (ended : (call fuel callee paren arguments (D.machine world)).Leaves outer) :
    D.Settled later.run between outer := by
  cases leads with
  | function => exact lawful.settled_last known admits .function ended
  | initializer made found binds =>
    obtain ⟨inner, after, same, _, started, _⟩ :=
      lawful.step known admits (.initializer made found binds)
    have known := lawful.lead known (.initializer made found binds)
    have behind := leaves_behind made ended
    simp only [found] at behind
    have behind := leaves_behind binds behind
    subst same
    obtain ⟨kept, listed, fits, enough⟩ := started
    exact settles_head ((lawful.obeys _).invoke known kept listed fits enough) behind
      fun _ _ _ _ _ => .pure _

/-- What an invocation leads to is settled by the part of the run that it belongs to. -/
theorem Lawful.settles_invoke {closure : Closure} {paren : Token} {arguments : List Value}
    (known : D.known (.invoke fuel closure paren arguments) (D.machine world))
    (admits : D.Admits context world (.invoke fuel closure paren arguments))
    (leads : Task.Leads (.invoke fuel closure paren arguments) (D.machine world) later between)
    (ended : (invoke fuel closure paren arguments (D.machine world)).Leaves outer) :
    D.Settled later.run between outer := by
  have admitted := admits
  obtain ⟨kept, listed, fits, enough⟩ := admits
  cases leads with
  | @body fuel _ _ _ _ _ _ _ _ _ entered opened nested =>
    obtain ⟨below, same⟩ := Task.enter_of_entered entered opened nested
    obtain ⟨inner, entered, further, within, stands, holds⟩ :=
      lawful.enter kept listed fits enough below
    rw [same, ← entered]
    have known : D.known (.executeAll fuel closure.declaration.body) (D.machine inner) :=
      entered ▸ lawful.lead known (.enter below)
    refine settles_rest (fun machine left => ?_) ended fun after flow => ?_
    · have left : (runBody fuel closure paren arguments (D.machine world)).Leaves machine := left
      rw [runBody_apply, if_neg (Nat.not_le_of_lt below), ← entered] at left
      exact settles_elsewhere further
        (fun _ next => Machine.leaveCall_eq_backTo (entered ▸ next.callDepth))
        ((lawful.obeys fuel).executeAll known stands holds) left
    · split
      case isTrue => exact .lookupAt _ _ _
      case isFalse => exact .pure _
  | receiver ran initializes =>
    have behind := leaves_behind ran ended
    rw [if_pos initializes] at behind
    exact lawful.settled_last known admitted (.receiver ran initializes) behind

/-- What a statement leads to is settled by the part of the run that it belongs to. -/
theorem Lawful.settles_execute {statement : Stmt}
    (known : D.known (.execute fuel statement) (D.machine world))
    (admits : D.Admits context world (.execute fuel statement))
    (leads : Task.Leads (.execute fuel statement) (D.machine world) later between)
    (ended : (execute fuel statement (D.machine world)).Leaves outer) :
    D.Settled later.run between outer := by
  have last (left : later.Leaves between outer) := lawful.settled_last known admits leads left
  obtain ⟨stands, holds⟩ := admits
  have all := lawful.obeys
  have parts (fuel : Nat) (same : D.stmt context (fuel + 1) statement) := lawful.stmtParts same
  cases leads with
  | loop => exact last ended
  | expression =>
    exact settles_head ((all _).evaluate (lawful.lead known .expression) stands (parts _ holds))
      ended fun _ _ _ _ _ => .pure _
  | «return» =>
    exact settles_head ((all _).evaluate (lawful.lead known .return) stands
      ((parts _ holds).2 _ rfl)) ended fun _ _ _ _ _ => .pure _
  | print =>
    have head := (all _).evaluate (lawful.lead known .print) stands (parts _ holds)
    refine settles_head head ended ?_
    exact fun _ _ _ _ _ => .bind (.aside (write_aside _ _ _) fun _ _ _ known => known)
      fun _ _ _ _ _ => .pure _
  | declare =>
    refine settles_head ((all _).evaluate (lawful.lead known .declare) stands
      (parts _ holds _ rfl)) ended ?_
    intro inner value _ next kept
    have moves := lawful.declare (lawful.stands stands next) holds kept
    have obeys : D.Obeys inner _ fun after flow => D.Leaves context after flow ∧ _ :=
      .declared moves
    exact obeys.tends
  | superclass =>
    refine settles_head ((all _).evaluate (lawful.lead known .superclass) stands
      (parts _ holds _ rfl)) ended ?_
    exact fun _ _ _ next kept => (Obeys.derives (lawful.stands stands next) holds kept).tends
  | condition =>
    refine settles_head ((all _).evaluate (lawful.lead known .condition) stands
      (parts _ holds).1) ended ?_
    exact fun _ _ ran next _ => ((all _).branches known ran (lawful.stands stands next) holds).tends
  | whenTrue first truth =>
    have behind := leaves_behind first ended
    rw [if_pos truth] at behind
    exact last behind
  | whenFalse first fails =>
    have behind := leaves_behind first ended
    rw [if_neg (by simp [fails])] at behind
    exact last behind
  | block opened =>
    cases opened
    obtain ⟨inner, opened, further, within, stands, holds, _⟩ := lawful.block stands holds
    rw [execute_block, ← opened] at ended
    have known : D.known (.executeAll _ _) (D.machine inner) :=
      opened ▸ lawful.lead known (.block rfl)
    rw [← opened]
    exact settles_elsewhere further
      (fun _ next => Machine.leaveBlock_eq_backTo (next.callDepth.trans (by rw [opened])))
      ((all _).executeAll known stands holds) ended

/-- A task that an admitted task started has ended if the admitted task has, and what it left comes
before what that one left. -/
theorem Lawful.settles (known : D.known task (D.machine world))
    (admits : D.Admits context world task) (leads : task.Leads (D.machine world) later between)
    (ended : task.Leaves (D.machine world) outer) : D.Settled later.run between outer := by
  have last (left : later.Leaves between outer) := lawful.settled_last known admits leads left
  have all := lawful.obeys
  cases task with
  | evaluate => exact lawful.settles_evaluate known admits leads ended
  | call => exact lawful.settles_call known admits leads ended
  | invoke => exact lawful.settles_invoke known admits leads ended
  | execute => exact lawful.settles_execute known admits leads ended
  | evaluateAll =>
    obtain ⟨stands, holds⟩ := admits
    cases leads with
    | firstArgument =>
      obtain ⟨head, tail⟩ := lawful.exprsParts holds
      refine settles_head ((all _).evaluate (lawful.lead known .firstArgument) stands head) ended ?_
      intro inner value ran next _
      exact .bind ((all _).evaluateAll (lawful.lead known (.otherArguments ran))
        (lawful.stands stands next) tail) fun _ _ _ _ _ => .pure _
    | otherArguments first =>
      obtain ⟨head, tail⟩ := lawful.exprsParts holds
      obtain ⟨_, rfl, _, stands, _⟩ :=
        lawful.evaluated (lawful.lead known .firstArgument) stands head first
      have behind := leaves_behind first ended
      exact settles_head ((all _).evaluateAll (lawful.lead known (.otherArguments first)) stands
        tail) behind fun _ _ _ _ _ => .pure _
  | executeAll =>
    obtain ⟨stands, holds⟩ := admits
    cases leads with
    | firstStatement =>
      refine settles_head ((all _).execute (lawful.lead known .firstStatement) stands
        (lawful.stmtsParts holds).1) ended ?_
      exact fun _ _ ran _ left => ((all _).otherStatements known ran holds left.1 left.2).tends
    | otherStatements head =>
      have behind := leaves_behind head ended
      exact last behind
  | repeatWhile =>
    obtain ⟨stands, holds⟩ := admits
    cases leads with
    | test =>
      obtain ⟨test, _⟩ := lawful.loopParts holds
      refine settles_head ((all _).evaluate (lawful.lead known .test) stands test) ended ?_
      exact fun _ _ ran next _ =>
        ((all _).repeats known ran (lawful.stands stands next) holds).tends
    | repeated first truth =>
      obtain ⟨test, body, _⟩ := lawful.loopParts holds
      obtain ⟨_, rfl, _, stands, _⟩ := lawful.evaluated (lawful.lead known .test) stands test first
      have behind := leaves_behind first ended
      rw [if_pos truth] at behind
      refine settles_head ((all _).execute (lawful.lead known (.repeated first truth)) stands body)
        behind ?_
      exact fun _ _ ran next left =>
        ((all _).again known first truth ran (lawful.stands stands next) holds left.1).tends
    | again first truth second =>
      have behind := leaves_behind first ended
      rw [if_pos truth] at behind
      have behind := leaves_behind second behind
      exact last behind
  | topLevel =>
    obtain ⟨stands, holds⟩ := admits
    cases leads with
    | topStatement =>
      obtain ⟨head, tail⟩ := List.forall_mem_cons.mp holds
      refine settles_head ((all _).execute (lawful.lead known .topStatement) stands head) ended ?_
      exact fun _ _ ran next _ => (lawful.obeys_topLevel (lawful.lead known (.nextStatements ran))
        ⟨lawful.stands stands next, tail⟩).tends
    | nextStatements head =>
      have behind := leaves_behind head ended
      exact last behind
  | lookup | assign | superMethod | receiver => cases leads

/-- Whatever came about during an admitted task has ended if the task has, and what it left comes
before what the task left. -/
theorem Lawful.settles_reached
    (single : ∀ {one other : D.World}, D.machine one = D.machine other → one = other)
    (known : D.known task (D.machine world)) (admits : D.Admits context world task)
    (reached : task.Reaches (D.machine world) later between)
    (ended : task.Leaves (D.machine world) outer) : D.Settled later.run between outer := by
  generalize same : D.machine world = machine at reached ended
  induction reached generalizing world context outer with
  | refl =>
    subst same
    obtain ⟨final, same, _⟩ := lawful.leaves known admits ended
    exact ⟨final, final, Task.leaves_iff.mp (same ▸ ended), same, lawful.refl final⟩
  | step first _ inductionHypothesis =>
    subst same
    obtain ⟨between, final, left, same, further⟩ := lawful.settles known admits first ended
    obtain ⟨inner, after, rfl, _, admits, _⟩ := lawful.step known admits first
    obtain ⟨innermost, last, left, there, rest⟩ :=
      inductionHypothesis (lawful.lead known first) admits rfl (Task.leaves_iff.mpr left)
    rw [single there] at rest
    exact ⟨innermost, final, left, same, lawful.trans rest further⟩

end Discipline

end LoxLang
