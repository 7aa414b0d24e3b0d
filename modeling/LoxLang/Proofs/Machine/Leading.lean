import LoxLang.Proofs.Machine.Obeying

/-!
# What admitted tasks start

A task that a lawful discipline admits starts admitted tasks only, each in a later world
(`Discipline.Lawful.step`), and so on through a whole run (`Discipline.Lawful.reaches`). Only the
body of a call and a block have frames of their own; everything else goes on in the environment of
the task.
-/

namespace LoxLang

/-- A task that goes on in frames of its own: a call or a block. -/
def Task.Opens : Task → Prop
  | .invoke _ _ _ _ => True
  | .execute _ (.block _) => True
  | _ => False

/-- The body of a call starts where the call enters. -/
theorem Task.enter_of_entered {parameters frame : Nat} {closure : Closure} {paren : Token}
    {arguments : List Value} {machine counted between ready : Machine}
    (entered : Eval.enterCall paren machine = .value () counted)
    (outer : Eval.newFrame (Eval.parameterBindings closure.declaration.parameters arguments)
      counted = .value parameters between)
    (inner : Eval.newFrame ∅ between = .value frame ready) :
    machine.callDepth < machine.callLimit ∧
      { ready with environment := frame :: parameters :: closure.environment } =
        machine.enter closure arguments := by
  unfold Eval.enterCall at entered
  split at entered
  case isTrue => cases entered
  case isFalse below =>
    cases entered
    cases outer
    cases inner
    exact ⟨Nat.lt_of_not_le below, rfl⟩

namespace Discipline

variable {D : Discipline}

/-- A task follows: it is admitted in a later world. Unless the first task has frames of its own, it
follows in the same environment, at the same place or behind a statement. -/
def Advances (context : D.Context) (world : D.World) (task later : Task) (between : Machine) :
    Prop :=
  ∃ inner after, D.machine after = between ∧ D.Later world after ∧ D.Admits inner after later ∧
    (task.Opens ∨
      D.Next world after ∧ (inner = context ∨ ∃ statement, inner = D.after context statement))

variable {world after : D.World} {context : D.Context} {task later : Task} {between : Machine}
  {fuel : Nat}

/-- A step may lead into the next machine of a world. -/
theorem Advances.next (next : D.Next world after) (admits : D.Admits context after later) :
    D.Advances context world task later (D.machine after) :=
  ⟨context, after, rfl, next.later, admits, .inr ⟨next, .inl rfl⟩⟩

variable [lawful : D.Lawful]
include lawful

/-- A step may lead from the machine as it is. -/
theorem Advances.here (admits : D.Admits context world later) :
    D.Advances context world task later (D.machine world) :=
  .next (.refl world) admits

/-- What is known behind an expression. -/
theorem Lawful.evaluated {expression : Expr} {value : Value}
    (known : D.known (.evaluate fuel expression) (D.machine world))
    (stands : D.stands context world) (holds : D.expr context fuel expression)
    (ended : Eval.evaluate fuel expression (D.machine world) = .value value between) :
    ∃ after, D.machine after = between ∧ D.Next world after ∧ D.stands context after ∧
      D.value after value := by
  obtain ⟨after, same, next, kept⟩ := ((lawful.obeys fuel).evaluate known stands holds).result ended
  exact ⟨after, same, next, lawful.stands stands next, kept⟩

/-- What is known behind a statement. -/
theorem Lawful.executed {statement : Stmt} {flow : Flow}
    (known : D.known (.execute fuel statement) (D.machine world))
    (stands : D.stands context world) (holds : D.stmt context fuel statement)
    (ended : Eval.execute fuel statement (D.machine world) = .value flow between) :
    ∃ after, D.machine after = between ∧ D.Next world after ∧ D.stands context after ∧
      (flow = .normal → D.stands (D.after context statement) after) := by
  obtain ⟨after, same, next, _, behind⟩ :=
    ((lawful.obeys fuel).execute known stands holds).result ended
  exact ⟨after, same, next, lawful.stands stands next, behind⟩

/-! ### One step -/

theorem Lawful.step_evaluate {expression : Expr}
    (known : D.known (.evaluate fuel expression) (D.machine world))
    (admits : D.Admits context world (.evaluate fuel expression))
    (leads : Task.Leads (.evaluate fuel expression) (D.machine world) later between) :
    D.Advances context world (.evaluate fuel expression) later between := by
  obtain ⟨stands, holds⟩ := admits
  cases leads with
  | grouping | accessed => exact .here ⟨stands, lawful.exprParts holds⟩
  | operand | left | deciding | callee | changed => exact .here ⟨stands, (lawful.exprParts holds).1⟩
  | assigned => exact .here ⟨stands, lawful.exprParts holds⟩
  | reference => exact .here ⟨stands, _, .inl holds⟩
  | this => exact .here ⟨stands, _, .inr holds⟩
  | super => exact .here ⟨stands, _, holds⟩
  | right first =>
    obtain ⟨head, tail, _⟩ := lawful.exprParts holds
    obtain ⟨_, rfl, next, stands, _⟩ := lawful.evaluated (lawful.lead known .left) stands head first
    exact .next next ⟨stands, tail⟩
  | undecided first =>
    obtain ⟨head, tail⟩ := lawful.exprParts holds
    obtain ⟨_, rfl, next, stands, _⟩ :=
      lawful.evaluated (lawful.lead known .deciding) stands head first
    exact .next next ⟨stands, tail⟩
  | assign first =>
    obtain ⟨_, rfl, next, stands, kept⟩ :=
      lawful.evaluated (lawful.lead known .assigned) stands (lawful.exprParts holds) first
    exact .next next ⟨stands, kept, _, _, holds⟩
  | arguments first =>
    obtain ⟨head, tail⟩ := lawful.exprParts holds
    obtain ⟨_, rfl, next, stands, _⟩ :=
      lawful.evaluated (lawful.lead known .callee) stands head first
    exact .next next ⟨stands, tail⟩
  | stored first =>
    obtain ⟨head, tail⟩ := lawful.exprParts holds
    obtain ⟨_, rfl, next, stands, _⟩ :=
      lawful.evaluated (lawful.lead known .changed) stands head first
    exact .next next ⟨stands, tail⟩
  | @call _ _ paren _ target values _ _ _ first second checked =>
    obtain ⟨head, tail⟩ := lawful.exprParts holds
    obtain ⟨_, rfl, next, standsBetween, kept⟩ :=
      lawful.evaluated (lawful.lead known .callee) stands head first
    obtain ⟨ready, rfl, further, listed⟩ := ((lawful.obeys _).evaluateAll
      (lawful.lead known (.arguments first)) standsBetween tail).result second
    have fits := Eval.checkCall_fits checked
    have all := next.trans further
    exact .next all ⟨lawful.value kept further.later, listed, fits ▸ lawful.takes _,
      lawful.calls (lawful.stands stands all) holds⟩

theorem Lawful.step_execute {statement : Stmt}
    (known : D.known (.execute fuel statement) (D.machine world))
    (admits : D.Admits context world (.execute fuel statement))
    (leads : Task.Leads (.execute fuel statement) (D.machine world) later between) :
    D.Advances context world (.execute fuel statement) later between := by
  obtain ⟨stands, holds⟩ := admits
  have parts (fuel : Nat) (same : D.stmt context (fuel + 1) statement) := lawful.stmtParts same
  cases leads with
  | expression | print | loop => exact .here ⟨stands, parts _ holds⟩
  | declare | superclass => exact .here ⟨stands, parts _ holds _ rfl⟩
  | «return» => exact .here ⟨stands, (parts _ holds).2 _ rfl⟩
  | condition => exact .here ⟨stands, (parts _ holds).1⟩
  | block opened =>
    cases opened
    obtain ⟨after, opened, further, inner, within, holds, _⟩ := lawful.block stands holds
    exact ⟨inner, after, opened, further, ⟨within, holds⟩, .inl trivial⟩
  | whenTrue first =>
    obtain ⟨_, rfl, next, stands, _⟩ :=
      lawful.evaluated (lawful.lead known .condition) stands (parts _ holds).1 first
    exact .next next ⟨stands, (parts _ holds).2.1⟩
  | whenFalse first =>
    obtain ⟨_, rfl, next, stands, _⟩ :=
      lawful.evaluated (lawful.lead known .condition) stands (parts _ holds).1 first
    exact .next next ⟨stands, (parts _ holds).2.2 _ rfl⟩

theorem Lawful.step_call {callee : Value} {paren : Token} {arguments : List Value}
    (known : D.known (.call fuel callee paren arguments) (D.machine world))
    (admits : D.Admits context world (.call fuel callee paren arguments))
    (leads : Task.Leads (.call fuel callee paren arguments) (D.machine world) later between) :
    D.Advances context world (.call fuel callee paren arguments) later between := by
  obtain ⟨kept, listed, fits, enough⟩ := admits
  cases leads with
  | function =>
    exact .here ⟨lawful.callable.mp kept, listed, fits, lawful.invokes enough⟩
  | @initializer _ _ method _ _ _ _ _ _ _ made found binds =>
    have fits : D.takes (some method.arity) arguments.length :=
      ClassObject.arity_of_initializer found ▸ fits
    cases made
    cases binds
    obtain ⟨between, same, later, created⟩ := lawful.newObject kept
    have next : D.Next world between := ⟨later, by rw [same], by rw [same]⟩
    obtain ⟨after, ready, further, bound⟩ :=
      lawful.bindMethod (lawful.method created rfl found) created
    have all : D.Next world after :=
      next.trans ⟨further, by rw [ready], by rw [ready]⟩
    rw [same] at ready bound
    rw [← ready]
    exact .next all ⟨bound, fun argument member => lawful.value (listed argument member) all.later,
      fits, lawful.invokesNext (lawful.invokes enough) all⟩

theorem Lawful.step_invoke {closure : Closure} {paren : Token} {arguments : List Value}
    (known : D.known (.invoke fuel closure paren arguments) (D.machine world))
    (admits : D.Admits context world (.invoke fuel closure paren arguments))
    (leads : Task.Leads (.invoke fuel closure paren arguments) (D.machine world) later between) :
    D.Advances context world (.invoke fuel closure paren arguments) later between := by
  obtain ⟨kept, listed, fits, enough⟩ := admits
  cases leads with
  | body entered outer inner =>
    obtain ⟨below, same⟩ := Task.enter_of_entered entered outer inner
    obtain ⟨after, ready, further, within, stands, holds⟩ :=
      lawful.enter kept listed fits enough below
    rw [same, ← ready]
    exact ⟨within, after, rfl, further, ⟨stands, holds⟩, .inl trivial⟩
  | receiver ran initializes =>
    obtain ⟨after, rfl, next, _⟩ :=
      ((lawful.obeys _).body known kept listed fits enough).result ran
    exact .next next ⟨lawful.closure kept next.later, initializes⟩

/-- A task that is admitted starts admitted tasks only. -/
theorem Lawful.step (known : D.known task (D.machine world)) (admits : D.Admits context world task)
    (leads : task.Leads (D.machine world) later between) :
    D.Advances context world task later between := by
  have parts {head : Task} (first : task.Leads (D.machine world) head (D.machine world)) :
      D.known head (D.machine world) := lawful.lead known first
  cases task with
  | evaluate => exact lawful.step_evaluate known admits leads
  | execute => exact lawful.step_execute known admits leads
  | call => exact lawful.step_call known admits leads
  | invoke => exact lawful.step_invoke known admits leads
  | evaluateAll =>
    obtain ⟨stands, holds⟩ := admits
    cases leads with
    | firstArgument => exact .here ⟨stands, (lawful.exprsParts holds).1⟩
    | otherArguments head =>
      obtain ⟨first, rest⟩ := lawful.exprsParts holds
      obtain ⟨_, rfl, next, stands, _⟩ := lawful.evaluated (parts .firstArgument) stands first head
      exact .next next ⟨stands, rest⟩
  | executeAll =>
    obtain ⟨stands, holds⟩ := admits
    cases leads with
    | firstStatement => exact .here ⟨stands, (lawful.stmtsParts holds).1⟩
    | otherStatements head =>
      obtain ⟨first, rest⟩ := lawful.stmtsParts holds
      obtain ⟨after, rfl, next, _, behind⟩ :=
        lawful.executed (parts .firstStatement) stands first head
      exact ⟨_, after, rfl, next.later, ⟨behind rfl, rest⟩, .inr ⟨next, .inr ⟨_, rfl⟩⟩⟩
  | repeatWhile =>
    obtain ⟨stands, holds⟩ := admits
    cases leads with
    | test => exact .here ⟨stands, (lawful.loopParts holds).1⟩
    | repeated first =>
      obtain ⟨test, body, _⟩ := lawful.loopParts holds
      obtain ⟨_, rfl, next, stands, _⟩ := lawful.evaluated (parts .test) stands test first
      exact .next next ⟨stands, body⟩
    | again first continues second =>
      obtain ⟨test, body, rest⟩ := lawful.loopParts holds
      obtain ⟨between, rfl, next, stands, _⟩ := lawful.evaluated (parts .test) stands test first
      obtain ⟨_, rfl, further, stands, _⟩ :=
        lawful.executed (lawful.lead known (.repeated first continues)) stands body second
      exact .next (next.trans further) ⟨stands, rest⟩
  | topLevel =>
    obtain ⟨stands, holds⟩ := admits
    cases leads with
    | topStatement => exact .here ⟨stands, (List.forall_mem_cons.mp holds).1⟩
    | nextStatements head =>
      obtain ⟨first, rest⟩ := List.forall_mem_cons.mp holds
      obtain ⟨_, rfl, next, stands, _⟩ :=
        lawful.executed (parts .topStatement) stands first head
      exact .next next ⟨stands, rest⟩
  | lookup | assign | superMethod | receiver => cases leads

/-- Every task that comes about during an admitted one is admitted. -/
theorem Lawful.reaches (known : D.known task (D.machine world))
    (admits : D.Admits context world task)
    (reached : task.Reaches (D.machine world) later between) :
    D.known later between ∧ ∃ inner after, D.machine after = between ∧ D.Later world after ∧
      D.Admits inner after later := by
  generalize same : D.machine world = machine at reached
  induction reached generalizing world context with
  | refl => exact ⟨same ▸ known, context, world, same, lawful.refl world, admits⟩
  | step first _ inductionHypothesis =>
    subst same
    obtain ⟨inner, after, rfl, further, admits, _⟩ := lawful.step known admits first
    obtain ⟨known, last, final, same, rest, admits⟩ :=
      inductionHypothesis (lawful.lead known first) admits rfl
    exact ⟨known, last, final, same, lawful.trans further rest, admits⟩

end Discipline

end LoxLang
