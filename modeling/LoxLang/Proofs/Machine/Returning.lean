import LoxLang.Proofs.Machine.Obeying
import LoxLang.Proofs.Scope.Lawful

/-!
# Where control returns to

A `return` statement ends the statements around it, up to the body of the function that holds it.
`Stmt.returns` lists the return statements of a tree outside of the functions in it, and
`Task.Reaches.returns` follows a return outwards, task by task: it was started by the body of a
call, which ends by returning the same value, or it stands at the top level of the program, where
no lawful program has one.
-/

namespace LoxLang

mutual

/-- The return statements of a statement that do not belong to a function in it. -/
def Stmt.returns : Stmt → List Stmt
  | .return keyword value => [.return keyword value]
  | .block body => Stmt.returnsAll body
  | .branch _ whenTrue none => whenTrue.returns
  | .branch _ whenTrue (some whenFalse) => whenTrue.returns ++ whenFalse.returns
  | .loop _ body => body.returns
  | _ => []

/-- The return statements of several statements that do not belong to a function in them. -/
def Stmt.returnsAll : List Stmt → List Stmt
  | [] => []
  | first :: rest => first.returns ++ Stmt.returnsAll rest

end

theorem Stmt.returnsAll_append (before behind : List Stmt) :
    Stmt.returnsAll (before ++ behind) = Stmt.returnsAll before ++ Stmt.returnsAll behind := by
  induction before with
  | nil => rfl
  | cons first rest inductionHypothesis =>
    simp only [List.cons_append, Stmt.returnsAll, inductionHypothesis, List.append_assoc]

mutual

/-- Outside of functions a lawful statement does not return. -/
theorem Stmt.Lawful.returns {inside : ClassContext} {chain : Chain} :
    ∀ statement : Stmt, statement.Lawful .outside inside chain → statement.returns = []
  | .return _ _, lawful => (lawful.1 rfl).elim
  | .block body, lawful => Stmt.LawfulAll.returns body lawful
  | .branch _ whenTrue none, lawful => Stmt.Lawful.returns whenTrue lawful.2
  | .branch _ whenTrue (some whenFalse), lawful => by
    unfold Stmt.returns
    rw [Stmt.Lawful.returns whenTrue lawful.2.1, Stmt.Lawful.returns whenFalse lawful.2.2]
    rfl
  | .loop _ body, lawful => Stmt.Lawful.returns body lawful.2
  | .expression _, _ | .print _ _, _ | .declare _ _, _ | .function _, _ | .class _ _ _, _ => rfl

theorem Stmt.LawfulAll.returns {inside : ClassContext} {chain : Chain} :
    ∀ statements : List Stmt, Stmt.LawfulAll .outside inside chain statements →
      Stmt.returnsAll statements = []
  | [], _ => rfl
  | first :: rest, lawful => by
    unfold Stmt.returnsAll
    rw [Stmt.Lawful.returns first lawful.1, Stmt.LawfulAll.returns rest lawful.2]
    rfl

end

namespace Eval

variable {fuel : Nat} {machine after : Machine} {value : Value}

/-- A place may be asked to let no return through: code there has a return statement only if the
place lets it. -/
def returning : Discipline where
  World := Machine
  machine := id
  Later := fun _ _ => True
  Context := Prop
  topLevel := True
  returns := id
  stmt := fun allowed _ statement => statement.returns ≠ [] → allowed
  stmts := fun allowed _ statements => Stmt.returnsAll statements ≠ [] → allowed
  loop := fun allowed _ _ body => body.returns ≠ [] → allowed

theorem returning_stmtParts {allowed : Prop} {statement : Stmt}
    (holds : returning.stmt allowed (fuel + 1) statement) :
    returning.StmtParts allowed fuel statement := by
  cases statement with
  | expression | print => trivial
  | declare | «class» => exact fun _ _ => trivial
  | block | function => trivial
  | branch condition whenTrue whenFalse =>
    cases whenFalse with
    | none => exact ⟨trivial, holds, nofun⟩
    | some other =>
      refine ⟨trivial, fun some => holds (List.append_ne_nil_of_left_ne_nil some _), ?_⟩
      rintro _ ⟨⟩ some
      exact holds (List.append_ne_nil_of_right_ne_nil _ some)
  | loop => exact holds
  | «return» => exact ⟨holds (List.cons_ne_nil _ _), fun _ _ => trivial⟩

instance : returning.Lawful where
  refl := fun _ => trivial
  trans := fun _ _ => trivial
  back := fun _ => ⟨_, rfl, trivial, trivial⟩
  exprParts := fun _ => Discipline.exprParts_of_free (fun _ => trivial) (fun _ => trivial)
    (fun _ => trivial) (fun _ => trivial) _
  stmtParts := returning_stmtParts
  stmtsParts := by
    intro allowed _ first rest holds
    rw [Discipline.after_of_still fun _ => rfl]
    exact ⟨fun some => holds (List.append_ne_nil_of_left_ne_nil some _),
      fun some => holds (List.append_ne_nil_of_right_ne_nil _ some)⟩
  loopParts := fun holds => ⟨trivial, holds, holds⟩
  returns := id
  aside := fun _ => ⟨_, rfl, trivial, trivial⟩
  assign := fun _ _ _ => ⟨_, rfl, trivial, trivial⟩
  newObject := fun _ => ⟨_, rfl, trivial, trivial⟩
  setField := fun _ => ⟨_, rfl, trivial, trivial⟩
  bindMethod := fun _ _ => ⟨_, rfl, trivial, trivial⟩
  enter := fun _ _ _ _ _ => ⟨_, rfl, trivial, True, trivial, fun _ => trivial⟩
  block := fun _ holds => ⟨_, rfl, trivial, _, trivial, holds, id⟩
  declare := fun _ _ _ => ⟨_, rfl, trivial, trivial⟩
  function := fun _ _ _ => ⟨_, rfl, trivial, trivial⟩
  base := fun _ _ _ => ⟨_, rfl, trivial, trivial⟩
  derived := fun _ _ _ _ => ⟨_, rfl, trivial, trivial⟩

/-- A statement that returns has a return statement. -/
theorem returns_of_execute {statement : Stmt}
    (ended : execute fuel statement machine = .value (.returned value) after) :
    statement.returns ≠ [] := by
  have stands : returning.stands (statement.returns ≠ []) machine := trivial
  have holds : returning.stmt (statement.returns ≠ []) fuel statement := id
  have obeys := (Discipline.Lawful.obeys fuel).execute trivial stands holds
  obtain ⟨_, _, _, ⟨allowed, _⟩, _⟩ := obeys.result ended
  exact allowed

/-- A call is over when its body has returned. -/
theorem asCall_of_returned {closure : Closure} {paren : Token} {arguments : List Value}
    {callee : Machine}
    (leads : Task.Leads (.invoke (fuel + 1) closure paren arguments) machine
      (.executeAll fuel closure.declaration.body) callee)
    (returned : executeAll fuel closure.declaration.body callee = .value (.returned value) after) :
    ∃ between, asCall paren (do
      let parameters ← newFrame (parameterBindings closure.declaration.parameters arguments)
      let body ← newFrame ∅
      inEnvironment (body :: parameters :: closure.environment)
        (executeAll fuel closure.declaration.body)) machine = .value (.returned value) between := by
  cases leads with
  | @body _ _ _ _ _ _ _ counted between ready entered outer inner =>
    refine ⟨Machine.leaveCall { after with environment := ready.environment }, ?_⟩
    refine bind_eq_value_iff.mpr ⟨(), counted, entered, ?_⟩
    simp only [bind_apply, outer, inner, inEnvironment, returned]

end Eval

namespace Task

open Eval

/-- The return statements that a task may come to without a call. -/
def returns : Task → List Stmt
  | execute _ statement => statement.returns
  | executeAll _ statements => Stmt.returnsAll statements
  | repeatWhile _ _ body => body.returns
  | topLevel _ statements => Stmt.returnsAll statements
  | _ => []

/-- A task ends by returning a value; top-level statements go on whatever one of them returns. -/
def Returns (machine : Machine) (value : Value) : Task → Prop
  | execute fuel statement =>
    ∃ after, Eval.execute fuel statement machine = .value (.returned value) after
  | executeAll fuel statements =>
    ∃ after, Eval.executeAll fuel statements machine = .value (.returned value) after
  | repeatWhile fuel condition body =>
    ∃ after, Eval.repeatWhile fuel condition body machine = .value (.returned value) after
  | topLevel _ _ => True
  | _ => False

/-- A return passes outwards from one task to another: each task between them ends by returning the
same value, so there is no call between them. -/
inductive Passes (statement : Stmt) (value : Value) : Task → Machine → Task → Machine → Prop where
  | refl {task : Task} {machine : Machine} (held : statement ∈ task.returns)
      (returns : task.Returns machine value) : Passes statement value task machine task machine
  | step {task later last : Task} {machine between final : Machine}
      (held : statement ∈ task.returns) (returns : task.Returns machine value)
      (first : Leads task machine later between)
      (rest : Passes statement value later between last final) :
      Passes statement value task machine last final

/-- During a task, a call catches a return: it passes outwards to the body of the function. -/
structure Catches (task : Task) (machine : Machine) (statement : Stmt) (value : Value)
    (last : Task) (final : Machine) (fuel : Nat) (closure : Closure) (paren : Token)
    (arguments : List Value) (caller : Machine) : Prop where
  reached : Reaches task machine (.invoke (fuel + 1) closure paren arguments) caller
  passes : ∃ callee,
    Leads (.invoke (fuel + 1) closure paren arguments) caller
      (.executeAll fuel closure.declaration.body) callee ∧
    Passes statement value (.executeAll fuel closure.declaration.body) callee last final

variable {task later last : Task} {machine between final : Machine} {statement : Stmt}
  {value : Value}

theorem Passes.returns (passes : Passes statement value task machine last final) :
    statement ∈ task.returns ∧ task.Returns machine value := by
  cases passes with
  | refl held returns => exact ⟨held, returns⟩
  | step held returns _ _ => exact ⟨held, returns⟩

/-- A return that a task starts is a return of that task, unless the task is a call. -/
theorem Leads.returns (leads : Leads task machine later between)
    (held : statement ∈ later.returns) (returns : later.Returns between value) :
    (statement ∈ task.returns ∧ task.Returns machine value) ∨
      ∃ fuel closure paren arguments, task = .invoke (fuel + 1) closure paren arguments ∧
        later = .executeAll fuel closure.declaration.body := by
  cases leads with
  | body entered outer inner => exact .inr ⟨_, _, _, _, rfl, rfl⟩
  | @block fuel frame body _ between opened =>
    obtain ⟨after, ended⟩ := returns
    exact .inl ⟨held, { after with environment := between.environment }, by
      simp [Eval.execute, bind_apply, opened, environment, inEnvironment, ended]⟩
  | @whenTrue fuel condition whenTrue whenFalse _ _ _ first holds =>
    obtain ⟨after, ended⟩ := returns
    refine .inl ⟨?_, after, by simp [Eval.execute, bind_apply, first, holds, ended]⟩
    cases whenFalse with
    | none => exact held
    | some other => exact List.mem_append_left _ held
  | whenFalse first fails =>
    obtain ⟨after, ended⟩ := returns
    exact .inl ⟨List.mem_append_right _ held, after, by
      simp [Eval.execute, bind_apply, first, fails, ended]⟩
  | loop => exact .inl ⟨held, returns⟩
  | firstStatement =>
    obtain ⟨after, ended⟩ := returns
    exact .inl ⟨List.mem_append_left _ held, after, by
      simp [Eval.executeAll, bind_apply, ended]⟩
  | otherStatements head =>
    obtain ⟨after, ended⟩ := returns
    exact .inl ⟨List.mem_append_right _ held, after, by
      simp [Eval.executeAll, bind_apply, head, ended]⟩
  | repeated first holds =>
    obtain ⟨after, ended⟩ := returns
    exact .inl ⟨held, after, by simp [Eval.repeatWhile, bind_apply, first, holds, ended]⟩
  | again first holds second =>
    obtain ⟨after, ended⟩ := returns
    exact .inl ⟨held, after, by
      simp [Eval.repeatWhile, bind_apply, first, holds, second, ended]⟩
  | topStatement => exact .inl ⟨List.mem_append_left _ held, trivial⟩
  | nextStatements head => exact .inl ⟨List.mem_append_right _ held, trivial⟩
  | _ => exact returns.elim

/-- A return that comes about during a task passes outwards to it, unless a call catches it. -/
theorem Reaches.returns (reached : Reaches task machine last final)
    (held : statement ∈ last.returns) (returns : last.Returns final value) :
    Passes statement value task machine last final ∨
      ∃ fuel closure paren arguments caller,
        Catches task machine statement value last final fuel closure paren arguments caller := by
  induction reached with
  | refl => exact .inl (.refl held returns)
  | step first _ inductionHypothesis =>
    rcases inductionHypothesis held returns with passes | caught
    · obtain ⟨heldLater, returnsLater⟩ := passes.returns
      rcases first.returns heldLater returnsLater with own | ⟨_, _, _, _, rfl, rfl⟩
      · exact .inl (.step own.1 own.2 first passes)
      · exact .inr ⟨_, _, _, _, _, .refl, _, first, passes⟩
    · obtain ⟨fuel, closure, paren, arguments, caller, reached, passes⟩ := caught
      exact .inr ⟨fuel, closure, paren, arguments, caller, .step first reached, passes⟩

end Task

end LoxLang
