import LoxLang.Machine.Evaluation

/-!
# Endings of computations

`Ending.Holds` says of a computation that ended what its result or its fault is like and in which
machine it leaves off; a computation that runs out of fuel promises nothing. The rules below follow
the operations that put computations together, so a statement about an evaluator is a statement
about the evaluators it starts.
-/

namespace LoxLang

variable {α β : Type}

/-- What a computation that ended has come to: one condition for results, one for faults. -/
def Ending.Holds (onValue : α → Machine → Prop) (onFault : RuntimeError → Machine → Prop) :
    Ending α → Prop
  | .value result after => onValue result after
  | .fault error after => onFault error after
  | .outOfFuel => True

/-- A computation ends, with a result or at a fault, and leaves a machine. -/
def Ending.Leaves (after : Machine) : Ending α → Prop
  | .value _ machine => machine = after
  | .fault _ machine => machine = after
  | .outOfFuel => False

namespace Ending

/-- The same ending, in a machine that is changed. -/
def adjust (change : Machine → Machine) : Ending α → Ending α
  | .value result machine => .value result (change machine)
  | .fault error machine => .fault error (change machine)
  | .outOfFuel => .outOfFuel

variable {onValue wider : α → Machine → Prop} {onFault widerFault : RuntimeError → Machine → Prop}

/-- Conditions on an ending may be weakened. -/
theorem Holds.imp {ending : Ending α} (holds : ending.Holds onValue onFault)
    (value : ∀ result after, onValue result after → wider result after)
    (fault : ∀ error after, onFault error after → widerFault error after) :
    ending.Holds wider widerFault := by
  cases ending with
  | value result after => exact value result after holds
  | fault error after => exact fault error after holds
  | outOfFuel => trivial

end Ending

namespace Eval

variable {onValue : β → Machine → Prop} {onFault : RuntimeError → Machine → Prop}
  {first : Eval α} {next : α → Eval β} {machine after : Machine}

/-- A computation goes on from the result and the machine that its first part leaves. -/
theorem bind_apply (first : Eval α) (next : α → Eval β) (machine : Machine) :
    (first >>= next) machine =
      match first machine with
      | .value result after => next result after
      | .fault error after => .fault error after
      | .outOfFuel => .outOfFuel :=
  rfl

@[simp] theorem pure_apply (result : α) (machine : Machine) :
    (pure result : Eval α) machine = .value result machine :=
  rfl

/-- A result of two computations is a result of the second behind one of the first. -/
theorem bind_eq_value_iff {result : β} :
    (first >>= next) machine = .value result after ↔
      ∃ middle between, first machine = .value middle between ∧
        next middle between = .value result after := by
  rw [bind_apply]
  cases ending : first machine with
  | value middle between => simp [and_assoc]
  | fault error between => simp
  | outOfFuel => simp

/-- A computation in another environment ends as it would there, back in this one. -/
theorem holds_inEnvironment {inner : Environment} {computation : Eval β}
    (holds : (computation { machine with environment := inner }).Holds
      (fun result after => onValue result { after with environment := machine.environment })
      (fun error after => onFault error { after with environment := machine.environment })) :
    (inEnvironment inner computation machine).Holds onValue onFault := by
  unfold inEnvironment
  cases ending : computation { machine with environment := inner } with
  | value result after => simpa [ending, Ending.Holds] using holds
  | fault error after => simpa [ending, Ending.Holds] using holds
  | outOfFuel => trivial

/-- One more call is counted only for as long as its body runs. -/
theorem asCall_apply (paren : Token) (computation : Eval α) (machine : Machine) :
    asCall paren computation machine =
      if machine.callLimit ≤ machine.callDepth then
        .fault { token := paren, fault := .stackOverflow } machine
      else
        (computation { machine with callDepth := machine.callDepth + 1 }).adjust
          Machine.leaveCall := by
  by_cases reached : machine.callLimit ≤ machine.callDepth
  · have entered : enterCall paren machine = fail paren .stackOverflow machine := if_pos reached
    rw [if_pos reached]
    apply (bind_apply (enterCall paren) _ machine).trans
    rw [entered]
    rfl
  · have entered : enterCall paren machine =
        .value () { machine with callDepth := machine.callDepth + 1 } := if_neg reached
    rw [if_neg reached]
    apply (bind_apply (enterCall paren) _ machine).trans
    rw [entered]
    rfl

end Eval

end LoxLang
