import LoxLang.Proofs.Machine.Obeying

/-!
# Where faults come from

A fault that a name is undefined was found by an access that came about: `Task.Faults.blames` says
so of every task. All other operations come to ordinary faults only, so this is what obeying the
discipline `blaming` means, in which no code is refused and each task is known to be reached.
-/

namespace LoxLang

namespace Task

/-- A fault says that a name is undefined only if an access that came about has found it so. -/
def Blames (task : Task) (machine : Machine) (error : RuntimeError) : Prop :=
  (∀ name, error.fault ≠ .undefinedVariable name) ∨
    ∃ access there, Reaches task machine access there ∧ access.IsAccess ∧ access.Faults there error

/-- Every task is reached from a first one, and faults are blamed on what is reached. -/
def blaming (root : Task) (start : Machine) : Discipline where
  World := Machine
  machine := id
  Later := fun _ _ => True
  known := root.Reaches start
  fault := root.Blames start
  Context := Unit
  topLevel := ()

variable {root : Task} {start : Machine} {error : RuntimeError}

/-- Only an undefined variable has to be accounted for. -/
theorem Blames.other (other : ∀ name, error.fault ≠ .undefinedVariable name) :
    root.Blames start error :=
  .inl other

instance : (blaming root start).Lawful where
  refl := fun _ => trivial
  trans := fun _ _ => trivial
  back := fun _ => ⟨_, rfl, trivial, trivial⟩
  lead := fun reached leads => reached.lead leads
  ordinary := fun ordinary => .inl fun _ same => by
    rw [same] at ordinary
    exact ordinary
  access := fun reached isAccess _ faults => .inr ⟨_, _, reached, isAccess, faults⟩
  exprParts := by
    intro _ _ expression _
    refine Discipline.exprParts_of_free (fun _ => trivial) (fun _ => trivial) ?_ ?_ expression
    · exact fun _ => Blames.other nofun
    · exact fun _ => Blames.other nofun
  stmtParts := fun _ => Discipline.stmtParts_of_free (fun _ => trivial) (fun _ => trivial)
    (fun _ _ => trivial) trivial _
  loopParts := fun _ => ⟨trivial, trivial, trivial⟩
  aside := fun _ => ⟨_, rfl, trivial, trivial⟩
  assign := fun _ _ _ => ⟨_, rfl, trivial, trivial⟩
  newObject := fun _ => ⟨_, rfl, trivial, trivial⟩
  setField := fun _ => ⟨_, rfl, trivial, trivial⟩
  bindMethod := fun _ _ => ⟨_, rfl, trivial, trivial⟩
  enter := fun _ _ _ _ _ => ⟨_, rfl, trivial, (), trivial, trivial⟩
  block := fun _ _ => ⟨_, rfl, trivial, (), trivial, trivial, id⟩
  declare := fun _ _ _ => ⟨_, rfl, trivial, trivial⟩
  function := fun _ _ _ => ⟨_, rfl, trivial, trivial⟩
  base := fun _ _ _ => ⟨_, rfl, trivial, trivial⟩
  derived := fun _ _ _ _ => ⟨_, rfl, trivial, trivial⟩

/-- Every fault is accounted for. -/
theorem Faults.blames {task : Task} {machine : Machine} (faults : task.Faults machine error) :
    task.Blames machine error := by
  have reached : (blaming task machine).known task machine := Reaches.refl
  by_cases isAccess : task.IsAccess
  · exact .inr ⟨task, machine, reached, isAccess, faults⟩
  · have admits : (blaming task machine).Admits () machine task := by
      cases task with
      | evaluate | evaluateAll | execute | executeAll | repeatWhile => exact ⟨trivial, trivial⟩
      | call | invoke => exact ⟨trivial, fun _ _ => trivial, trivial, trivial⟩
      | topLevel => exact ⟨trivial, fun _ _ => trivial⟩
      | lookup | assign | superMethod | receiver => exact (isAccess trivial).elim
    exact Discipline.Lawful.allows reached admits faults

end Task

end LoxLang
