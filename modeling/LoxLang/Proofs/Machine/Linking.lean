import LoxLang.Proofs.Machine.Leading
import LoxLang.Proofs.Machine.Linked

/-!
# Evaluators keep machines linked

A machine is taken together with links along which its environments lead to the globals. Later links
extend earlier ones: only new frames need a link of their own, and a frame gets it when it is made.
This makes a lawful discipline, `linking`, so whatever a task does, the machine stays linked.
-/

namespace LoxLang

/-- A machine with links along which its environments lead to the globals. -/
structure LinkedMachine where
  links : Links
  machine : Machine
  linked : machine.Linked links

/-- Values keep chains; links are only added. -/
def linking : Discipline where
  World := LinkedMachine
  machine := LinkedMachine.machine
  Later := fun before after => before.links.Extends after.links
  value := fun world value => value.Linked world.links
  closure := fun world closure => world.links.Chain closure.environment
  method := fun world method => world.links.Chain method.environment
  Context := Unit
  topLevel := ()

namespace linking

variable {world : LinkedMachine} {later : Links} {machine : Machine}

/-- A linked machine is that of a later world if its links extend those of the world. -/
theorem moves {kind : LinkedMachine → Prop} (grows : world.links.Extends later)
    (linked : machine.Linked later) (known : kind ⟨later, machine, linked⟩) :
    linking.Moves world machine kind :=
  ⟨⟨later, machine, linked⟩, rfl, grows, known⟩

/-- A machine that is linked as before. -/
theorem stays {kind : LinkedMachine → Prop} (linked : machine.Linked world.links)
    (known : kind ⟨world.links, machine, linked⟩) : linking.Moves world machine kind :=
  moves (.refl _) linked known

/-- The methods of a derived class see `super` in a frame that extends the environment. -/
theorem derived {name : String} {methods : List FunctionDecl} {ancestor : ClassObject}
    {identity : Nat} (inherited : Value.Linked world.links (.classObject ancestor)) :
    ∃ later, world.links.Extends later ∧
      (Machine.define
        { world.machine with
          store := world.machine.store.addFrame
            (Std.TreeMap.empty.insert "super" (.classObject ancestor)) }
        name (.classObject
          ⟨identity, name, ⟨methods, world.machine.store.frames.size ::
            world.machine.environment⟩ :: ancestor.lineage⟩)).Linked later := by
  obtain ⟨later, grows, chain, linked⟩ :=
    world.linked.addSingle world.linked.environment "super" inherited
  refine ⟨later, grows, linked.define name (List.forall_mem_cons.mpr ⟨chain, ?_⟩)⟩
  exact Value.Linked.extend inherited grows

end linking

open linking in
instance : linking.Lawful where
  refl := fun world => .refl world.links
  trans := fun first second => first.trans second
  back := fun {outer inner} grows =>
    stays (inner.linked.sameStore (outer.linked.environment.extend grows) rfl) grows
  value := fun linked grows => linked.extend grows
  closure := fun chain grows => chain.extend grows
  plain := fun plain => plain.linked
  callable := List.forall_mem_singleton
  method := fun linked given found =>
    linked _ (Value.environments_of_origin? given ▸ ClassObject.mem_environments found)
  bound := fun {world _ _ _} present => world.linked.kept.bound present
  field := fun {world _ _ _} present => world.linked.kept.field present
  exprParts := fun _ => Discipline.exprParts_of_free (fun _ => trivial) (fun _ => trivial)
    (fun _ => trivial) (fun _ => trivial) _
  stmtParts := fun _ => Discipline.stmtParts_of_free (fun _ => trivial) (fun _ => trivial)
    (fun _ _ => trivial) trivial _
  loopParts := fun _ => ⟨trivial, trivial, trivial⟩
  aside := fun {world _} aside =>
    stays (world.linked.sameStore (aside.environment ▸ world.linked.environment) aside.store)
      trivial
  assign := fun {_ world _ _ _ _ _ _} _ _ given => stays (world.linked.bind _ _ given) trivial
  newObject := fun {world _} linked => stays world.linked.addObject linked
  setField := fun {world _ _ _} given => stays (world.linked.setField _ _ given) trivial
  bindMethod := fun {world _ _ _} chain given =>
    let ⟨_, grows, extended, linked⟩ := world.linked.addSingle chain "this" given
    moves grows linked extended
  enter := fun {world _ _ _} chain listed _ _ _ =>
    let ⟨_, grows, linked⟩ := world.linked.enter chain listed
    moves grows linked ⟨(), trivial, trivial⟩
  block := fun {_ world _ _} _ _ =>
    let ⟨_, grows, chain, linked⟩ := world.linked.addEmpty world.linked.environment
    moves grows (linked.sameStore chain rfl) ⟨(), trivial, trivial, id⟩
  declare := fun {_ world _ _ _ _} _ _ given => stays (world.linked.define _ given) trivial
  function := fun {_ world _ _} _ _ _ =>
    stays (world.linked.define _ (List.forall_mem_singleton.mpr world.linked.environment)) trivial
  base := fun {_ world _ _ _} _ _ _ =>
    stays (world.linked.define _ (List.forall_mem_singleton.mpr world.linked.environment)) trivial
  derived := fun _ _ _ inherited =>
    let ⟨_, grows, linked⟩ := derived inherited
    moves grows linked trivial

end LoxLang
