import LoxLang.Proofs.Machine.Linking
import LoxLang.Proofs.Session.Receivers
import LoxLang.Proofs.Store.Listing

/-!
# Scope chains of sessions

A session keeps its machine linked, within its runs and from one run to the next, and never changes
a link. So every environment that is found in a session leads to the globals, and `dump` comes to
an end there; what it writes says which names the frames on the way bind, and no more
(`scope_chains`).
-/

namespace LoxLang

namespace Task

/-- The values that a task has got hold of. -/
def values : Task → List Value
  | call _ callee _ arguments => callee :: arguments
  | invoke _ _ _ arguments => arguments
  | assign _ _ value => [value]
  | _ => []

/-- The environments that a task has got hold of. -/
def environments : Task → List Environment
  | invoke _ closure _ _ => [closure.environment]
  | receiver closure => [closure.environment]
  | _ => []

end Task

/-- Whoever follows the links from the innermost frame of an environment passes the frames of the
environment. They exist, none of them is passed twice, and the last one is that of the globals,
which nothing encloses. -/
structure Links.ScopeChain (links : Links) (store : Store) (environment : Environment) :
    Prop where
  followed : ∃ frame, environment = links.trail frame
  exist : ∀ frame ∈ environment, frame < store.frames.size
  distinct : environment.Nodup
  ends : environment.getLast? = some globalFrame
  outermost : links.enclosing? globalFrame = .none

/-- An environment that is found at a machine: the current one, or one that a value keeps which is
stored in a frame or in an instance. -/
inductive Machine.HasScope (machine : Machine) : Environment → Prop
  | current : HasScope machine machine.environment
  | bound {frame : Nat} {name : String} {value : Value} {environment : Environment}
      (present : machine.store.binding? frame name = some value)
      (kept : environment ∈ value.environments) : HasScope machine environment
  | field {object : Nat} {name : String} {value : Value} {environment : Environment}
      (present : machine.store.field? object name = some value)
      (kept : environment ∈ value.environments) : HasScope machine environment

/-- Every environment that is found at a machine is a scope chain. -/
def Machine.Chained (machine : Machine) (links : Links) : Prop :=
  ∀ environment, machine.HasScope environment → links.ScopeChain machine.store environment

/-- The environments that a task has got hold of, by itself or through a value. -/
def Task.scopes (task : Task) : List Environment :=
  task.environments ++ task.values.flatMap Value.environments

section Chained

variable {links : Links} {machine : Machine}

theorem Machine.Linked.scopeChain {environment : Environment} (linked : machine.Linked links)
    (chain : links.Chain environment) : links.ScopeChain machine.store environment where
  followed := chain.eq_trail
  exist _ := linked.lt_of_mem chain
  distinct := chain.nodup
  ends := chain.getLast?
  outermost := links.enclosing?_globalFrame

theorem Machine.Linked.chained (linked : machine.Linked links) : machine.Chained links := by
  intro environment found
  refine linked.scopeChain ?_
  cases found with
  | current => exact linked.environment
  | bound present kept => exact linked.kept.bound present _ kept
  | field present kept => exact linked.kept.field present _ kept

/-- What a task has got hold of are scope chains, if it is admitted at a linked machine. -/
theorem linking.scopeChain {world : LinkedMachine} {task : Task} {environment : Environment}
    (admits : linking.Admits () world task) (held : environment ∈ task.scopes) :
    world.links.ScopeChain world.machine.store environment := by
  have linked : (∀ value ∈ task.values, value.Linked world.links) ∧
      ∀ environment ∈ task.environments, world.links.Chain environment := by
    cases task with
    | call => exact ⟨List.forall_mem_cons.mpr ⟨admits.1, admits.2.1⟩, nofun⟩
    | invoke => exact ⟨admits.2.1, List.forall_mem_singleton.mpr admits.1⟩
    | assign => exact ⟨List.forall_mem_singleton.mpr admits.2.1, nofun⟩
    | receiver => exact ⟨nofun, List.forall_mem_singleton.mpr admits.1⟩
    | _ => exact ⟨nofun, nofun⟩
  refine world.linked.scopeChain ?_
  rcases List.mem_append.mp held with own | kept
  · exact linked.2 environment own
  · obtain ⟨value, given, kept⟩ := List.mem_flatMap.mp kept
    exact linked.1 value given environment kept

end Chained

/-- A call of `dump` at a place in a scope chain writes the listing, if writing succeeds. -/
theorem Eval.call_dump {links : Links} {machine : Machine} {paren : Token}
    {arguments : List Value} (depth : Nat)
    (chain : links.ScopeChain machine.store machine.environment)
    (succeeds : machine.sink.obstacle = none) :
    Eval.call (depth + 1) (.native .dump) paren arguments machine =
      .value .nil { machine with
        sink := machine.sink.append (unlines (machine.store.lines 0 machine.environment)) } := by
  rw [← Store.listing_eq_lines _ chain.distinct chain.ends]
  simp [Eval.call, callNative, bind_apply, frameListing, write, succeeds]

namespace Session

variable {session after : Session} {source : String} {fuel : Nat} {outcome : Outcome}
  {links : Links}

theorem start_linked (clock : Nat → Nat) (callLimit : Nat) :
    (Session.start clock callLimit).machine.Linked .none where
  inside linked := by cases linked
  globals := by simp [start, Machine.start, Store.addFrame, globalFrame]
  environment := .globals
  kept := {
    bound := by
      intro frame name value present
      obtain ⟨native, _, rfl⟩ := Machine.start_binding? present
      rintro environment ⟨⟩
    field := by
      intro object name value present
      cases (Machine.start_field? clock callLimit object name).symm.trans present }

/-- A linked session is about to run what is admitted. -/
theorem topLevel_linked (linked : session.machine.Linked links) (source : String) (fuel : Nat) :
    ∃ world : LinkedMachine, world.machine = session.loaded source ∧ world.links = links ∧
      linking.Admits () world (.topLevel fuel (session.program source).statements) :=
  ⟨⟨links, session.loaded source, linked.sameStore linked.environment rfl⟩, rfl, rfl, trivial,
    fun _ _ => trivial⟩

/-- A finished run leaves the session linked. -/
theorem Reachable.run_linked (reachable : session.Reachable)
    (linked : session.machine.Linked links)
    (ended : session.run fuel source = some (outcome, after)) :
    ∃ later, links.Extends later ∧ after.machine.Linked later := by
  by_cases accepted : (session.program source).Accepted
  · obtain ⟨left, leaves, store, _⟩ := run_leaves accepted ended
    obtain ⟨world, same, rfl, admits⟩ := topLevel_linked linked source fuel
    rw [← same] at leaves
    obtain ⟨final, rfl, next⟩ := Discipline.Lawful.leaves trivial admits leaves
    have top : after.machine.environment = globalEnvironment :=
      (reachable.run ended).atTopLevel.environment
    exact ⟨final.links, next.later, final.linked.sameStore (top ▸ .globals) store⟩
  · rcases run_cases ended with ⟨_, _, rfl⟩ | ⟨other, _⟩
    · exact ⟨links, .refl links, linked⟩
    · exact (accepted other).elim

/-- Every session that a host can bring about is linked. -/
theorem Reachable.linked (reachable : session.Reachable) :
    ∃ links, session.machine.Linked links := by
  induction reachable with
  | start clock callLimit => exact ⟨_, start_linked clock callLimit⟩
  | run prior ended inductionHypothesis =>
    obtain ⟨links, linked⟩ := inductionHypothesis
    obtain ⟨later, _, kept⟩ := prior.run_linked linked ended
    exact ⟨later, kept⟩
  | redirect _ _ inductionHypothesis | limitCalls _ _ inductionHypothesis =>
    obtain ⟨links, linked⟩ := inductionHypothesis
    exact ⟨links, linked.sameStore linked.environment rfl⟩

end Session

/-- In every session, at every moment of every run and between the runs, some links between the
frames make scope chains of the current environment and of all environments that stored values
keep. Later moments only add links. A call of `dump` writes the listing of the frames of the current
chain, each with exactly the names that it binds, if writing succeeds. -/
theorem scope_chains {session : Session} (reachable : session.Reachable) (source : String)
    (fuel : Nat) :
    ∃ links, session.machine.Chained links ∧
      (∀ outcome after, session.run fuel source = some (outcome, after) →
        ∃ later, links.Extends later ∧ after.machine.Chained later) ∧
      (∀ task machine, session.Performs source fuel task machine →
        ∃ more, links.Extends more ∧ machine.Chained more ∧
          (∀ environment ∈ task.scopes, more.ScopeChain machine.store environment) ∧
          ∀ after, task.Leaves machine after →
            ∃ later, more.Extends later ∧ after.Chained later) ∧
      ∀ depth paren arguments machine,
        session.Performs source fuel (.call (depth + 1) (.native .dump) paren arguments) machine →
        machine.sink.obstacle = none →
        ∃ text, Eval.call (depth + 1) (.native .dump) paren arguments machine =
            .value .nil { machine with sink := machine.sink.append text } ∧
          machine.store.ListsExactly machine.environment text := by
  obtain ⟨links, linked⟩ := reachable.linked
  obtain ⟨world, loaded, rfl, admits⟩ := Session.topLevel_linked linked source fuel
  have reaches {task : Task} {machine : Machine}
      (performs : session.Performs source fuel task machine) :
      ∃ after : LinkedMachine, after.machine = machine ∧ world.links.Extends after.links ∧
        linking.Admits () after task := by
    unfold Session.Performs at performs
    rw [← loaded] at performs
    obtain ⟨_, _, after, same, grows, known⟩ :=
      Discipline.Lawful.reaches trivial admits performs
    exact ⟨after, same, grows, known⟩
  refine ⟨world.links, linked.chained, ?_, ?_, ?_⟩
  · intro outcome after ended
    obtain ⟨later, grows, kept⟩ := reachable.run_linked linked ended
    exact ⟨later, grows, kept.chained⟩
  · intro task machine performs
    obtain ⟨between, rfl, grows, known⟩ := reaches performs
    refine ⟨between.links, grows, between.linked.chained, fun _ => linking.scopeChain known, ?_⟩
    intro after leaves
    obtain ⟨final, rfl, next⟩ := Discipline.Lawful.leaves trivial known leaves
    exact ⟨final.links, next.later, final.linked.chained⟩
  · intro depth paren arguments machine performs succeeds
    obtain ⟨between, rfl, _, known⟩ := reaches performs
    have chain := between.linked.chained _ .current
    exact ⟨_, Eval.call_dump depth chain succeeds, Store.listsExactly _ _⟩

/-- A call of `dump` in a block whose names are declared in the order opposite to the listing. -/
theorem scope_chains_block :
    ∃ depth paren arguments machine,
      (Session.start (fun _ => 0) 1).Performs "\x7b var b; var a; dump(); \x7d" 20
        (.call (depth + 1) (.native .dump) paren arguments) machine ∧
      ∃ text, text = "== scope 0 ==\na = nil\nb = nil\n" ++
          "== globals ==\nclock = <native fn clock>\ndump = <native fn dump>\n" ∧
        Eval.call (depth + 1) (.native .dump) paren arguments machine =
          .value .nil { machine with sink := machine.sink.append text } ∧
        machine.store.ListsExactly machine.environment text := by
  have statements : ((Session.start (fun _ => 0) 1).program
      "\x7b var b; var a; dump(); \x7d").statements =
      [.block [.declare ⟨.identifier, "b", 1⟩ none, .declare ⟨.identifier, "a", 1⟩ none,
        .expression (.call (.reference 0 ⟨.identifier, "dump", 1⟩)
          ⟨.symbol .rightParen, ")", 1⟩ [])]] := by decide +kernel
  obtain ⟨depth, paren, arguments, machine, performs, succeeds, listed⟩ :
      ∃ depth paren arguments machine,
        (Session.start (fun _ => 0) 1).Performs "\x7b var b; var a; dump(); \x7d" 20
          (.call (depth + 1) (.native .dump) paren arguments) machine ∧
        machine.sink.obstacle = none ∧
        machine.store.listing globalFrame 0 machine.environment =
          "== scope 0 ==\na = nil\nb = nil\n" ++
            "== globals ==\nclock = <native fn clock>\ndump = <native fn dump>\n" := by
    have distances : (resolve ((Session.start (fun _ => 0) 1).program
        "\x7b var b; var a; dump(); \x7d").statements).distances = ∅ := by
      rw [statements]
      rfl
    unfold Session.Performs Session.loaded
    rw [distances, statements]
    refine ⟨?depth, ?paren, ?arguments, ?machine, ?performs, ?succeeds, ?listed⟩
    case performs =>
      refine .step .topStatement (.step (.block rfl) ?_)
      refine .step (.otherStatements (by conv => lhs; cbv)) ?_
      refine .step (.otherStatements (by conv => lhs; cbv)) ?_
      refine .step .firstStatement (.step .expression ?_)
      refine .step (.call (by conv => lhs; cbv) rfl rfl) ?_
      exact .refl
    case succeeds => rfl
    case listed => cbv
  obtain ⟨_, _, _, moments, dumps⟩ := scope_chains (.start (fun _ => 0) 1)
    "\x7b var b; var a; dump(); \x7d" 20
  obtain ⟨_, _, chained, _⟩ := moments _ machine performs
  obtain ⟨text, written, exactly⟩ := dumps depth paren arguments machine performs succeeds
  have chain := chained machine.environment .current
  have same := exactly.lines
  rw [← Store.listing_eq_lines _ chain.distinct chain.ends, listed] at same
  exact ⟨depth, paren, arguments, machine, performs, text, same, written, exactly⟩

end LoxLang
