import LoxLang.Proofs.Machine.Agreement
import LoxLang.Proofs.Machine.Blame
import LoxLang.Proofs.Parsing.Sound
import LoxLang.Proofs.Session.Reachable

/-!
# Scopes and frames agree in every session

A session hands out each identity once, so the entries of a new text leave those of earlier ones as
they are, and closures from earlier runs remain valid. `scopes_agree` puts the parts together: in
every run of a reachable session, whatever access it comes to finds its name in the frame at the
distance that was resolved for it.
-/

namespace LoxLang

/-- Identities are only handed out, never taken back. -/
theorem parse_nextId_le (tokens : List Token) (firstId : Nat) :
    firstId ≤ (parse tokens firstId).nextId := by
  have moves := (Parse.program_yields (parseDepth tokens.length)).advancing
  rw [← Parse.always_program] at moves
  exact (moves (Cursor.start tokens firstId)).nextId

/-- The trees of an accepted text are proper, and their identities are new. -/
theorem Program.Accepted.issued {source : String} {firstId : Nat}
    (accepted : (Program.ofSource source firstId).Accepted) :
    Stmt.IssuedAll firstId (Program.ofSource source firstId).nextId
      (Program.ofSource source firstId).statements := by
  have clean : (parse (scannedTokens (scan source)) firstId).errors = [] := by
    have read := accepted.read
    simp only [Program.ofSource, List.append_eq_nil_iff, List.map_eq_nil_iff] at read
    exact read.2
  have genuine : (Place.ofTokens (scannedTokens (scan source)) firstId).Genuine := by
    intro token member
    exact scannedTokens_genuine source token (List.takeWhile_subset _ member)
  exact ((parse_reads clean).issues genuine).2

theorem Machine.getElem?_addDistances (machine : Machine) (table : Distances) (id : Nat) :
    (machine.addDistances table).distances[id]? = table[id]?.or machine.distances[id]? := by
  rw [← Occurrence.getElem?_recordAll_ofTable, Machine.addDistances, Occurrence.recordAll,
    Occurrence.ofTable, List.foldl_map, Std.TreeMap.foldl_eq_foldl_toList]
  rfl

namespace Session

variable {session : Session} {source : String}

/-- Where the occurrences of all texts so far refer to. -/
def addressing (session : Session) : Addressing :=
  { issued := session.nextId
    address? := fun id => session.machine.distances[id]? }

/-- A session whose globals hold valid values only and which has entries for identities that it has
handed out only. -/
structure Sound (session : Session) : Prop where
  sited : session.machine.Sited session.addressing []
  unissued : ∀ id, session.nextId ≤ id → session.machine.distances[id]? = none

/-- Where the occurrences refer to once a text has been resolved. -/
def nextAddressing (session : Session) (source : String) : Addressing :=
  { issued := (session.program source).nextId
    address? := fun id => (session.loaded source).distances[id]? }

theorem nextId_le (session : Session) (source : String) :
    session.nextId ≤ (session.program source).nextId :=
  parse_nextId_le _ _

/-- The occurrences of an accepted text have new identities. -/
theorem within_of_accepted (accepted : (session.program source).Accepted) :
    Occurrence.Within session.nextId (session.program source).nextId
      (Stmt.occurrencesAll .outside [] (session.program source).statements) :=
  accepted.issued.identities .outside []

/-- Only new identities gain an entry. -/
theorem loaded_distances_of_other (accepted : (session.program source).Accepted) {id : Nat}
    (other : id < session.nextId ∨ (session.program source).nextId ≤ id) :
    (session.loaded source).distances[id]? = session.machine.distances[id]? := by
  rw [loaded, Machine.getElem?_addDistances, resolve_distances,
    Occurrence.getElem?_recordAll_of_not_mem]
  · simp
  · intro member
    obtain ⟨occurrence, listed, rfl⟩ := List.mem_map.mp member
    have bounds := (within_of_accepted accepted).bounds occurrence listed
    omega

/-- The occurrences of an accepted text refer to where they were resolved. -/
theorem Sound.holds (sound : session.Sound) (accepted : (session.program source).Accepted) :
    (session.nextAddressing source).Holds
      (Stmt.occurrencesAll .outside [] (session.program source).statements) := by
  intro occurrence member
  have within := within_of_accepted accepted
  obtain ⟨above, below⟩ := within.bounds occurrence member
  refine ⟨below, ?_⟩
  change (session.loaded source).distances[occurrence.id]? = _
  rw [loaded, Machine.getElem?_addDistances, resolve_distances,
    Occurrence.getElem?_recordAll_of_mem within.distinct member, sound.unissued _ above]
  simp

/-- Earlier occurrences keep their entries. -/
theorem extends_of_accepted (accepted : (session.program source).Accepted) :
    session.addressing.Extends (session.nextAddressing source) where
  issued := session.nextId_le source
  address? := fun _ known => loaded_distances_of_other accepted (.inl known)

/-- A sound session has valid globals when an accepted text starts. -/
theorem Sound.loaded (sound : session.Sound) (accepted : (session.program source).Accepted) :
    (session.loaded source).Sited (session.nextAddressing source) [] where
  valid := ⟨fun _ => rfl, sound.sited.valid.store.extend (extends_of_accepted accepted)⟩
  beside := .nil
  covers := sound.sited.covers

/-- A sound session is about to run what its globals cover. -/
theorem Sound.topLevel (sound : session.Sound) (accepted : (session.program source).Accepted)
    (fuel : Nat) :
    (Task.topLevel fuel (session.program source).statements).Sound (session.nextAddressing source)
      (session.loaded source) := by
  have sited := sound.loaded accepted
  have placed : Stmt.PlacedAll (session.nextAddressing source) .outside []
      (session.program source).statements :=
    ⟨accepted.issued.proper, resolve_properParents accepted.resolved, sound.holds accepted⟩
  exact ⟨sited.valid, (.outside, []), sited, placed.forall_of_global⟩

end Session

/-- A program leaves a valid machine at its top level. -/
theorem Machine.Sited.interpret {addressing : Addressing} {machine : Machine}
    {statements : List Stmt} {fuel : Nat} (sited : machine.Sited addressing [])
    (sound : (Task.topLevel fuel statements).Sound addressing machine) :
    (Eval.interpret fuel statements machine).Holds
      (fun _ after => after.Sited addressing [] ∧ after.distances = machine.distances)
      (fun _ after => after.Sited addressing [] ∧ after.distances = machine.distances) := by
  have evolves := Eval.executeTopLevel_evolving fuel statements machine
  have valid (after : Machine)
      (left : (Eval.executeTopLevel fuel statements machine).Leaves after) :
      after.Valid addressing := sound.leaves left
  unfold Eval.interpret Eval.atTopLevel
  cases ending : Eval.executeTopLevel fuel statements machine with
  | value result after =>
    rw [ending] at evolves
    have valid := valid after (ending ▸ rfl)
    exact ⟨sited.mono evolves.environment evolves.store valid, evolves.distances⟩
  | fault error after =>
    rw [ending] at evolves
    have valid : Machine.Valid addressing
        { after with environment := globalEnvironment, callDepth := 0 } :=
      (valid after (ending ▸ rfl)).sameStore rfl rfl
    exact ⟨sited.mono sited.covers.1.symm evolves.store valid, evolves.distances⟩
  | outOfFuel => trivial

theorem Session.start_sound (clock : Nat → Nat) (callLimit : Nat) :
    (Session.start clock callLimit).Sound where
  sited := by
    refine ⟨⟨fun _ => rfl, ?_, ?_⟩, .nil, rfl, by simp [start, Machine.start, Store.addFrame]⟩
    · intro frame name value present
      obtain ⟨native, _, rfl⟩ := Machine.start_binding? present
      trivial
    · intro object name value present
      cases (Machine.start_field? clock callLimit object name).symm.trans present
  unissued := fun _ _ => by simp [start, Machine.start]

/-- A run leaves a sound session. -/
theorem Session.Sound.run {session after : Session} (sound : session.Sound) {fuel : Nat}
    {source : String} {outcome : Outcome}
    (ended : session.run fuel source = some (outcome, after)) : after.Sound := by
  have issued := session.nextId_le source
  rcases run_cases ended with ⟨_, _, rfl⟩ | ⟨accepted, _, advanced, ending⟩
  · refine ⟨⟨⟨fun _ => rfl, ?_⟩, .nil, sound.sited.covers⟩, fun id above => ?_⟩
    · exact sound.sited.valid.store.extend ⟨issued, fun _ _ => rfl⟩
    · exact sound.unissued id (Nat.le_trans issued above)
  · have kept := (sound.loaded accepted).interpret (sound.topLevel accepted fuel)
    have known : after.machine.Sited (session.nextAddressing source) [] ∧
        after.machine.distances = (session.loaded source).distances := by
      rcases ending with ⟨ending, _⟩ | ⟨error, ending, _⟩
      · rw [ending] at kept
        exact kept
      · rw [ending] at kept
        exact kept
    have same : after.addressing = session.nextAddressing source := by
      unfold addressing nextAddressing
      rw [advanced, known.2]
    refine ⟨same ▸ known.1, fun id above => ?_⟩
    rw [advanced] at above
    rw [known.2, loaded_distances_of_other accepted (.inr above)]
    exact sound.unissued id (Nat.le_trans issued above)

/-- Every session that a host can bring about is sound. -/
theorem Session.Reachable.sound {session : Session} (reachable : session.Reachable) :
    session.Sound := by
  induction reachable with
  | start clock callLimit => exact start_sound clock callLimit
  | run _ ended inductionHypothesis => exact inductionHypothesis.run ended
  | redirect _ _ inductionHypothesis | limitCalls _ _ inductionHypothesis =>
    obtain ⟨⟨valid, beside, covers⟩, unissued⟩ := inductionHypothesis
    exact ⟨⟨⟨valid.distances, valid.store⟩, beside, covers⟩, unissued⟩

/-- A program stops at the fault of its statements. -/
theorem Eval.interpret_eq_fault {fuel : Nat} {statements : List Stmt} {machine after : Machine}
    {error : RuntimeError} (ended : interpret fuel statements machine = .fault error after) :
    ∃ between, executeTopLevel fuel statements machine = .fault error between := by
  unfold interpret atTopLevel at ended
  cases ending : executeTopLevel fuel statements machine with
  | value result between => simp [ending] at ended
  | fault found between =>
    simp only [ending, Ending.fault.injEq] at ended
    exact ⟨between, ended.1 ▸ rfl⟩
  | outOfFuel => simp [ending] at ended

/-- A task comes about while a session runs an accepted text. -/
def Session.Performs (session : Session) (source : String) (fuel : Nat) (task : Task)
    (machine : Machine) : Prop :=
  Task.Reaches (.topLevel fuel (session.program source).statements) (session.loaded source) task
    machine

/-- In every run of every session, an occurrence of a name, of `this` or of `super` that has an
entry finds the frame at its distance, which already binds it: reading succeeds, storing changes a
binding that is there, `this` lies one frame inside `super`, and an initializer finds its instance.
So only an occurrence without an entry is ever found undefined. -/
theorem scopes_agree {session : Session} (reachable : session.Reachable) {source : String}
    (accepted : (session.program source).Accepted) (fuel : Nat) :
    (∀ id name machine distance, session.Performs source fuel (.lookup id name) machine →
      machine.distances[id]? = some distance →
      machine.Binds distance name.lexeme ∧
        ∃ value, Eval.lookup id name machine = .value value machine) ∧
    (∀ id name value machine distance,
      session.Performs source fuel (.assign id name value) machine →
      machine.distances[id]? = some distance →
      ∃ frame, machine.environment[distance]? = some frame ∧
        (machine.store.binding? frame name.lexeme).isSome ∧
        Eval.assign id name value machine =
          .value () { machine with store := machine.store.define frame name.lexeme value }) ∧
    (∀ id keyword method machine distance,
      session.Performs source fuel (.superMethod id keyword method) machine →
      machine.distances[id]? = some distance →
      machine.Binds distance keyword.lexeme ∧
        ∃ inner, distance = inner + 1 ∧ machine.Binds inner "this") ∧
    (∀ closure machine, session.Performs source fuel (.receiver closure) machine →
      ∃ frame outer, closure.environment = frame :: outer ∧
        (machine.store.binding? frame "this").isSome) ∧
    (∀ error after text,
      Eval.interpret fuel (session.program source).statements (session.loaded source) =
        .fault error after →
      error.fault = .undefinedVariable text →
      ∃ id name machine, machine.distances[id]? = none ∧ error = .undefined name ∧
        (session.Performs source fuel (.lookup id name) machine ∨
          ∃ value, session.Performs source fuel (.assign id name value) machine)) := by
  have start := reachable.sound.topLevel accepted fuel
  refine ⟨?_, ?_, ?_, ?_, ?_⟩
  · intro id name machine distance reached entry
    have binds := (start.reaches reached).binds_lookup entry
    exact ⟨binds, Eval.lookup_of_binds entry binds⟩
  · intro id name value machine distance reached entry
    exact Eval.assign_of_binds entry ((start.reaches reached).binds_assign entry) value
  · intro id keyword method machine distance reached entry
    exact (start.reaches reached).binds_superMethod entry
  · intro closure machine reached
    exact (start.reaches reached).bound_receiver
  · intro error after text ended missing
    obtain ⟨between, ended⟩ := Eval.interpret_eq_fault ended
    have faults : Task.Faults _ error (.topLevel fuel _) := ⟨between, ended⟩
    rcases faults.blames with other | blamed
    · exact (other text missing).elim
    · obtain ⟨access, machine, reached, isAccess, faults⟩ := blamed
      obtain ⟨id, name, entry, same, kinds⟩ :=
        (start.reaches reached).undefined isAccess faults missing
      refine ⟨id, name, machine, entry, same, ?_⟩
      rcases kinds with rfl | ⟨value, rfl⟩
      · exact .inl reached
      · exact .inr ⟨value, reached⟩

/-- A run in which an inner block reads a name that the outer one declares. -/
theorem scopes_agree_nested :
    ∃ name machine value,
      (Session.start (fun _ => 0) 2).Performs "\x7b var a; \x7b a; \x7d \x7d" 9 (.lookup 0 name)
        machine ∧
      machine.distances[0]? = some 1 ∧ machine.Binds 1 name.lexeme ∧
      Eval.lookup 0 name machine = .value value machine := by
  have accepted : ((Session.start (fun _ => 0) 2).program
      "\x7b var a; \x7b a; \x7d \x7d").Accepted :=
    ⟨by decide +kernel, by decide +kernel⟩
  have entry : ((Session.start (fun _ => 0) 2).loaded
      "\x7b var a; \x7b a; \x7d \x7d").distances[0]? = some 1 := by decide +kernel
  have statements : ((Session.start (fun _ => 0) 2).program
      "\x7b var a; \x7b a; \x7d \x7d").statements =
      [.block [.declare ⟨.identifier, "a", 1⟩ none,
        .block [.expression (.reference 0 ⟨.identifier, "a", 1⟩)]]] := by decide +kernel
  obtain ⟨machine, reached, same⟩ : ∃ machine, (Session.start (fun _ => 0) 2).Performs
      "\x7b var a; \x7b a; \x7d \x7d" 9 (.lookup 0 ⟨.identifier, "a", 1⟩) machine ∧
      machine.distances = ((Session.start (fun _ => 0) 2).loaded
      "\x7b var a; \x7b a; \x7d \x7d").distances := by
    unfold Session.Performs
    rw [statements]
    exact ⟨_, .step .topStatement (.step (.block rfl) (.step (.otherStatements rfl)
      (.step .firstStatement (.step (.block rfl) (.step .firstStatement (.step .expression
        (.step .reference .refl))))))), rfl⟩
  obtain ⟨binds, value, found⟩ :=
    (scopes_agree (.start _ _) accepted 9).1 0 _ machine 1 reached (same ▸ entry)
  exact ⟨_, machine, value, reached, same ▸ entry, binds, found⟩

end LoxLang
