import LoxLang.Proofs.Machine.Simulation
import LoxLang.Proofs.Program.Joining
import LoxLang.Proofs.Session.Scopes

/-!
# One run or two

A session that runs two accepted texts joined by a newline comes to what it comes to if it runs one
after the other, except that the second text stands further down. The distances of the second text
are known earlier than they would be, which no function of the first can notice: it has no identity
of the second.
-/

namespace LoxLang

variable {limit lines offset : Nat}

namespace Eval

/-- Statements one behind the other are executed one behind the other. -/
theorem executeTopLevel_append (fuel : Nat) (first second : List Stmt) :
    executeTopLevel fuel (first ++ second) =
      (executeTopLevel fuel first >>= fun _ => executeTopLevel fuel second) := by
  induction first with
  | nil => rfl
  | cons head rest inductionHypothesis =>
    funext machine
    simp only [List.cons_append, executeTopLevel, inductionHypothesis, bind_apply]
    cases execute fuel head machine <;> rfl

/-- Programs one behind the other are run one behind the other. -/
theorem interpret_append (fuel : Nat) (first second : List Stmt) :
    interpret fuel (first ++ second) =
      (interpret fuel first >>= fun _ => interpret fuel second) := by
  funext machine
  unfold interpret
  rw [executeTopLevel_append]
  simp only [Eval.atTopLevel, bind_apply]
  cases executeTopLevel fuel first machine <;> rfl

end Eval

/-- A program lets a machine evolve that is at its top level. -/
theorem Machine.AtTopLevel.evolves {machine : Machine} (top : machine.AtTopLevel) (fuel : Nat)
    (statements : List Stmt) :
    (Eval.interpret fuel statements machine).Holds (fun _ after => machine.Evolves after)
      (fun _ after => machine.Evolves after) := by
  have evolved := Eval.executeTopLevel_evolving fuel statements machine
  unfold Eval.interpret Eval.atTopLevel
  cases ending : Eval.executeTopLevel fuel statements machine with
  | value result after =>
    rw [ending] at evolved
    exact evolved
  | fault error after =>
    rw [ending] at evolved
    exact { evolved with environment := top.environment.symm, callDepth := top.callDepth.symm }
  | outOfFuel => trivial

/-- A machine is like itself if its store is. -/
theorem Machine.Alike.ofStore {machine : Machine}
    (alike : Store.Alike limit lines machine.store machine.store) :
    Machine.Alike limit lines machine machine :=
  ⟨alike, rfl, rfl, fun _ _ => rfl, rfl, rfl, rfl, rfl, rfl⟩

namespace Session

variable {session : Session} {source : String}

/-- A session whose functions hold only identities that it has handed out. -/
def Closed (session : Session) : Prop :=
  Store.Alike session.nextId 0 session.machine.store session.machine.store

/-- Loading a text leaves all functions of the session as they are. -/
theorem Closed.loaded (closed : session.Closed) (accepted : (session.program source).Accepted) :
    Machine.Alike session.nextId 0 session.machine (session.loaded source) :=
  { Machine.Alike.ofStore closed with
    distances := fun _ known => loaded_distances_of_other accepted (.inl known) }

section Following

variable {between : Machine} (alike : Machine.Alike session.nextId 0 session.machine between)
  (accepted : (session.program source).Accepted)
  (known : ∀ id < (session.program source).nextId,
    between.distances[id]? = (session.loaded source).distances[id]?)
  {fuel more : Nat} (enough : fuel ≤ more)
include alike accepted known enough

/-- An accepted text goes on further down, from a machine like that of the session, as it does from
the session itself, if all distances that it needs are known there. -/
theorem interpret_moved (lines : Nat) :
    Ending.Follows (session.program source).nextId lines
      (Eval.interpret fuel (session.program source).statements (session.loaded source))
      (Eval.interpret more (Stmt.movedAll (.down lines) (session.program source).statements)
        between) := by
  have loaded : Machine.Alike (session.program source).nextId lines (session.loaded source)
      between :=
    { alike with
      store := alike.store.widen (session.nextId_le source)
      distances := known }
  obtain ⟨extra, rfl⟩ := Nat.exists_eq_add_of_le' enough
  exact Eval.interpret_follows extra fuel .self accepted.issued.below loaded

/-- A text whose lines do not move is run alike by two machines that are alike. -/
theorem interpret_unmoved :
    Ending.Follows (session.program source).nextId 0
      (Eval.interpret fuel (session.program source).statements (session.loaded source))
      (Eval.interpret more (session.program source).statements between) := by
  have follows := interpret_moved alike accepted known enough 0
  rwa [show Shift.down 0 = Shift.none from rfl, Stmt.movedAll_none] at follows

end Following

/-- A new session is closed: there is nothing yet to refer to ids. -/
theorem closed_start (clock : Nat → Nat) (callLimit : Nat) :
    (Session.start clock callLimit).Closed := by
  have natives : Bindings.Alike 0 0
      ([Native.clock, Native.dump].foldl
        (fun bindings native => bindings.insert native.name (.native native)) ∅)
      ([Native.clock, Native.dump].foldl
        (fun bindings native => bindings.insert native.name (.native native)) ∅) :=
    (Bindings.Alike.empty.insert _ (.native _)).insert _ (.native _)
  have empty : Tables.Alike 0 0 #[] #[] := ⟨rfl, fun _ _ => .none⟩
  exact ⟨empty.push natives, empty⟩

/-- A run leaves a closed session. -/
theorem Closed.run {after : Session} (closed : session.Closed) {fuel : Nat} {outcome : Outcome}
    (ended : session.run fuel source = some (outcome, after)) : after.Closed := by
  rcases run_cases ended with ⟨_, _, rfl⟩ | ⟨accepted, _, advanced, ending⟩
  · exact closed.widen (session.nextId_le source)
  · have follows := interpret_unmoved (closed.loaded accepted) accepted (fun _ _ => rfl)
      (Nat.le_refl fuel)
    unfold Closed
    rw [advanced]
    rcases ending with ⟨ending, _⟩ | ⟨error, ending, _⟩
    · rw [ending] at follows
      cases follows with
      | value alike => exact alike.store
    · rw [ending] at follows
      cases follows with
      | fault _ alike => exact alike.store

/-- Every session that can be reached is closed. -/
theorem Reachable.closed (reachable : session.Reachable) : session.Closed := by
  induction reachable with
  | start clock callLimit => exact closed_start clock callLimit
  | run _ ended inductionHypothesis => exact inductionHypothesis.run ended
  | redirect _ _ inductionHypothesis | limitCalls _ _ inductionHypothesis =>
    exact inductionHypothesis

/-- A run lets the machine evolve on which the text was loaded. -/
theorem Reachable.evolves {after : Session} (reachable : session.Reachable)
    (accepted : (session.program source).Accepted) {fuel : Nat} {outcome : Outcome}
    (ended : session.run fuel source = some (outcome, after)) :
    (session.loaded source).Evolves after.machine := by
  have top : (session.loaded source).AtTopLevel :=
    ⟨reachable.atTopLevel.environment, reachable.atTopLevel.callDepth⟩
  have evolved := top.evolves fuel (session.program source).statements
  rcases run_cases ended with ⟨refused, _⟩ | ⟨_, _, _, ⟨ending, _⟩ | ⟨error, ending, _⟩⟩
  · exact absurd accepted refused
  · rw [ending] at evolved
    exact evolved
  · rw [ending] at evolved
    exact evolved

end Session

/-- The same diagnostic on a line that may be further down. -/
def Diagnostic.Alike (lines : Nat) (diagnostic image : Diagnostic) : Prop :=
  ∃ offset, IsOffset lines offset ∧ image = { diagnostic with line := diagnostic.line + offset }

/-- Outcomes with the same diagnostics up to their lines. -/
structure Outcome.Alike (lines : Nat) (outcome image : Outcome) : Prop where
  ran : image.ran = outcome.ran
  diagnostics : List.Forall₂ (Diagnostic.Alike lines) outcome.diagnostics image.diagnostics

/-- Sessions in the same state up to the lines of functions. -/
structure Session.Alike (lines : Nat) (session image : Session) : Prop where
  nextId : image.nextId = session.nextId
  machine : Machine.Alike session.nextId lines session.machine image.machine
  distances : ∀ id : Nat, image.machine.distances[id]? = session.machine.distances[id]?

/-- What a session has written that had come further before. -/
def Session.Prints (before after : Session) (text : String) : Prop :=
  after.machine.sink.written = before.machine.sink.written ++ text

/-- Alike errors have alike diagnostics. -/
theorem RuntimeError.Alike.diagnostic {error image : RuntimeError}
    (alike : RuntimeError.Alike lines error image) :
    Diagnostic.Alike lines error.diagnostic image.diagnostic := by
  obtain ⟨offset, moved, rfl⟩ := alike
  exact ⟨offset, moved, rfl⟩

/-- Outcomes that are alike without moved lines are equal. -/
theorem Outcome.Alike.eq {outcome image : Outcome} (alike : Outcome.Alike 0 outcome image) :
    image = outcome := by
  obtain ⟨diagnostics, ran⟩ := outcome
  obtain ⟨others, flag⟩ := image
  obtain ⟨sameFlag, same⟩ := alike
  have equal : others = diagnostics := by
    refine (List.forall₂_eq_eq_eq ▸ same.imp fun diagnostic other like => ?_ :
      diagnostics = others).symm
    obtain ⟨offset, unmoved, rfl⟩ := like
    rw [show offset = 0 from unmoved.elim id id, Nat.add_zero]
  dsimp only at sameFlag
  rw [equal, sameFlag]

namespace Session

variable {session image : Session} {source other : String}

/-- A run uses up the identities of its text. -/
theorem run_nextId {after : Session} {fuel : Nat} {outcome : Outcome}
    (accepted : (session.program source).Accepted)
    (ended : session.run fuel source = some (outcome, after)) :
    after.nextId = (session.program source).nextId := by
  rcases run_cases ended with ⟨refused, _⟩ | ⟨_, _, advanced, _⟩
  · exact absurd accepted refused
  · exact advanced

/-- If the program of one run is followed by that of another, the one run comes to what the other
comes to. -/
theorem run_alike (reachable : session.Reachable) (imageReachable : image.Reachable)
    (accepted : (session.program source).Accepted) (imageAccepted : (image.program other).Accepted)
    (nextId : (image.program other).nextId = (session.program source).nextId)
    (known : ∀ id : Nat,
      (image.loaded other).distances[id]? = (session.loaded source).distances[id]?)
    {fuel more : Nat}
    (follows : Ending.Follows (session.program source).nextId lines
      (Eval.interpret fuel (session.program source).statements (session.loaded source))
      (Eval.interpret more (image.program other).statements (image.loaded other)))
    {outcome : Outcome} {after : Session}
    (ended : session.run fuel source = some (outcome, after)) :
    ∃ imageOutcome imageAfter, image.run more other = some (imageOutcome, imageAfter) ∧
      Outcome.Alike lines outcome imageOutcome ∧ Session.Alike lines after imageAfter := by
  have evolved := reachable.evolves accepted ended
  have answered : ∃ imageOutcome imageAfter,
      image.run more other = some (imageOutcome, imageAfter) ∧
      imageAfter.nextId = (image.program other).nextId ∧ Outcome.Alike lines outcome imageOutcome ∧
      Machine.Alike (session.program source).nextId lines after.machine imageAfter.machine := by
    rw [run_of_accepted imageAccepted]
    generalize Eval.interpret more (image.program other).statements (image.loaded other) = ending
      at follows
    rcases run_cases ended with
      ⟨refused, _⟩ | ⟨_, ran, _, ⟨left, reported⟩ | ⟨error, left, reported⟩⟩
    · exact absurd accepted refused
    · rw [left] at follows
      cases follows with
      | value alike =>
        refine ⟨_, _, rfl, rfl, ⟨ran.symm, ?_⟩, alike⟩
        rw [reported]
        exact .nil
    · rw [left] at follows
      cases follows with
      | fault like alike =>
        refine ⟨_, _, rfl, rfl, ⟨ran.symm, ?_⟩, alike⟩
        rw [reported]
        exact .cons like.diagnostic .nil
  obtain ⟨imageOutcome, imageAfter, imageEnded, advanced, like, alike⟩ := answered
  have imageEvolved := imageReachable.evolves imageAccepted imageEnded
  have issued := run_nextId accepted ended
  refine ⟨imageOutcome, imageAfter, imageEnded, like, ?_, issued ▸ alike, fun id => ?_⟩
  · rw [advanced, nextId, issued]
  · rw [imageEvolved.distances, evolved.distances, known]

section MovedDown

variable {second : String} (accepted : (session.program second).Accepted) (first : String)
include accepted

/-- A text that is moved down has the same statements further down. -/
theorem statements_movedDown :
    (session.program (movedDown first second)).statements =
      Stmt.movedAll (.down (linesBefore first)) (session.program second).statements := by
  simp only [program, Program.ofSource_movedDown accepted.read]

/-- A text that is moved down issues as many ids. -/
theorem nextId_movedDown :
    (session.program (movedDown first second)).nextId = (session.program second).nextId := by
  simp only [program, Program.ofSource_movedDown accepted.read]

/-- A text further down has the same distances. -/
theorem loaded_movedDown : session.loaded (movedDown first second) = session.loaded second := by
  rw [loaded, statements_movedDown accepted, resolve_moved_distances rfl]
  rfl

/-- A text further down comes to the same, further down. -/
theorem run_movedDown (reachable : session.Reachable) {fuel more : Nat} (enough : fuel ≤ more)
    {outcome : Outcome} {after : Session}
    (ended : session.run fuel second = some (outcome, after)) :
    ∃ imageOutcome imageAfter,
      session.run more (movedDown first second) = some (imageOutcome, imageAfter) ∧
      Outcome.Alike (linesBefore first) outcome imageOutcome ∧
      Session.Alike (linesBefore first) after imageAfter := by
  have downAccepted : (session.program (movedDown first second)).Accepted :=
    accepted.movedDown first
  have known (id : Nat) : (session.loaded (movedDown first second)).distances[id]? =
      (session.loaded second).distances[id]? := by rw [loaded_movedDown accepted]
  have follows := interpret_moved (reachable.closed.loaded downAccepted) accepted
    (fun id _ => known id) enough (linesBefore first)
  rw [← statements_movedDown accepted first] at follows
  exact run_alike reachable reachable accepted downAccepted (nextId_movedDown accepted first) known
    follows ended

end MovedDown

section Joined

variable {first second : String} {middle : Session} {fuel : Nat} {outcome : Outcome}
  (reachable : session.Reachable) (before : (session.program first).Accepted)
  (ended : session.run fuel first = some (outcome, middle))
  (behind : (Program.ofSource second (session.program first).nextId).Accepted)

include before ended in
/-- The second text gets its identities where the first left off. -/
theorem program_behind (source : String) :
    middle.program source = Program.ofSource source (session.program first).nextId := by
  rw [program, run_nextId before ended]

include before ended behind in
/-- Joined texts have the statements of the first and then those of the second further down. -/
theorem statements_joined :
    (session.program (joined first second)).statements =
      (session.program first).statements ++
        Stmt.movedAll (.down (linesBefore first)) (middle.program second).statements := by
  rw [program_behind before ended]
  simp only [program, Program.ofSource_joined before behind]

include before ended behind in
/-- Joined texts issue as many ids as the two one after the other. -/
theorem nextId_joined :
    (session.program (joined first second)).nextId = (middle.program second).nextId := by
  rw [program_behind before ended]
  simp only [program, Program.ofSource_joined before behind]

include reachable before ended behind

/-- The joined text brings the distances that the second text finds. -/
theorem distances_joined (id : Nat) :
    (session.loaded (joined first second)).distances[id]? =
      (middle.loaded second).distances[id]? := by
  have evolved := reachable.evolves before ended
  have recorded := Program.distances_joined before behind id
  rw [loaded, Machine.getElem?_addDistances, loaded, Machine.getElem?_addDistances,
    program_behind before ended, evolved.distances, loaded, Machine.getElem?_addDistances,
    ← Option.or_assoc]
  exact congrArg (Option.or · _) recorded

/-- The first text goes on in a joined run as it does alone. -/
theorem interpret_first {more : Nat} (enough : fuel ≤ more) :
    Ending.Follows (session.program first).nextId 0
      (Eval.interpret fuel (session.program first).statements (session.loaded first))
      (Eval.interpret more (session.program first).statements
        (session.loaded (joined first second))) := by
  have evolved := reachable.evolves before ended
  have alike := reachable.closed.loaded (Program.Accepted.joined before behind)
  refine interpret_unmoved alike before (fun id below => ?_) enough
  rw [distances_joined reachable before ended behind, loaded_distances_of_other,
    evolved.distances]
  · rwa [program_behind before ended]
  · exact .inl (by rwa [run_nextId before ended])

/-- Once the first text has ended in a joined run, the second goes on where it stands. -/
theorem interpret_joined {more : Nat} (enough : fuel ≤ more) (clean : outcome.diagnostics = []) :
    ∃ between, Machine.Alike middle.nextId 0 middle.machine between ∧
      (∀ id : Nat, between.distances[id]? = (middle.loaded second).distances[id]?) ∧
      Eval.interpret more (session.program (joined first second)).statements
        (session.loaded (joined first second)) =
      Eval.interpret more (Stmt.movedAll (.down (linesBefore first))
        (middle.program second).statements) between := by
  have follows := interpret_first reachable before ended behind enough
  have top : (session.loaded (joined first second)).AtTopLevel :=
    ⟨reachable.atTopLevel.environment, reachable.atTopLevel.callDepth⟩
  have evolved := top.evolves more (session.program first).statements
  rw [statements_joined before ended behind, Eval.interpret_append, Eval.bind_apply]
  generalize Eval.interpret more (session.program first).statements
    (session.loaded (joined first second)) = ending at follows evolved
  rcases run_cases ended with
    ⟨refused, _⟩ | ⟨_, _, advanced, ⟨left, _⟩ | ⟨error, _, reported⟩⟩
  · exact absurd before refused
  · rw [left, ← advanced] at follows
    cases follows with
    | value alike =>
      refine ⟨_, alike, fun id => ?_, rfl⟩
      rw [show _ = _ from evolved.distances]
      exact distances_joined reachable before ended behind id
  · rw [reported] at clean
    cases clean

/-- A joined run whose first text ends goes on as a run of the second text further down. -/
theorem run_joined_ended (clean : outcome.diagnostics = []) {further enough : Nat}
    {secondOutcome : Outcome} {last : Session}
    (secondEnded : middle.run further second = some (secondOutcome, last))
    (firstEnough : fuel ≤ enough) (secondEnough : further ≤ enough) :
    ∃ joinedOutcome final apart,
      session.run enough (joined first second) = some (joinedOutcome, final) ∧
      Outcome.Alike (linesBefore first) secondOutcome joinedOutcome ∧
      Session.Alike (linesBefore first) last final ∧
      middle.run enough (movedDown first second) = some (joinedOutcome, apart) ∧
      Session.Alike 0 apart final := by
  obtain ⟨between, alike, known, whole⟩ :=
    interpret_joined reachable before ended behind firstEnough clean
  have middleReachable : middle.Reachable := .run reachable ended
  have joinedAccepted : (session.program (joined first second)).Accepted :=
    Program.Accepted.joined before behind
  have joinedKnown := distances_joined reachable before ended behind
  have joinedId := nextId_joined before ended behind
  rw [← program_behind before ended] at behind
  have downAccepted : (middle.program (movedDown first second)).Accepted := behind.movedDown first
  have downId := nextId_movedDown behind first
  have downLoaded := loaded_movedDown behind first
  obtain ⟨apartOutcome, apart, apartEnded, _⟩ :=
    run_movedDown behind first middleReachable secondEnough secondEnded
  -- The joined run follows the second text as it stands, and the second text further down.
  have follows := interpret_moved alike behind (fun id _ => known id) secondEnough
    (linesBefore first)
  have unmoved := interpret_unmoved alike downAccepted (fun id _ => by rw [downLoaded, known id])
    (Nat.le_refl enough)
  rw [← whole] at follows
  rw [← statements_movedDown behind first] at whole
  rw [← whole] at unmoved
  obtain ⟨joinedOutcome, final, joinedEnded, like, likeSession⟩ :=
    run_alike middleReachable reachable behind joinedAccepted joinedId joinedKnown
      follows secondEnded
  obtain ⟨sameOutcome, same, sameEnded, equal, likeApart⟩ :=
    run_alike middleReachable reachable downAccepted joinedAccepted
      (joinedId.trans downId.symm) (fun id => by rw [downLoaded, joinedKnown]) unmoved apartEnded
  obtain ⟨rfl, rfl⟩ := Prod.mk.inj (Option.some.inj (sameEnded.symm.trans joinedEnded))
  exact ⟨sameOutcome, same, apart, joinedEnded, like, likeSession, equal.eq ▸ apartEnded, likeApart⟩

/-- A joined run whose first text stops at a fault stops there as the first text alone. -/
theorem run_joined_stopped (stopped : outcome.diagnostics ≠ []) {enough : Nat}
    (firstEnough : fuel ≤ enough) :
    ∃ final, session.run enough (joined first second) = some (outcome, final) ∧
      Machine.Alike middle.nextId 0 middle.machine final.machine := by
  have follows := interpret_first reachable before ended behind firstEnough
  rw [run_of_accepted (Program.Accepted.joined before behind),
    statements_joined before ended behind, Eval.interpret_append, Eval.bind_apply]
  generalize Eval.interpret enough (session.program first).statements
    (session.loaded (joined first second)) = ending at follows
  rcases run_cases ended with
    ⟨refused, _⟩ | ⟨_, ran, advanced, ⟨_, clean⟩ | ⟨error, left, reported⟩⟩
  · exact absurd before refused
  · exact absurd clean stopped
  · rw [left, ← advanced] at follows
    cases follows with
    | fault like alike =>
      obtain ⟨offset, unmoved, rfl⟩ := like
      obtain rfl : offset = 0 := unmoved.elim id id
      obtain ⟨diagnostics, flag⟩ := outcome
      dsimp only at reported ran
      subst reported ran
      exact ⟨_, rfl, alike⟩

end Joined

end Session

/-- One run or two make no difference. Let a session run a text that is accepted on its own, and
another such text behind it. If the first run ends without a fault, one run of both texts joined by
a newline writes what the two runs write, reports what the second reports and leaves the state that
the second leaves, where the tokens of the second text stand further down: all of this is what the
second text gives when it is run behind the first on the lines on which it stands in the joined
text. If the first run stops at a fault, the joined run stops there, in the same machine. -/
theorem run_joined {session : Session} (reachable : session.Reachable) {first second : String}
    (firstAccepted : (Program.ofSource first 0).Accepted)
    (secondAccepted : (Program.ofSource second 0).Accepted)
    {fuel : Nat} {outcome : Outcome} {middle : Session}
    (ended : session.run fuel first = some (outcome, middle)) :
    (outcome.diagnostics = [] → ∀ further secondOutcome last,
      middle.run further second = some (secondOutcome, last) →
      ∀ enough, fuel ≤ enough → further ≤ enough → ∃ joinedOutcome final apart,
        session.run enough (joined first second) = some (joinedOutcome, final) ∧
        (∃ earlier later, session.Prints middle earlier ∧ middle.Prints last later ∧
          session.Prints final (earlier ++ later)) ∧
        Outcome.Alike (linesBefore first) secondOutcome joinedOutcome ∧
        Session.Alike (linesBefore first) last final ∧
        middle.run enough (movedDown first second) = some (joinedOutcome, apart) ∧
        Session.Alike 0 apart final) ∧
    (outcome.diagnostics ≠ [] → ∀ enough, fuel ≤ enough → ∃ final,
      session.run enough (joined first second) = some (outcome, final) ∧
      (∃ text, session.Prints middle text ∧ session.Prints final text) ∧
      Machine.Alike middle.nextId 0 middle.machine final.machine) := by
  have before : (session.program first).Accepted := firstAccepted.later session.nextId
  have behind := secondAccepted.later (session.program first).nextId
  obtain ⟨earlier, firstOutput⟩ := (reachable.evolves before ended).output
  constructor
  · intro clean further secondOutcome last secondEnded enough firstEnough secondEnough
    obtain ⟨joinedOutcome, final, apart, joinedEnded, like, likeLast, apartEnded, likeApart⟩ :=
      Session.run_joined_ended reachable before ended behind clean secondEnded firstEnough
        secondEnough
    have middleReachable : middle.Reachable := .run reachable ended
    have middleAccepted : (middle.program second).Accepted := secondAccepted.later middle.nextId
    obtain ⟨later, secondOutput⟩ := (middleReachable.evolves middleAccepted secondEnded).output
    have whole : session.Prints final (earlier ++ later) := by
      unfold Session.Prints
      rw [likeLast.machine.sink, secondOutput, ← String.append_assoc]
      exact congrArg (· ++ later) firstOutput
    exact ⟨joinedOutcome, final, apart, joinedEnded,
      ⟨earlier, later, firstOutput, secondOutput, whole⟩, like, likeLast, apartEnded, likeApart⟩
  · intro stopped enough firstEnough
    obtain ⟨final, joinedEnded, alike⟩ :=
      Session.run_joined_stopped reachable before ended behind stopped firstEnough
    have same : session.Prints final earlier := by
      unfold Session.Prints
      rw [alike.sink]
      exact firstOutput
    exact ⟨final, joinedEnded, ⟨earlier, firstOutput, same⟩, alike⟩

/-- A second text that stops on its second line stops three lines further down when it is joined to
a text of three lines. -/
theorem run_joined_arguments :
    ∃ outcome middle secondOutcome last joinedOutcome final,
      (Session.start (fun _ => 0) 2).run 60 "fun f() \x7b\nprint 1;\n\x7d" =
        some (outcome, middle) ∧
      outcome.diagnostics = [] ∧
      middle.run 60 "f();\nf(2);" = some (secondOutcome, last) ∧
      secondOutcome.diagnostics.map Diagnostic.line = [2] ∧
      (Session.start (fun _ => 0) 2).run 60 (joined "fun f() \x7b\nprint 1;\n\x7d" "f();\nf(2);") =
        some (joinedOutcome, final) ∧
      Outcome.Alike 3 secondOutcome joinedOutcome ∧ Session.Alike 3 last final := by
  have firstAccepted : (Program.ofSource "fun f() \x7b\nprint 1;\n\x7d" 0).Accepted :=
    ⟨by decide +kernel, by decide +kernel⟩
  have secondAccepted : (Program.ofSource "f();\nf(2);" 0).Accepted :=
    ⟨by decide +kernel, by decide +kernel⟩
  have lines : linesBefore "fun f() \x7b\nprint 1;\n\x7d" = 3 := by decide +kernel
  have runs : ((Session.start (fun _ => 0) 2).run 60 "fun f() \x7b\nprint 1;\n\x7d").bind
      (fun ended => (ended.2.run 60 "f();\nf(2);").map fun behind =>
        (ended.1.diagnostics, behind.1.diagnostics.map Diagnostic.line)) = some ([], [2]) := by
    decide +kernel
  obtain ⟨⟨outcome, middle⟩, ended, rest⟩ := Option.bind_eq_some_iff.mp runs
  obtain ⟨⟨secondOutcome, last⟩, secondEnded, reported⟩ := Option.map_eq_some_iff.mp rest
  obtain ⟨clean, line⟩ := Prod.mk.inj reported
  obtain ⟨joinedOutcome, final, _, joinedEnded, _, like, likeLast, _⟩ :=
    (run_joined (.start _ _) firstAccepted secondAccepted ended).1 clean 60 secondOutcome last
      secondEnded 60 (Nat.le_refl _) (Nat.le_refl _)
  rw [lines] at like likeLast
  exact ⟨outcome, middle, secondOutcome, last, joinedOutcome, final, ended, clean, secondEnded,
    line, joinedEnded, like, likeLast⟩

end LoxLang
