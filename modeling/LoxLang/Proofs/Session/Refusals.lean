import LoxLang.Proofs.Machine.Hygiene
import LoxLang.Proofs.Parsing.Renumbering
import LoxLang.Proofs.Scope.Matching
import LoxLang.Proofs.Scope.Moved
import LoxLang.Proofs.Session.Scopes
import LoxLang.Proofs.Tree.Renumbered

/-!
# Refused texts leave no trace

A text that a static stage refuses only uses up identities. Two sessions run in parallel if their
machines match under a correspondence of the identities that both have handed out, text by text; a
text comes to the same in both and leaves them in parallel. So whether refused texts stood between
the others can be seen nowhere, and neither can the first identity that a text was given.
-/

namespace LoxLang

namespace Program

/-- What is reported of a text that is refused: the violations that the first stages found, or else
those of scope resolution. -/
def refusal (program : Program) : List Diagnostic :=
  if program.diagnostics.isEmpty then resolveDiagnostics (resolve program.statements)
  else program.diagnostics

/-- The violations of a source do not depend on the first id. -/
theorem resolve_renumbered_errors (source : String) (firstId : Nat) :
    (resolve (ofSource source firstId).statements).errors =
      (resolve (ofSource source 0).statements).errors := by
  rw [ofSource_renumbered source firstId, resolve_moved_errors]
  exact List.map_id _

/-- Identities do not matter for what is reported. -/
theorem refusal_renumbered (source : String) (firstId : Nat) :
    (ofSource source firstId).refusal = (ofSource source 0).refusal := by
  have reported : (ofSource source firstId).diagnostics = (ofSource source 0).diagnostics := by
    rw [ofSource_renumbered source firstId]
  unfold refusal resolveDiagnostics
  rw [resolve_renumbered_errors, reported]

/-- Identities do not matter for whether a text is accepted. -/
theorem accepted_renumbered (source : String) (firstId : Nat) :
    (ofSource source firstId).Accepted ↔ (ofSource source 0).Accepted := by
  have reported : (ofSource source firstId).diagnostics = (ofSource source 0).diagnostics := by
    rw [ofSource_renumbered source firstId]
  constructor
  · rintro ⟨read, resolved⟩
    exact ⟨reported ▸ read, resolve_renumbered_errors source firstId ▸ resolved⟩
  · rintro ⟨read, resolved⟩
    exact ⟨reported.trans read, (resolve_renumbered_errors source firstId).trans resolved⟩

end Program

namespace Correspondence

/-- The correspondence that also pairs the identities that two parsers hand out next. -/
def issue (correspondence : Correspondence) (first second count : Nat)
    (address? : Nat → Option Nat)
    (below : ∀ id other, correspondence.ids id other → id < first ∧ other < second) :
    Correspondence :=
  { correspondence with
    ids := fun id other => correspondence.ids id other ∨
      ∃ offset < count, id = offset + first ∧ other = offset + second
    address?
    oneToOne := by
      rintro id other another image (known | ⟨offset, _, rfl, rfl⟩)
        (also | ⟨further, _, rfl, rfl⟩)
      · exact correspondence.oneToOne known also
      · have bounds := below id other known
        omega
      · have bounds := below another image also
        omega
      · omega }

/-- No identity has been handed out yet. -/
def unissued : Correspondence where
  ids := fun _ _ => False
  address? := fun _ => none
  swap := id
  visible := fun _ => True
  oneToOne := nofun
  involutive := fun _ => rfl
  hidden := fun _ _ => .inl rfl
  swap_this := rfl
  visible_this := trivial
  visible_super := trivial

/-- While nothing is issued nothing is renamed. -/
theorem unissued_transparent : unissued.Transparent :=
  ⟨fun _ => rfl, fun _ => trivial⟩

variable {correspondence : Correspondence} {first second count : Nat} {address? : Nat → Option Nat}
  (below : ∀ id other, correspondence.ids id other → id < first ∧ other < second)

/-- Issuing ids extends a correspondence that has kept what it knew. -/
theorem issue_extends
    (kept : ∀ id other, correspondence.ids id other → address? id = correspondence.address? id) :
    correspondence.Extends (correspondence.issue first second count address? below) :=
  ⟨fun _ _ => .inl, kept, rfl, rfl⟩

/-- Ids issued at the same offset correspond. -/
theorem issue_related {offset : Nat} (inside : offset < count) :
    (correspondence.issue first second count address? below).ids (offset + first)
      (offset + second) :=
  .inr ⟨offset, inside, rfl, rfl⟩

end Correspondence

namespace Session

/-- Sessions whose machines match, with the same names everywhere. -/
structure Parallel (correspondence : Correspondence) (frames : List Bool)
    (session image : Session) : Prop where
  transparent : correspondence.Transparent
  below : ∀ id other, correspondence.ids id other → id < session.nextId ∧ other < image.nextId
  machine : Machine.Matches correspondence frames [false] session.machine image.machine
  sound : session.Sound
  soundImage : image.Sound

variable {correspondence : Correspondence} {frames : List Bool} {session image : Session}
  {source : String} {fuel : Nat}

/-- A text that is not accepted is refused, and the session keeps but its next id. -/
theorem run_eq_refusal (refused : ¬ (session.program source).Accepted) :
    session.run fuel source =
      some ({ diagnostics := (session.program source).refusal, ran := false },
        { session with nextId := (session.program source).nextId }) := by
  unfold run runProgram Program.refusal
  rw [← program]
  by_cases read : (session.program source).diagnostics = []
  · have unresolved : (resolve (session.program source).statements).errors ≠ [] :=
      fun resolved => refused ⟨read, resolved⟩
    simp [read, unresolved]
  · simp [read]

/-- Where identities start from makes no difference for a sound session, if none is handed out
twice. -/
theorem Sound.skip (sound : session.Sound) {later : Nat} (further : session.nextId ≤ later) :
    Sound { session with nextId := later } := by
  refine ⟨⟨⟨fun _ => rfl, ?_⟩, .nil, sound.sited.covers⟩, fun id above => ?_⟩
  · exact sound.sited.valid.store.extend ⟨further, fun _ _ => rfl⟩
  · exact sound.unissued id (Nat.le_trans further above)

/-- A sound session stays so when only output, limits or counters of its machine change. -/
theorem Sound.changed (sound : session.Sound) {machine : Machine}
    (store : machine.store = session.machine.store)
    (environment : machine.environment = session.machine.environment)
    (distances : machine.distances = session.machine.distances) :
    Sound { session with machine } := by
  obtain ⟨⟨valid, beside, covers⟩, unissued⟩ := sound
  rw [← store, ← environment] at covers
  have same : addressing { session with machine } = session.addressing := by
    unfold addressing
    rw [distances]
  refine ⟨⟨⟨fun _ => rfl, ?_⟩, beside, covers⟩, distances ▸ unissued⟩
  rw [same, store]
  exact valid.store

namespace Parallel

/-- Sessions stay in parallel when either skips identities. -/
theorem skip (parallel : Parallel correspondence frames session image) {later other : Nat}
    (further : session.nextId ≤ later) (also : image.nextId ≤ other) :
    Parallel correspondence frames { session with nextId := later }
      { image with nextId := other } where
  transparent := parallel.transparent
  below := fun id second known =>
    (parallel.below id second known).imp (Nat.lt_of_lt_of_le · further)
      (Nat.lt_of_lt_of_le · also)
  machine := parallel.machine
  sound := parallel.sound.skip further
  soundImage := parallel.soundImage.skip also

section Accepted

variable (parallel : Parallel correspondence frames session image)
  (accepted : (session.program source).Accepted)

/-- The correspondence once both sessions have read one more text. -/
def next (parallel : Parallel correspondence frames session image) (source : String) :
    Correspondence :=
  correspondence.issue session.nextId image.nextId (Program.ofSource source 0).nextId
    (fun id => (session.loaded source).distances[id]?) parallel.below

include accepted in
/-- The next text extends the correspondence of two parallel sessions. -/
theorem next_extends : correspondence.Extends (parallel.next source) := by
  refine Correspondence.issue_extends parallel.below fun id other known => ?_
  obtain ⟨before, _⟩ := parallel.below id other known
  rw [loaded_distances_of_other accepted (.inl before)]
  exact (parallel.machine.distances id other known).1

/-- The next text renames nothing. -/
theorem next_transparent : (parallel.next source).Transparent :=
  ⟨parallel.transparent.swap, parallel.transparent.visible⟩

include accepted in
/-- Both sessions read the same trees, up to identities. -/
theorem trees_match :
    Stmt.MatchesAll (parallel.next source) [false] (session.program source).statements
      (image.program source).statements := by
  have base := (Program.accepted_renumbered source session.nextId).mp accepted
  rw [program, program, Program.ofSource_renumbered source session.nextId,
    Program.ofSource_renumbered source image.nextId]
  exact Stmt.movedAll_matches parallel.next_transparent
    (fun _ inside => Correspondence.issue_related parallel.below inside) _ base.issued.below

include accepted in
/-- Both sessions resolve the same distances. -/
theorem loaded_distances {id other : Nat} (related : (parallel.next source).ids id other) :
    (image.loaded source).distances[other]? = (session.loaded source).distances[id]? := by
  have alsoAccepted : (image.program source).Accepted :=
    (Program.accepted_renumbered source image.nextId).mpr
      ((Program.accepted_renumbered source session.nextId).mp accepted)
  -- An identity of an earlier text keeps its entry, and one of this text is resolved alike.
  rcases related with known | ⟨offset, inside, rfl, rfl⟩
  · obtain ⟨before, alsoBefore⟩ := parallel.below id other known
    obtain ⟨here, there⟩ := parallel.machine.distances id other known
    rw [loaded_distances_of_other accepted (.inl before),
      loaded_distances_of_other alsoAccepted (.inl alsoBefore), here, there]
  · have knows : (parallel.next source).Knows
        (Stmt.occurrencesAll .outside [] (session.program source).statements) :=
      fun occurrence member => (parallel.sound.holds accepted occurrence member).2
    have resolved := resolve_distances_match (parallel.trees_match accepted) knows
      (Correspondence.issue_related parallel.below inside)
    rw [loaded, Machine.getElem?_addDistances, loaded, Machine.getElem?_addDistances, resolved,
      parallel.sound.unissued _ (Nat.le_add_left _ _),
      parallel.soundImage.unissued _ (Nat.le_add_left _ _)]

include accepted in
/-- Both sessions start the text from matching machines. -/
theorem loaded_matches :
    Machine.Matches (parallel.next source) frames [false] (session.loaded source)
      (image.loaded source) :=
  { parallel.machine with
    store := parallel.machine.store.extend (parallel.next_extends accepted)
    distances := fun _ _ related => ⟨rfl, parallel.loaded_distances accepted related⟩ }

/-- Both sessions have handed out the identities that are paired now. -/
theorem next_below {id other : Nat} (related : (parallel.next source).ids id other) :
    id < (session.program source).nextId ∧ other < (image.program source).nextId := by
  rw [program, program, Program.ofSource_renumbered source session.nextId,
    Program.ofSource_renumbered source image.nextId]
  rcases related with known | ⟨offset, inside, rfl, rfl⟩
  · have bounds := parallel.below id other known
    dsimp only
    omega
  · dsimp only
    omega

end Accepted

/-- A text comes to the same in both sessions and leaves them in parallel. -/
theorem run (parallel : Parallel correspondence frames session image) (fuel : Nat)
    (source : String) :
    Option.Rel (fun left right => right.1 = left.1 ∧
        ∃ later further, Parallel later further left.2 right.2)
      (session.run fuel source) (image.run fuel source) := by
  by_cases accepted : (session.program source).Accepted
  · have alsoAccepted : (image.program source).Accepted :=
      (Program.accepted_renumbered source image.nextId).mpr
        ((Program.accepted_renumbered source session.nextId).mp accepted)
    have mirrors := Eval.interpret_mirrors fuel (parallel.loaded_matches accepted)
      (parallel.sound.topLevel accepted fuel) (parallel.trees_match accepted)
    have left : session.run fuel source = _ := run_of_accepted accepted
    have right : image.run fuel source = _ := run_of_accepted alsoAccepted
    generalize Eval.interpret fuel (session.program source).statements (session.loaded source) =
      ending, Eval.interpret fuel (image.program source).statements (image.loaded source) =
      imageEnding at mirrors left right
    cases mirrors with
    | value _ machine =>
      rw [left, right]
      exact .some ⟨rfl, _, _, parallel.next_transparent, fun _ _ => parallel.next_below, machine,
        parallel.sound.run left, parallel.soundImage.run right⟩
    | fault _ machine like =>
      obtain rfl := parallel.next_transparent.error like
      rw [left, right]
      exact .some ⟨rfl, _, _, parallel.next_transparent, fun _ _ => parallel.next_below, machine,
        parallel.sound.run left, parallel.soundImage.run right⟩
    | outOfFuel =>
      rw [left, right]
      exact .none
  · have alsoRefused : ¬ (image.program source).Accepted := fun alsoAccepted =>
      accepted ((Program.accepted_renumbered source session.nextId).mpr
        ((Program.accepted_renumbered source image.nextId).mp alsoAccepted))
    have same : (image.program source).refusal = (session.program source).refusal :=
      (Program.refusal_renumbered source image.nextId).trans
        (Program.refusal_renumbered source session.nextId).symm
    rw [run_eq_refusal accepted, run_eq_refusal alsoRefused, same]
    exact .some ⟨rfl, correspondence, frames,
      parallel.skip (session.nextId_le source) (image.nextId_le source)⟩

/-- Sessions stay in parallel when both get the same sink. -/
theorem redirect (parallel : Parallel correspondence frames session image) (sink : Sink) :
    Parallel correspondence frames { session with machine := { session.machine with sink } }
      { image with machine := { image.machine with sink } } where
  transparent := parallel.transparent
  below := parallel.below
  machine := { parallel.machine with sink := rfl }
  sound := parallel.sound.changed rfl rfl rfl
  soundImage := parallel.soundImage.changed rfl rfl rfl

/-- Sessions stay in parallel when both get the same limit. -/
theorem limitCalls (parallel : Parallel correspondence frames session image) (callLimit : Nat) :
    Parallel correspondence frames { session with machine := { session.machine with callLimit } }
      { image with machine := { image.machine with callLimit } } where
  transparent := parallel.transparent
  below := parallel.below
  machine := { parallel.machine with callLimit := rfl }
  sound := parallel.sound.changed rfl rfl rfl
  soundImage := parallel.soundImage.changed rfl rfl rfl

/-- Sessions whose output has been taken stay in parallel. -/
theorem takeOutput (parallel : Parallel correspondence frames session image) :
    Parallel correspondence frames session.takeOutput.2 image.takeOutput.2 := by
  have same : image.takeOutput.2 = { image with machine :=
      { image.machine with sink := { session.machine.sink with written := "" } } } := by
    rw [← parallel.machine.sink]
    rfl
  rw [same]
  exact parallel.redirect { session.machine.sink with written := "" }

end Parallel

/-- A fresh session is in parallel with itself. -/
theorem start_parallel (clock : Nat → Nat) (callLimit : Nat) :
    Parallel .unissued [false] (.start clock callLimit) (.start clock callLimit) where
  transparent := Correspondence.unissued_transparent
  below := nofun
  machine := by
    have blind := Correspondence.unissued_transparent
    exact .refl (Machine.start_matches (fun _ => blind) clock callLimit) rfl (.cons rfl .nil) nofun
  sound := start_sound clock callLimit
  soundImage := start_sound clock callLimit

/-- Every session is in parallel with itself. -/
theorem Reachable.parallel (reachable : session.Reachable) :
    ∃ correspondence frames, Parallel correspondence frames session session := by
  induction reachable with
  | start clock callLimit => exact ⟨_, _, start_parallel clock callLimit⟩
  | @run session after fuel source outcome _ ended inductionHypothesis =>
    obtain ⟨correspondence, frames, parallel⟩ := inductionHypothesis
    have both := parallel.run fuel source
    rw [ended] at both
    cases both with
    | some same => exact same.2
  | redirect _ sink inductionHypothesis =>
    obtain ⟨correspondence, frames, parallel⟩ := inductionHypothesis
    exact ⟨correspondence, frames, parallel.redirect sink⟩
  | limitCalls _ callLimit inductionHypothesis =>
    obtain ⟨correspondence, frames, parallel⟩ := inductionHypothesis
    exact ⟨correspondence, frames, parallel.limitCalls callLimit⟩

/-- What a host sees of one run. -/
structure Report where
  source : String
  outcome : Outcome
  /-- What the run has written. -/
  text : String
deriving DecidableEq

/-- Run a text and tell what came of it; earlier output is taken first. -/
def report (fuel : Nat) (session : Session) (source : String) : Option (Report × Session) :=
  (session.takeOutput.2.run fuel source).map fun (outcome, after) =>
    ({ source, outcome, text := after.takeOutput.1 }, after)

/-- Run texts one after another. There is no answer if the fuel does not suffice for one of them. -/
def transcript (fuel : Nat) : Session → List String → Option (List Report)
  | _, [] => some []
  | session, source :: rest => do
    let (first, after) ← session.report fuel source
    let others ← transcript fuel after rest
    return first :: others

/-- A text comes to the same report in sessions that run in parallel once their output is taken, and
leaves them so. -/
theorem Parallel.report
    (parallel : Parallel correspondence frames session.takeOutput.2 image.takeOutput.2) (fuel : Nat)
    (source : String) :
    Option.Rel (fun left right => right.1 = left.1 ∧
        ∃ later further, Parallel later further left.2.takeOutput.2 right.2.takeOutput.2)
      (session.report fuel source) (image.report fuel source) := by
  have both := parallel.run fuel source
  unfold Session.report
  rcases absent_or_related both with ⟨none, also⟩ | ⟨left, right, here, there, same, _, _, after⟩
  · rw [none, also]
    exact .none
  · rw [here, there]
    obtain ⟨outcome, left⟩ := left
    obtain ⟨other, right⟩ := right
    obtain rfl : other = outcome := same
    have text : right.takeOutput.1 = left.takeOutput.1 :=
      congrArg Sink.written after.machine.sink
    exact .some ⟨by simp only [text], _, _, after.takeOutput⟩

/-- A refused text only uses up identities. -/
theorem report_of_refused {report : Report} {after : Session}
    (ended : session.report fuel source = some (report, after))
    (refused : report.outcome.ran = false) :
    after.takeOutput.2 = { session.takeOutput.2 with nextId := after.nextId } ∧
      session.nextId ≤ after.nextId := by
  obtain ⟨⟨outcome, last⟩, ran, same⟩ := Option.map_eq_some_iff.mp ended
  obtain ⟨rfl, rfl⟩ := Prod.mk.inj same
  rcases run_cases ran with ⟨_, _, rfl⟩ | ⟨_, started, _⟩
  · exact ⟨rfl, session.takeOutput.2.nextId_le source⟩
  · rw [started] at refused
    cases refused

/-- A report is about the text that was run. -/
theorem report_source {report : Report} {after : Session}
    (ended : session.report fuel source = some (report, after)) : report.source = source := by
  obtain ⟨_, _, same⟩ := Option.map_eq_some_iff.mp ended
  exact congrArg Report.source (Prod.mk.inj same).1.symm

/-- Reports name the texts that were run. -/
theorem transcript_sources {sources : List String} {reports : List Report}
    (ended : session.transcript fuel sources = some reports) :
    reports.map Report.source = sources := by
  induction sources generalizing session reports with
  | nil =>
    obtain rfl := Option.some.inj ended
    rfl
  | cons source rest inductionHypothesis =>
    simp only [transcript, Option.bind_eq_bind, Option.bind_eq_some_iff, Prod.exists] at ended
    obtain ⟨first, after, reported, others, further, same⟩ := ended
    obtain rfl := Option.some.inj same
    rw [List.map_cons, report_source reported, inductionHypothesis further]

/-- The texts that were started come to the same in a parallel session that runs no others. -/
theorem Parallel.transcript {sources : List String} {reports : List Report}
    (parallel : Parallel correspondence frames session.takeOutput.2 image.takeOutput.2)
    (ended : session.transcript fuel sources = some reports) :
    image.transcript fuel ((reports.filter (·.outcome.ran)).map Report.source) =
      some (reports.filter (·.outcome.ran)) := by
  induction sources generalizing session image reports correspondence frames with
  | nil =>
    obtain rfl := Option.some.inj ended
    rfl
  | cons source rest inductionHypothesis =>
    simp only [Session.transcript, Option.bind_eq_bind, Option.bind_eq_some_iff,
      Prod.exists] at ended
    obtain ⟨first, after, reported, others, further, same⟩ := ended
    obtain rfl := Option.some.inj same
    cases started : first.outcome.ran with
    | false =>
      -- The session goes past a text that its image is not given.
      obtain ⟨left, later⟩ := report_of_refused reported started
      have still := parallel.skip later (Nat.le_refl image.nextId)
      rw [List.filter_cons_of_neg (by simp [started])]
      exact inductionHypothesis (left ▸ still) further
    | true =>
      rcases absent_or_related (parallel.report fuel source) with
        ⟨none, _⟩ | ⟨left, ⟨report, right⟩, here, there, same, _, _, still⟩
      · rw [reported] at none
        cases none
      · rw [reported] at here
        obtain rfl := Option.some.inj here
        obtain rfl : report = first := same
        have rest := inductionHypothesis still further
        dsimp only at rest
        rw [List.filter_cons_of_pos (by simpa using started), List.map_cons, report_source reported]
        simp only [Session.transcript, there, rest, Option.bind_eq_bind, Option.bind_some]
        rfl

/-- Texts that a static stage refuses leave no trace: leaving them out changes no report of the
others, and the report of a text does not depend on the first identity that it is given. -/
theorem refused_leave_no_trace (reachable : session.Reachable) (fuel : Nat) :
    (∀ sources reports, session.transcript fuel sources = some reports →
      reports.map Report.source = sources ∧
        session.transcript fuel ((reports.filter (·.outcome.ran)).map Report.source) =
          some (reports.filter (·.outcome.ran))) ∧
    ∀ source later, session.nextId ≤ later →
      (report fuel { session with nextId := later } source).map Prod.fst =
        (session.report fuel source).map Prod.fst := by
  obtain ⟨correspondence, frames, parallel⟩ := reachable.parallel
  refine ⟨fun sources reports ended =>
      ⟨transcript_sources ended, parallel.takeOutput.transcript ended⟩,
    fun source later further => ?_⟩
  have moved := (parallel.skip (Nat.le_refl _) further).takeOutput.report fuel source
  rcases absent_or_related moved with ⟨none, also⟩ | ⟨left, right, here, there, same, _⟩
  · rw [none, also]
  · rw [here, there]
    exact congrArg some same

/-- A closure of an earlier text says the same when it is called with two refused texts between the
two and without them. -/
theorem refused_leave_no_trace_between :
    ∃ reports,
      (start (fun _ => 0) 4).transcript 40
        ["fun f(x) \x7b fun g() \x7b print x; \x7d return g; \x7d var h = f(\"kept\");",
          "\x7b var b; var b; \x7d", "print h", "h(); h + f;"] = some reports ∧
      reports.map (fun report => (report.outcome.ran, report.text)) =
        [(true, ""), (false, ""), (false, ""), (true, "kept\n")] ∧
      (start (fun _ => 0) 4).transcript 40
        ["fun f(x) \x7b fun g() \x7b print x; \x7d return g; \x7d var h = f(\"kept\");",
          "h(); h + f;"] = some (reports.filter (·.outcome.ran)) := by
  have seen : ((start (fun _ => 0) 4).transcript 40
        ["fun f(x) \x7b fun g() \x7b print x; \x7d return g; \x7d var h = f(\"kept\");",
          "\x7b var b; var b; \x7d", "print h", "h(); h + f;"]).map
      (fun reports => (reports.map (fun report => (report.outcome.ran, report.text)),
        (reports.filter (·.outcome.ran)).map Report.source)) =
      some ([(true, ""), (false, ""), (false, ""), (true, "kept\n")],
        ["fun f(x) \x7b fun g() \x7b print x; \x7d return g; \x7d var h = f(\"kept\");",
          "h(); h + f;"]) := by
    decide +kernel
  obtain ⟨reports, ended, shown⟩ := Option.map_eq_some_iff.mp seen
  obtain ⟨written, started⟩ := Prod.mk.inj shown
  obtain ⟨_, kept⟩ := (refused_leave_no_trace (.start _ _) 40).1 _ reports ended
  exact ⟨reports, ended, written, started ▸ kept⟩

end Session

end LoxLang
