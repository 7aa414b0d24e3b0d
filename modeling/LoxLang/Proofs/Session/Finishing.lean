import LoxLang.Proofs.Machine.Finishing
import LoxLang.Proofs.Session.Limits

/-!
# Sessions without loops

A session whose texts have neither `while` nor `for` in them keeps loopless functions only, and
there is a largest one among them. So whatever such a text calls, functions of earlier texts,
methods and initializers included, the call limit puts an end to it, and its run finishes.
-/

namespace LoxLang

/-- A text with neither `while` nor `for` among its tokens. -/
def LooplessText (source : String) : Prop :=
  ∀ token ∈ scannedTokens (scan source), token.startsLoop = false

instance (source : String) : Decidable (LooplessText source) :=
  inferInstanceAs (Decidable (∀ token ∈ scannedTokens (scan source), token.startsLoop = false))

/-- A loopless text that is accepted has a loopless program. -/
theorem Program.Accepted.loopless {source : String} {firstId : Nat}
    (accepted : (ofSource source firstId).Accepted) (plain : LooplessText source) :
    Stmt.LooplessAll (ofSource source firstId).statements :=
  parse_loopless (ofSource_read_iff.mp accepted.read).2 plain

/-- The native functions are no functions of a program. -/
theorem Machine.start_brief (clock : Nat → Nat) (callLimit : Nat) :
    (Machine.start clock callLimit).store.Brief 0 := by
  constructor
  · intro frame name value present
    obtain ⟨native, _, rfl⟩ := Machine.start_binding? present
    trivial
  · intro object name value present
    cases (start_field? clock callLimit object name).symm.trans present

namespace Session

variable {session : Session} {source : String} {sources : List String}

/-- The sessions that a host can bring about with loopless texts: it starts one, runs texts, and
between two runs may take the output elsewhere or set another call limit. -/
inductive Loopless : Session → Prop where
  | start (clock : Nat → Nat) (callLimit : Nat) : Loopless (.start clock callLimit)
  | run {session after : Session} {fuel : Nat} {source : String} {outcome : Outcome}
      (prior : Loopless session) (plain : LooplessText source)
      (ended : session.run fuel source = some (outcome, after)) : Loopless after
  | redirect {session : Session} (prior : Loopless session) (sink : Sink) :
      Loopless { session with machine := { session.machine with sink } }
  | limitCalls {session : Session} (prior : Loopless session) (callLimit : Nat) :
      Loopless { session with machine := { session.machine with callLimit } }

/-- A session that keeps brief functions only. -/
def Brief (session : Session) : Prop :=
  ∃ bound, session.machine.store.Brief bound

/-- From a brief session a loopless text finishes, and the session is brief then. -/
theorem Brief.run (brief : session.Brief) (plain : LooplessText source) :
    ∃ fuel outcome after, session.run fuel source = some (outcome, after) ∧ after.Brief := by
  obtain ⟨bound, stored⟩ := brief
  by_cases accepted : (session.program source).Accepted
  · have program : Stmt.LooplessAll (session.program source).statements := accepted.loopless plain
    have loaded : (session.loaded source).store.Brief
        (max bound (sizeOf (session.program source).statements)) :=
      Store.Brief.mono stored (Nat.le_max_left _ _)
    have limit : (session.loaded source).callLimit ≤
        (session.loaded source).callDepth + session.machine.callLimit := Nat.le_add_left _ _
    obtain ⟨machine, kept, ended⟩ := Eval.interpret_finishes loaded limit program
      (Nat.le_max_right _ _) (Nat.le_refl _)
    rcases ended with ended | ⟨error, ended⟩
    · exact ⟨_, _, _, by rw [run_of_accepted accepted, ended, settle], _, kept⟩
    · exact ⟨_, _, _, by rw [run_of_accepted accepted, ended, settle], _, kept⟩
  · exact ⟨0, _, _, run_eq_refusal accepted, bound, stored⟩

/-- Loopless texts leave a session brief. -/
theorem Loopless.brief (loopless : session.Loopless) : session.Brief := by
  induction loopless with
  | start clock callLimit => exact ⟨0, Machine.start_brief clock callLimit⟩
  | @run session after fuel source outcome _ plain ended inductionHypothesis =>
    obtain ⟨enough, result, later, finished, brief⟩ := inductionHypothesis.run plain
    -- Both runs come to what a run with the fuel of both comes to.
    have here := run_of_more_fuel ended enough
    have there := run_of_more_fuel finished fuel
    rw [Nat.add_comm, here] at there
    cases there
    exact brief
  | redirect _ _ inductionHypothesis | limitCalls _ _ inductionHypothesis =>
    exact inductionHypothesis

theorem Loopless.run_finishes (loopless : session.Loopless) (plain : LooplessText source) :
    ∃ fuel outcome after, after.Loopless ∧
      ∀ extra, session.run (extra + fuel) source = some (outcome, after) := by
  obtain ⟨fuel, outcome, after, ended, _⟩ := loopless.brief.run plain
  exact ⟨fuel, outcome, after, .run loopless plain ended, run_of_more_fuel ended⟩

theorem Loopless.report_finishes (loopless : session.Loopless) (plain : LooplessText source) :
    ∃ fuel report after, after.Loopless ∧ session.report fuel source = some (report, after) := by
  have emptied : session.takeOutput.2.Loopless := .redirect loopless _
  obtain ⟨fuel, outcome, after, later, ended⟩ := emptied.run_finishes plain
  have ended := ended 0
  rw [Nat.zero_add] at ended
  exact ⟨fuel, ⟨source, outcome, _⟩, after, later, report_eq_some_iff.mpr ⟨ended, rfl, rfl⟩⟩

theorem Loopless.transcript_finishes (loopless : session.Loopless)
    (plain : ∀ source ∈ sources, LooplessText source) :
    ∃ fuel reports, session.transcript fuel sources = some reports := by
  induction sources generalizing session with
  | nil => exact ⟨0, [], rfl⟩
  | cons source rest inductionHypothesis =>
    rw [List.forall_mem_cons] at plain
    obtain ⟨fuel, report, after, later, reported⟩ := loopless.report_finishes plain.1
    obtain ⟨further, reports, others⟩ := inductionHypothesis later plain.2
    have reportedToo := report_of_more_fuel reported further
    have othersToo := transcript_of_more_fuel others fuel
    rw [Nat.add_comm] at othersToo
    exact ⟨further + fuel, report :: reports,
      transcript_cons_eq_some_iff.mpr ⟨report, after, reports, reportedToo, othersToo, rfl⟩⟩

end Session

/-- Without loops every run finishes. In a session of loopless texts, with whatever call limit, each
further loopless text comes to an outcome that no more fuel changes, and so does each sequence of
such texts. -/
theorem loopless_runs_finish {session : Session} (loopless : session.Loopless) :
    (∀ source, LooplessText source → ∃ fuel outcome after,
      ∀ extra, session.run (extra + fuel) source = some (outcome, after)) ∧
    (∀ sources, (∀ source ∈ sources, LooplessText source) → ∃ fuel reports,
      ∀ extra, session.transcript (extra + fuel) sources = some reports) := by
  constructor
  · intro source plain
    obtain ⟨fuel, outcome, after, _, ended⟩ := loopless.run_finishes plain
    exact ⟨fuel, outcome, after, ended⟩
  · intro sources plain
    obtain ⟨fuel, reports, ended⟩ := loopless.transcript_finishes plain
    exact ⟨fuel, reports, Session.transcript_of_more_fuel ended⟩

/-- A class of an earlier text whose initializer makes further instances, through another method, is
stopped by the call limit. -/
theorem loopless_runs_finish_initializer :
    ∃ fuel reports,
      (∀ extra, (Session.start (fun _ => 0) 3).transcript (extra + fuel)
        ["class A \x7b init() \x7b this.more(); \x7d more() \x7b A(); \x7d \x7d", "A();"] =
        some reports) ∧
      reports.map (·.outcome.overflows) = [false, true] := by
  have plain : ∀ source ∈ ["class A \x7b init() \x7b this.more(); \x7d more() \x7b A(); \x7d \x7d",
      "A();"], LooplessText source := by
    decide +kernel
  have seen : ((Session.start (fun _ => 0) 3).transcript 40
      ["class A \x7b init() \x7b this.more(); \x7d more() \x7b A(); \x7d \x7d", "A();"]).map
      (fun reports => reports.map (·.outcome.overflows)) = some [false, true] := by
    decide +kernel
  obtain ⟨shown, ended, overflows⟩ := Option.map_eq_some_iff.mp seen
  obtain ⟨fuel, reports, finishes⟩ := (loopless_runs_finish (.start (fun _ => 0) 3)).2 _ plain
  have same := Session.transcript_of_more_fuel ended fuel
  rw [Nat.add_comm, finishes 40] at same
  obtain rfl := Option.some.inj same
  exact ⟨fuel, reports, finishes, overflows⟩

end LoxLang
