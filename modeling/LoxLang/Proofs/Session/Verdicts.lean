import LoxLang.Proofs.Session.Refusals

/-!
# What a run can come to

A finished run was refused by a static stage, was stopped by a fault or was completed. A `Verdict`
says what each of these means for its diagnostics, its exit status and the session that is left, and
`verdict_unique` that every finished run is described by exactly one of them. A text is refused if
and only if a static stage reports something, and then its run finishes with whatever fuel.
-/

namespace LoxLang

/-- The three things that a finished run can have come to. -/
inductive Verdict where
  | refused
  | stopped
  | completed
deriving DecidableEq, Repr

/-- The exit status that shows a verdict to a shell. -/
def Verdict.status : Verdict → Nat
  | refused => 65
  | stopped => 70
  | completed => 0

/-- What a text is refused for: first what the scanner reports and then what the parser reports, or
else what scope resolution reports. -/
def Diagnostic.AllStatic (diagnostics : List Diagnostic) : Prop :=
  (∃ scanned parsed, diagnostics = scanned ++ parsed ∧
    (∀ diagnostic ∈ scanned, diagnostic.stage = .scan) ∧
    ∀ diagnostic ∈ parsed, diagnostic.stage = .parse) ∨
  ∀ diagnostic ∈ diagnostics, diagnostic.stage = .resolve

/-- What a verdict says of the outcome of a run and of the session that it leaves. -/
def Verdict.Describes (session : Session) (outcome : Outcome) (after : Session) : Verdict → Prop
  | refused => outcome.ran = false ∧ outcome.exitStatus = 65 ∧ outcome.diagnostics ≠ [] ∧
      Diagnostic.AllStatic outcome.diagnostics ∧ after.machine = session.machine
  | stopped => outcome.ran = true ∧ outcome.exitStatus = 70 ∧
      ∃ diagnostic, outcome.diagnostics = [diagnostic] ∧ diagnostic.stage = .runtime
  | completed => outcome.ran = true ∧ outcome.exitStatus = 0 ∧ outcome.diagnostics = []

namespace Verdict

variable {session after : Session} {outcome : Outcome} {verdict other : Verdict}

theorem Describes.exitStatus (describes : verdict.Describes session outcome after) :
    outcome.exitStatus = verdict.status := by
  cases verdict with
  | refused => exact describes.2.1
  | stopped => exact describes.2.1
  | completed => exact describes.2.1

/-- Different verdicts show in different exit statuses, so no two describe one run. -/
theorem Describes.unique (describes : verdict.Describes session outcome after)
    (also : other.Describes session outcome after) : verdict = other := by
  have same : verdict.status = other.status := describes.exitStatus.symm.trans also.exitStatus
  cases verdict <;> cases other <;> first | rfl | cases same

/-- A run succeeded if and only if a shell is told so. -/
theorem Describes.isSuccess_iff (describes : verdict.Describes session outcome after) :
    outcome.isSuccess = true ↔ outcome.exitStatus = 0 := by
  unfold Outcome.isSuccess
  cases verdict with
  | refused =>
    obtain ⟨_, status, reported, _⟩ := describes
    simp [status, reported]
  | stopped =>
    obtain ⟨_, status, diagnostic, stopped, _⟩ := describes
    simp [status, stopped]
  | completed =>
    obtain ⟨_, status, silent⟩ := describes
    simp [status, silent]

end Verdict

theorem scanDiagnostics_stage {items : List ScanItem} {diagnostic : Diagnostic}
    (member : diagnostic ∈ scanDiagnostics items) : diagnostic.stage = .scan := by
  obtain ⟨item, _, shown⟩ := List.mem_filterMap.mp member
  cases item with
  | token scanned => cases shown
  | fault line cause =>
    cases shown
    rfl

/-- A text is refused for what the static stages report, in the order of the stages. -/
theorem Program.refusal_allStatic (source : String) (firstId : Nat) :
    Diagnostic.AllStatic (ofSource source firstId).refusal := by
  unfold refusal
  split
  · right
    intro diagnostic member
    obtain ⟨error, _, rfl⟩ := List.mem_map.mp member
    rfl
  · left
    refine ⟨_, _, rfl, fun diagnostic member => scanDiagnostics_stage member, ?_⟩
    intro diagnostic member
    obtain ⟨error, _, rfl⟩ := List.mem_map.mp member
    rfl

/-- A text that is not accepted is refused for something. -/
theorem Program.refusal_ne_nil {program : Program} (refused : ¬ program.Accepted) :
    program.refusal ≠ [] := by
  unfold refusal
  by_cases read : program.diagnostics = []
  · have unresolved : (resolve program.statements).errors ≠ [] :=
      fun resolved => refused ⟨read, resolved⟩
    simp [read, resolveDiagnostics, unresolved]
  · simp [read]

namespace Session

variable {session after : Session} {source : String} {fuel : Nat} {outcome : Outcome}

/-- The scanner, the parser or scope resolution reports something on a text. -/
def ReportsStatically (session : Session) (source : String) : Prop :=
  scanDiagnostics (scan source) ≠ [] ∨
    (parse (scannedTokens (scan source)) session.nextId).errors ≠ [] ∨
    (resolve (session.program source).statements).errors ≠ []

/-- A text is accepted unless a static stage reports something. -/
theorem not_accepted_iff :
    ¬ (session.program source).Accepted ↔ session.ReportsStatically source := by
  have accepts : (session.program source).Accepted ↔ (session.program source).diagnostics = [] ∧
      (resolve (session.program source).statements).errors = [] :=
    ⟨fun accepted => ⟨accepted.read, accepted.resolved⟩, fun clean => ⟨clean.1, clean.2⟩⟩
  unfold ReportsStatically
  rw [accepts, program, Program.ofSource_read_iff, and_assoc, not_and_or, not_and_or]

/-- A text on which a static stage reports something is refused. -/
theorem refused_of_reports (reports : session.ReportsStatically source)
    (ended : session.run fuel source = some (outcome, after)) :
    Verdict.refused.Describes session outcome after := by
  have refused := not_accepted_iff.mpr reports
  rw [run_eq_refusal refused] at ended
  cases ended
  exact ⟨rfl, rfl, Program.refusal_ne_nil refused,
    Program.refusal_allStatic source session.nextId, rfl⟩

/-- A text on which no static stage reports anything is stopped by a fault or completed. -/
theorem started_of_accepted (accepted : (session.program source).Accepted)
    (ended : session.run fuel source = some (outcome, after)) :
    Verdict.stopped.Describes session outcome after ∨
      Verdict.completed.Describes session outcome after := by
  obtain ⟨diagnostics, ran⟩ := outcome
  rcases run_cases ended with ⟨refused, _⟩ | ⟨_, started, _, ending⟩
  · exact (refused accepted).elim
  · obtain rfl : ran = true := started
    rcases ending with ⟨_, reported⟩ | ⟨error, _, reported⟩
    · obtain rfl : diagnostics = [] := reported
      exact .inr ⟨rfl, rfl, rfl⟩
    · obtain rfl : diagnostics = [error.diagnostic] := reported
      exact .inl ⟨rfl, rfl, error.diagnostic, rfl, rfl⟩

end Session

/-- Every finished run is described by exactly one verdict. It is refused, with the machine exactly
as before, if and only if a static stage reports something, and then it finishes with whatever fuel;
and it succeeds if and only if its exit status is zero. -/
theorem verdict_unique (session : Session) (source : String) (fuel : Nat) :
    (∀ outcome after, session.run fuel source = some (outcome, after) →
      (∃! verdict : Verdict, verdict.Describes session outcome after) ∧
      (Verdict.refused.Describes session outcome after ↔ session.ReportsStatically source) ∧
      (outcome.isSuccess = true ↔ outcome.exitStatus = 0)) ∧
    (session.ReportsStatically source →
      ∃ outcome after, session.run fuel source = some (outcome, after)) := by
  constructor
  · intro outcome after ended
    have described : ∃ verdict : Verdict, verdict.Describes session outcome after ∧
        (verdict = .refused → session.ReportsStatically source) := by
      by_cases accepted : (session.program source).Accepted
      · rcases Session.started_of_accepted accepted ended with stopped | completed
        · exact ⟨.stopped, stopped, nofun⟩
        · exact ⟨.completed, completed, nofun⟩
      · have reports := Session.not_accepted_iff.mp accepted
        exact ⟨.refused, Session.refused_of_reports reports ended, fun _ => reports⟩
    obtain ⟨verdict, describes, reports⟩ := described
    refine ⟨⟨verdict, describes, fun other also => also.unique describes⟩, ?_,
      describes.isSuccess_iff⟩
    constructor
    · exact fun refused => reports (describes.unique refused)
    · exact fun reported => Session.refused_of_reports reported ended
  · intro reports
    exact ⟨_, _, Session.run_eq_refusal (Session.not_accepted_iff.mpr reports)⟩

/-- A text that the scanner and the parser both find fault with is refused, for both in this order,
and leaves the machine of an earlier text as it was. -/
theorem verdict_unique_refused :
    ∃ earlier session outcome after,
      (Session.start (fun _ => 0) 4).run 9 "var a = nil;" = some (earlier, session) ∧
      session.run 0 "print @ a" = some (outcome, after) ∧
      outcome.diagnostics.map Diagnostic.stage = [.scan, .parse] ∧
      outcome.exitStatus = 65 ∧ outcome.isSuccess = false ∧ after.machine = session.machine := by
  have seen : ((Session.start (fun _ => 0) 4).run 9 "var a = nil;").bind
      (fun ended => (ended.2.run 0 "print @ a").map fun further =>
        further.1.diagnostics.map Diagnostic.stage) = some [.scan, .parse] := by
    decide +kernel
  obtain ⟨⟨earlier, session⟩, ended, shown⟩ := Option.bind_eq_some_iff.mp seen
  obtain ⟨⟨outcome, after⟩, further, stages⟩ := Option.map_eq_some_iff.mp shown
  obtain ⟨_, refused, succeeds⟩ := (verdict_unique session "print @ a" 0).1 outcome after further
  have reports : session.ReportsStatically "print @ a" := .inl (by decide +kernel)
  obtain ⟨_, status, _, _, same⟩ := refused.mpr reports
  refine ⟨earlier, session, outcome, after, ended, further, stages, status, ?_, same⟩
  rw [status] at succeeds
  simpa using succeeds

end LoxLang
