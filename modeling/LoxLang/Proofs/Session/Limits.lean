import LoxLang.Proofs.Machine.Outlasting
import LoxLang.Proofs.Session.Refusals

/-!
# Sessions with a higher limit

Two sessions that differ in their call limit run the same texts. As long as none of them overflows
under the lower limit the sessions stay so, and a host sees the same of both. Of the first text that
overflows it sees, under the higher limit, at least what was written under the lower one. With equal
limits the same argument says that fuel is only a bound: a run that finishes is the same with more.
-/

namespace LoxLang

/-- A run stopped because its calls were nested too deeply. -/
def Outcome.overflows (outcome : Outcome) : Bool :=
  outcome.diagnostics.any (·.message = RuntimeFault.stackOverflow.message)

namespace Session

variable {session after : Session} {source : String} {sources : List String}
  {outcome : Outcome} {report : Report} {reports others : List Report}
  {fuel extra higher count : Nat}

/-- The same session with another call limit. -/
def withLimit (session : Session) (callLimit : Nat) : Session :=
  { session with machine := session.machine.withLimit callLimit }

theorem report_eq_some_iff :
    session.report fuel source = some (report, after) ↔
      session.takeOutput.2.run fuel source = some (report.outcome, after) ∧
        report.source = source ∧ report.text = after.machine.sink.written := by
  obtain ⟨reportSource, outcome, text⟩ := report
  unfold Session.report
  constructor
  · intro ended
    obtain ⟨⟨found, last⟩, ran, same⟩ := Option.map_eq_some_iff.mp ended
    cases same
    exact ⟨ran, rfl, rfl⟩
  · rintro ⟨ran, rfl, rfl⟩
    rw [ran]
    rfl

theorem transcript_cons_eq_some_iff {rest : List String} :
    session.transcript fuel (source :: rest) = some reports ↔
      ∃ first after further, session.report fuel source = some (first, after) ∧
        after.transcript fuel rest = some further ∧ reports = first :: further := by
  simp only [transcript, Option.bind_eq_bind, Option.bind_eq_some_iff, Prod.exists]
  constructor
  · rintro ⟨first, after, reported, further, others, same⟩
    exact ⟨first, after, further, reported, others, (Option.some.inj same).symm⟩
  · rintro ⟨first, after, further, reported, others, rfl⟩
    exact ⟨first, after, reported, further, others, rfl⟩

/-- A finished run is the same with more fuel. -/
theorem run_of_more_fuel (ended : session.run fuel source = some (outcome, after)) (extra : Nat) :
    session.run (extra + fuel) source = some (outcome, after) := by
  by_cases accepted : (session.program source).Accepted
  · have finished : Eval.interpret fuel (session.program source).statements
        (session.loaded source) ≠ .outOfFuel := by
      intro stopped
      rw [run_of_accepted accepted, stopped] at ended
      cases ended
    rw [run_of_accepted accepted, Eval.interpret_of_more_fuel finished extra,
      ← run_of_accepted accepted]
    exact ended
  · rw [run_eq_refusal accepted] at ended ⊢
    exact ended

theorem report_of_more_fuel (ended : session.report fuel source = some (report, after))
    (extra : Nat) : session.report (extra + fuel) source = some (report, after) := by
  rw [report_eq_some_iff] at ended ⊢
  exact ⟨run_of_more_fuel ended.1 extra, ended.2⟩

/-- Finished texts are reported alike with more fuel. -/
theorem transcript_of_more_fuel (ended : session.transcript fuel sources = some reports)
    (extra : Nat) : session.transcript (extra + fuel) sources = some reports := by
  induction sources generalizing session reports with
  | nil => exact ended
  | cons source rest inductionHypothesis =>
    rw [transcript_cons_eq_some_iff] at ended ⊢
    obtain ⟨first, after, further, reported, others, same⟩ := ended
    exact ⟨first, after, further, report_of_more_fuel reported extra, inductionHypothesis others,
      same⟩

/-- A run with a higher limit and more fuel comes to the same, unless it would have overflowed; then
it goes on writing behind what was written by that time. -/
theorem run_outlasted (within : session.machine.callLimit ≤ higher)
    (ended : session.run fuel source = some (outcome, after)) (extra : Nat) :
    (after.machine.callLimit ≤ higher ∧
      (session.withLimit higher).run (extra + fuel) source =
        some (outcome, after.withLimit higher)) ∨
    (outcome.overflows = true ∧
      ∀ result later, (session.withLimit higher).run (extra + fuel) source =
          some (result, later) →
        ∃ more, later.machine.sink.written = after.machine.sink.written ++ more) := by
  have read : (session.withLimit higher).program source = session.program source := rfl
  have loads : (session.withLimit higher).loaded source =
      (session.loaded source).withLimit higher := rfl
  by_cases accepted : (session.program source).Accepted
  · have loadedWithin : (session.loaded source).callLimit ≤ higher := within
    have outlasted := Eval.interpret_outlasted extra fuel (session.program source).statements
      loadedWithin
    have acceptedToo : ((session.withLimit higher).program source).Accepted := read ▸ accepted
    rw [run_of_accepted accepted] at ended
    rw [run_of_accepted acceptedToo, read, loads]
    generalize Eval.interpret fuel (session.program source).statements (session.loaded source) =
      ending at ended outlasted
    generalize Eval.interpret (extra + fuel) (session.program source).statements
      ((session.loaded source).withLimit higher) = image at outlasted ⊢
    cases outlasted with
    | value result kept =>
      cases ended
      exact .inl ⟨kept, rfl⟩
    | fault error kept =>
      cases ended
      exact .inl ⟨kept, rfl⟩
    | overflow token lower writes =>
      cases ended
      right
      constructor
      · simp [Outcome.overflows, RuntimeError.diagnostic, Diagnostic.onToken]
      · intro result later finished
        cases image with
        | value _ machine =>
          cases finished
          exact writes
        | fault error machine =>
          cases finished
          exact writes
        | outOfFuel => cases finished
    | outOfFuel => cases ended
  · have refusedToo : ¬ ((session.withLimit higher).program source).Accepted := read ▸ accepted
    rw [run_eq_refusal accepted] at ended
    rw [run_eq_refusal refusedToo, read]
    cases ended
    exact .inl ⟨within, rfl⟩

/-- The same for what a host sees of a run. -/
theorem report_outlasted (within : session.machine.callLimit ≤ higher)
    (ended : session.report fuel source = some (report, after)) (extra : Nat) :
    (after.machine.callLimit ≤ higher ∧
      (session.withLimit higher).report (extra + fuel) source =
        some (report, after.withLimit higher)) ∨
    (report.outcome.overflows = true ∧
      ∀ other later, (session.withLimit higher).report (extra + fuel) source =
          some (other, later) →
        ∃ more, other.text = report.text ++ more) := by
  obtain ⟨ran, named, shown⟩ := report_eq_some_iff.mp ended
  have emptied : (session.withLimit higher).takeOutput.2 = session.takeOutput.2.withLimit higher :=
    rfl
  have withinStill : session.takeOutput.2.machine.callLimit ≤ higher := within
  rcases run_outlasted withinStill ran extra with ⟨kept, same⟩ | ⟨overflows, behind⟩
  · left
    constructor
    · exact kept
    · rw [report_eq_some_iff, emptied]
      exact ⟨same, named, shown⟩
  · right
    constructor
    · exact overflows
    · intro other later reported
      obtain ⟨finished, _, text⟩ := report_eq_some_iff.mp reported
      rw [text, shown]
      exact behind other.outcome later finished

/-- Texts before the first overflow are reported alike with a higher limit. -/
theorem transcript_outlasted (within : session.machine.callLimit ≤ higher)
    (ended : session.transcript fuel sources = some reports)
    (quiet : ∀ report ∈ reports.take count, report.outcome.overflows = false) (extra : Nat) :
    (session.withLimit higher).transcript (extra + fuel) (sources.take count) =
      some (reports.take count) := by
  induction sources generalizing session reports count with
  | nil =>
    obtain rfl := Option.some.inj ended
    simp [transcript]
  | cons source rest inductionHypothesis =>
    obtain ⟨first, after, further, reported, others, rfl⟩ := transcript_cons_eq_some_iff.mp ended
    cases count with
    | zero => rfl
    | succ count =>
      simp only [List.take_succ_cons, List.forall_mem_cons] at quiet ⊢
      rcases report_outlasted within reported extra with ⟨kept, same⟩ | ⟨overflows, _⟩
      · rw [transcript_cons_eq_some_iff]
        exact ⟨first, _, _, same, inductionHypothesis kept others quiet.2, rfl⟩
      · rw [quiet.1] at overflows
        cases overflows

/-- The first texts are reported alike whether or not others follow. -/
theorem transcript_take (ended : session.transcript fuel sources = some reports) (count : Nat) :
    session.transcript fuel (sources.take count) = some (reports.take count) := by
  induction sources generalizing session reports count with
  | nil =>
    obtain rfl := Option.some.inj ended
    simp [transcript]
  | cons source rest inductionHypothesis =>
    obtain ⟨first, after, further, reported, others, rfl⟩ := transcript_cons_eq_some_iff.mp ended
    cases count with
    | zero => rfl
    | succ count =>
      rw [List.take_succ_cons, List.take_succ_cons, transcript_cons_eq_some_iff]
      exact ⟨first, after, _, reported, inductionHypothesis others count, rfl⟩

/-- With a higher limit, the first text that overflows writes at least as much. -/
theorem transcript_writes_behind (within : session.machine.callLimit ≤ higher)
    (ended : session.transcript fuel sources = some reports)
    (quiet : ∀ report ∈ reports.take count, report.outcome.overflows = false)
    (present : reports[count]? = some report)
    (finished : (session.withLimit higher).transcript (extra + fuel) sources = some others) :
    ∃ other more, others[count]? = some other ∧ other.text = report.text ++ more := by
  induction sources generalizing session reports others count with
  | nil =>
    obtain rfl := Option.some.inj ended
    cases present
  | cons source rest inductionHypothesis =>
    obtain ⟨first, after, further, reported, rest, rfl⟩ := transcript_cons_eq_some_iff.mp ended
    obtain ⟨other, later, remaining, also, restToo, rfl⟩ := transcript_cons_eq_some_iff.mp finished
    rcases report_outlasted within reported extra with ⟨kept, same⟩ | ⟨overflows, behind⟩
    · rw [also] at same
      cases same
      cases count with
      | zero =>
        obtain rfl : first = report := Option.some.inj present
        exact ⟨first, "", rfl, String.append_empty.symm⟩
      | succ count =>
        rw [List.getElem?_cons_succ] at present
        rw [List.take_succ_cons, List.forall_mem_cons] at quiet
        simp only [List.getElem?_cons_succ]
        exact inductionHypothesis kept rest quiet.2 present restToo
    · cases count with
      | zero =>
        obtain rfl : first = report := Option.some.inj present
        obtain ⟨more, text⟩ := behind other later also
        exact ⟨other, more, rfl, text⟩
      | succ count =>
        rw [List.take_succ_cons, List.forall_mem_cons, overflows] at quiet
        cases quiet.1

end Session

/-- A higher limit cannot be seen before a text overflows. The texts before the first one that
overflows finish with the higher limit too and are reported alike; and if all texts finish with it,
that one writes, first of all, what it writes with the lower limit. -/
theorem higher_limit_invisible (session : Session) {limit higher : Nat} (raised : limit ≤ higher)
    {fuel : Nat} {sources : List String} {reports : List Session.Report}
    (ended : (session.withLimit limit).transcript fuel sources = some reports) {count : Nat}
    (quiet : ∀ report ∈ reports.take count, report.outcome.overflows = false) :
    (session.withLimit higher).transcript fuel (sources.take count) = some (reports.take count) ∧
    ∀ otherFuel others, (session.withLimit higher).transcript otherFuel sources = some others →
      others.take count = reports.take count ∧
      ∀ report, reports[count]? = some report →
        ∃ other more, others[count]? = some other ∧ other.text = report.text ++ more := by
  have within : (session.withLimit limit).machine.callLimit ≤ higher := raised
  have alike (extra : Nat) : (session.withLimit higher).transcript (extra + fuel)
      (sources.take count) = some (reports.take count) :=
    Session.transcript_outlasted within ended quiet extra
  constructor
  · have here := alike 0
    rw [Nat.zero_add] at here
    exact here
  · intro otherFuel others finished
    -- Both sessions are compared with the fuel of both.
    have finishedToo := Session.transcript_of_more_fuel finished fuel
    rw [Nat.add_comm] at finishedToo
    constructor
    · have first := Session.transcript_take finishedToo count
      rw [alike otherFuel] at first
      exact (Option.some.inj first).symm
    · intro report present
      exact Session.transcript_writes_behind within ended quiet present finishedToo

/-- A function that calls itself once more overflows a limit of one; the text before that says the
same with a limit of two, and the text that overflowed goes on. -/
theorem higher_limit_invisible_recursive :
    let sources :=
      ["fun f(again) \x7b print again; if (again) f(false); \x7d", "f(false);", "f(true);"]
    ∃ reports others,
      (Session.start (fun _ => 0) 1).transcript 30 sources = some reports ∧
      (Session.start (fun _ => 0) 2).transcript 40 sources = some others ∧
      reports.map (·.outcome.overflows) = [false, false, true] ∧
      reports.map (·.text) = ["", "false\n", "true\n"] ∧
      others.take 2 = reports.take 2 ∧
      ∃ other more, others[2]? = some other ∧ other.text = "true\n" ++ more := by
  intro sources
  have lower : ((Session.start (fun _ => 0) 1).transcript 30 sources).map
      (fun reports => (reports.map (·.outcome.overflows), reports.map (·.text))) =
      some ([false, false, true], ["", "false\n", "true\n"]) := by
    decide +kernel
  have finishes : ((Session.start (fun _ => 0) 2).transcript 40 sources).isSome = true := by
    decide +kernel
  obtain ⟨reports, ended, shown⟩ := Option.map_eq_some_iff.mp lower
  obtain ⟨overflows, texts⟩ := Prod.mk.inj shown
  obtain ⟨others, finished⟩ := Option.isSome_iff_exists.mp finishes
  have quiet : ∀ report ∈ reports.take 2, report.outcome.overflows = false := by
    intro report member
    have flagged := List.mem_map_of_mem (f := (·.outcome.overflows)) member
    rw [List.map_take, overflows] at flagged
    simpa using flagged
  have third : (reports.map (·.text))[2]? = some "true\n" := by
    rw [texts]
    rfl
  rw [List.getElem?_map, Option.map_eq_some_iff] at third
  obtain ⟨report, present, text⟩ := third
  obtain ⟨_, invisible⟩ := higher_limit_invisible (.start (fun _ => 0) 0) (by decide : 1 ≤ 2)
    ended quiet
  obtain ⟨same, behind⟩ := invisible 40 others finished
  have further := behind report present
  rw [text] at further
  exact ⟨reports, others, ended, finished, overflows, texts, same, further⟩

end LoxLang
