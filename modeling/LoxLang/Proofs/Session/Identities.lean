import LoxLang.Proofs.Parsing.Issuing
import LoxLang.Proofs.Session.Receivers
import LoxLang.Proofs.Session.Refusals

/-!
# Identities over the life of a session

A session numbers the occurrences of its texts consecutively, refused texts included, and keys the
scope distances of all of them in one table. `Session.Becomes` says which sessions one may become.
Whatever it becomes, its table only gains entries, and those are for identities that no tree had
before (`identities_issued_once`); so a closure from an earlier text refers to where it always did.
-/

namespace LoxLang

/-- The identities in the trees of a text were handed out once, whether or not it is refused. -/
theorem Program.ofSource_issued (source : String) (firstId : Nat) :
    IssuedOnce firstId (ofSource source firstId).nextId
      (Stmt.idsAll (ofSource source firstId).statements) :=
  parse_issued (scannedTokens (scan source)) firstId

/-- Resolution has entries only for identities in the tree. -/
theorem resolve_distances_of_not_mem {program : List Stmt} {id : Nat}
    (absent : id ∉ Stmt.idsAll program) : (resolve program).distances[id]? = none := by
  rw [← Stmt.map_id_occurrencesAll .outside [] program] at absent
  rw [resolve_distances, Occurrence.getElem?_recordAll_of_not_mem absent]
  exact Std.TreeMap.getElem?_emptyc

namespace Session

variable {first session after later : Session} {source : String} {fuel : Nat} {outcome : Outcome}

/-- A session becomes another one through what its host does: it runs texts, whether they are
refused, stop at a fault or reach their end, takes the output elsewhere or sets another limit. -/
inductive Becomes (first : Session) : Session → Prop where
  | refl : Becomes first first
  | run {session after : Session} {fuel : Nat} {source : String} {outcome : Outcome}
      (prior : Becomes first session) (ended : session.run fuel source = some (outcome, after)) :
      Becomes first after
  | redirect {session : Session} (prior : Becomes first session) (sink : Sink) :
      Becomes first { session with machine := { session.machine with sink } }
  | limitCalls {session : Session} (prior : Becomes first session) (callLimit : Nat) :
      Becomes first { session with machine := { session.machine with callLimit } }

theorem Becomes.reachable (becomes : first.Becomes later) (reachable : first.Reachable) :
    later.Reachable := by
  induction becomes with
  | refl => exact reachable
  | run _ ended inductionHypothesis => exact .run inductionHypothesis ended
  | redirect _ sink inductionHypothesis => exact .redirect inductionHypothesis sink
  | limitCalls _ callLimit inductionHypothesis => exact .limitCalls inductionHypothesis callLimit

/-- A finished run of an accepted text leaves the table with which it started. -/
theorem run_distances (accepted : (session.program source).Accepted)
    (ended : session.run fuel source = some (outcome, after)) :
    after.machine.distances = (session.loaded source).distances := by
  obtain ⟨left, leaves, _, same⟩ := run_leaves accepted ended
  have evolved := Eval.executeTopLevel_evolving fuel (session.program source).statements
    (session.loaded source)
  rw [same]
  change (Eval.executeTopLevel fuel (session.program source).statements
    (session.loaded source)).Leaves left at leaves
  cases ending : Eval.executeTopLevel fuel (session.program source).statements
      (session.loaded source) with
  | value result machine =>
    rw [ending] at evolved leaves
    obtain rfl : machine = left := leaves
    exact evolved.distances
  | fault error machine =>
    rw [ending] at evolved leaves
    obtain rfl : machine = left := leaves
    exact evolved.distances
  | outOfFuel =>
    rw [ending] at leaves
    exact leaves.elim

/-- A run hands out further identities and keeps every entry. -/
theorem Sound.run_keeps (sound : session.Sound)
    (ended : session.run fuel source = some (outcome, after)) :
    after.nextId = (session.program source).nextId ∧
      ∀ (id distance : Nat), session.machine.distances[id]? = some distance →
        after.machine.distances[id]? = some distance := by
  rcases run_cases ended with ⟨_, _, rfl⟩ | ⟨accepted, _, counted, _⟩
  · exact ⟨rfl, fun _ _ known => known⟩
  · constructor
    · exact counted
    · intro id distance known
      rw [run_distances accepted ended]
      exact sound.includes accepted id distance known

/-- Identities are never taken back, and entries never change. -/
theorem Becomes.keeps (becomes : first.Becomes later) (reachable : first.Reachable) :
    first.nextId ≤ later.nextId ∧
      ∀ (id distance : Nat), first.machine.distances[id]? = some distance →
        later.machine.distances[id]? = some distance := by
  induction becomes with
  | refl => exact ⟨Nat.le_refl _, fun _ _ known => known⟩
  | @run session after fuel source outcome prior ended inductionHypothesis =>
    obtain ⟨issued, entries⟩ := inductionHypothesis
    obtain ⟨counted, kept⟩ := (prior.reachable reachable).sound.run_keeps ended
    have further := session.nextId_le source
    constructor
    · omega
    · exact fun id distance known => kept id distance (entries id distance known)
  | redirect _ _ inductionHypothesis | limitCalls _ _ inductionHypothesis =>
    exact inductionHypothesis

/-- While an accepted text runs, the table is the one with which it started. -/
theorem Reachable.distances_performed (reachable : session.Reachable)
    (accepted : (session.program source).Accepted) {task : Task} {machine : Machine}
    (performs : session.Performs source fuel task machine) (id : Nat) :
    machine.distances[id]? = (session.loaded source).distances[id]? := by
  obtain ⟨_, _, rooted, _⟩ := reachable.rooted_task accepted performs
  exact rooted.distances id

end Session

/-- Identities are handed out once. Those in the trees that are read from a token list differ from
each other and lie between the first one and the next unused one, also where violations are
reported. Over the life of a session an entry of the table of distances stays as it is: in every
session that it becomes, at every moment of what that one runs, and until the end of a run from each
of its moments on. The trees of a later text have no identity of an earlier tree or table. -/
theorem identities_issued_once :
    (∀ tokens firstId,
      (Stmt.idsAll (parse tokens firstId).statements).Nodup ∧
      ∀ id ∈ Stmt.idsAll (parse tokens firstId).statements,
        firstId ≤ id ∧ id < (parse tokens firstId).nextId) ∧
    (∀ first later : Session, first.Reachable → first.Becomes later →
      ∀ (id distance : Nat), first.machine.distances[id]? = some distance →
        later.machine.distances[id]? = some distance ∧
        ∀ source fuel task machine, (later.program source).Accepted →
          later.Performs source fuel task machine → machine.distances[id]? = some distance) ∧
    (∀ session : Session, session.Reachable → ∀ source fuel outcome after task machine,
      (session.program source).Accepted → session.run fuel source = some (outcome, after) →
      session.Performs source fuel task machine →
      ∀ id : Nat, after.machine.distances[id]? = machine.distances[id]?) ∧
    (∀ first middle later : Session, first.Reachable →
      ∀ source fuel outcome, first.run fuel source = some (outcome, middle) →
      middle.Becomes later → ∀ next, ∀ id ∈ Stmt.idsAll (later.program next).statements,
        id ∉ Stmt.idsAll (first.program source).statements ∧
        (resolve (first.program source).statements).distances[id]? = none ∧
        later.machine.distances[id]? = none) := by
  refine ⟨?_, ?_, ?_, ?_⟩
  · intro tokens firstId
    have issued := parse_issued tokens firstId
    exact ⟨issued.distinct, issued.bounds⟩
  · intro first later reachable becomes id distance known
    have reached := becomes.reachable reachable
    have kept := (becomes.keeps reachable).2 id distance known
    constructor
    · exact kept
    · intro source fuel task machine accepted performs
      rw [reached.distances_performed accepted performs]
      exact reached.sound.includes accepted id distance kept
  · intro session reachable source fuel outcome after task machine accepted ended performs id
    rw [reachable.distances_performed accepted performs, Session.run_distances accepted ended]
  · intro first middle later reachable source fuel outcome ended becomes next id member
    obtain ⟨counted, _⟩ := reachable.sound.run_keeps ended
    have reached : middle.Reachable := .run reachable ended
    have issued := (becomes.keeps reached).1
    have above := ((Program.ofSource_issued next later.nextId).bounds id member).1
    have absent : id ∉ Stmt.idsAll (first.program source).statements := by
      intro present
      have below := ((Program.ofSource_issued source first.nextId).bounds id present).2
      change id < (first.program source).nextId at below
      omega
    refine ⟨absent, resolve_distances_of_not_mem absent, ?_⟩
    exact (becomes.reachable reached).sound.unissued id above

/-- The entry of a first text is the same while that text runs, when it has ended and behind a text
that is refused; the text behind both has an identity that neither of them used. -/
theorem identities_issued_once_refused :
    ∃ outcome middle refusal later,
      (Session.start (fun _ => 0) 4).run 9 "\x7b var a; a; \x7d" = some (outcome, middle) ∧
      middle.run 9 "print (b" = some (refusal, later) ∧ refusal.ran = false ∧
      ((Session.start (fun _ => 0) 4).loaded "\x7b var a; a; \x7d").distances[0]? = some 0 ∧
      later.machine.distances[0]? = some 0 ∧
      (later.loaded "\x7b var c; c; \x7d").distances[0]? = some 0 ∧
      Stmt.idsAll (later.program "\x7b var c; c; \x7d").statements = [2] ∧
      2 ∉ Stmt.idsAll (middle.program "print (b").statements ∧
      later.machine.distances[2]? = none := by
  have seen : ((Session.start (fun _ => 0) 4).run 9 "\x7b var a; a; \x7d").bind
      (fun ended => (ended.2.run 9 "print (b").map fun further =>
        (further.1.ran, ended.2.machine.distances[0]?,
          Stmt.idsAll (further.2.program "\x7b var c; c; \x7d").statements)) =
      some (false, some 0, [2]) := by
    decide +kernel
  obtain ⟨⟨outcome, middle⟩, ended, shown⟩ := Option.bind_eq_some_iff.mp seen
  obtain ⟨⟨refusal, later⟩, further, same⟩ := Option.map_eq_some_iff.mp shown
  simp only [Prod.mk.injEq] at same
  obtain ⟨refused, entry, ids⟩ := same
  have accepted : ((Session.start (fun _ => 0) 4).program "\x7b var a; a; \x7d").Accepted :=
    ⟨by decide +kernel, by decide +kernel⟩
  have reachable : middle.Reachable := .run (.start _ _) ended
  have becomes : middle.Becomes later := .run .refl further
  have next : (later.program "\x7b var c; c; \x7d").Accepted := by
    apply (Program.accepted_renumbered _ later.nextId).mpr
    exact ⟨by decide +kernel, by decide +kernel⟩
  obtain ⟨_, entries, running, unused⟩ := identities_issued_once
  have loaded := running _ (.start _ _) _ 9 outcome middle _ _ accepted ended .refl 0
  obtain ⟨kept, moments⟩ := entries middle later reachable becomes 0 0 entry
  obtain ⟨absent, _, unknown⟩ := unused middle later later reachable _ 9 refusal further .refl
    "\x7b var c; c; \x7d" 2 (by simp [ids])
  exact ⟨outcome, middle, refusal, later, ended, further, refused, loaded.symm.trans entry, kept,
    moments _ 9 _ _ next .refl, ids, absent, unknown⟩

end LoxLang
