import LoxLang.Proofs.Parsing.Joining
import LoxLang.Proofs.Scope.Moved
import LoxLang.Proofs.Session.Reachable

/-!
# Programs of joined texts

The static stages take two accepted texts that are joined by a newline as they take each of them:
the program is that of the first and then that of the second further down, identities go on where
the first text left off, and distances are recorded for both. Whether a text is accepted does not
depend on the identities that it gets.
-/

namespace LoxLang

namespace Program

/-- A text that is read without a diagnostic has a reading. -/
theorem reads_of_read {source : String} {firstId : Nat}
    (read : (ofSource source firstId).diagnostics = []) :
    scanDiagnostics (scan source) = [] ∧
      StmtReads (.program (ofSource source firstId).statements) ⟨sourceTokens source, firstId⟩
        ⟨[], (ofSource source firstId).nextId⟩ := by
  simp only [ofSource, List.append_eq_nil_iff, List.map_eq_nil_iff] at read
  have reads := parse_reads read.2
  rw [Place.ofTokens, takeWhile_scannedTokens] at reads
  exact ⟨read.1, reads⟩

/-- A text that has a reading is read as that. -/
theorem ofSource_eq_of_reads {source : String} {firstId : Nat} {trees : List Stmt} {after : Place}
    (clean : scanDiagnostics (scan source) = [])
    (reads : StmtReads (.program trees) ⟨sourceTokens source, firstId⟩ after) :
    ofSource source firstId =
      { statements := trees, diagnostics := [], nextId := after.nextId } := by
  rw [← takeWhile_scannedTokens] at reads
  unfold ofSource
  simp only [parse_eq_of_reads reads, clean, List.map_nil, List.append_nil]

/-- A text that gets later identities is read as the same trees with later identities. -/
theorem ofSource_later {source : String} (read : (ofSource source 0).diagnostics = [])
    (firstId : Nat) :
    ofSource source firstId =
      { statements := Stmt.movedAll ⟨0, firstId⟩ (ofSource source 0).statements
        diagnostics := []
        nextId := (ofSource source 0).nextId + firstId } := by
  obtain ⟨clean, reads⟩ := reads_of_read read
  have moved := reads.moved ⟨0, firstId⟩ (.inl (.inr rfl))
  simp only [Place.moved, Token.map_moved_zero, List.append_nil, Nat.zero_add] at moved
  exact ofSource_eq_of_reads clean moved

/-- Identities do not matter for whether a text is accepted. -/
theorem Accepted.later {source : String} (accepted : (ofSource source 0).Accepted)
    (firstId : Nat) : (ofSource source firstId).Accepted := by
  rw [ofSource_later accepted.read firstId]
  exact ⟨rfl, by rw [resolve_moved_errors, accepted.resolved, List.map_nil]⟩

/-- A text further down is read as the same trees there. -/
theorem ofSource_movedDown {first second : String} {firstId : Nat}
    (read : (ofSource second firstId).diagnostics = []) :
    ofSource (movedDown first second) firstId =
      { statements := Stmt.movedAll (.down (linesBefore first)) (ofSource second firstId).statements
        diagnostics := []
        nextId := (ofSource second firstId).nextId } := by
  obtain ⟨clean, reads⟩ := reads_of_read read
  have moved := reads.moved (.down (linesBefore first)) (.inl (.inr rfl))
  simp only [Place.moved, Shift.down, List.append_nil, ← sourceTokens_movedDown] at moved
  exact ofSource_eq_of_reads (scanDiagnostics_movedDown first clean) moved

theorem Accepted.movedDown {second : String} {firstId : Nat}
    (accepted : (ofSource second firstId).Accepted) (first : String) :
    (ofSource (movedDown first second) firstId).Accepted := by
  rw [ofSource_movedDown accepted.read]
  exact ⟨rfl, by rw [resolve_moved_errors, accepted.resolved, List.map_nil]⟩

section Joined

variable {first second : String} {firstId : Nat}
  (before : (ofSource first firstId).Accepted)
  (behind : (ofSource second (ofSource first firstId).nextId).Accepted)
include before behind

/-- Joined texts are read as the first and then the second further down. -/
theorem ofSource_joined :
    ofSource (joined first second) firstId =
      { statements := (ofSource first firstId).statements ++
          Stmt.movedAll (.down (linesBefore first))
            (ofSource second (ofSource first firstId).nextId).statements
        diagnostics := []
        nextId := (ofSource second (ofSource first firstId).nextId).nextId } := by
  obtain ⟨cleanBefore, readsBefore⟩ := reads_of_read before.read
  obtain ⟨cleanBehind, readsBehind⟩ := reads_of_read behind.read
  have moved := readsBehind.moved (.down (linesBefore first)) (.inl (.inr rfl))
  simp only [Place.moved, List.append_nil] at moved
  have whole := readsBefore.program_append moved
  simp only [Shift.down, ← sourceTokens_joined cleanBefore] at whole
  exact ofSource_eq_of_reads (scanDiagnostics_joined cleanBefore second cleanBehind) whole

theorem Accepted.joined : (ofSource (joined first second) firstId).Accepted := by
  rw [ofSource_joined before behind]
  refine ⟨rfl, ?_⟩
  rw [(resolve_append _ _).1, resolve_moved_errors, before.resolved, behind.resolved]
  rfl

/-- The distances of both texts are recorded. -/
theorem distances_joined (id : Nat) :
    (resolve (ofSource (joined first second) firstId).statements).distances[id]? =
      (resolve (ofSource second (ofSource first firstId).nextId).statements).distances[id]?.or
        (resolve (ofSource first firstId).statements).distances[id]? := by
  rw [ofSource_joined before behind, (resolve_append _ _).2, resolve_moved_distances rfl]

end Joined

end Program

end LoxLang
