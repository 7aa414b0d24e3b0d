import LoxLang.Proofs.Machine.Hygiene
import LoxLang.Proofs.Scope.Clean
import LoxLang.Proofs.Scope.Renaming
import LoxLang.Proofs.Session.Checked

/-!
# Lexical scoping is hygienic

A local variable or a parameter may be renamed to any identifier that the text does not mention. The
renamed program resolves to the same distances, and a fresh session makes the same of it: the same
output, exit status and diagnostics, save that a fault which is shown at the renamed variable shows
its new name. Only `dump`, which lists the names of all frames, could tell the two apart.
-/

namespace LoxLang

/-- A program with other statements. -/
def Program.withStatements (program : Program) (statements : List Stmt) : Program :=
  { program with statements }

namespace Session

/-- A session that has run nothing and writes to a sink. -/
def startOn (sink : Sink) (clock : Nat → Nat) (callLimit : Nat) : Session :=
  { Session.start clock callLimit with machine := { Machine.start clock callLimit with sink } }

end Session

/-- Diagnostics that differ at most in a lexeme that is renamed. -/
def Diagnostic.Renamed (naming : Renaming) (diagnostic image : Diagnostic) : Prop :=
  image = diagnostic ∨
    diagnostic.lexeme = some naming.old ∧ image = { diagnostic with lexeme := some naming.new }

/-- Outcomes that differ at most in a lexeme that is renamed. -/
structure Outcome.Renamed (naming : Renaming) (outcome image : Outcome) : Prop where
  ran : image.ran = outcome.ran
  exitStatus : image.exitStatus = outcome.exitStatus
  diagnostics : List.Forall₂ (Diagnostic.Renamed naming) outcome.diagnostics image.diagnostics

variable {naming : Renaming} {distances : Distances}

/-- A token matches itself or, if it has the old name, the same token in the new spelling. -/
theorem Renaming.token_cases {token image : Token}
    (like : Token.Matches (naming.correspondence distances) token image) :
    image = token ∨ token.lexeme = naming.old ∧ image = naming.spelled token := by
  rcases like with same | ⟨visible, mark, rfl⟩
  · exact .inl same
  · by_cases named : token.lexeme = naming.old
    · cases mark with
      | false => exact .inl rfl
      | true => exact .inr ⟨named, Renaming.respelled_old named⟩
    · exact .inl (Renaming.respelled_other visible named mark)

theorem RuntimeError.Matches.diagnostic {error image : RuntimeError}
    (like : error.Matches (naming.correspondence distances) image) :
    error.diagnostic.Renamed naming image.diagnostic := by
  unfold RuntimeError.diagnostic
  rw [like.fault]
  rcases Renaming.token_cases like.token with same | ⟨named, same⟩
  · exact .inl (by rw [same])
  · rw [same]
    by_cases ends : error.token.kind = .eof
    · exact .inl (by simp [Diagnostic.onToken, Renaming.spelled, ends])
    · exact .inr (by simp [Diagnostic.onToken, Renaming.spelled, ends, named])

/-- Endings that match are shown alike, up to the renamed lexeme. -/
theorem Session.settle_renamed {frames marks : List Bool} {ending image : Ending Unit}
    (like : Ending.Matches (naming.correspondence distances) frames marks ending image)
    (nextId : Nat) :
    Option.Rel (fun left right =>
        right.2.takeOutput.1 = left.2.takeOutput.1 ∧ left.1.Renamed naming right.1)
      (Session.settle nextId ending) (Session.settle nextId image) := by
  cases like with
  | value _ machine =>
    exact .some ⟨congrArg Sink.written machine.sink, rfl, rfl, .nil⟩
  | fault _ machine error =>
    exact .some ⟨congrArg Sink.written machine.sink, rfl, rfl, .cons error.diagnostic .nil⟩
  | outOfFuel => exact .none

/-- Resolution comes to the same distances for a renamed program. -/
theorem resolve_distances_renamed {marks : List Bool} {program renamed : List Stmt}
    (like : Stmt.MatchesAll (naming.correspondence distances) marks program renamed)
    (knows : (naming.correspondence distances).Knows (Stmt.occurrencesAll .outside [] program)) :
    (resolve renamed).distances = (resolve program).distances := by
  have occurrences := Stmt.occurrencesAll_match .outside (.nil marks) program renamed like knows
  have same :
      Stmt.occurrencesAll .outside [] renamed = Stmt.occurrencesAll .outside [] program := by
    refine (List.forall₂_eq_eq_eq ▸ occurrences.imp fun occurrence image matching => ?_).symm
    cases occurrence
    cases image
    exact congrArg₂ Occurrence.mk matching.ids matching.address?.symm
  rw [resolve_distances, resolve_distances, same]

/-- The distances that resolution finds are known for all occurrences of an accepted text. -/
theorem Program.Accepted.knows {source : String} {firstId : Nat}
    (accepted : (Program.ofSource source firstId).Accepted) (naming : Renaming) :
    (naming.correspondence (resolve (Program.ofSource source firstId).statements).distances).Knows
      (Stmt.occurrencesAll .outside [] (Program.ofSource source firstId).statements) := by
  intro occurrence member
  have distinct := (accepted.issued.identities .outside []).distinct
  change (resolve _).distances[occurrence.id]? = _
  rw [resolve_distances, Occurrence.getElem?_recordAll_of_mem distinct member]
  simp

/-- An accepted text without `dump` and the new name matches what it becomes by a renaming. -/
theorem Program.Accepted.renamed_matches {source : String} {firstId : Nat} {renamed : List Stmt}
    (accepted : (Program.ofSource source firstId).Accepted)
    (absent : ∀ token ∈ scannedTokens (scan source),
      token.lexeme ≠ naming.new ∧ token.lexeme ≠ Native.dump.name)
    (renames : Stmt.RenamesOne naming distances (Program.ofSource source firstId).statements
      renamed) :
    Stmt.MatchesAll (naming.correspondence distances) [false]
      (Program.ofSource source firstId).statements renamed := by
  have unmarked : Unmarked [false]
    | 0 => rfl
    | _ + 1 => rfl
  exact Stmt.RenamesOne.matches unmarked _ _ renames
    (accepted.formed fun token member _ => absent token member) (resolve_lawful accepted.resolved)

namespace Session

variable {sink : Sink} {clock : Nat → Nat} {callLimit : Nat} {source : String}

/-- A fresh session in which a text has been resolved matches itself. -/
theorem startOn_matches (naming : Renaming) :
    Machine.Matches
      (naming.correspondence (resolve (Program.ofSource source 0).statements).distances)
      [false] [false] ((startOn sink clock callLimit).loaded source)
      ((startOn sink clock callLimit).loaded source) := by
  refine .refl (Machine.start_matches (fun visible => ?_) clock callLimit) rfl (.cons rfl .nil) ?_
  · exact absurd rfl visible.2
  · rintro id _ rfl
    have found : ((startOn sink clock callLimit).loaded source).distances[id]? =
        (resolve (Program.ofSource source 0).statements).distances[id]? := by
      rw [loaded, Machine.getElem?_addDistances]
      simp [startOn, Machine.start, program, start]
    exact ⟨found, found⟩

end Session

/-- Renaming a local variable or a parameter changes nothing: the renamed program is accepted and
resolved alike, and a fresh session that runs it shows the same, up to the renamed lexeme. -/
theorem renamed_local_unobservable {source : String} {naming : Renaming} {renamed : List Stmt}
    (accepted : (Program.ofSource source 0).Accepted)
    (absent : ∀ token ∈ scannedTokens (scan source),
      token.lexeme ≠ naming.new ∧ token.lexeme ≠ Native.dump.name)
    (renames : Stmt.RenamesOne naming (resolve (Program.ofSource source 0).statements).distances
      (Program.ofSource source 0).statements renamed) :
    (resolve renamed).errors = [] ∧
    (resolve renamed).distances = (resolve (Program.ofSource source 0).statements).distances ∧
    ∀ sink clock callLimit fuel,
      Option.Rel (fun left right =>
          right.2.takeOutput.1 = left.2.takeOutput.1 ∧ left.1.Renamed naming right.1)
        ((Session.startOn sink clock callLimit).run fuel source)
        ((Session.startOn sink clock callLimit).runProgram fuel
          ((Program.ofSource source 0).withStatements renamed)) := by
  have like := accepted.renamed_matches absent renames
  have clean := resolve_errors_match like accepted.resolved
  have same := resolve_distances_renamed like (accepted.knows naming)
  refine ⟨clean, same, fun sink clock callLimit fuel => ?_⟩
  have alsoAccepted : ((Program.ofSource source 0).withStatements renamed).Accepted :=
    ⟨accepted.read, clean⟩
  have sound : (Session.startOn sink clock callLimit).Sound :=
    Session.Reachable.sound (.redirect (.start clock callLimit) sink)
  have mirrors := Eval.interpret_mirrors fuel (Session.startOn_matches naming)
    (sound.topLevel accepted fuel) like
  have left : (Session.startOn sink clock callLimit).run fuel source = _ :=
    Session.runProgram_of_accepted accepted fuel _
  have right := Session.runProgram_of_accepted alsoAccepted fuel
    (Session.startOn sink clock callLimit)
  -- Both runs start from the same machine, since resolution has added the same distances.
  have loaded : (resolve ((Program.ofSource source 0).withStatements
      renamed).statements).distances = _ := same
  rw [left, right, loaded]
  exact Session.settle_renamed mirrors _

/-- A text with a local that shadows a global: the function before it and its own initializer mean
the global, and the last line fails because the local is no class. -/
def shadowingText : String :=
  "var a; \x7b fun f() \x7b print a; \x7d var a = a; a = f; f(); class C < a \x7b\x7d \x7d"

/-- The same text with the local under another name. -/
def respelledText : String :=
  "var a; \x7b fun f() \x7b print a; \x7d var b = a; b = f; f(); class C < b \x7b\x7d \x7d"

/-- The statements of these texts, by the name of the local. -/
def shadowingTree (name : String) : List Stmt :=
  [.declare ⟨.identifier, "a", 1⟩ none,
    .block [
      .function (.mk ⟨.identifier, "f", 1⟩ []
        [.print ⟨.keyword .printWord, "print", 1⟩ (.reference 0 ⟨.identifier, "a", 1⟩)]),
      .declare ⟨.identifier, name, 1⟩ (some (.reference 1 ⟨.identifier, "a", 1⟩)),
      .expression (.assign 2 ⟨.identifier, name, 1⟩ (.reference 3 ⟨.identifier, "f", 1⟩)),
      .expression (.call (.reference 4 ⟨.identifier, "f", 1⟩) ⟨.symbol .rightParen, ")", 1⟩ []),
      .class ⟨.identifier, "C", 1⟩ (some (.reference 5 ⟨.identifier, name, 1⟩)) []]]

/-- A local that shadows a global is renamed: the function before it and its own initializer keep
the global, and the fault at the end shows the new name. -/
theorem renamed_local_unobservable_shadowing :
    ∃ naming outcome after image final,
      (Session.startOn .reliable (fun _ => 0) 4).run 20 shadowingText =
        some (outcome, after) ∧
      (Session.startOn .reliable (fun _ => 0) 4).run 20 respelledText =
        some (image, final) ∧
      after.takeOutput.1 = "nil\n" ∧ final.takeOutput.1 = after.takeOutput.1 ∧
      outcome.Renamed naming image ∧
      outcome.diagnostics.map Diagnostic.lexeme = [some "a"] ∧
      image.diagnostics.map Diagnostic.lexeme = [some "b"] := by
  have read : Program.ofSource shadowingText 0 = ⟨shadowingTree "a", [], 6⟩ := by decide +kernel
  have readAnew : Program.ofSource respelledText 0 = ⟨shadowingTree "b", [], 6⟩ := by decide +kernel
  have accepted : (Program.ofSource shadowingText 0).Accepted :=
    ⟨by rw [read], by rw [read]; decide +kernel⟩
  have renames : Stmt.RenamesOne ⟨"a", "b", by decide, by decide⟩
      (resolve (Program.ofSource shadowingText 0).statements).distances
      (Program.ofSource shadowingText 0).statements
      (Program.ofSource respelledText 0).statements := by
    rw [read, readAnew]
    exact .behind _ (.here (.ofBlock (.declaration [_] _ _ _ rfl)) [])
  have program : (Program.ofSource shadowingText 0).withStatements
      (Program.ofSource respelledText 0).statements =
      Program.ofSource respelledText 0 := by
    rw [read, readAnew]
    rfl
  have shown : ((Session.startOn .reliable (fun _ => 0) 4).run 20 shadowingText).map
      (fun ended => (ended.2.takeOutput.1, ended.1.diagnostics.map Diagnostic.lexeme)) =
        some ("nil\n", [some "a"]) := by decide +kernel
  have shownAnew : ((Session.startOn .reliable (fun _ => 0) 4).run 20 respelledText).map
      (fun ended => ended.1.diagnostics.map Diagnostic.lexeme) = some [some "b"] := by
    decide +kernel
  obtain ⟨⟨outcome, after⟩, ended, seen⟩ := Option.map_eq_some_iff.mp shown
  obtain ⟨⟨image, final⟩, endedAnew, seenAnew⟩ := Option.map_eq_some_iff.mp shownAnew
  obtain ⟨text, lexeme⟩ := Prod.mk.inj seen
  have both := (renamed_local_unobservable accepted (by decide +kernel) renames).2.2 .reliable
    (fun _ => 0) 4 20
  rw [program, ended] at both
  change Option.Rel _ _ ((Session.startOn .reliable (fun _ => 0) 4).run 20 _) at both
  rw [endedAnew] at both
  cases both with
  | some same =>
    exact ⟨_, outcome, after, image, final, ended, endedAnew, text, same.1, same.2, lexeme,
      seenAnew⟩

end LoxLang
