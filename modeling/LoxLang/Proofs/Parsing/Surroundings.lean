import LoxLang.Proofs.Parsing.Complete

/-!
# Readers keep to the tokens they pass

A reader looks at the token under its cursor and at no other one. So what it does, whether it reads
or refuses, stays the same amid other surroundings: with more tokens behind the place where it ends,
with violations that were reported before, and with a larger depth bound than it needs.

`Parse.Runs` says which looks a step consists of, and `Parse.Confined` that they are all ahead and
that the surroundings do not matter. Its rules follow the way readers are put together. They also
count how many tokens a step takes at least, because the depth that a reader needs shrinks with the
tokens that are left: sixteen for each of them, and the rank of the reader.
-/

namespace LoxLang

namespace Cursor

variable {tokens behind : List Token} (unended : ∀ token ∈ tokens, token.kind ≠ .eof)
include unended

/-- Tokens before the first end marker all remain to be read. -/
theorem start_remaining_append (firstId : Nat) :
    (start (tokens ++ behind) firstId).remaining = tokens ++ (start behind firstId).remaining :=
  List.takeWhile_append_of_pos fun token member => by simpa using unended token member

/-- A fresh cursor over tokens without an end marker has all of them in front of it. -/
theorem start_remaining (firstId : Nat) : (start tokens firstId).remaining = tokens := by
  have whole : (start (tokens ++ []) firstId).remaining = tokens ++ [] :=
    start_remaining_append unended firstId
  simpa using whole

/-- A list ends where its last part ends. -/
theorem endOf_append (further : behind ≠ []) : endOf (tokens ++ behind) = endOf behind := by
  have none : tokens.find? (·.kind = .eof) = none :=
    List.find?_eq_none.mpr fun token member => by simpa using unended token member
  have last : (tokens ++ behind).getLast? = behind.getLast? := by
    rw [List.getLast?_append, List.getLast?_eq_some_getLast further, Option.some_or]
  rw [endOf, endOf, List.find?_append, none, Option.none_or, last]

end Cursor

/-- What lies around the tokens of a cursor: more tokens behind them, another end marker, and
violations that were reported earlier. -/
structure Surroundings where
  behind : List Token
  marker : Token
  earlier : List ParseError

namespace Cursor

/-- The same cursor amid surroundings. -/
def amid (cursor : Cursor) (around : Surroundings) : Cursor :=
  { remaining := cursor.remaining ++ around.behind
    endMarker := around.marker
    nextId := cursor.nextId
    reported := around.earlier ++ cursor.reported }

/-- From a cursor nothing is seen of the surroundings. -/
def Screens (cursor : Cursor) (around : Surroundings) : Prop :=
  cursor.remaining ≠ [] ∨ around.behind = [] ∧ around.marker = cursor.endMarker

namespace Screens

variable {cursor after : Cursor} {around : Surroundings}

/-- What is not seen in the end was not seen before. -/
theorem of_advances (screens : after.Screens around) (moved : cursor.Advances after) :
    cursor.Screens around := by
  rcases screens with further | ⟨nothing, marker⟩
  · refine .inl fun ended => further ?_
    have shorter := moved.remaining
    rw [ended] at shorter
    exact List.suffix_nil.mp shorter
  · exact .inr ⟨nothing, marker.trans moved.endMarker⟩

/-- Behind the cursor's own tokens the surroundings are not seen: the current token stays. -/
theorem current (screens : cursor.Screens around) :
    (cursor.amid around).current = cursor.current := by
  unfold amid Cursor.current
  cases remaining : cursor.remaining with
  | cons token rest => rfl
  | nil =>
    obtain ⟨behind, marker⟩ := screens.resolve_left (absurd remaining)
    simp [behind, marker]

/-- What a look at the current token answers does not depend on the surroundings. -/
theorem check (screens : cursor.Screens around) (kind : Kind) :
    (cursor.amid around).check kind = cursor.check kind := by
  unfold amid Cursor.check
  cases remaining : cursor.remaining with
  | cons token rest => rfl
  | nil =>
    obtain ⟨behind, _⟩ := screens.resolve_left (absurd remaining)
    simp [behind]

/-- A cursor that screens its surroundings is at its end with them when it is without them. -/
theorem isAtEnd (screens : cursor.Screens around) :
    (cursor.amid around).isAtEnd = cursor.isAtEnd := by
  unfold amid Cursor.isAtEnd
  cases remaining : cursor.remaining with
  | cons token rest => rfl
  | nil =>
    obtain ⟨behind, _⟩ := screens.resolve_left (absurd remaining)
    simp [behind]

/-- Moving on by one token and putting the surroundings around commute. -/
theorem advance (screens : cursor.Screens around) :
    (cursor.amid around).advance = cursor.advance.amid around := by
  unfold amid Cursor.advance
  cases remaining : cursor.remaining with
  | cons token rest => rfl
  | nil =>
    obtain ⟨behind, _⟩ := screens.resolve_left (absurd remaining)
    simp [behind]

end Screens

/-- A report does not look at the surroundings. -/
theorem amid_report (cursor : Cursor) (around : Surroundings) (error : ParseError) :
    (cursor.amid around).report error = (cursor.report error).amid around := by
  simp [amid, report]

/-- Recovery from an error is a move forward: it only drops tokens. -/
theorem Advances.resumed (cursor : Cursor) (error : ParseError) :
    cursor.Advances { cursor.report error with remaining := resumption cursor.remaining } :=
  { Advances.report cursor error with remaining := resumption_suffix _ }

/-- A cursor stays regular on its way: its end marker never changes. -/
theorem Advances.regular {cursor after : Cursor} (moved : cursor.Advances after)
    (regular : cursor.Regular) : after.Regular :=
  (congrArg Token.kind moved.endMarker).trans regular

/-- A token that is no end marker is one of the list. -/
theorem Regular.inside {cursor : Cursor} (regular : cursor.Regular)
    (inside : cursor.current.kind ≠ .eof) :
    cursor.advance.remaining.length + 1 = cursor.remaining.length := by
  unfold current at inside
  unfold advance
  cases remaining : cursor.remaining with
  | nil =>
    rw [remaining] at inside
    exact absurd regular inside
  | cons token rest => rfl

/-- A token of a proper kind is one of the tokens in front, and moving on uses it up. -/
theorem check_inside {cursor : Cursor} {kind : Kind} (found : cursor.check kind = true) :
    cursor.advance.remaining.length + 1 = cursor.remaining.length := by
  unfold check at found
  unfold advance
  cases remaining : cursor.remaining with
  | nil => simp [remaining] at found
  | cons token rest => rfl

end Cursor

/-- The same ending amid surroundings. -/
def Parsed.amid {α : Type} (around : Surroundings) : Parsed α → Parsed α
  | .read result after => .read result (after.amid around)
  | .refused error after => .refused error (after.amid around)

/-- Where tokens are left, at least one is dropped before reading resumes. -/
theorem resumption_length_lt {tokens : List Token} (further : tokens ≠ []) :
    (resumption tokens).length < tokens.length := by
  cases tokens with
  | nil => exact absurd rfl further
  | cons dropped rest =>
    have shorter : resumption (dropped :: rest) <:+ rest := by
      unfold resumption
      split
      · exact List.suffix_refl rest
      · cases rest with
        | nil => exact List.suffix_refl []
        | cons next others =>
          dsimp only
          split
          · exact List.suffix_refl _
          · exact resumption_suffix _
    exact Nat.lt_succ_of_le shorter.length_le

/-- Reading resumes at the same token whatever stands behind it. -/
theorem resumption_append {tokens behind : List Token} (left : resumption tokens ≠ []) :
    resumption (tokens ++ behind) = resumption tokens ++ behind := by
  fun_induction resumption tokens with
  | case1 => exact absurd rfl left
  | case2 dropped rest ends =>
    unfold resumption
    simp [ends]
  | case3 dropped _ => exact absurd rfl left
  | case4 dropped ends next rest starts =>
    simp only [List.cons_append]
    unfold resumption
    simp [ends, starts]
  | case5 dropped ends next rest starts inductionHypothesis =>
    simp only [List.cons_append] at inductionHypothesis ⊢
    rw [← inductionHypothesis left]
    conv => lhs; unfold resumption
    simp [ends, starts]

namespace Parse

variable {α β : Type}

/-- A step runs from a cursor to its end: it is made of finitely many looks, each at one of the
places, and every declaration that is read with recovery leads strictly forward. -/
inductive Runs (places : Cursor → Prop) : {α : Type} → Parse α → Cursor → Prop where
  | pure {α : Type} {result : α} {cursor : Cursor} : Runs places (pure result) cursor
  | report {error : ParseError} {cursor : Cursor} : Runs places (report error) cursor
  | freshId {cursor : Cursor} : Runs places freshId cursor
  | current {cursor : Cursor} (here : places cursor) : Runs places current cursor
  | isAtEnd {cursor : Cursor} (here : places cursor) : Runs places isAtEnd cursor
  | check {kind : Kind} {cursor : Cursor} (here : places cursor) : Runs places (check kind) cursor
  | advance {cursor : Cursor} (here : places cursor) : Runs places advance cursor
  | accept? {kind : Kind} {cursor : Cursor} (here : places cursor) :
      Runs places (accept? kind) cursor
  | expect {kind : Kind} {expectation : Expectation} {cursor : Cursor} (here : places cursor) :
      Runs places (expect kind expectation) cursor
  | refuse {α : Type} {expectation : Expectation} {cursor : Cursor} (here : places cursor) :
      Runs places (refuse expectation : Parse α) cursor
  | bind {α β : Type} {first : Parse α} {next : α → Parse β} {cursor : Cursor}
      (head : Runs places first cursor)
      (tail : ∀ result after, first cursor = .read result after →
        Runs places (next result) after) :
      Runs places (first >>= next) cursor
  | recovering {statement : Parse Stmt} {cursor : Cursor} (head : Runs places statement cursor)
      -- The tokens between the violation and the place where reading resumes are looked at, too.
      (skipped : ∀ error after left, statement cursor = .refused error after →
        left <:+ after.remaining → places { after with remaining := left })
      (forward : (recovering statement cursor).2.remaining.length < cursor.remaining.length) :
      Runs places (always (recovering statement)) cursor

namespace Runs

variable {places wider : Cursor → Prop} {step : Parse α} {cursor : Cursor}

/-- A run whose cursors lie in some places lies in any wider choice of places. -/
theorem mono (runs : Runs places step cursor) (covered : ∀ place, places place → wider place) :
    Runs wider step cursor := by
  induction runs with
  | pure => exact .pure
  | report => exact .report
  | freshId => exact .freshId
  | current here => exact .current (covered _ here)
  | isAtEnd here => exact .isAtEnd (covered _ here)
  | check here => exact .check (covered _ here)
  | advance here => exact .advance (covered _ here)
  | accept? here => exact .accept? (covered _ here)
  | expect here => exact .expect (covered _ here)
  | refuse here => exact .refuse (covered _ here)
  | bind _ _ before behind => exact .bind before behind
  | recovering _ skipped forward before =>
    refine .recovering before (fun error after left refused suffix => ?_) forward
    exact covered _ (skipped error after left refused suffix)

/-- A run only goes forward; a step that goes back is part of no run. -/
theorem advances (runs : Runs places step cursor) : cursor.Advances (step cursor).cursor := by
  induction runs with
  | pure | current | isAtEnd | check | refuse => exact .refl _
  | report => exact .report _ _
  | freshId => exact Advancing.freshId _
  | advance => exact .advance _
  | accept? => exact Advancing.accept? _ _
  | expect => exact Advancing.expect _ _ _
  | @bind _ _ first next cursor _ _ before behind =>
    rw [bind_apply]
    cases ending : first cursor with
    | read result after =>
      rw [ending] at before
      exact before.trans (behind result after ending)
    | refused error after =>
      rw [ending] at before
      exact before
  | @recovering statement cursor _ _ _ moved =>
    unfold always Parse.recovering
    cases ending : statement cursor with
    | read result after =>
      rw [ending] at moved
      exact moved
    | refused error after =>
      rw [ending] at moved
      exact moved.trans (.resumed after error)

end Runs

/-- From a cursor, a step runs to its end and looks only ahead. It takes at least as many tokens as
its result tells and refuses only the token where it stops; and if it stops where nothing is seen of
the surroundings, then its image does the same amid them. -/
structure Confined (around : Surroundings) (taken : α → Nat) (step image : Parse α)
    (cursor : Cursor) : Prop where
  takes : ∀ result after, step cursor = .read result after →
    after.remaining.length + taken result ≤ cursor.remaining.length
  refuses : ∀ error after, step cursor = .refused error after → error.token = after.current
  runs : Runs cursor.Advances step cursor
  same : (step cursor).cursor.Screens around →
    image (cursor.amid around) = (step cursor).amid around

namespace Confined

/-- A confined step moves the cursor forward, whether it reads its part or fails. -/
theorem advances {around : Surroundings} {taken : α → Nat} {step image : Parse α} {cursor : Cursor}
    (confined : Confined around taken step image cursor) :
    cursor.Advances (step cursor).cursor :=
  confined.runs.advances

variable {around : Surroundings} {taken : α → Nat} {least : β → Nat} {cursor : Cursor}

/-- A step that reads. -/
theorem ofRead {step image : Parse α} {result : α} {after : Cursor}
    (ended : step cursor = .read result after)
    (shorter : after.remaining.length + taken result ≤ cursor.remaining.length)
    (runs : Runs cursor.Advances step cursor)
    (same : after.Screens around → image (cursor.amid around) = .read result (after.amid around)) :
    Confined around taken step image cursor where
  takes := by
    intro other last read
    obtain ⟨rfl, rfl⟩ := Parsed.read.inj (ended.symm.trans read)
    exact shorter
  refuses := by
    intro error last refused
    cases ended.symm.trans refused
  runs := runs
  same := by
    rw [ended]
    exact same

/-- A step that refuses. -/
theorem ofRefused {step image : Parse α} {error : ParseError} {after : Cursor}
    (ended : step cursor = .refused error after) (located : error.token = after.current)
    (runs : Runs cursor.Advances step cursor)
    (same : after.Screens around →
      image (cursor.amid around) = .refused error (after.amid around)) :
    Confined around taken step image cursor where
  takes := by
    intro result last read
    cases ended.symm.trans read
  refuses := by
    intro other last refused
    obtain ⟨rfl, rfl⟩ := Parsed.refused.inj (ended.symm.trans refused)
    exact located
  runs := runs
  same := by
    rw [ended]
    exact same

/-- A step that returns at once is confined; it uses no token. -/
theorem pure {result : α} (nothing : taken result = 0) :
    Confined around taken (pure result) (pure result) cursor :=
  ofRead rfl (by omega) .pure fun _ => rfl

/-- A refusal is the same error with and without the surroundings. -/
theorem refuse (expectation : Expectation) :
    Confined around taken (refuse expectation) (refuse expectation) cursor := by
  refine ofRefused rfl rfl (.refuse (.refl _)) fun screens => ?_
  unfold Parse.refuse
  rw [screens.current]

/-- Confined steps follow one another: what the second must use up is what the whole must, less the
tokens the first has used. -/
theorem bind {first firstImage : Parse α} {next nextImage : α → Parse β}
    (regular : cursor.Regular) (head : Confined around taken first firstImage cursor)
    (tail : ∀ result after, after.Regular →
      after.remaining.length + taken result ≤ cursor.remaining.length →
      Confined around (fun final => least final - taken result) (next result) (nextImage result)
        after) :
    Confined around least (first >>= next) (firstImage >>= nextImage) cursor := by
  have moved := head.advances
  have same := head.same
  cases ending : first cursor with
  | refused error after =>
    have ended : (first >>= next) cursor = .refused error after := by rw [bind_apply, ending]
    rw [ending] at moved same
    refine ofRefused ended (head.refuses _ _ ending) ?_ fun screens => ?_
    · refine .bind head.runs fun result after read => ?_
      cases ending.symm.trans read
    · rw [bind_apply, same screens]
      rfl
  | read result after =>
    have shorter := head.takes result after ending
    have ended : (first >>= next) cursor = next result after := by rw [bind_apply, ending]
    rw [ending] at moved same
    have rest := tail result after (moved.regular regular) shorter
    refine ⟨?_, ?_, ?_, ?_⟩
    · intro final last read
      rw [ended] at read
      have further := rest.takes final last read
      omega
    · intro error last refused
      rw [ended] at refused
      exact rest.refuses error last refused
    · refine .bind head.runs fun other last read => ?_
      obtain ⟨rfl, rfl⟩ := Parsed.read.inj (ending.symm.trans read)
      exact rest.runs.mono fun later => moved.trans
    · rw [ended]
      intro screens
      rw [bind_apply, same (screens.of_advances rest.advances)]
      exact rest.same screens

/-- Changing the result of a confined step leaves it confined. -/
theorem map {step image : Parse α} {change : α → β} (regular : cursor.Regular)
    (head : Confined around taken step image cursor)
    (enough : ∀ result, least (change result) ≤ taken result) :
    Confined around least (change <$> step) (change <$> image) cursor := by
  refine bind regular head fun result after _ _ => pure ?_
  have bounded := enough result
  omega

/-- A step that looks at something under the cursor and stays there. -/
theorem glance {γ : Type} {observe : Parse γ} {view : Cursor → γ}
    (stays : ∀ cursor, observe cursor = .read (view cursor) cursor)
    (runs : Runs cursor.Advances observe cursor)
    (unchanged : cursor.Screens around → view (cursor.amid around) = view cursor)
    {next nextImage : γ → Parse β}
    (tail : Confined around least (next (view cursor)) (nextImage (view cursor)) cursor) :
    Confined around least (observe >>= next) (observe >>= nextImage) cursor := by
  have ended : (observe >>= next) cursor = next (view cursor) cursor := by
    rw [bind_apply, stays]
  refine ⟨?_, ?_, ?_, ?_⟩
  · rw [ended]
    exact tail.takes
  · rw [ended]
    exact tail.refuses
  · refine .bind runs fun seen after read => ?_
    obtain ⟨rfl, rfl⟩ := Parsed.read.inj ((stays cursor).symm.trans read)
    exact tail.runs
  · rw [ended]
    intro screens
    rw [bind_apply, stays, unchanged (screens.of_advances tail.advances)]
    exact tail.same screens

/-- A look at the current token is confined with whatever follows it. -/
theorem look {next nextImage : Token → Parse β}
    (tail : Confined around least (next cursor.current) (nextImage cursor.current) cursor) :
    Confined around least (current >>= next) (current >>= nextImage) cursor :=
  glance (fun _ => rfl) (.current (.refl _)) (·.current) tail

/-- A look at the current token's kind is confined with whatever follows it. -/
theorem check (kind : Kind) {next nextImage : Bool → Parse β}
    (tail : Confined around least (next (cursor.check kind)) (nextImage (cursor.check kind))
      cursor) :
    Confined around least (check kind >>= next) (check kind >>= nextImage) cursor :=
  glance (fun _ => rfl) (.check (.refl _)) (·.check kind) tail

/-- The test for the end is confined with whatever follows it. -/
theorem isAtEnd {next nextImage : Bool → Parse β}
    (tail : Confined around least (next cursor.isAtEnd) (nextImage cursor.isAtEnd) cursor) :
    Confined around least (isAtEnd >>= next) (isAtEnd >>= nextImage) cursor :=
  glance (fun _ => rfl) (.isAtEnd (.refl _)) (·.isAtEnd) tail

/-- A step over a token that is no end marker. -/
theorem past {next nextImage : Unit → Parse β} (regular : cursor.Regular)
    (inside : cursor.current.kind ≠ .eof)
    (tail : ∀ after : Cursor, after.Regular →
      after.remaining.length + 1 = cursor.remaining.length →
      Confined around (fun final => least final - 1) (next ()) (nextImage ()) after) :
    Confined around least (advance >>= next) (advance >>= nextImage) cursor := by
  have shorter := regular.inside inside
  have rest := tail cursor.advance regular shorter
  have moved := Cursor.Advances.advance cursor
  refine ⟨?_, rest.refuses, ?_, ?_⟩
  · intro final last read
    have further := rest.takes final last read
    omega
  · refine .bind (.advance (.refl _)) fun _ _ read => ?_
    obtain ⟨rfl, rfl⟩ := Parsed.read.inj read
    exact rest.runs.mono fun later => moved.trans
  · intro screens
    have unseen := screens.of_advances (moved.trans rest.advances)
    change nextImage () (cursor.amid around).advance = _
    rw [unseen.advance]
    exact rest.same screens

/-- Adding a diagnostic is confined: the cursor stays where it is. -/
theorem report (error : ParseError) :
    Confined around (fun _ => 0) (report error) (report error) cursor :=
  ofRead rfl (Nat.le_refl _) .report fun _ =>
    congrArg (Parsed.read ()) (cursor.amid_report around error)

/-- Issuing an id is confined: the cursor stays where it is. -/
theorem freshId : Confined around (fun _ => 0) freshId freshId cursor :=
  ofRead rfl (Nat.le_refl _) .freshId fun _ => rfl

/-- A token that is accepted is taken. -/
theorem accept? (kind : Kind) :
    Confined around (fun found => if found.isSome then 1 else 0) (accept? kind) (accept? kind)
      cursor := by
  have moved := Advancing.accept? kind cursor
  cases found : cursor.check kind with
  | true =>
    have ended : Parse.accept? kind cursor = .read (some cursor.current) cursor.advance := by
      rw [Parse.accept?, found, if_pos rfl]
    rw [ended] at moved
    refine ofRead ended (Nat.le_of_eq (Cursor.check_inside found)) (.accept? (.refl _))
      fun screens => ?_
    have unseen := screens.of_advances moved
    rw [Parse.accept?, unseen.check, found, if_pos rfl, unseen.current, unseen.advance]
  | false =>
    have ended : Parse.accept? kind cursor = .read none cursor := by
      rw [Parse.accept?, found]
      rfl
    refine ofRead ended (Nat.le_refl _) (.accept? (.refl _)) fun screens => ?_
    rw [Parse.accept?, screens.check, found]
    rfl

/-- A token that is expected is taken. -/
theorem expect (kind : Kind) (expectation : Expectation) :
    Confined around (fun _ => 1) (expect kind expectation) (expect kind expectation) cursor := by
  have moved := Advancing.expect kind expectation cursor
  cases found : cursor.check kind with
  | true =>
    have ended : Parse.expect kind expectation cursor = .read cursor.current cursor.advance := by
      rw [Parse.expect, found, if_pos rfl]
    rw [ended] at moved
    refine ofRead ended (Nat.le_of_eq (Cursor.check_inside found)) (.expect (.refl _))
      fun screens => ?_
    have unseen := screens.of_advances moved
    rw [Parse.expect, unseen.check, found, if_pos rfl, unseen.current, unseen.advance]
  | false =>
    have ended : Parse.expect kind expectation cursor =
        .refused { token := cursor.current, fault := .expected expectation } cursor := by
      rw [Parse.expect, found]
      rfl
    refine ofRefused ended rfl (.expect (.refl _)) fun screens => ?_
    rw [Parse.expect, screens.check, found, ← screens.current]
    rfl

section Recovering

variable {statement image : Parse Stmt}
  (inner : Confined around (fun _ => 1) statement image cursor) (further : cursor.isAtEnd = false)
include inner further

/-- Where tokens are left, one is taken whether or not the statement can be read. -/
theorem recovering_shorter :
    (Parse.recovering statement cursor).2.remaining.length < cursor.remaining.length := by
  have moved := inner.advances
  have inside : cursor.remaining ≠ [] := by
    intro ended
    simp [Cursor.isAtEnd, ended] at further
  unfold Parse.recovering
  cases ending : statement cursor with
  | read result after => exact inner.takes result after ending
  | refused error after =>
    rw [ending] at moved
    change (resumption after.remaining).length < cursor.remaining.length
    by_cases left : after.remaining = []
    · rw [left]
      exact List.length_pos_iff.mpr inside
    · exact Nat.lt_of_lt_of_le (resumption_length_lt left) moved.remaining.length_le

/-- A recovering statement stays on the tokens in front of the cursor. -/
theorem recovering_runs : Runs cursor.Advances (always (Parse.recovering statement)) cursor := by
  refine .recovering inner.runs ?_ (inner.recovering_shorter further)
  intro error after left refused suffix
  have moved := inner.advances
  rw [refused] at moved
  exact moved.trans { Cursor.Advances.refl after with remaining := suffix }

/-- A recovering statement is confined and uses up at least one token, by reading or by skipping. -/
theorem recovering :
    Confined around (fun _ => 1) (always (recovering statement)) (always (recovering image))
      cursor := by
  have moved := inner.advances
  have same := inner.same
  have shorter := inner.recovering_shorter further
  have runs := inner.recovering_runs further
  cases ending : statement cursor with
  | read result after =>
    rw [ending] at moved same
    have ended : always (Parse.recovering statement) cursor = .read (some result) after := by
      simp only [always, Parse.recovering, ending]
    refine ofRead ended (inner.takes result after ending) runs fun screens => ?_
    simp only [always, Parse.recovering, same screens, Parsed.amid]
  | refused error after =>
    rw [ending] at moved same
    have ended : always (Parse.recovering statement) cursor = .read none
        { after.report error with remaining := resumption after.remaining } := by
      simp only [always, Parse.recovering, ending]
    rw [Parse.recovering, ending] at shorter
    refine ofRead ended shorter runs fun screens => ?_
    have resumes : resumption (after.remaining ++ around.behind) =
        resumption after.remaining ++ around.behind := by
      rcases screens with left | ⟨nothing, _⟩
      · exact resumption_append left
      · rw [nothing, List.append_nil, List.append_nil]
    simp only [always, Parse.recovering, same (screens.of_advances (.resumed after error)),
      Parsed.amid,
      Cursor.amid_report]
    simp only [Cursor.amid, Cursor.report, resumes]

end Recovering

/-- A confined step may be held to use up fewer tokens than it does. -/
theorem mono {step image : Parse α} {fewer : α → Nat}
    (confined : Confined around taken step image cursor)
    (weaker : ∀ result, fewer result ≤ taken result) : Confined around fewer step image cursor where
  takes := fun result after read =>
    Nat.le_trans (Nat.add_le_add_left (weaker result) _) (confined.takes result after read)
  refuses := confined.refuses
  runs := confined.runs
  same := confined.same

/-- A step that takes one token if it finds it. -/
theorem optional {step image : Parse (Option Token)} {next nextImage : Option Token → Parse β}
    (regular : cursor.Regular)
    (head : Confined around (fun found => if found.isSome then 1 else 0) step image cursor)
    (absent : ∀ after : Cursor, after.Regular →
      after.remaining.length ≤ cursor.remaining.length →
      Confined around least (next none) (nextImage none) after)
    (present : ∀ (token : Token) (after : Cursor), after.Regular →
      after.remaining.length + 1 ≤ cursor.remaining.length →
      Confined around (fun final => least final - 1) (next (some token)) (nextImage (some token))
        after) :
    Confined around least (step >>= next) (image >>= nextImage) cursor := by
  refine bind regular head fun found after regular shorter => ?_
  cases found with
  | none => exact absent after regular shorter
  | some token => exact present token after regular shorter

/-- The entries of a list in front of a closing parenthesis. -/
theorem entries {entry entryImage : Parse α} {more moreImage : Parse (List α)}
    (regular : cursor.Regular) (head : Confined around taken entry entryImage cursor)
    (tail : ∀ after : Cursor, after.Regular →
      after.remaining.length + 1 ≤ cursor.remaining.length →
      Confined around (fun _ => 0) more moreImage after) :
    Confined around (fun _ => 0)
      (do
        let first ← entry
        match ← Parse.accept? (.symbol .comma) with
        | none => return [first]
        | some _ =>
          if ← Parse.check (.symbol .rightParen) then return [first]
          else return first :: (← more))
      (do
        let first ← entryImage
        match ← Parse.accept? (.symbol .comma) with
        | none => return [first]
        | some _ =>
          if ← Parse.check (.symbol .rightParen) then return [first]
          else return first :: (← moreImage))
      cursor := by
  refine bind regular head fun first after regular shorter => ?_
  refine optional regular (accept? _) (fun _ _ _ => pure (Nat.zero_sub _)) ?_
  intro comma after regular shorter
  refine check _ ?_
  split
  · exact pure (by omega)
  · exact bind regular (tail after regular (by omega)) fun others _ _ _ => pure (by omega)

/-- Accepting an operator of a level is confined; a token is used up when one is found. -/
theorem acceptOperator? (level : Level) (regular : cursor.Regular) :
    Confined around (fun found => if found.isSome then 1 else 0) (acceptOperator? level)
      (acceptOperator? level) cursor := by
  refine look ?_
  split
  case isTrue operator =>
    have inside : cursor.current.kind ≠ .eof := by
      intro ended
      rw [ended] at operator
      cases level <;> cases operator
    exact past regular inside fun after _ _ => pure rfl
  case isFalse => exact pure rfl

/-- Accepting a prefix operator is confined; a token is used up when one is found. -/
theorem acceptPrefixOperator? (regular : cursor.Regular) :
    Confined around (fun found => if found.isSome then 1 else 0) acceptPrefixOperator?
      acceptPrefixOperator? cursor := by
  refine bind regular (accept? _) fun found after regular _ => ?_
  cases found with
  | some token => exact pure rfl
  | none => exact accept? _

/-- Reading what follows a `super` is confined. -/
theorem superAccess (keyword : Token) (regular : cursor.Regular) :
    Confined around (fun _ => 0) (superAccess keyword) (superAccess keyword) cursor := by
  refine bind regular (expect _ _) fun _ _ regular _ => ?_
  refine bind regular (expect _ _) fun method _ regular _ => ?_
  exact bind regular freshId fun id _ _ _ => pure rfl

/-- Turning a target into an assignment is confined: at most it reports the token of the equals
sign. -/
theorem assignTo (target : Expr) (equals : Token) (value : Expr) (regular : cursor.Regular) :
    Confined around (fun _ => 0) (assignTo target equals value) (assignTo target equals value)
      cursor := by
  cases target with
  | reference | get => exact pure rfl
  | _ => exact bind regular (report _) fun _ _ _ _ => pure rfl

end Confined

end Parse

end LoxLang
