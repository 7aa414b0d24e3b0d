import LoxLang.Proofs.Parsing.Confinement
import LoxLang.Proofs.Parsing.Joining

/-!
# A bad statement costs only itself

A violation gives up one declaration, and reading resumes behind its semicolon. So a statement that
is refused at one of its own tokens leaves no trace but its violations: what stands before and
behind it is read as if it stood alone (`parse_around_refused`).
-/

namespace LoxLang

/-- A token list that reading resumes behind, wherever in it a declaration is refused: it ends with
its only semicolon, has no brace and no end marker, and a word that starts a statement at most in
front; it does not go on with the branch of an earlier statement. -/
structure Separate (bad : List Token) : Prop where
  /-- The last token is the only semicolon. -/
  ends : ∃ front last, bad = front ++ [last] ∧ last.kind = .symbol .semicolon ∧
    ∀ token ∈ front, token.kind ≠ .symbol .semicolon
  /-- No brace stands in the list. Recovery counts no braces, so `parse_around_refused` would hold
  with braces in it, too; the condition is kept as part of what such a list is said to be. -/
  unbraced : ∀ token ∈ bad, token.kind ≠ .symbol .leftBrace ∧ token.kind ≠ .symbol .rightBrace
  /-- No end marker stands in the list. -/
  unended : ∀ token ∈ bad, token.kind ≠ .eof
  /-- The list does not start with the branch of an earlier statement. -/
  noElse : bad.head?.map Token.kind ≠ some (.keyword .elseWord)
  /-- Behind the first token no word starts a statement. -/
  plain : ∀ token ∈ bad.tail, token.kind.startsStatement = false

/-- Alone, a token list is refused as a declaration, at one of its own tokens. -/
def RefusedInside (bad : List Token) (firstId : Nat) : Prop :=
  ∃ error after, Parse.declaration (parseDepth bad.length) (Cursor.start bad firstId) =
    .refused error after ∧ error.token ∈ bad

/-- The statements before and behind a token list are read as if they stood alone, and it adds only
the violations that it has alone. Identities go on from each part to the next one. -/
def CostsOnlyItself (before bad behind : List Token) (firstId : Nat) : Prop :=
  let first := parse before firstId
  let middle := parse bad first.nextId
  let last := parse behind middle.nextId
  parse (before ++ bad ++ behind) firstId =
    { statements := first.statements ++ last.statements
      errors := middle.errors ++ last.errors
      nextId := last.nextId }

/-- A token that ends nothing is dropped in front of a token that starts nothing. -/
theorem resumption_cons {dropped next : Token} {rest : List Token}
    (other : dropped.kind ≠ .symbol .semicolon) (plain : next.kind.startsStatement = false) :
    resumption (dropped :: next :: rest) = resumption (next :: rest) := by
  conv => lhs; unfold resumption
  simp [other, plain]

/-- Reading resumes behind the first semicolon if no statement starts before it. -/
theorem resumption_of_plain {front behind : List Token} {last : Token}
    (ends : last.kind = .symbol .semicolon)
    (inner : ∀ token ∈ front, token.kind ≠ .symbol .semicolon)
    (plain : ∀ token ∈ (front ++ [last]).tail, token.kind.startsStatement = false) :
    resumption (front ++ last :: behind) = behind := by
  induction front with
  | nil =>
    unfold resumption
    exact if_pos ends
  | cons dropped rest inductionHypothesis =>
    have other := inner dropped List.mem_cons_self
    have further := inductionHypothesis
      (fun token member => inner token (List.mem_cons_of_mem _ member))
      (fun token member => plain token (List.mem_of_mem_tail member))
    cases rest with
    | nil => exact (resumption_cons other (plain last (by simp))).trans further
    | cons next rest => exact (resumption_cons other (plain next (by simp))).trans further

namespace Separate

variable {bad behind : List Token} (separate : Separate bad)
include separate

/-- Reading resumes behind the list wherever in it a declaration was refused. -/
theorem resumption_eq {left : List Token} (suffix : left <:+ bad) (further : left ≠ []) :
    resumption (left ++ behind) = behind := by
  obtain ⟨front, last, rfl, ends, inner⟩ := separate.ends
  obtain ⟨taken, same⟩ := suffix
  obtain ⟨init, final, rfl⟩ : ∃ init final, left = init ++ [final] :=
    ⟨left.dropLast, left.getLast further, (List.dropLast_concat_getLast further).symm⟩
  rw [← List.append_assoc] at same
  obtain ⟨rfl, single⟩ := List.append_inj' same rfl
  obtain rfl : final = last := List.cons.inj single |>.1
  rw [List.append_assoc]
  refine resumption_of_plain ends ?_ ?_
  · exact fun token member => inner token (List.mem_append_right _ member)
  · intro token member
    refine separate.plain token ?_
    rw [List.append_assoc]
    cases taken with
    | nil => exact member
    | cons first others => exact List.mem_append_right _ (List.mem_of_mem_tail member)

end Separate

namespace Parse

/-- Behind a program that has a reading, the declarations of another one are read, unless they go on
with its last branch. -/
theorem program_behind {trees : List Stmt} {start after : Place} {behind : List Token}
    (reads : StmtReads (.program trees) start after)
    (noElse : behind.head?.map Token.kind ≠ some (.keyword .elseWord)) {cursor : Cursor}
    {depth : Nat} (regular : cursor.Regular)
    (placed : cursor.place = ⟨start.remaining ++ behind, start.nextId⟩)
    (room : 16 * cursor.remaining.length + 12 ≤ depth) :
    ∃ left, 16 * behind.length + 12 ≤ left ∧ program depth cursor =
      (trees ++ (program left (cursor.moveTo ⟨behind, after.nextId⟩)).1,
        (program left (cursor.moveTo ⟨behind, after.nextId⟩)).2) := by
  induction trees generalizing start cursor depth with
  | nil =>
    cases reads with
    | @programEnd nextId =>
      have same : cursor.moveTo ⟨behind, nextId⟩ = cursor := by
        rw [show (⟨behind, nextId⟩ : Place) = cursor.place from placed.symm, cursor.moveTo_place]
      have length : cursor.remaining.length = behind.length :=
        congrArg (fun place => place.remaining.length) placed
      rw [same]
      exact ⟨depth, by omega, rfl⟩
  | cons tree trees inductionHypothesis =>
    cases reads with
    | @programMore _ _ _ middle _ head more =>
      have moved := head.moved .none (.inr ⟨rfl, noElse⟩)
      rw [Place.moved_none, Place.moved_none, StmtPhrase.moved, Stmt.moved_none] at moved
      have length : cursor.remaining.length = (start.remaining ++ behind).length :=
        congrArg (fun place => place.remaining.length) placed
      have shorter := (head.opens rfl).length_lt
      rw [List.length_append] at length
      obtain ⟨depth, rfl⟩ : ∃ smaller, depth = smaller + 1 := ⟨depth - 1, by omega⟩
      have found : declaration depth cursor = _ := moved.found depth (by
        simp only [Place.Allows, StmtPhrase.rank, List.length_append]
        omega) cursor regular placed
      have further : cursor.isAtEnd = false := by
        refine Bool.eq_false_iff.mpr fun ended => ?_
        rw [List.isEmpty_iff.mp ended, List.length_nil] at length
        omega
      obtain ⟨left, enough, same⟩ := inductionHypothesis more
        (show (cursor.moveTo ⟨middle.remaining ++ behind, middle.nextId⟩).Regular from regular) rfl
        (show 16 * (middle.remaining ++ behind).length + 12 ≤ depth by
          rw [List.length_append]
          omega)
      have recovered : recovering (declaration depth) cursor =
          (some tree, cursor.moveTo ⟨middle.remaining ++ behind, middle.nextId⟩) := by
        rw [recovering, found]
      refine ⟨left, enough, ?_⟩
      rw [program_inside further, recovered, same]
      rfl

/-- A declaration that is refused at one of its own tokens is given up as a whole. -/
theorem program_over_refused {bad behind : List Token} {marker : Token} {firstId depth : Nat}
    {error : ParseError} {after : Cursor} (separate : Separate bad)
    (refused : declaration (parseDepth bad.length) (Cursor.start bad firstId) =
      .refused error after)
    (inside : error.token ∈ bad) (room : 16 * (bad ++ behind).length + 12 ≤ depth + 1) :
    program (depth + 1) ⟨bad ++ behind, marker, firstId, []⟩ =
      program depth ⟨behind, marker, after.nextId, after.reported ++ [error]⟩ := by
  have whole := Cursor.start_remaining separate.unended firstId
  have regular := Cursor.start_regular bad firstId
  have enough : 16 * (Cursor.start bad firstId).remaining.length + 11 ≤ parseDepth bad.length := by
    rw [whole, parseDepth]
    omega
  have less : 16 * (Cursor.start bad firstId).remaining.length + 11 ≤ depth := by
    rw [List.length_append] at room
    rw [whole]
    omega
  have alone := declaration_confines ⟨[], (Cursor.start bad firstId).endMarker, []⟩ (Nat.le_refl _)
    _ regular enough
  have moved := alone.advances
  have located := alone.refuses error after refused
  rw [refused] at moved
  have left : after.remaining ≠ [] := by
    intro ended
    refine separate.unended error.token inside ?_
    rw [located, Cursor.current, ended]
    exact moved.regular regular
  have unseen : (declaration (parseDepth bad.length) (Cursor.start bad firstId)).cursor.Screens
      ⟨behind, marker, []⟩ := by
    rw [refused]
    exact .inl left
  have again := declaration_amid regular enough less unseen
  have resumed : resumption (after.remaining ++ behind) = behind :=
    separate.resumption_eq (whole ▸ moved.remaining) left
  have amid : Cursor.mk (bad ++ behind) marker firstId [] =
      (Cursor.start bad firstId).amid ⟨behind, marker, []⟩ := by
    rw [Cursor.amid, whole]
    rfl
  have recovered : recovering (declaration depth) (Cursor.mk (bad ++ behind) marker firstId []) =
      (none, ⟨behind, marker, after.nextId, after.reported ++ [error]⟩) := by
    rw [recovering, amid, again, refused]
    simp only [Parsed.amid, Cursor.amid, Cursor.report, resumed, List.nil_append]
  have further : (Cursor.mk (bad ++ behind) marker firstId []).isAtEnd = false := by
    obtain ⟨first, others, rfl⟩ := List.exists_cons_of_ne_nil (List.ne_nil_of_mem inside)
    rfl
  rw [program_inside further, recovered]
  rfl

/-- Reading goes on behind a program that has a reading and a refused declaration. -/
theorem program_around_refused {trees : List Stmt} {before bad behind : List Token}
    {marker : Token} {firstId depth : Nat} {place : Place} {error : ParseError} {after : Cursor}
    (reads : StmtReads (.program trees) ⟨before, firstId⟩ place) (separate : Separate bad)
    (refused : declaration (parseDepth bad.length) (Cursor.start bad place.nextId) =
      .refused error after)
    (inside : error.token ∈ bad) (regular : marker.kind = .eof)
    (room : 16 * (before ++ (bad ++ behind)).length + 12 ≤ depth) :
    ∃ left, 16 * behind.length + 12 ≤ left ∧
      program depth ⟨before ++ (bad ++ behind), marker, firstId, []⟩ =
        (trees ++ (program left ⟨behind, marker, after.nextId, after.reported ++ [error]⟩).1,
          (program left ⟨behind, marker, after.nextId, after.reported ++ [error]⟩).2) := by
  obtain ⟨first, others, same⟩ := List.exists_cons_of_ne_nil (List.ne_nil_of_mem inside)
  have noElse : (bad ++ behind).head?.map Token.kind ≠ some (.keyword .elseWord) := by
    have starts := separate.noElse
    rw [same] at starts ⊢
    exact starts
  have start : (Cursor.mk (before ++ (bad ++ behind)) marker firstId []).Regular := regular
  obtain ⟨left, enough, read⟩ := program_behind reads noElse start rfl room
  obtain ⟨left, rfl⟩ : ∃ smaller, left = smaller + 1 := ⟨left - 1, by omega⟩
  have skipped : program (left + 1) ⟨bad ++ behind, marker, place.nextId, []⟩ = _ :=
    program_over_refused separate refused inside enough
  refine ⟨left, ?_, ?_⟩
  · rw [same, List.cons_append, List.length_cons, List.length_append] at enough
    omega
  · rw [read, Cursor.moveTo, skipped]

/-- Behind earlier violations a token list is read as it is alone. -/
theorem program_alone {tokens : List Token} {marker : Token} {nextId depth : Nat}
    (marked : tokens ≠ [] → marker = Cursor.endOf tokens)
    (room : 16 * (Cursor.start tokens nextId).remaining.length + 12 ≤ depth)
    (errors : List ParseError) :
    ∃ final, program depth ⟨(Cursor.start tokens nextId).remaining, marker, nextId, errors⟩ =
        ((parse tokens nextId).statements, final) ∧
      final.reported = errors ++ (parse tokens nextId).errors ∧
      final.nextId = (parse tokens nextId).nextId := by
  by_cases empty : tokens = []
  · subst empty
    refine ⟨⟨[], marker, nextId, errors⟩, program_ended rfl depth, ?_, rfl⟩
    exact (List.append_nil errors).symm
  · have shorter : (Cursor.start tokens nextId).remaining.length ≤ tokens.length :=
      (List.takeWhile_prefix _).length_le
    have enough : 16 * (Cursor.start tokens nextId).remaining.length + 12 ≤
        parseDepth tokens.length := by
      rw [parseDepth]
      omega
    have same := program_amid (Cursor.start_regular tokens nextId) enough room errors
    have amid : (Cursor.start tokens nextId).amid
        ⟨[], (Cursor.start tokens nextId).endMarker, errors⟩ =
        ⟨(Cursor.start tokens nextId).remaining, marker, nextId, errors⟩ := by
      rw [marked empty]
      simp [Cursor.amid, Cursor.start]
    rw [amid] at same
    exact ⟨_, same, rfl, rfl⟩

end Parse

/-- Alone, such a list gives its violations and no statement. -/
theorem parse_refused {bad : List Token} {firstId : Nat} {error : ParseError} {after : Cursor}
    (separate : Separate bad)
    (refused : Parse.declaration (parseDepth bad.length) (Cursor.start bad firstId) =
      .refused error after) (inside : error.token ∈ bad) :
    parse bad firstId =
      { statements := [], errors := after.reported ++ [error], nextId := after.nextId } := by
  have start : Cursor.start bad firstId =
      ⟨bad ++ [], (Cursor.start bad firstId).endMarker, firstId, []⟩ := by
    rw [List.append_nil]
    exact congrArg (Cursor.mk · _ _ _) (Cursor.start_remaining separate.unended firstId)
  obtain ⟨depth, bound⟩ : ∃ depth, parseDepth bad.length = depth + 1 := ⟨_, rfl⟩
  have room : 16 * (bad ++ []).length + 12 ≤ depth + 1 := by
    rw [← bound, parseDepth, List.append_nil]
    omega
  have skipped : Parse.program (depth + 1) (Cursor.start bad firstId) =
      ([], ⟨[], (Cursor.start bad firstId).endMarker, after.nextId,
        after.reported ++ [error]⟩) := by
    rw [start, Parse.program_over_refused separate refused inside room, Parse.program_ended rfl]
  unfold parse
  rw [bound, skipped]

/-- A declaration that is refused at one of its own tokens, up to its semicolon, costs only itself:
around it everything is read as if it were alone. -/
theorem parse_around_refused (before bad behind : List Token) (firstId : Nat)
    (clean : (parse before firstId).errors = []) (unended : ∀ token ∈ before, token.kind ≠ .eof)
    (separate : Separate bad) (refused : RefusedInside bad (parse before firstId).nextId) :
    CostsOnlyItself before bad behind firstId := by
  obtain ⟨error, after, refused, inside⟩ := refused
  have early : ∀ token ∈ before ++ bad, token.kind ≠ .eof := fun token member =>
    (List.mem_append.mp member).elim (unended token) (separate.unended token)
  have start : Cursor.start (before ++ bad ++ behind) firstId =
      ⟨before ++ (bad ++ (Cursor.start behind after.nextId).remaining),
        Cursor.endOf (before ++ bad ++ behind), firstId, []⟩ := by
    rw [← List.append_assoc]
    exact congrArg (Cursor.mk · _ _ _) (Cursor.start_remaining_append early firstId)
  have room : 16 * (Cursor.start (before ++ bad ++ behind) firstId).remaining.length + 12 ≤
      parseDepth (before ++ bad ++ behind).length := by
    have shorter : (Cursor.start (before ++ bad ++ behind) firstId).remaining.length ≤
      (before ++ bad ++ behind).length := (List.takeWhile_prefix _).length_le
    rw [parseDepth]
    omega
  have reads := parse_reads clean
  rw [show Place.ofTokens before firstId = ⟨before, firstId⟩ from
    congrArg (Place.mk · _) (Cursor.start_remaining unended firstId)] at reads
  have regular : (Cursor.endOf (before ++ bad ++ behind)).kind = .eof :=
    Cursor.start_regular (before ++ bad ++ behind) firstId
  rw [start] at room
  obtain ⟨left, enough, around⟩ :=
    Parse.program_around_refused reads separate refused inside regular room
  obtain ⟨final, last, reported, nextId⟩ := Parse.program_alone
    (fun further => Cursor.endOf_append early further) enough (after.reported ++ [error])
  unfold CostsOnlyItself
  dsimp only
  rw [parse_refused separate refused inside]
  conv => lhs; unfold parse
  rw [start, around, last]
  simp only [reported, nextId]

/-- In `a; ); b;` only the stray parenthesis is lost. -/
theorem parse_around_refused_parenthesis :
    (parse ([⟨.identifier, "a", 1⟩, ⟨.symbol .semicolon, ";", 1⟩] ++
        [⟨.symbol .rightParen, ")", 1⟩, ⟨.symbol .semicolon, ";", 1⟩] ++
        [⟨.identifier, "b", 1⟩, ⟨.symbol .semicolon, ";", 1⟩]) 0).statements =
      [.expression (.reference 0 ⟨.identifier, "a", 1⟩),
        .expression (.reference 1 ⟨.identifier, "b", 1⟩)] := by
  have separate : Separate [⟨.symbol .rightParen, ")", 1⟩, ⟨.symbol .semicolon, ";", 1⟩] :=
    { ends := ⟨[_], _, rfl, rfl, by simp⟩
      unbraced := by simp
      unended := by simp
      noElse := by simp
      plain := by simp [Kind.startsStatement] }
  have costs := parse_around_refused [⟨.identifier, "a", 1⟩, ⟨.symbol .semicolon, ";", 1⟩]
    [⟨.symbol .rightParen, ")", 1⟩, ⟨.symbol .semicolon, ";", 1⟩]
    [⟨.identifier, "b", 1⟩, ⟨.symbol .semicolon, ";", 1⟩] 0 rfl (by simp) separate
    ⟨_, _, rfl, List.mem_cons_self⟩
  exact (congrArg ParseResult.statements costs).trans rfl

/-- Behind an end marker nothing is read, so what stands there costs nothing. -/
theorem parse_behind_end_marker :
    ¬ ∀ (before bad behind : List Token) (firstId : Nat), (parse before firstId).errors = [] →
      Separate bad → RefusedInside bad (parse before firstId).nextId →
      CostsOnlyItself before bad behind firstId := by
  intro claimed
  have separate : Separate [⟨.symbol .semicolon, ";", 1⟩] :=
    { ends := ⟨[], _, rfl, rfl, by simp⟩
      unbraced := by simp
      unended := by simp
      noElse := by simp
      plain := by simp }
  have costs := claimed [⟨.eof, "", 1⟩] [⟨.symbol .semicolon, ";", 1⟩] [] 0 rfl separate
    ⟨_, _, rfl, List.mem_cons_self⟩
  have errors := congrArg ParseResult.errors costs
  cases errors

end LoxLang
