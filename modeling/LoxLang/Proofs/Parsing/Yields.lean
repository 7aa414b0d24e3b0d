import LoxLang.Proofs.Parsing.Progress
import LoxLang.Proofs.Parsing.Reading

/-!
# What a silent step reads

`Parse.Yields` relates the places of the two cursors of a step that reports nothing. Its rules
follow the way readers are put together, so what a reader yields follows from what its parts yield.
-/

namespace LoxLang

namespace Place

/-- The place in front of one more token. -/
@[reducible] def push (place : Place) (token : Token) : Place :=
  ⟨token :: place.remaining, place.nextId⟩

/-- A token stands next, or else is the marker behind the last one. -/
def Shows (place : Place) (token : Token) : Prop :=
  (∃ rest, place.remaining = token :: rest) ∨ (place.remaining = [] ∧ token.kind = .eof)

namespace Shows

variable {place : Place} {token : Token} {kind : Kind}

/-- A token that stands next and is no end marker is in front of a place. -/
theorem eq_push (shows : place.Shows token) (shown : token.kind = kind) (inside : kind ≠ .eof) :
    ∃ behind : Place, place = behind.push token := by
  rcases shows with ⟨rest, remaining⟩ | ⟨_, ended⟩
  · exact ⟨⟨rest, place.nextId⟩, by rw [push, ← remaining]⟩
  · exact absurd (shown.symm.trans ended) inside

/-- The kind in front of a place is that of the token it shows, if this is no end marker. -/
theorem next?_eq (shows : place.Shows token) (shown : token.kind = kind) (inside : kind ≠ .eof) :
    place.next? = some kind := by
  obtain ⟨behind, rfl⟩ := shows.eq_push shown inside
  rw [next?_cons, shown]

/-- A token that is not of a kind does not show that kind in front. -/
theorem next?_ne (shows : place.Shows token) (other : token.kind ≠ kind) :
    place.next? ≠ some kind := by
  rcases shows with ⟨rest, remaining⟩ | ⟨remaining, _⟩
  · simpa [next?, remaining] using other
  · simp [next?, remaining]

end Shows

end Place

namespace Cursor

/-- The place of a cursor. -/
def place (cursor : Cursor) : Place :=
  ⟨cursor.remaining, cursor.nextId⟩

/-- A cursor whose list ends in an end marker. -/
def Regular (cursor : Cursor) : Prop :=
  cursor.endMarker.kind = .eof

/-- A look for a kind finds what stands in front of the place. -/
theorem check_iff {cursor : Cursor} {kind : Kind} :
    cursor.check kind = true ↔ cursor.place.next? = some kind := by
  unfold check place Place.next?
  cases cursor.remaining with
  | nil => simp
  | cons token rest => simp

/-- The cursor is at its end when nothing stands in front of the place. -/
theorem isAtEnd_iff {cursor : Cursor} : cursor.isAtEnd = true ↔ cursor.place.next? = none := by
  unfold isAtEnd place Place.next?
  cases cursor.remaining with
  | nil => simp
  | cons token rest => simp

/-- A token that was looked for stands in front, and moving on goes behind it. -/
theorem place_eq_push {cursor : Cursor} {kind : Kind} (found : cursor.check kind = true) :
    cursor.current.kind = kind ∧ cursor.place = cursor.advance.place.push cursor.current := by
  unfold check at found
  unfold place current advance
  cases remaining : cursor.remaining with
  | nil => simp [remaining] at found
  | cons token rest => simpa [remaining] using found

/-- The current token is the one that the place shows. -/
theorem place_shows {cursor : Cursor} (regular : cursor.Regular) :
    cursor.place.Shows cursor.current := by
  unfold place current
  cases remaining : cursor.remaining with
  | nil => exact .inr ⟨rfl, regular⟩
  | cons token rest => exact .inl ⟨rest, rfl⟩

end Cursor

namespace Parse

variable {α β : Type}

/-- A step moves forward, and where it reads without a report the result and the places before and
behind it are in a relation. -/
structure Yields (step : Parse α) (meaning : α → Place → Place → Prop) : Prop where
  advancing : Advancing step
  meaning {result : α} {cursor after : Cursor} (read : step cursor = .read result after)
    (regular : cursor.Regular) (silent : after.reported = cursor.reported) :
    meaning result cursor.place after.place

namespace Yields

/-- A meaning may be weakened. -/
theorem mono {step : Parse α} {meaning weaker : α → Place → Place → Prop}
    (yields : Yields step meaning)
    (covers : ∀ result start after, meaning result start after → weaker result start after) :
    Yields step weaker where
  advancing := yields.advancing
  meaning := fun read regular silent => covers _ _ _ (yields.meaning read regular silent)

/-- A step that only gives a result. -/
theorem given {value : α} :
    Yields (pure value) fun result start after => result = value ∧ start = after where
  advancing := .pure value
  meaning := by
    rintro result cursor after read _ _
    obtain ⟨rfl, rfl⟩ := Parsed.read.inj read
    exact ⟨rfl, rfl⟩

/-- A result is returned where the place is. -/
theorem pure {given : α} {meaning : α → Place → Place → Prop}
    (holds : ∀ place, meaning given place place) : Yields (pure given) meaning where
  advancing := .pure given
  meaning := by
    intro result cursor after read _ _
    obtain ⟨rfl, rfl⟩ := Parsed.read.inj read
    exact holds cursor.place

/-- What the second step has to establish may use what the first one has. -/
theorem bind {first : Parse α} {next : α → Parse β} {before : α → Place → Place → Prop}
    {meaning : β → Place → Place → Prop} (head : Yields first before)
    (tail : ∀ middle, Yields (next middle) fun result place after =>
      ∀ start, before middle start place → meaning result start after) :
    Yields (first >>= next) meaning where
  advancing := .bind head.advancing fun middle => (tail middle).advancing
  meaning := by
    intro result cursor after read regular silent
    rw [bind_apply] at read
    cases ending : first cursor with
    | refused error between => simp [ending] at read
    | read middle between =>
      simp only [ending] at read
      have moved := head.advancing cursor
      have further := (tail middle).advancing between
      rw [ending] at moved
      rw [read] at further
      obtain ⟨early, late⟩ := moved.silent further silent
      have placed : between.Regular := by
        unfold Cursor.Regular
        rw [show between.endMarker = cursor.endMarker from moved.endMarker]
        exact regular
      exact (tail middle).meaning read placed late _ (head.meaning ending regular early)

/-- The result may be changed on the way out. -/
theorem map {first : Parse α} {change : α → β} {meaning : β → Place → Place → Prop}
    (head : Yields first fun middle start after => meaning (change middle) start after) :
    Yields (change <$> first) meaning :=
  bind head fun _ => pure fun _ _ holds => holds

/-- A refusal yields nothing. -/
theorem refuse {expectation : Expectation} {meaning : α → Place → Place → Prop} :
    Yields (refuse expectation) meaning where
  advancing := .refuse expectation
  meaning := by
    intro result cursor after read
    simp [Parse.refuse] at read

/-- The current token is read off the place. -/
theorem current : Yields current fun token start after => start = after ∧ start.Shows token where
  advancing := .current
  meaning := by
    intro result cursor after read regular _
    obtain ⟨rfl, rfl⟩ := Parsed.read.inj read
    exact ⟨rfl, Cursor.place_shows regular⟩

/-- Moving on goes behind the token in front. -/
theorem advance : Yields advance fun _ start after =>
    ∀ behind token, start = Place.push behind token → behind = after where
  advancing := .advance
  meaning := by
    intro result cursor after read _ _ behind token same
    obtain ⟨_, rfl⟩ := Parsed.read.inj read
    have tokens : cursor.remaining = token :: behind.remaining := congrArg Place.remaining same
    have ids : cursor.nextId = behind.nextId := congrArg Place.nextId same
    unfold Cursor.place Cursor.advance
    rw [tokens, ids, List.tail_cons]

/-- A step that reports is not silent. -/
theorem report {error : ParseError} : Yields (report error) fun _ _ _ => False where
  advancing := .report error
  meaning := by
    intro result cursor after read _ silent
    obtain ⟨_, rfl⟩ := Parsed.read.inj read
    simp [Cursor.report] at silent

/-- A look answers for what stands in front of the place, and stays there. -/
theorem check {kind : Kind} : Yields (check kind) fun found start after =>
    start = after ∧ (found = true ↔ start.next? = some kind) where
  advancing := .check kind
  meaning := by
    intro result cursor after read _ _
    obtain ⟨rfl, rfl⟩ := Parsed.read.inj read
    exact ⟨rfl, Cursor.check_iff⟩

/-- The test for the end answers for the place, and stays there. -/
theorem isAtEnd : Yields isAtEnd fun ended start after =>
    start = after ∧ (ended = true ↔ start.next? = none) where
  advancing := .isAtEnd
  meaning := by
    intro result cursor after read _ _
    obtain ⟨rfl, rfl⟩ := Parsed.read.inj read
    exact ⟨rfl, Cursor.isAtEnd_iff⟩

/-- A token of the kind is taken when it stands in front, and nothing otherwise. -/
theorem accept? {kind : Kind} : Yields (accept? kind) fun found start after =>
    match found with
    | none => start = after ∧ start.next? ≠ some kind
    | some token => token.kind = kind ∧ start = after.push token where
  advancing := .accept? kind
  meaning := by
    intro result cursor after read _ _
    unfold Parse.accept? at read
    split at read
    case isTrue found =>
      obtain ⟨rfl, rfl⟩ := Parsed.read.inj read
      exact Cursor.place_eq_push found
    case isFalse other =>
      obtain ⟨rfl, rfl⟩ := Parsed.read.inj read
      exact ⟨rfl, fun same => other (Cursor.check_iff.mpr same)⟩

/-- A token of the kind is taken. -/
theorem expect {kind : Kind} {expectation : Expectation} :
    Yields (expect kind expectation) fun token start after =>
      token.kind = kind ∧ start = after.push token where
  advancing := .expect kind expectation
  meaning := by
    intro result cursor after read _ _
    unfold Parse.expect at read
    split at read
    case isTrue found =>
      obtain ⟨rfl, rfl⟩ := Parsed.read.inj read
      exact Cursor.place_eq_push found
    case isFalse other => simp [Parse.refuse] at read

/-- The next id is issued. -/
theorem freshId : Yields freshId fun id start after =>
    id = start.nextId ∧ after = ⟨start.remaining, start.nextId + 1⟩ where
  advancing := .freshId
  meaning := by
    intro result cursor after read _ _
    obtain ⟨rfl, rfl⟩ := Parsed.read.inj read
    exact ⟨rfl, rfl⟩

/-- A step that recovers has reported, unless there was nothing to recover from. -/
theorem recovering {statement : Parse Stmt} {meaning : Stmt → Place → Place → Prop}
    (yields : Yields statement meaning) :
    Yields (always (recovering statement)) fun found start after =>
      ∃ tree, found = some tree ∧ meaning tree start after where
  advancing := .recovering yields.advancing
  meaning := by
    intro result cursor after read regular silent
    unfold always Parse.recovering at read
    cases ending : statement cursor with
    | read tree behind =>
      simp only [ending] at read
      obtain ⟨rfl, rfl⟩ := Parsed.read.inj read
      exact ⟨tree, rfl, yields.meaning ending regular silent⟩
    | refused error behind =>
      simp only [ending] at read
      obtain ⟨rfl, rfl⟩ := Parsed.read.inj read
      have moved := (yields.advancing cursor).reported
      rw [ending] at moved
      have longer := moved.length_le
      have same := congrArg List.length silent
      simp only [Cursor.report, List.length_append, List.length_singleton] at same
      simp only [Parsed.cursor] at longer
      omega

/-- Stepping past the token that was looked at puts it in front of what follows. -/
theorem past {token : Token} {kind : Kind} {next : Unit → Parse α}
    {meaning : α → Place → Place → Prop} (shown : token.kind = kind) (inside : kind ≠ .eof)
    (tail : Yields (next ()) fun result place after => meaning result (place.push token) after) :
    Yields (Parse.advance >>= next) fun result place after =>
      ∀ start, start = place ∧ start.Shows token → meaning result start after := by
  refine bind advance fun _ => tail.mono ?_
  rintro result place after holds start stepped _ ⟨rfl, shows⟩
  obtain ⟨behind, rfl⟩ := shows.eq_push shown inside
  rwa [stepped behind token rfl]

/-- What is read of a list in front of a closing parenthesis: a last entry, a last entry with a
comma behind it, or an entry and the rest of the list behind a comma. -/
def EntryMeaning (single : α → Place → Place → Prop) (several : List α → Place → Place → Prop)
    (list : List α) (start after : Place) : Prop :=
  ∃ first middle, single first start middle ∧
    ((list = [first] ∧ middle = after ∧ middle.next? ≠ some (.symbol .comma)) ∨
      ∃ comma behind, comma.kind = .symbol .comma ∧ middle = Place.push behind comma ∧
        ((list = [first] ∧ behind = after ∧ behind.next? = some (.symbol .rightParen)) ∨
          ∃ others, list = first :: others ∧ several others behind after))

/-- A list of entries is read one by one. -/
theorem entries {entry : Parse α} {more : Parse (List α)} {single : α → Place → Place → Prop}
    {several : List α → Place → Place → Prop} (head : Yields entry single)
    (tail : Yields more several) :
    Yields (do
      let first ← entry
      match ← Parse.accept? (.symbol .comma) with
      | none => return [first]
      | some _ =>
        if ← Parse.check (.symbol .rightParen) then return [first]
        else return first :: (← more)) (EntryMeaning single several) := by
  refine .bind head fun first => .bind .accept? fun comma => ?_
  split
  · refine .pure ?_
    rintro place _ ⟨rfl, stop⟩ start read
    exact ⟨first, _, read, .inl ⟨rfl, rfl, stop⟩⟩
  · refine .bind .check fun closed => ?_
    split
    case isTrue found =>
      refine .pure ?_
      rintro place _ ⟨rfl, closes⟩ _ ⟨mark, rfl⟩ start read
      exact ⟨first, _, read, .inr ⟨_, _, mark, rfl, .inl ⟨rfl, rfl, closes.mp found⟩⟩⟩
    case isFalse =>
      refine .bind tail fun others => .pure ?_
      rintro after middle further _ ⟨rfl, _⟩ _ ⟨mark, rfl⟩ start read
      exact ⟨first, _, read, .inr ⟨_, _, mark, rfl, .inr ⟨others, rfl, further⟩⟩⟩

/-- An operator of the level is taken when it stands in front, and nothing otherwise. -/
theorem acceptOperator? (level : Level) :
    Yields (acceptOperator? level) fun found start after =>
      match found with
      | none => start = after ∧ ∀ kind ∈ level.operators, start.next? ≠ some kind
      | some token => token.kind ∈ level.operators ∧ start = after.push token := by
  refine .bind .current fun token => ?_
  split
  case isTrue found =>
    have mark : token.kind ∈ level.operators := by simpa using found
    have inside : token.kind ≠ .eof := by
      intro ended
      rw [ended] at mark
      cases level <;> simp [Level.operators] at mark
    exact .past rfl inside (.pure fun place => ⟨mark, rfl⟩)
  case isFalse other =>
    refine .pure ?_
    rintro place _ ⟨rfl, shows⟩
    refine ⟨rfl, fun kind member => shows.next?_ne fun same => other ?_⟩
    simpa [same] using member

/-- A prefix operator is taken, or nothing. -/
theorem acceptPrefixOperator? : Yields acceptPrefixOperator? fun found start after =>
    match found with
    | none => start = after
    | some token =>
      (token.kind = .symbol .bang ∨ token.kind = .symbol .minus) ∧ start = after.push token := by
  refine .bind .accept? fun bang => ?_
  split
  · exact .pure fun place _ ⟨mark, same⟩ => ⟨.inl mark, same⟩
  · refine accept?.mono ?_
    rintro found middle after meaning start ⟨rfl, _⟩
    cases found with
    | none => exact meaning.1
    | some token => exact ⟨.inr meaning.1, meaning.2⟩

end Yields

end Parse

end LoxLang
