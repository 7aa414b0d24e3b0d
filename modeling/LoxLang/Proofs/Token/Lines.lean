import LoxLang.Proofs.Token.Stream

/-!
# Lines

A scan counts a newline where it passes one: between lexemes, and inside a string. Comments end in
front of theirs, and nothing else holds any. So no newline is missed or counted twice, and every
item carries the line on which its text ends (`scan_lines_exact`).
-/

namespace LoxLang

namespace Piece

/-- The newlines that are counted inside a string, up to the quote that closes it. -/
def countedInside : List Char → Nat
  | [] => 0
  | next :: rest =>
    if next = '"' then 0 else if next = '\n' then countedInside rest + 1 else countedInside rest

/-- The newlines that are counted while what starts at a character is passed. -/
def counted (first : Char) (rest : List Char) : Nat :=
  if first = '\n' then 1 else if first = '"' then countedInside rest else 0

/-- Inside a string every newline is counted. -/
theorem countedInside_append {contents : List Char} (inner : '"' ∉ contents) {behind : List Char}
    (ends : behind.head?.all (· = '"') = true) :
    countedInside (contents ++ behind) = contents.count '\n' := by
  induction contents with
  | nil =>
    cases behind with
    | nil => rfl
    | cons next behind =>
      rw [List.nil_append, countedInside, if_pos (by simpa using ends)]
      rfl
  | cons next contents inductionHypothesis =>
    rw [List.mem_cons, not_or] at inner
    rw [List.cons_append, countedInside, if_neg (Ne.symm inner.1), inductionHypothesis inner.2]
    by_cases newline : next = '\n' <;> simp [newline]

end Piece

/-- A character that names and numbers are made of is neither a newline nor a quote. -/
theorem ne_of_inner {character : Char} (inner : IsInitial character ∨ IsDigit character) :
    character ≠ '\n' ∧ character ≠ '"' := by
  rw [← Piece.continuesName_iff] at inner
  constructor <;> (rintro rfl; cases inner)

/-- Only a string starts with a quote, and only strings hold newlines. -/
theorem Lexeme.plain {kind : Kind} {text : List Char} (lexeme : Lexeme kind text) :
    (∃ contents, '"' ∉ contents ∧ text = '"' :: (contents ++ ['"'])) ∨
      text.head? ≠ some '"' ∧ '\n' ∉ text := by
  have named {text : List Char} (name : IsName text) : text.head? ≠ some '"' ∧ '\n' ∉ text := by
    obtain ⟨first, rest, rfl, initial, others⟩ := name
    have start := ne_of_inner (.inl initial)
    refine ⟨by simpa using start.2, fun member => ?_⟩
    rcases List.mem_cons.mp member with same | member
    · exact start.1 same.symm
    · exact (ne_of_inner (others _ member)).1 rfl
  have digits {text : List Char} (given : IsDigits text) : text.head? ≠ some '"' ∧ '\n' ∉ text := by
    refine ⟨fun first => ?_, fun member => (ne_of_inner (.inr (given.2 _ member))).1 rfl⟩
    exact (ne_of_inner (.inr (given.2 _ (List.mem_of_mem_head? first)))).2 rfl
  cases lexeme with
  | symbol mark => exact .inr (by cases mark <;> decide)
  | keyword word => exact .inr (named (Piece.isName_spelling word))
  | identifier name _ => exact .inr (named name)
  | string inner => exact .inl ⟨_, inner, rfl⟩
  | whole given => exact .inr (digits given)
  | @decimal whole places before behind =>
    refine .inr ⟨?_, ?_⟩
    · rw [List.head?_append_of_ne_nil _ before.1]
      exact (digits before).1
    · simp [(digits before).2, (digits behind).2]

/-- What is counted while a piece is passed are its newlines. -/
theorem Piece.Proper.count_newline {first : Char} {rest : List Char} {piece : Piece}
    (proper : piece.Proper (first :: rest)) (further : piece.text ≠ [])
    (front : piece.text <+: first :: rest) : piece.text.count '\n' = counted first rest := by
  obtain ⟨behind, split⟩ := front
  have plain (start : piece.text.head? ≠ some '"') (single : '\n' ∉ piece.text) :
      piece.text.count '\n' = counted first rest := by
    obtain ⟨next, inner, same⟩ := List.exists_cons_of_ne_nil further
    rw [same] at split start single
    obtain ⟨rfl, _⟩ := List.cons.inj split
    rw [same, List.count_eq_zero_of_not_mem single, counted, if_neg, if_neg]
    · exact fun quote => start (congrArg some quote)
    · exact fun newline => single (newline ▸ List.mem_cons_self)
  cases proper with
  | token lexeme _ =>
    rcases lexeme.plain with ⟨contents, inner, rfl⟩ | ⟨start, single⟩
    · obtain ⟨rfl, rfl⟩ := List.cons.inj split
      change ('"' :: (contents ++ ['"'])).count '\n' = countedInside (contents ++ ['"'] ++ behind)
      rw [List.append_assoc, countedInside_append inner rfl]
      simp
    · exact plain start single
  | comment comment _ =>
    obtain ⟨body, rfl, single⟩ := comment
    exact plain (by simp) (by simpa using single)
  | @blank character blank =>
    obtain ⟨rfl, _⟩ := List.cons.inj split
    simp only [List.mem_cons, List.not_mem_nil, or_false] at blank
    rcases blank with rfl | rfl | rfl | rfl <;> rfl
  | @unexpected character visible stray =>
    refine plain ?_ ?_
    · rintro quote
      obtain rfl := Option.some.inj quote
      exact stray ['"'] (.inr ⟨_, .string (List.not_mem_nil (a := '"'))⟩)
    · rintro newline
      obtain rfl := List.mem_singleton.mp newline
      simp at visible
  | @unterminated contents everything unclosed =>
    obtain ⟨rfl, same⟩ := List.cons.inj everything
    rw [counted, if_neg (by decide), if_pos rfl, same, ← List.append_nil contents,
      countedInside_append unclosed rfl, List.append_nil]
    rfl

namespace ScanItem

/-- The line on which an item ends. -/
def line : ScanItem → Nat
  | token scanned => scanned.line
  | fault line _ => line

/-- The items of a text that starts on a line, if newlines are counted where they are passed. -/
def counting (line : Nat) : List Char → List ScanItem
  | [] => [token { kind := .eof, lexeme := "", line }]
  | first :: rest =>
    let (content, length) := Piece.classify first rest
    let ending := line + Piece.counted first rest
    match content with
    | .skipped => counting ending (rest.drop length)
    | .token kind =>
      token { kind, lexeme := String.ofList (first :: rest.take length), line := ending } ::
        counting ending (rest.drop length)
    | .fault cause => fault ending cause :: counting ending (rest.drop length)
termination_by text => text.length
decreasing_by all_goals simp only [List.length_drop, List.length_cons]; omega

/-- Counted where they are passed, the newlines give the lines of the items. -/
theorem counting_eq (line : Nat) (text : List Char) :
    counting line text = ofPieces line (Piece.cut text) := by
  have passed (first : Char) (rest : List Char) :=
    (Piece.proper_classify first rest).count_newline (List.cons_ne_nil _ _)
      ((List.prefix_cons_inj first).mpr (List.take_prefix _ rest))
  fun_induction counting line text with
  | case1 line =>
    rw [Piece.cut]
    rfl
  | case2 line first rest length ending classified inductionHypothesis =>
    rw [inductionHypothesis, Piece.cut, classified, ofPieces]
    simp only [← passed first rest, classified, ending]
  | case3 line first rest length ending kind classified inductionHypothesis =>
    rw [inductionHypothesis, Piece.cut, classified, ofPieces]
    simp only [← passed first rest, classified, ending]
  | case4 line first rest length ending cause classified inductionHypothesis =>
    rw [inductionHypothesis, Piece.cut, classified, ofPieces]
    simp only [← passed first rest, classified, ending]

/-- Where an item stands: it shows a piece of the text that is not skipped, and so many such pieces
stand before it, or it is the end marker. Its text ends behind the characters that were passed. -/
inductive Stands (pieces : List Piece) (index : Nat) (item : ScanItem) (passed : List Char) :
    Prop where
  | piece (before behind : List Piece) (piece : Piece) (cuts : pieces = before ++ piece :: behind)
      (kept : piece.content ≠ .skipped) (shows : item.Shows piece)
      (place : index = (before.filter (·.content ≠ .skipped)).length)
      (upTo : passed = (before.map Piece.text).flatten ++ piece.text)
  | ending (line : Nat) (marker : item = .token ⟨.eof, "", line⟩)
      (place : index = (pieces.filter (·.content ≠ .skipped)).length)
      (upTo : passed = (pieces.map Piece.text).flatten)

namespace Stands

variable {first : Piece} {rest : List Piece} {index : Nat} {item : ScanItem} {passed : List Char}

/-- Behind a skipped piece an item stands where it stood. -/
theorem behind_skipped (stands : item.Stands rest index passed)
    (skipped : first.content = .skipped) :
    item.Stands (first :: rest) index (first.text ++ passed) := by
  cases stands with
  | piece before behind piece cuts kept shows place upTo =>
    refine .piece (first :: before) behind piece (congrArg _ cuts) kept shows ?_ (by simp [upTo])
    simpa [skipped] using place
  | ending line marker place upTo =>
    exact .ending line marker (by simpa [skipped] using place) (by simp [upTo])

/-- Behind another piece it stands one place later. -/
theorem behind_kept (stands : item.Stands rest index passed) (kept : first.content ≠ .skipped) :
    item.Stands (first :: rest) (index + 1) (first.text ++ passed) := by
  cases stands with
  | piece before behind piece cuts own shows place upTo =>
    refine .piece (first :: before) behind piece (congrArg _ cuts) own shows ?_ (by simp [upTo])
    simpa [kept] using place
  | ending line marker place upTo =>
    exact .ending line marker (by simpa [kept] using place) (by simp [upTo])

theorem upTo_prefix {pieces : List Piece} (stands : item.Stands pieces index passed) :
    passed <+: (pieces.map Piece.text).flatten := by
  cases stands with
  | piece before behind piece cuts kept shows place upTo => simp [cuts, upTo]
  | ending line marker place upTo => exact upTo ▸ List.prefix_refl _

end Stands

/-- An item carries the line on which its text ends. -/
theorem stands_of_getElem? {line index : Nat} {pieces : List Piece} {item : ScanItem}
    (given : (ofPieces line pieces)[index]? = some item) :
    ∃ passed, item.Stands pieces index passed ∧ item.line = line + passed.count '\n' := by
  induction pieces generalizing line index with
  | nil =>
    cases index with
    | zero =>
      obtain rfl := Option.some.inj given
      exact ⟨[], .ending line rfl rfl rfl, rfl⟩
    | succ index => cases given
  | cons piece rest inductionHypothesis =>
    have adds (passed : List Char) : line + piece.text.count '\n' + passed.count '\n' =
        line + (piece.text ++ passed).count '\n' := by
      rw [List.count_append, Nat.add_assoc]
    -- A piece that is not skipped gives the first item, and the rest gives those behind it.
    have follows {head : ScanItem}
        (given : (head :: ofPieces (line + piece.text.count '\n') rest)[index]? = some item)
        (kept : piece.content ≠ .skipped) (shows : head.Shows piece)
        (ends : head.line = line + piece.text.count '\n') :
        ∃ passed, item.Stands (piece :: rest) index passed ∧
          item.line = line + passed.count '\n' := by
      cases index with
      | zero =>
        obtain rfl := Option.some.inj given
        exact ⟨piece.text, .piece [] rest piece rfl kept shows rfl rfl, ends⟩
      | succ index =>
        obtain ⟨passed, stands, same⟩ := inductionHypothesis given
        exact ⟨_, stands.behind_kept kept, same.trans (adds passed)⟩
    unfold ofPieces at given
    cases content : piece.content with
    | skipped =>
      simp only [content] at given
      obtain ⟨passed, stands, same⟩ := inductionHypothesis given
      exact ⟨_, stands.behind_skipped content, same.trans (adds passed)⟩
    | token kind =>
      simp only [content] at given
      exact follows given (by simp [content]) ⟨content, rfl⟩ rfl
    | fault cause =>
      simp only [content] at given
      exact follows given (by simp [content]) content rfl

/-- Lines never decrease, and start where the text starts. -/
theorem pairwise_line (line : Nat) (pieces : List Piece) :
    (ofPieces line pieces).Pairwise (·.line ≤ ·.line) ∧
      ∀ item ∈ ofPieces line pieces, line ≤ item.line := by
  induction pieces generalizing line with
  | nil => exact ⟨List.pairwise_singleton _ _, by simp [ofPieces, ScanItem.line]⟩
  | cons piece rest inductionHypothesis =>
    obtain ⟨ordered, later⟩ := inductionHypothesis (line + piece.text.count '\n')
    have onward (item : ScanItem) (member : item ∈ ofPieces (line + piece.text.count '\n') rest) :
        line ≤ item.line :=
      Nat.le_trans (Nat.le_add_right _ _) (later item member)
    unfold ofPieces
    cases content : piece.content with
    | skipped => exact ⟨ordered, onward⟩
    | token kind =>
      exact ⟨.cons later ordered, List.forall_mem_cons.mpr ⟨Nat.le_add_right _ _, onward⟩⟩
    | fault cause =>
      exact ⟨.cons later ordered, List.forall_mem_cons.mpr ⟨Nat.le_add_right _ _, onward⟩⟩

end ScanItem

/-- Every item that a scanner gives carries the line on which its text ends: one more than the
newlines up to there. So lines never decrease. They are those that a scan gets that counts newlines
where it passes them, between lexemes and inside strings only. -/
theorem scan_lines_exact (source : String) :
    (∀ index item, (Scanner.start source).answer index = some item →
      ∃ passed, passed <+: source.toList ∧
        item.Stands (Piece.cut source.toList) index passed ∧
        item.line = 1 + passed.count '\n') ∧
    (scan source).Pairwise (·.line ≤ ·.line) ∧
    scan source = ScanItem.counting 1 source.toList := by
  refine ⟨fun index item given => ?_, (ScanItem.pairwise_line 1 _).1,
    (ScanItem.counting_eq 1 source.toList).symm⟩
  rw [Scanner.answer_eq] at given
  obtain ⟨passed, stands, same⟩ := ScanItem.stands_of_getElem? given
  exact ⟨passed, Piece.flatten_cut source.toList ▸ stands.upTo_prefix, stands, same⟩

end LoxLang
