import LoxLang.Proofs.Token.Genuine
import LoxLang.Proofs.Token.Joining
import LoxLang.Proofs.Tree.Rendering

/-!
# Lexemes and the longest match

`Lexeme` says which texts are tokens and of which kind, and `IsComment` which texts are comments,
without any reference to how a text is cut. `Piece.Proper` says what a piece may be in front of the
rest of a text: a lexeme or a comment than which no longer one starts there, a single blank, a
character with which nothing starts, or a quote that is never closed together with everything behind
it. `Piece.proper_of_cut` shows that cutting a text gives proper pieces only.
-/

namespace LoxLang

/-- A decimal digit. -/
def IsDigit (character : Char) : Prop :=
  '0' ≤ character ∧ character ≤ '9'

/-- A character with which names start: an English letter or an underscore. -/
def IsInitial (character : Char) : Prop :=
  ('A' ≤ character ∧ character ≤ 'Z') ∨ ('a' ≤ character ∧ character ≤ 'z') ∨ character = '_'

/-- At least one digit and nothing else. -/
def IsDigits (text : List Char) : Prop :=
  text ≠ [] ∧ ∀ character ∈ text, IsDigit character

/-- A name: an initial, then initials and digits. -/
def IsName (text : List Char) : Prop :=
  ∃ first rest, text = first :: rest ∧ IsInitial first ∧
    ∀ character ∈ rest, IsInitial character ∨ IsDigit character

/-- Two slashes and characters of the same line. -/
def IsComment (text : List Char) : Prop :=
  ∃ body, text = '/' :: '/' :: body ∧ '\n' ∉ body

/-- The texts of the tokens of each kind. -/
inductive Lexeme : Kind → List Char → Prop where
  | symbol (mark : Symbol) : Lexeme (.symbol mark) mark.spelling.toList
  | keyword (word : Keyword) : Lexeme (.keyword word) word.spelling.toList
  | identifier {text : List Char} (name : IsName text)
      (free : ∀ word : Keyword, text ≠ word.spelling.toList) : Lexeme .identifier text
  /-- A string carries what stands between its quotes. -/
  | string {contents : List Char} (inner : '"' ∉ contents) :
      Lexeme (.string (String.ofList contents)) ('"' :: (contents ++ ['"']))
  | whole {digits : List Char} (given : IsDigits digits) :
      Lexeme (.number (numeralValue digits)) digits
  /-- A point stands between digits. -/
  | decimal {whole places : List Char} (before : IsDigits whole) (behind : IsDigits places) :
      Lexeme (.number (numeralValue (whole ++ '.' :: places))) (whole ++ '.' :: places)

/-- A text that is a lexeme or a comment. -/
def IsLexical (text : List Char) : Prop :=
  IsComment text ∨ ∃ kind, Lexeme kind text

/-- No longer beginning of a text is a lexeme or a comment. -/
def Longest (remaining text : List Char) : Prop :=
  ∀ other, other <+: remaining → IsLexical other → other.length ≤ text.length

/-- What a piece may be at the front of a remaining text. -/
inductive Piece.Proper (remaining : List Char) : Piece → Prop where
  | token {text : List Char} {kind : Kind} (lexeme : Lexeme kind text)
      (longest : Longest remaining text) : Proper remaining ⟨text, .token kind⟩
  | comment {text : List Char} (comment : IsComment text) (longest : Longest remaining text) :
      Proper remaining ⟨text, .skipped⟩
  | blank {character : Char} (blank : character ∈ [' ', '\r', '\t', '\n']) :
      Proper remaining ⟨[character], .skipped⟩
  | unexpected {character : Char} (visible : character ∉ [' ', '\r', '\t', '\n'])
      (stray : ∀ rest, ¬ IsLexical (character :: rest)) :
      Proper remaining ⟨[character], .fault (.unexpectedCharacter character)⟩
  | unterminated {rest : List Char} (everything : remaining = '"' :: rest) (unclosed : '"' ∉ rest) :
      Proper remaining ⟨'"' :: rest, .fault .unterminatedString⟩

namespace Piece

variable {first : Char} {rest : List Char}

/-- The scanner's digits are the digits. -/
theorem isDigit_iff {character : Char} : character.isDigit = true ↔ IsDigit character := by
  simp [Char.isDigit, IsDigit, Char.le_def]

/-- What starts a name is a letter or an underscore. -/
theorem startsName_iff {character : Char} :
    startsName character = true ↔ IsInitial character := by
  change (decide ('A' ≤ character ∧ character ≤ 'Z') ||
    (decide ('a' ≤ character) && decide (character ≤ 'z')) || character == '_') = true ↔ _
  simp [IsInitial, or_assoc]

/-- A name goes on with letters, underscores and digits. -/
theorem continuesName_iff {character : Char} :
    continuesName character = true ↔ IsInitial character ∨ IsDigit character := by
  simp [continuesName, Char.isAlphanum, ← startsName_iff, ← isDigit_iff, startsName,
    or_right_comm]

/-- There are four blank characters. -/
theorem isBlank_iff {character : Char} :
    isBlank character = true ↔ character ∈ [' ', '\r', '\t', '\n'] := by
  simp [isBlank, or_assoc]

/-- No initial is a digit. -/
theorem isDigit_of_startsName (initial : startsName first = true) : first.isDigit = false := by
  rw [Bool.eq_false_iff, Ne, isDigit_iff]
  rintro ⟨_, upper⟩
  rcases startsName_iff.mp initial with ⟨lower, _⟩ | ⟨lower, _⟩ | rfl
  · exact absurd (Char.le_trans lower upper) (by decide)
  · exact absurd (Char.le_trans lower upper) (by decide)
  · exact absurd upper (by decide)

/-- What is taken while a condition holds meets it. -/
theorem of_mem_takeWhile {belongs : Char → Bool} {text : List Char} {character : Char}
    (member : character ∈ text.takeWhile belongs) : belongs character = true :=
  List.all_eq_true.mp List.all_takeWhile character member

/-! ### What starts at a character -/

/-- A symbol that no other extends is one character. -/
theorem classify_single {symbol : Symbol} (found : singleSymbol? first = some symbol) :
    classify first rest = (.token (.symbol symbol), 0) := by
  simp [classify, found]

/-- A symbol that an equals sign extends takes it if it follows. -/
theorem classify_extensible {alone extended : Symbol}
    (found : extensibleSymbol? first = some (alone, extended)) :
    classify first rest =
      if rest.head? = some '=' then (.token (.symbol extended), 1)
      else (.token (.symbol alone), 0) := by
  have single : singleSymbol? first = none := by
    unfold singleSymbol?
    split <;> first | rfl | cases found
  simp [classify, single, found]

/-- A blank character is skipped alone. -/
theorem classify_blank (blank : isBlank first = true) : classify first rest = (.skipped, 0) := by
  rw [isBlank_iff] at blank
  simp only [List.mem_cons, List.not_mem_nil, or_false] at blank
  rcases blank with rfl | rfl | rfl | rfl <;> rfl

/-- Whether a quote is closed is whether there is another one. -/
theorem classify_quote :
    classify '"' rest =
      if '"' ∈ rest then
        (.token (.string (String.ofList (rest.takeWhile (· ≠ '"')))),
          (rest.takeWhile (· ≠ '"')).length + 1)
      else (.fault .unterminatedString, rest.length) := by
  have closed : (rest.takeWhile (· ≠ '"')).length < rest.length ↔ '"' ∈ rest := by
    induction rest with
    | nil => simp
    | cons character rest inductionHypothesis =>
      by_cases quote : character = '"'
      · simp [quote]
      · simp [quote, Ne.symm quote, ← inductionHypothesis]
  change (if (rest.takeWhile (· ≠ '"')).length < rest.length then _ else _ : Content × Nat) = _
  simp only [closed]

/-- Digits and initials are neither symbols nor blanks nor quotes. -/
theorem classify_continues (continues : continuesName first = true) :
    classify first rest =
      if first.isDigit then
        (.token (.number (numeralValue (first :: rest.take (numeralLength rest)))),
          numeralLength rest)
      else
        (.token (nameKind (first :: rest.takeWhile continuesName)),
          (rest.takeWhile continuesName).length) := by
  have single : singleSymbol? first = none := by
    unfold singleSymbol?
    split <;> first | rfl | cases continues
  have extensible : extensibleSymbol? first = none := by
    unfold extensibleSymbol?
    split <;> first | rfl | cases continues
  have slash : first ≠ '/' := by
    rintro rfl
    cases continues
  have quote : first ≠ '"' := by
    rintro rfl
    cases continues
  have blank : isBlank first = false := by
    rw [Bool.eq_false_iff]
    intro blank
    rw [isBlank_iff] at blank
    simp only [List.mem_cons, List.not_mem_nil, or_false] at blank
    rcases blank with rfl | rfl | rfl | rfl <;> cases continues
  by_cases digit : first.isDigit = true
  · simp [classify, single, extensible, slash, quote, blank, digit]
  · have initial : startsName first = true := by
      rw [continuesName_iff, ← startsName_iff, ← isDigit_iff] at continues
      exact continues.resolve_right digit
    simp [classify, single, extensible, slash, quote, blank, digit, initial]

/-- With what a character may start a piece. -/
inductive Opening (first : Char) : Prop where
  | single {symbol : Symbol} (found : singleSymbol? first = some symbol)
  | extensible {alone extended : Symbol}
      (found : extensibleSymbol? first = some (alone, extended))
  | slash (same : first = '/')
  | blank (blank : isBlank first = true)
  | quote (same : first = '"')
  | continues (continues : continuesName first = true)
  | none (stray : ∀ rest, classify first rest = (.fault (.unexpectedCharacter first), 0))

/-- Every character opens a piece in one of these ways. -/
theorem opening (first : Char) : Opening first := by
  cases single : singleSymbol? first with
  | some symbol => exact .single single
  | none =>
    cases extensible : extensibleSymbol? first with
    | some pair => exact .extensible extensible
    | none =>
      by_cases slash : first = '/'
      · exact .slash slash
      by_cases blank : isBlank first = true
      · exact .blank blank
      by_cases quote : first = '"'
      · exact .quote quote
      by_cases continues : continuesName first = true
      · exact .continues continues
      have neither := mt continuesName_iff.mpr continues
      rw [not_or, ← startsName_iff, ← isDigit_iff] at neither
      apply Opening.none
      intro rest
      simp [classify, single, extensible, slash, blank, quote, neither]

/-! ### Numbers -/

/-- How many characters in front of a text are a point and the digits behind it. -/
def fractionLength : List Char → Nat
  | '.' :: fraction =>
    if (fraction.takeWhile Char.isDigit).length = 0 then 0
    else 1 + (fraction.takeWhile Char.isDigit).length
  | _ => 0

/-- A number goes on with all digits that follow, and then with a fraction. -/
theorem numeralLength_append {whole tail : List Char}
    (digits : ∀ character ∈ whole, character.isDigit = true)
    (ends : ∀ character, tail.head? = some character → character.isDigit = false) :
    numeralLength (whole ++ tail) = whole.length + fractionLength tail := by
  have run : (whole ++ tail).takeWhile Char.isDigit = whole := by
    rw [List.takeWhile_append_of_pos digits]
    cases tail with
    | nil => simp
    | cons character tail => simp [ends character rfl]
  unfold numeralLength
  dsimp only
  rw [run, List.drop_left]
  cases tail with
  | nil => rfl
  | cons character fraction =>
    by_cases point : character = '.'
    · subst point
      simp only [fractionLength]
      split <;> omega
    · simp [fractionLength, point]

/-- Every text is a run of digits and what ends the run. -/
theorem exists_digits (text : List Char) : ∃ whole tail, text = whole ++ tail ∧
    (∀ character ∈ whole, character.isDigit = true) ∧
    ∀ character, tail.head? = some character → character.isDigit = false := by
  refine ⟨text.takeWhile Char.isDigit, text.dropWhile Char.isDigit,
    List.takeWhile_append_dropWhile.symm, ?_, ?_⟩
  · exact fun character member => of_mem_takeWhile member
  · intro character head
    have stopped := List.head?_dropWhile_not Char.isDigit text
    rw [head] at stopped
    simpa using stopped

/-- A fraction is a point with digits behind it. -/
theorem take_fractionLength (tail : List Char) :
    fractionLength tail = 0 ∨
      ∃ places, IsDigits places ∧ tail.take (fractionLength tail) = '.' :: places := by
  unfold fractionLength
  split
  case h_1 fraction =>
    split
    case isTrue => exact .inl rfl
    case isFalse some =>
      refine .inr ⟨fraction.takeWhile Char.isDigit, ⟨?_, ?_⟩, ?_⟩
      · exact fun none => some (by simp [none])
      · exact fun character member => isDigit_iff.mp (of_mem_takeWhile member)
      · rw [Nat.add_comm, List.take_succ_cons, take_length_takeWhile]
  case h_2 => exact .inl rfl

/-- What starts at a digit is a number. -/
theorem lexeme_number (digit : first.isDigit = true) (rest : List Char) :
    Lexeme (.number (numeralValue (first :: rest.take (numeralLength rest))))
      (first :: rest.take (numeralLength rest)) := by
  obtain ⟨whole, tail, rfl, digits, ends⟩ := exists_digits rest
  have given : IsDigits (first :: whole) := by
    constructor
    · exact List.cons_ne_nil _ _
    · intro character member
      rcases List.mem_cons.mp member with rfl | member
      · exact isDigit_iff.mp digit
      · exact isDigit_iff.mp (digits character member)
  rw [numeralLength_append digits ends, List.take_length_add_append]
  rcases take_fractionLength tail with none | ⟨places, behind, same⟩
  · rw [none, List.take_zero, List.append_nil]
    exact .whole given
  · rw [same, ← List.cons_append]
    exact .decimal given behind

/-- What starts at an initial is a name, and a reserved word if it is spelled like one. -/
theorem lexeme_name (initial : startsName first = true) (rest : List Char) :
    Lexeme (nameKind (first :: rest.takeWhile continuesName))
      (first :: rest.takeWhile continuesName) := by
  have name : IsName (first :: rest.takeWhile continuesName) :=
    ⟨first, _, rfl, startsName_iff.mp initial, fun character member =>
      continuesName_iff.mp (of_mem_takeWhile member)⟩
  generalize first :: rest.takeWhile continuesName = text at name
  unfold nameKind
  cases found : Keyword.ofSpelling? (String.ofList text) with
  | some word =>
    have spelled := congrArg String.toList (Keyword.spelling_of_ofSpelling? found)
    rw [String.toList_ofList] at spelled
    rw [← spelled]
    exact .keyword word
  | none =>
    apply Lexeme.identifier name
    rintro word rfl
    rw [String.ofList_toList, word.ofSpelling?_spelling] at found
    cases found

/-! ### The longest match -/

/-- A run of characters in front of a text is part of the longest one. -/
theorem length_le_takeWhile {belongs : Char → Bool} {text run : List Char} (front : run <+: text)
    (all : ∀ character ∈ run, belongs character = true) :
    run.length ≤ (text.takeWhile belongs).length := by
  obtain ⟨tail, rfl⟩ := front
  rw [List.takeWhile_append_of_pos all]
  simp

/-- Digits in front of a text are part of its numeral. -/
theorem le_numeralLength {run : List Char} (front : run <+: rest)
    (all : ∀ character ∈ run, character.isDigit = true) : run.length ≤ numeralLength rest := by
  have within := length_le_takeWhile front all
  obtain ⟨whole, tail, rfl, digits, ends⟩ := exists_digits rest
  rw [List.takeWhile_append_of_pos digits] at within
  rw [numeralLength_append digits ends]
  cases tail with
  | nil => simpa [fractionLength] using within
  | cons character tail =>
    simp only [List.takeWhile_cons, ends character rfl, Bool.false_eq_true, if_false,
      List.append_nil] at within
    omega

/-- A number with a fraction takes the fraction in. -/
theorem decimal_le_numeralLength {whole places : List Char}
    (front : whole ++ '.' :: places <+: rest)
    (before : ∀ character ∈ whole, character.isDigit = true) (behind : IsDigits places) :
    (whole ++ '.' :: places).length ≤ numeralLength rest := by
  obtain ⟨tail, rfl⟩ := front
  have within : places.length ≤ ((places ++ tail).takeWhile Char.isDigit).length :=
    length_le_takeWhile (List.prefix_append _ _) fun character member =>
      isDigit_iff.mpr (behind.2 character member)
  have some : 0 < places.length := List.length_pos_iff.mpr behind.1
  rw [List.append_assoc, numeralLength_append before (by simp)]
  simp only [List.cons_append, fractionLength, List.length_append, List.length_cons]
  split <;> omega

/-- The spelling of a keyword is a name. -/
theorem isName_spelling (word : Keyword) : IsName word.spelling.toList := by
  have named (first : Char) (rest : List Char) (starts : startsName first = true)
      (continues : rest.all continuesName = true) : IsName (first :: rest) :=
    ⟨first, rest, rfl, startsName_iff.mp starts, fun character member =>
      continuesName_iff.mp (List.all_eq_true.mp continues character member)⟩
  cases word <;> exact named _ _ rfl rfl

/-- A name in front of a text is no longer than the piece that is cut off. -/
theorem name_le_classify {name : List Char} (given : IsName name) (front : name <+: first :: rest) :
    name.length ≤ (classify first rest).2 + 1 := by
  obtain ⟨initial, letters, rfl, starts, continues⟩ := given
  obtain ⟨rfl, within⟩ := List.cons_prefix_cons.mp front
  rw [← startsName_iff] at starts
  rw [classify_continues (continuesName_iff.mpr (.inl (startsName_iff.mp starts))),
    isDigit_of_startsName starts]
  exact Nat.succ_le_succ (length_le_takeWhile within fun character member =>
    continuesName_iff.mpr (continues character member))

/-- No lexeme and no comment in front of a text is longer than the piece that is cut off there. -/
theorem lexical_le_classify {other : List Char} (lexical : IsLexical other)
    (front : other <+: first :: rest) : other.length ≤ (classify first rest).2 + 1 := by
  rcases lexical with ⟨body, rfl, line⟩ | ⟨kind, lexeme⟩
  · obtain ⟨rfl, inside⟩ := List.cons_prefix_cons.mp front
    have within : ('/' :: body).length ≤ (rest.takeWhile (· ≠ '\n')).length := by
      apply length_le_takeWhile inside
      intro character member
      rcases List.mem_cons.mp member with rfl | member
      · decide
      · simpa using ne_of_mem_of_not_mem member line
    obtain ⟨tail, rfl⟩ := inside
    exact Nat.succ_le_succ within
  cases lexeme with
  | symbol mark =>
    cases mark with
    | bangEqual | equalEqual | greaterEqual | lessEqual =>
      obtain ⟨rfl, tail, rfl⟩ := List.cons_prefix_cons.mp front
      exact Nat.le_refl 2
    | _ => exact Nat.succ_le_succ (Nat.zero_le _)
  | keyword word => exact name_le_classify (isName_spelling word) front
  | identifier name _ => exact name_le_classify name front
  | @string contents inner =>
    obtain ⟨rfl, tail, rfl⟩ := List.cons_prefix_cons.mp front
    have closed : '"' ∈ contents ++ ['"'] ++ tail := by simp
    have within : contents.length ≤ ((contents ++ ['"'] ++ tail).takeWhile (· ≠ '"')).length := by
      apply length_le_takeWhile (by simp)
      exact fun character member => by simpa using ne_of_mem_of_not_mem member inner
    rw [classify_quote, if_pos closed]
    simpa using within
  | whole given =>
    obtain ⟨digit, others, rfl⟩ := List.exists_cons_of_ne_nil given.1
    obtain ⟨rfl, inside⟩ := List.cons_prefix_cons.mp front
    obtain ⟨isDigit, digits⟩ := List.forall_mem_cons.mp given.2
    rw [classify_continues (continuesName_iff.mpr (.inr isDigit)),
      if_pos (isDigit_iff.mpr isDigit)]
    exact Nat.succ_le_succ (le_numeralLength inside fun character member =>
      isDigit_iff.mpr (digits character member))
  | decimal before behind =>
    obtain ⟨digit, others, rfl⟩ := List.exists_cons_of_ne_nil before.1
    obtain ⟨rfl, inside⟩ := List.cons_prefix_cons.mp front
    obtain ⟨isDigit, digits⟩ := List.forall_mem_cons.mp before.2
    rw [classify_continues (continuesName_iff.mpr (.inr isDigit)),
      if_pos (isDigit_iff.mpr isDigit)]
    exact Nat.succ_le_succ (decimal_le_numeralLength inside (fun character member =>
      isDigit_iff.mpr (digits character member)) behind)

/-- A character with which a lexeme or a comment starts is not unexpected. -/
theorem classify_ne_unexpected {first : Char} {tail : List Char}
    (lexical : IsLexical (first :: tail)) :
    classify first tail ≠ (.fault (.unexpectedCharacter first), 0) := by
  intro unexpected
  have named (continues : continuesName first = true) : False := by
    rw [classify_continues continues] at unexpected
    split at unexpected <;> cases unexpected
  rcases lexical with ⟨body, same, _⟩ | ⟨kind, lexeme⟩
  · obtain ⟨rfl, rfl⟩ := List.cons.inj same
    cases unexpected
  generalize text : first :: tail = opened at lexeme
  cases lexeme with
  | symbol mark => cases mark <;> cases text <;> cases unexpected
  | keyword word =>
    obtain ⟨_, _, same, starts, _⟩ := isName_spelling word
    obtain ⟨rfl, _⟩ := List.cons.inj (text.trans same)
    exact named (continuesName_iff.mpr (.inl starts))
  | identifier name _ =>
    obtain ⟨_, _, same, starts, _⟩ := name
    obtain ⟨rfl, _⟩ := List.cons.inj (text.trans same)
    exact named (continuesName_iff.mpr (.inl starts))
  | string inner =>
    obtain ⟨rfl, rfl⟩ := List.cons.inj text
    rw [classify_quote, if_pos (by simp)] at unexpected
    cases unexpected
  | whole given =>
    subst text
    exact named (continuesName_iff.mpr (.inr (given.2 first List.mem_cons_self)))
  | decimal before _ =>
    obtain ⟨digit, others, rfl⟩ := List.exists_cons_of_ne_nil before.1
    obtain ⟨rfl, _⟩ := List.cons.inj text
    exact named (continuesName_iff.mpr (.inr (before.2 first List.mem_cons_self)))

/-- A symbol that no other extends is a lexeme. -/
theorem lexeme_single {symbol : Symbol} (found : singleSymbol? first = some symbol) :
    Lexeme (.symbol symbol) [first] := by
  unfold singleSymbol? at found
  split at found <;> cases found <;> exact .symbol _

/-- A symbol is a lexeme with and without the equals sign that extends it. -/
theorem lexeme_extensible {alone extended : Symbol}
    (found : extensibleSymbol? first = some (alone, extended)) :
    Lexeme (.symbol alone) [first] ∧ Lexeme (.symbol extended) [first, '='] := by
  unfold extensibleSymbol? at found
  split at found <;> cases found <;> exact ⟨.symbol _, .symbol _⟩

/-- A string that is closed ends at the next quote. -/
theorem lexeme_string (closed : '"' ∈ rest) :
    Lexeme (.string (String.ofList (rest.takeWhile (· ≠ '"'))))
      ('"' :: rest.take ((rest.takeWhile (· ≠ '"')).length + 1)) := by
  have inner : '"' ∉ rest.takeWhile (· ≠ '"') :=
    fun member => absurd (of_mem_takeWhile member) (by decide)
  have upTo : rest.take ((rest.takeWhile (· ≠ '"')).length + 1) =
      rest.takeWhile (· ≠ '"') ++ ['"'] := by
    induction rest with
    | nil => cases closed
    | cons character rest inductionHypothesis =>
      by_cases quote : character = '"'
      · simp [quote]
      · have behind := inductionHypothesis (by simpa [Ne.symm quote] using closed)
        simpa [quote] using behind (by simpa [quote, Ne.symm quote] using inner)
  rw [upTo]
  exact .string inner

/-- The piece that is cut off a text is proper there. -/
theorem proper_classify (first : Char) (rest : List Char) :
    Proper (first :: rest)
      ⟨first :: rest.take (classify first rest).2, (classify first rest).1⟩ := by
  have longest : Longest (first :: rest) (first :: rest.take (classify first rest).2) := by
    intro other front lexical
    have within := lexical_le_classify lexical front
    have inside := classify_length_le first rest
    rw [List.length_cons, List.length_take, Nat.min_eq_left inside]
    exact within
  cases opening first with
  | single found =>
    rw [classify_single found] at longest ⊢
    exact .token (lexeme_single found) longest
  | extensible found =>
    obtain ⟨alone, extended⟩ := lexeme_extensible found
    rw [classify_extensible found] at longest ⊢
    cases rest with
    | nil => exact .token alone longest
    | cons next rest =>
      by_cases equals : next = '='
      · subst equals
        exact .token extended longest
      · simp only [List.head?_cons, Option.some.injEq, equals, if_false] at longest ⊢
        exact .token alone longest
  | slash same =>
    subst same
    cases rest with
    | nil => exact .token (.symbol .slash) longest
    | cons next rest =>
      by_cases slash : next = '/'
      · subst slash
        have opened : classify '/' ('/' :: rest) =
            (.skipped, (('/' :: rest).takeWhile (· ≠ '\n')).length) := rfl
        rw [opened, take_length_takeWhile] at longest ⊢
        refine .comment ⟨rest.takeWhile (· ≠ '\n'), by simp, fun member => ?_⟩ longest
        exact absurd (of_mem_takeWhile member) (by decide)
      · have opened : classify '/' (next :: rest) = (.token (.symbol .slash), 0) := by
          change (if some next = some '/' then _ else _ : Content × Nat) = _
          simp [slash]
        rw [opened] at longest ⊢
        exact .token (.symbol .slash) longest
  | blank blank =>
    rw [classify_blank blank]
    exact .blank (isBlank_iff.mp blank)
  | quote same =>
    subst same
    rw [classify_quote] at longest ⊢
    split
    case isTrue closed =>
      rw [if_pos closed] at longest
      exact .token (lexeme_string closed) longest
    case isFalse unclosed =>
      simp only [List.take_length]
      exact .unterminated rfl unclosed
  | continues continues =>
    rw [classify_continues continues] at longest ⊢
    split
    case isTrue digit =>
      rw [if_pos digit] at longest
      exact .token (lexeme_number digit rest) longest
    case isFalse other =>
      rw [if_neg other] at longest
      rw [continuesName_iff, ← startsName_iff, ← isDigit_iff] at continues
      simp only [take_length_takeWhile] at longest ⊢
      exact .token (lexeme_name (continues.resolve_right other) rest) longest
  | none stray =>
    rw [stray rest]
    apply Proper.unexpected
    · intro blank
      have skipped := (stray []).symm.trans (classify_blank (isBlank_iff.mpr blank))
      cases skipped
    · intro tail lexical
      exact classify_ne_unexpected lexical (stray tail)

/-- Every piece of a text is proper in front of what is left of the text. -/
theorem proper_of_cut {text : List Char} {before behind : List Piece} {piece : Piece}
    (cuts : cut text = before ++ piece :: behind) :
    Proper ((piece :: behind).map Piece.text).flatten piece := by
  fun_induction cut text generalizing before with
  | case1 => simp at cuts
  | case2 first rest content length classified inductionHypothesis =>
    cases before with
    | nil =>
      obtain ⟨rfl, rfl⟩ := List.cons.inj cuts
      have proper := proper_classify first rest
      rw [classified] at proper
      simpa [flatten_cut, List.take_append_drop] using proper
    | cons earlier before => exact inductionHypothesis (List.cons.inj cuts).2

/-- A token is cut off where a lexeme of its kind stands. -/
theorem Proper.lexeme {remaining : List Char} {piece : Piece} {kind : Kind}
    (proper : Proper remaining piece) (content : piece.content = .token kind) :
    Lexeme kind piece.text := by
  cases proper with
  | token lexeme _ => exact Content.token.inj content ▸ lexeme
  | comment | blank | unexpected | unterminated => cases content

/-- Every token that is cut off a text is a lexeme. -/
theorem lexeme_of_mem_cut {text : List Char} {piece : Piece} {kind : Kind}
    (member : piece ∈ cut text) (content : piece.content = .token kind) :
    Lexeme kind piece.text := by
  obtain ⟨before, behind, cuts⟩ := List.append_of_mem member
  exact (proper_of_cut cuts).lexeme content

end Piece

/-- The end marker has no text. -/
theorem Lexeme.ne_eof {kind : Kind} {text : List Char} (lexeme : Lexeme kind text) :
    kind ≠ .eof := by
  cases lexeme <;> simp

/-- A lexeme has a character. -/
theorem Lexeme.ne_nil {kind : Kind} {text : List Char} (lexeme : Lexeme kind text) :
    text ≠ [] := by
  cases lexeme with
  | symbol mark => cases mark <;> simp [Symbol.spelling]
  | keyword word =>
    obtain ⟨_, _, same, _⟩ := Piece.isName_spelling word
    simp [same]
  | identifier name _ =>
    obtain ⟨_, _, rfl, _⟩ := name
    simp
  | string | decimal => simp
  | whole given => exact given.1

end LoxLang
