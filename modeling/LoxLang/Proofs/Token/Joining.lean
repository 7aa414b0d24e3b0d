import LoxLang.Token.Scan

/-!
# Scanning joined texts

A newline ends every piece that can be ended at all: only a string that is never closed goes on
behind it. So a text without faults is cut in front of a newline as it is cut alone, and the tokens
of two texts joined by a newline are those of the first, then those of the second on lines further
down.
-/

namespace LoxLang

namespace Piece

/-- What a newline does not belong to ends in front of it. -/
theorem takeWhile_newline {belongs : Char → Bool} (stops : belongs '\n' = false)
    (text behind : List Char) :
    (text ++ '\n' :: behind).takeWhile belongs = text.takeWhile belongs := by
  induction text with
  | nil => simp [stops]
  | cons first rest inductionHypothesis =>
    simp only [List.cons_append, List.takeWhile_cons, inductionHypothesis]

/-- A line break behind a text does not change its first character, where another one is asked for.
-/
theorem head?_newline {character : Char} (other : character ≠ '\n') (text behind : List Char) :
    (text ++ '\n' :: behind).head? = some character ↔ text.head? = some character := by
  cases text with
  | nil => simpa using Ne.symm other
  | cons first rest => simp

/-- No numeral goes on behind a line break. -/
theorem numeralLength_newline (text behind : List Char) :
    numeralLength (text ++ '\n' :: behind) = numeralLength text := by
  have digits (text : List Char) : (text ++ '\n' :: behind).takeWhile Char.isDigit =
      text.takeWhile Char.isDigit := takeWhile_newline rfl text behind
  have inside : (text.takeWhile Char.isDigit).length ≤ text.length :=
    (List.takeWhile_prefix _).length_le
  unfold numeralLength
  dsimp only
  rw [digits, List.drop_append_of_le_length inside]
  cases text.drop (text.takeWhile Char.isDigit).length with
  | nil => rfl
  | cons point fraction =>
    by_cases decimal : point = '.'
    · simp only [decimal, List.cons_append, digits]
    · simp [decimal]

/-- A numeral is part of its text. -/
theorem numeralLength_le (text : List Char) : numeralLength text ≤ text.length := by
  have inside (text : List Char) : (text.takeWhile Char.isDigit).length ≤ text.length :=
    (List.takeWhile_prefix _).length_le
  have whole := inside text
  unfold numeralLength
  dsimp only
  split
  case h_1 fraction point =>
    have places := inside fraction
    have length := congrArg List.length point
    simp only [List.length_drop, List.length_cons] at length
    split <;> omega
  case h_2 => exact whole

/-- A newline leaves what starts in front of it as it is, unless that is a string without an end. -/
theorem classify_newline {first : Char} {rest : List Char}
    (closed : (classify first rest).1 ≠ .fault .unterminatedString) (behind : List Char) :
    classify first (rest ++ '\n' :: behind) = classify first rest := by
  have equals := head?_newline (show '=' ≠ '\n' by decide) rest behind
  have slash := head?_newline (show '/' ≠ '\n' by decide) rest behind
  have comment : (rest ++ '\n' :: behind).takeWhile (· ≠ '\n') = rest.takeWhile (· ≠ '\n') :=
    takeWhile_newline (by decide) rest behind
  have name := takeWhile_newline (show continuesName '\n' = false by decide) rest behind
  have numeral : (rest ++ '\n' :: behind).take (numeralLength rest) =
      rest.take (numeralLength rest) :=
    List.take_append_of_le_length (numeralLength_le rest)
  unfold classify
  cases single : singleSymbol? first with
  | some symbol => rfl
  | none =>
    cases extensible : extensibleSymbol? first with
    | some pair => simp only [equals]
    | none =>
      simp only [slash, comment, name, numeralLength_newline, numeral]
      by_cases quoted : first = '"'
      · subst quoted
        by_cases ended : (rest.takeWhile (· ≠ '"')).length < rest.length
        · have inside :
              (rest ++ '\n' :: behind).takeWhile (· ≠ '"') = rest.takeWhile (· ≠ '"') := by
            rw [List.takeWhile_append, if_neg (Nat.ne_of_lt ended)]
          have further : (rest.takeWhile (· ≠ '"')).length < (rest ++ '\n' :: behind).length :=
            Nat.lt_of_lt_of_le ended (by simp)
          simp only [inside, ended, further, if_true]
        · refine (closed ?_).elim
          change (if (rest.takeWhile (· ≠ '"')).length < rest.length then _
            else _ : Content × Nat).1 = _
          rw [if_neg ended]
      · simp only [quoted, if_false]

/-- A piece is part of its text. -/
theorem classify_length_le (first : Char) (rest : List Char) :
    (classify first rest).2 ≤ rest.length := by
  have inside (belongs : Char → Bool) : (rest.takeWhile belongs).length ≤ rest.length :=
    (List.takeWhile_prefix _).length_le
  have numeral := numeralLength_le rest
  unfold classify
  split
  · exact Nat.zero_le _
  split
  · split
    · rename_i next
      cases rest with
      | nil => cases next
      | cons second rest => exact Nat.succ_le_succ (Nat.zero_le _)
    · exact Nat.zero_le _
  split
  · split
    · exact inside _
    · exact Nat.zero_le _
  split
  · exact Nat.zero_le _
  split
  · dsimp only
    split
    · rename_i ended
      exact ended
    · exact Nat.le_refl _
  split
  · exact numeral
  split
  · exact inside _
  · exact Nat.zero_le _

/-- Text without an open string is cut in front of a newline as it is cut alone. -/
theorem cut_newline {text : List Char} (behind : List Char)
    (closed : ∀ piece ∈ cut text, piece.content ≠ .fault .unterminatedString) :
    cut (text ++ '\n' :: behind) =
      cut text ++ { text := ['\n'], content := .skipped } :: cut behind := by
  fun_induction cut text with
  | case1 =>
    rw [List.nil_append, cut]
    rfl
  | case2 first rest content length classified inductionHypothesis =>
    obtain ⟨head, tail⟩ := List.forall_mem_cons.mp closed
    have same : classify first (rest ++ '\n' :: behind) = (content, length) := by
      rw [classify_newline (by rwa [classified]), classified]
    have inside : length ≤ rest.length := by
      have bound := classify_length_le first rest
      rwa [classified] at bound
    rw [List.cons_append, cut, same]
    simp only [List.take_append_of_le_length inside, List.drop_append_of_le_length inside,
      inductionHypothesis tail, List.cons_append]

/-- No piece of a text is an end marker. -/
theorem classify_ne_eof {first : Char} {rest : List Char} {kind : Kind} {length : Nat}
    (classified : classify first rest = (.token kind, length)) : kind ≠ .eof := by
  unfold classify at classified
  split at classified
  · obtain ⟨⟨rfl⟩, _⟩ := Prod.mk.inj classified
    simp
  split at classified
  · split at classified
    all_goals
      obtain ⟨⟨rfl⟩, _⟩ := Prod.mk.inj classified
      simp
  split at classified
  · split at classified
    · cases (Prod.mk.inj classified).1
    · obtain ⟨⟨rfl⟩, _⟩ := Prod.mk.inj classified
      simp
  split at classified
  · cases (Prod.mk.inj classified).1
  split at classified
  · dsimp only at classified
    split at classified
    · obtain ⟨⟨rfl⟩, _⟩ := Prod.mk.inj classified
      simp
    · cases (Prod.mk.inj classified).1
  split at classified
  · obtain ⟨⟨rfl⟩, _⟩ := Prod.mk.inj classified
    simp
  split at classified
  · obtain ⟨⟨rfl⟩, _⟩ := Prod.mk.inj classified
    unfold nameKind
    split <;> simp
  · cases (Prod.mk.inj classified).1

end Piece

/-- The same token on a line further down. -/
def Token.moved (lines : Nat) (token : Token) : Token :=
  { token with line := token.line + lines }

namespace Piece

/-- The tokens among consecutive pieces, the first of which starts on a line. -/
def tokens (line : Nat) : List Piece → List Token
  | [] => []
  | piece :: rest =>
    let ending := line + piece.text.count '\n'
    match piece.content with
    | .token kind =>
      { kind, lexeme := String.ofList piece.text, line := ending } :: tokens ending rest
    | _ => tokens ending rest

/-- The number of newlines in consecutive pieces. -/
def newlines (pieces : List Piece) : Nat :=
  (pieces.map Piece.text).flatten.count '\n'

/-- The line breaks of pieces are counted one piece after another. -/
theorem newlines_cons (piece : Piece) (rest : List Piece) :
    newlines (piece :: rest) = piece.text.count '\n' + newlines rest := by
  simp [newlines]

/-- The tokens of later pieces stand the line breaks of the earlier ones further down. -/
theorem tokens_append (line : Nat) (first second : List Piece) :
    tokens line (first ++ second) = tokens line first ++ tokens (line + newlines first) second := by
  induction first generalizing line with
  | nil => rfl
  | cons piece rest inductionHypothesis =>
    have ending :
        line + piece.text.count '\n' + newlines rest = line + newlines (piece :: rest) := by
      rw [newlines_cons, Nat.add_assoc]
    simp only [List.cons_append, tokens, inductionHypothesis, ending]
    cases piece.content <;> rfl

/-- Pieces that start further down give the same tokens there. -/
theorem tokens_moved (lines line : Nat) (pieces : List Piece) :
    tokens (line + lines) pieces = (tokens line pieces).map (Token.moved lines) := by
  induction pieces generalizing line with
  | nil => rfl
  | cons piece rest inductionHypothesis =>
    have ending : line + lines + piece.text.count '\n' = line + piece.text.count '\n' + lines := by
      omega
    simp only [tokens, ending, inductionHypothesis]
    cases piece.content <;> rfl

/-- The tokens of a scan are those of its pieces and an end marker on the last line. -/
theorem scannedTokens_ofPieces (line : Nat) (pieces : List Piece) :
    scannedTokens (ScanItem.ofPieces line pieces) =
      tokens line pieces ++ [⟨.eof, "", line + newlines pieces⟩] := by
  induction pieces generalizing line with
  | nil => rfl
  | cons piece rest inductionHypothesis =>
    have ending :
        line + piece.text.count '\n' + newlines rest = line + newlines (piece :: rest) := by
      rw [newlines_cons, Nat.add_assoc]
    have behind := inductionHypothesis (line + piece.text.count '\n')
    rw [ending] at behind
    unfold ScanItem.ofPieces tokens
    cases piece.content with
    | skipped => exact behind
    | token kind => exact congrArg (List.cons _) behind
    | fault cause => exact behind

/-- No token of a text is an end marker but the last. -/
theorem tokens_cut_ne_eof (line : Nat) (text : List Char) :
    ∀ token ∈ tokens line (cut text), token.kind ≠ .eof := by
  fun_induction cut text generalizing line with
  | case1 => simp [tokens]
  | case2 first rest content length classified inductionHypothesis =>
    unfold tokens
    cases content with
    | skipped => exact inductionHypothesis _
    | fault cause => exact inductionHypothesis _
    | token kind =>
      exact List.forall_mem_cons.mpr ⟨classify_ne_eof classified, inductionHypothesis _⟩

/-- No line break is lost when a text is cut into pieces. -/
theorem newlines_cut (text : List Char) : newlines (cut text) = text.count '\n' := by
  rw [newlines, flatten_cut]

/-- Pieces give no diagnostic if and only if none of them is a fault. -/
theorem scanDiagnostics_ofPieces (line : Nat) (pieces : List Piece) :
    scanDiagnostics (ScanItem.ofPieces line pieces) = [] ↔
      ∀ piece ∈ pieces, ∀ cause, piece.content ≠ .fault cause := by
  induction pieces generalizing line with
  | nil => simp [ScanItem.ofPieces, scanDiagnostics, ScanItem.diagnostic?]
  | cons piece rest inductionHypothesis =>
    have behind := inductionHypothesis (line + piece.text.count '\n')
    unfold ScanItem.ofPieces
    unfold scanDiagnostics at behind ⊢
    cases content : piece.content with
    | skipped => simpa [content] using behind
    | token kind => simpa [content, ScanItem.diagnostic?] using behind
    | fault cause => simp [content, ScanItem.diagnostic?]

end Piece

/-- The tokens of a source text in front of the end marker. -/
def sourceTokens (source : String) : List Token :=
  Piece.tokens 1 (Piece.cut source.toList)

/-- The end marker of a scan is its only one. -/
theorem takeWhile_scannedTokens (source : String) :
    (scannedTokens (scan source)).takeWhile (·.kind ≠ .eof) = sourceTokens source := by
  rw [scan, Piece.scannedTokens_ofPieces, List.takeWhile_append_of_pos]
  · simp [sourceTokens]
  · simpa using Piece.tokens_cut_ne_eof 1 source.toList

/-- Two texts joined by a newline. -/
def joined (first second : String) : String :=
  first ++ "\n" ++ second

/-- The number of lines that the second of two joined texts is moved down by. -/
def linesBefore (first : String) : Nat :=
  1 + first.toList.count '\n'

/-- The second of two joined texts alone, on the lines on which it stands behind the first. -/
def movedDown (first second : String) : String :=
  String.ofList (List.replicate (linesBefore first) '\n') ++ second

section Joined

variable {first : String} (clean : scanDiagnostics (scan first) = []) (second : String)
include clean

/-- Two joined texts are cut one by one, with the line break between them skipped. -/
theorem cut_joined :
    Piece.cut (joined first second).toList = Piece.cut first.toList ++
      { text := ['\n'], content := .skipped } :: Piece.cut second.toList := by
  have faultless := (Piece.scanDiagnostics_ofPieces 1 _).mp clean
  rw [← Piece.cut_newline _ fun piece member => faultless piece member _]
  simp [joined]

/-- The tokens of joined texts are those of the first and those of the second further down. -/
theorem sourceTokens_joined :
    sourceTokens (joined first second) =
      sourceTokens first ++ (sourceTokens second).map (Token.moved (linesBefore first)) := by
  unfold sourceTokens
  rw [cut_joined clean, Piece.tokens_append, Piece.newlines_cut, ← Piece.tokens_moved]
  have start : 1 + first.toList.count '\n' + 1 = 1 + linesBefore first := by
    unfold linesBefore
    omega
  simp [Piece.tokens, start]

/-- Texts without scan errors have none when they are joined. -/
theorem scanDiagnostics_joined (also : scanDiagnostics (scan second) = []) :
    scanDiagnostics (scan (joined first second)) = [] := by
  have before := (Piece.scanDiagnostics_ofPieces 1 _).mp clean
  have behind := (Piece.scanDiagnostics_ofPieces 1 _).mp also
  rw [scan, cut_joined clean, Piece.scanDiagnostics_ofPieces]
  intro piece member
  rcases List.mem_append.mp member with member | member
  · exact before piece member
  · rcases List.mem_cons.mp member with rfl | member
    · simp
    · exact behind piece member

end Joined

namespace Piece

/-- Line breaks in front of a text are skipped one by one. -/
theorem cut_newlines (count : Nat) (text : List Char) :
    cut (List.replicate count '\n' ++ text) =
      List.replicate count { text := ['\n'], content := .skipped } ++ cut text := by
  induction count with
  | zero => rfl
  | succ count inductionHypothesis =>
    have step : cut ([] ++ '\n' :: (List.replicate count '\n' ++ text)) = _ :=
      cut_newline _ (by simp [cut])
    rw [inductionHypothesis] at step
    simpa [cut, List.replicate_succ] using step

/-- Skipped line breaks are no tokens. -/
theorem tokens_newlines (line count : Nat) :
    tokens line (List.replicate count { text := ['\n'], content := .skipped }) = [] := by
  induction count generalizing line with
  | zero => rfl
  | succ count inductionHypothesis => exact inductionHypothesis _

/-- Skipped line breaks are counted. -/
theorem newlines_newlines (count : Nat) :
    newlines (List.replicate count { text := ['\n'], content := .skipped }) = count := by
  induction count with
  | zero => rfl
  | succ count inductionHypothesis =>
    rw [List.replicate_succ, newlines_cons, inductionHypothesis]
    exact Nat.add_comm 1 count

end Piece

/-- A text that is moved down is cut as before, behind skipped line breaks. -/
theorem cut_movedDown (first second : String) :
    Piece.cut (movedDown first second).toList =
      List.replicate (linesBefore first) { text := ['\n'], content := .skipped } ++
        Piece.cut second.toList := by
  rw [movedDown, String.toList_append, String.toList_ofList, Piece.cut_newlines]

/-- A text that is moved down has the same tokens further down. -/
theorem sourceTokens_movedDown (first second : String) :
    sourceTokens (movedDown first second) =
      (sourceTokens second).map (Token.moved (linesBefore first)) := by
  unfold sourceTokens
  rw [cut_movedDown, Piece.tokens_append, Piece.tokens_newlines, Piece.newlines_newlines,
    Piece.tokens_moved, List.nil_append]

/-- A text without scan errors has none when it is moved down. -/
theorem scanDiagnostics_movedDown (first : String) {second : String}
    (clean : scanDiagnostics (scan second) = []) :
    scanDiagnostics (scan (movedDown first second)) = [] := by
  have faultless := (Piece.scanDiagnostics_ofPieces 1 _).mp clean
  rw [scan, cut_movedDown, Piece.scanDiagnostics_ofPieces]
  intro piece member
  rcases List.mem_append.mp member with member | member
  · rw [(List.mem_replicate.mp member).2]
    simp
  · exact faultless piece member

end LoxLang
