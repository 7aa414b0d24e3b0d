import LoxLang.Proofs.Token.Lexeme

/-!
# Lexemes with spaces between them

Where a lexeme ends depends on what follows it, but a space ends every lexeme: whatever lexeme
stands in front of a space or at the end of a text is cut off whole (`classify_lexeme`). So lexemes
that are written one after the other with single spaces between them are cut apart again
(`cut_spaced`), in whatever order they stand.
-/

namespace LoxLang

/-- A text that is empty or starts with a space. -/
def Parted (behind : List Char) : Prop :=
  ∀ character, behind.head? = some character → character = ' '

/-- Behind a parted text, only a space comes first. -/
theorem Parted.head_ne {behind : List Char} (parted : Parted behind) {character : Char}
    (visible : character ≠ ' ') : behind.head? ≠ some character :=
  fun head => visible (parted character head)

namespace Piece

variable {first : Char} {inner behind : List Char}

/-- A run of characters to which no space belongs ends in front of a space. -/
theorem takeWhile_parted {belongs : Char → Bool} {run : List Char} (parted : Parted behind)
    (all : ∀ character ∈ run, belongs character = true) (stops : belongs ' ' = false) :
    (run ++ behind).takeWhile belongs = run := by
  rw [List.takeWhile_append_of_pos all]
  cases behind with
  | nil => simp
  | cons character behind =>
    obtain rfl := parted character rfl
    simp [stops]

/-- No fraction starts at a space. -/
theorem fractionLength_parted (parted : Parted behind) : fractionLength behind = 0 := by
  cases behind with
  | nil => rfl
  | cons character behind =>
    obtain rfl := parted character rfl
    rfl

/-- The spelling of a keyword is that keyword. -/
theorem nameKind_spelling (word : Keyword) :
    nameKind word.spelling.toList = .keyword word := by
  simp [nameKind, Keyword.ofSpelling?_spelling]

/-- A name that is no keyword is an identifier. -/
theorem nameKind_free {text : List Char}
    (free : ∀ word : Keyword, text ≠ word.spelling.toList) : nameKind text = .identifier := by
  unfold nameKind
  cases found : Keyword.ofSpelling? (String.ofList text) with
  | none => rfl
  | some word =>
    have spelled := congrArg String.toList (Keyword.spelling_of_ofSpelling? found)
    rw [String.toList_ofList] at spelled
    exact absurd spelled.symm (free word)

/-- A symbol in front of a space is not extended. -/
theorem classify_symbol {mark : Symbol} (spelled : mark.spelling.toList = first :: inner)
    (parted : Parted behind) :
    classify first (inner ++ behind) = (.token (.symbol mark), inner.length) := by
  have unextended : behind.head? ≠ some '=' := parted.head_ne (by decide)
  have uncommented : behind.head? ≠ some '/' := parted.head_ne (by decide)
  cases mark with
  | slash =>
    cases spelled
    change (if behind.head? = some '/' then _ else _ : Content × Nat) = _
    rw [if_neg uncommented]
    rfl
  | bang | equal | greater | less =>
    cases spelled
    rw [classify_extensible rfl]
    exact if_neg unextended
  | _ =>
    cases spelled
    rfl

/-- A name in front of a space is not continued. -/
theorem classify_name (name : IsName (first :: inner)) (parted : Parted behind) :
    classify first (inner ++ behind) =
      (.token (nameKind (first :: inner)), inner.length) := by
  obtain ⟨_, _, same, starts, continues⟩ := name
  obtain ⟨rfl, rfl⟩ := List.cons.inj same
  have ending : (inner ++ behind).takeWhile continuesName = inner :=
    takeWhile_parted parted
      (fun character member => continuesName_iff.mpr (continues character member)) (by decide)
  rw [classify_continues (continuesName_iff.mpr (.inl starts)), ending,
    isDigit_of_startsName (startsName_iff.mpr starts)]
  rfl

/-- A numeral whose length is that of the whole run is cut off whole. -/
theorem classify_number (digit : IsDigit first)
    (ending : numeralLength (inner ++ behind) = inner.length) :
    classify first (inner ++ behind) =
      (.token (.number (numeralValue (first :: inner))), inner.length) := by
  rw [classify_continues (continuesName_iff.mpr (.inr digit)), if_pos (isDigit_iff.mpr digit),
    ending, List.take_left]

/-- A lexeme in front of a space is cut off whole, and as a token of its kind. -/
theorem classify_lexeme {kind : Kind} (lexeme : Lexeme kind (first :: inner))
    (parted : Parted behind) :
    classify first (inner ++ behind) = (.token kind, inner.length) := by
  have digits {text : List Char} (given : IsDigits text) :
      ∀ character ∈ text, character.isDigit = true :=
    fun character member => isDigit_iff.mpr (given.2 character member)
  have ends : ∀ character, behind.head? = some character → character.isDigit = false := by
    intro character head
    rw [parted character head]
    decide
  generalize text : first :: inner = spelled at lexeme
  cases lexeme with
  | symbol mark => exact classify_symbol text.symm parted
  | keyword word =>
    have name := isName_spelling word
    rw [← nameKind_spelling word, ← text] at *
    exact classify_name name parted
  | identifier name free =>
    subst text
    rw [classify_name name parted, nameKind_free free]
  | @string contents closed =>
    obtain ⟨rfl, rfl⟩ := List.cons.inj text
    have ending : (contents ++ ['"'] ++ behind).takeWhile (· ≠ '"') = contents := by
      rw [List.append_assoc, List.takeWhile_append_of_pos]
      · simp
      · exact fun character member => by simpa using ne_of_mem_of_not_mem member closed
    rw [classify_quote, if_pos (by simp), ending]
    simp
  | whole given =>
    subst text
    obtain ⟨digit, _⟩ := List.forall_mem_cons.mp given.2
    apply classify_number digit
    rw [numeralLength_append (List.forall_mem_cons.mp (digits given)).2 ends,
      fractionLength_parted parted, Nat.add_zero]
  | @decimal whole places before after =>
    obtain ⟨digit, others, rfl⟩ := List.exists_cons_of_ne_nil before.1
    obtain ⟨rfl, rfl⟩ := List.cons.inj text
    have fraction : fractionLength ('.' :: (places ++ behind)) = 1 + places.length := by
      have some : places.length ≠ 0 := by simpa using after.1
      simp only [fractionLength, takeWhile_parted parted (digits after) rfl, some, if_false]
    apply classify_number (before.2 first List.mem_cons_self)
    rw [List.append_eq, List.append_assoc, List.cons_append,
      numeralLength_append (List.forall_mem_cons.mp (digits before)).2 (by simp), fraction]
    simp [Nat.add_comm]

/-! ### Cutting spaced lexemes apart -/

/-- In front of a space or the end a lexeme is cut off whole. -/
theorem cut_lexeme {kind : Kind} {text : List Char} (lexeme : Lexeme kind text)
    (parted : Parted behind) : cut (text ++ behind) = ⟨text, .token kind⟩ :: cut behind := by
  obtain ⟨first, inner, rfl⟩ := List.exists_cons_of_ne_nil lexeme.ne_nil
  rw [List.cons_append, cut, classify_lexeme lexeme parted]
  simp only [List.take_left, List.drop_left]

/-- A single space. -/
def space : Piece :=
  ⟨[' '], .skipped⟩

/-- A space is skipped. -/
theorem cut_space (behind : List Char) : cut (' ' :: behind) = space :: cut behind := by
  rw [cut, classify_blank rfl]
  rfl

end Piece

/-- A token as the piece it is cut off as. -/
def Token.piece (token : Token) : Piece :=
  ⟨token.lexeme.toList, .token token.kind⟩

/-- A token whose text is a lexeme of its kind. -/
def Token.Spelled (token : Token) : Prop :=
  Lexeme token.kind token.lexeme.toList

/-- The pieces of tokens with single spaces between them. -/
def spacedPieces (tokens : List Token) : List Piece :=
  (tokens.map Token.piece).intersperse .space

/-- Between two tokens stands a space. -/
theorem spacedPieces_cons_cons (token next : Token) (rest : List Token) :
    spacedPieces (token :: next :: rest) =
      token.piece :: .space :: spacedPieces (next :: rest) :=
  rfl

/-- Lexemes with single spaces between them are cut apart. -/
theorem cut_spaced {tokens : List Token} (spelled : ∀ token ∈ tokens, token.Spelled) :
    Piece.cut ([' '].intercalate (tokens.map (·.lexeme.toList))) = spacedPieces tokens := by
  induction tokens with
  | nil => rw [List.map_nil, List.intercalate_nil, Piece.cut]; rfl
  | cons token rest inductionHypothesis =>
    obtain ⟨here, later⟩ := List.forall_mem_cons.mp spelled
    cases rest with
    | nil =>
      have alone := Piece.cut_lexeme here (show Parted [] by simp [Parted])
      simpa [spacedPieces, Token.piece, Piece.cut] using alone
    | cons next rest =>
      have parted (behind : List Char) : Parted (' ' :: behind) := by simp [Parted]
      have behind := inductionHypothesis later
      simp only [List.map_cons, List.intercalate_cons_cons, List.append_assoc,
        List.singleton_append] at behind ⊢
      rw [Piece.cut_lexeme here (parted _), Piece.cut_space, behind, spacedPieces_cons_cons,
        Token.piece]

/-- Spaced tokens are cut into no faults. -/
theorem faultless_spacedPieces (tokens : List Token) :
    ∀ piece ∈ spacedPieces tokens, ∀ cause, piece.content ≠ .fault cause := by
  induction tokens with
  | nil => simp [spacedPieces]
  | cons token rest inductionHypothesis =>
    cases rest with
    | nil => simp [spacedPieces, Token.piece]
    | cons next rest =>
      rw [spacedPieces_cons_cons, List.forall_mem_cons, List.forall_mem_cons]
      exact ⟨by simp [Token.piece], by simp [Piece.space], inductionHypothesis⟩

/-- What a token is apart from the line it stands on. -/
def Token.unplaced (token : Token) : Kind × String :=
  (token.kind, token.lexeme)

/-- Spaced tokens are read back in their order. -/
theorem tokens_spacedPieces (line : Nat) (tokens : List Token) :
    (Piece.tokens line (spacedPieces tokens)).map Token.unplaced =
      tokens.map Token.unplaced := by
  induction tokens generalizing line with
  | nil => rfl
  | cons token rest inductionHypothesis =>
    cases rest with
    | nil => simp [spacedPieces, Piece.tokens, Token.piece, Token.unplaced]
    | cons next rest =>
      rw [spacedPieces_cons_cons]
      simp only [Piece.tokens, Token.piece, Piece.space, List.map_cons, inductionHypothesis]
      simp [Token.unplaced]

/-- The tokens among pieces are among the pieces. -/
theorem Piece.piece_mem_of_mem_tokens {line : Nat} {pieces : List Piece} {token : Token}
    (member : token ∈ tokens line pieces) : token.piece ∈ pieces := by
  induction pieces generalizing line with
  | nil => cases member
  | cons piece rest inductionHypothesis =>
    unfold tokens at member
    cases content : piece.content with
    | skipped | fault =>
      simp only [content] at member
      exact List.mem_cons_of_mem _ (inductionHypothesis member)
    | token kind =>
      simp only [content] at member
      rcases List.mem_cons.mp member with rfl | member
      · simp [Token.piece, ← content]
      · exact List.mem_cons_of_mem _ (inductionHypothesis member)

/-- Each token of a source is spelled like its lexeme. -/
theorem spelled_of_mem_sourceTokens {source : String} {token : Token}
    (member : token ∈ sourceTokens source) : token.Spelled :=
  Piece.lexeme_of_mem_cut (Piece.piece_mem_of_mem_tokens member) rfl

/-- The lexemes of all tokens of a text but its end marker, with single spaces between them. -/
def respaced (source : String) : String :=
  " ".intercalate
    (((scannedTokens (scan source)).filter (·.kind ≠ .eof)).map Token.lexeme)

/-- The tokens of a source are those of its scan without the end marker. -/
theorem filter_scannedTokens (source : String) :
    (scannedTokens (scan source)).filter (·.kind ≠ .eof) = sourceTokens source := by
  rw [scan, Piece.scannedTokens_ofPieces, List.filter_append, sourceTokens, List.filter_eq_self.mpr]
  · simp
  · simpa using Piece.tokens_cut_ne_eof 1 source.toList

/-- A respaced text is cut into its tokens and the spaces between them. -/
theorem cut_respaced (source : String) :
    Piece.cut (respaced source).toList = spacedPieces (sourceTokens source) := by
  rw [respaced, filter_scannedTokens, String.toList_intercalate, List.map_map]
  exact cut_spaced fun token member => spelled_of_mem_sourceTokens member

/-- Whatever a text holds, its lexemes with single spaces between them scan without a fault and to
the same tokens, with the end marker behind them. -/
theorem scan_respaced (source : String) :
    scanDiagnostics (scan (respaced source)) = [] ∧
    (scannedTokens (scan (respaced source))).map Token.unplaced =
      ((scannedTokens (scan source)).filter (·.kind ≠ .eof)).map Token.unplaced ++
        [(.eof, "")] := by
  rw [filter_scannedTokens, scan, cut_respaced]
  constructor
  · exact (Piece.scanDiagnostics_ofPieces 1 _).mpr (faultless_spacedPieces _)
  · rw [Piece.scannedTokens_ofPieces, List.map_append, tokens_spacedPieces]
    rfl

/-- A fault between the tokens is left out, and a string keeps its line break. -/
example :
    let source := "print\t\"one\ntwo\"@;"
    (scanDiagnostics (scan source)).length = 1 ∧
      respaced source = "print \"one\ntwo\" ;" ∧
      scannedTokens (scan (respaced source)) =
        [⟨.keyword .printWord, "print", 1⟩, ⟨.string "one\ntwo", "\"one\ntwo\"", 2⟩,
          ⟨.symbol .semicolon, ";", 2⟩, ⟨.eof, "", 2⟩] := by
  decide +kernel

end LoxLang
