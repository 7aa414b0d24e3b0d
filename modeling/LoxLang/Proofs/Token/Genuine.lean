import LoxLang.Token.Scan

/-!
# Scanned names

Nothing ties the kind of a token to its lexeme in general. For scanned tokens there is such a tie:
reserved words are spelled as such, and no identifier is.
-/

namespace LoxLang

/-- A token whose kind says which reserved word its lexeme is, or that it is none. -/
structure Token.Genuine (token : Token) : Prop where
  keyword : ∀ word, token.kind = .keyword word → token.lexeme = word.spelling
  identifier : token.kind = .identifier → Keyword.ofSpelling? token.lexeme = none

theorem Keyword.spelling_of_ofSpelling? {text : String} {word : Keyword}
    (found : ofSpelling? text = some word) : word.spelling = text := by
  simpa using List.find?_some found

/-- Every reserved word is found under its spelling. -/
theorem Keyword.ofSpelling?_spelling (word : Keyword) : ofSpelling? word.spelling = some word := by
  cases word <;> decide

theorem Token.Genuine.lexeme_ne {token : Token} (genuine : token.Genuine)
    (named : token.kind = .identifier) (word : Keyword) : token.lexeme ≠ word.spelling := by
  intro same
  have unknown := genuine.identifier named
  rw [same, word.ofSpelling?_spelling] at unknown
  cases unknown

namespace Piece

theorem take_length_takeWhile (continues : Char → Bool) (rest : List Char) :
    rest.take (rest.takeWhile continues).length = rest.takeWhile continues :=
  (List.prefix_iff_eq_take.mp (List.takeWhile_prefix continues)).symm

/-- A piece that is a token is a genuine one. -/
theorem classify_genuine {first : Char} {rest : List Char} {kind : Kind} {length : Nat}
    (classified : classify first rest = (.token kind, length)) (line : Nat) :
    Token.Genuine { kind, lexeme := String.ofList (first :: rest.take length), line } := by
  unfold classify at classified
  split at classified
  · obtain ⟨⟨rfl⟩, rfl⟩ := Prod.mk.inj classified
    exact ⟨nofun, nofun⟩
  split at classified
  · split at classified <;> obtain ⟨⟨rfl⟩, rfl⟩ := Prod.mk.inj classified <;>
      exact ⟨nofun, nofun⟩
  split at classified
  · split at classified
    · cases (Prod.mk.inj classified).1
    · obtain ⟨⟨rfl⟩, rfl⟩ := Prod.mk.inj classified
      exact ⟨nofun, nofun⟩
  split at classified
  · cases (Prod.mk.inj classified).1
  split at classified
  · simp only at classified
    split at classified
    · obtain ⟨⟨rfl⟩, rfl⟩ := Prod.mk.inj classified
      exact ⟨nofun, nofun⟩
    · cases (Prod.mk.inj classified).1
  split at classified
  · obtain ⟨⟨rfl⟩, rfl⟩ := Prod.mk.inj classified
    exact ⟨nofun, nofun⟩
  split at classified
  · -- Names: the lexeme is what the kind was looked up for.
    obtain ⟨⟨rfl⟩, rfl⟩ := Prod.mk.inj classified
    rw [take_length_takeWhile]
    unfold nameKind
    cases found : Keyword.ofSpelling? (String.ofList (first :: rest.takeWhile continuesName)) with
    | some word =>
      refine ⟨fun other same => ?_, nofun⟩
      obtain rfl : word = other := Kind.keyword.inj same
      exact (Keyword.spelling_of_ofSpelling? found).symm
    | none => exact ⟨nofun, fun _ => found⟩
  · cases (Prod.mk.inj classified).1

end Piece

/-- The tokens of cut text are genuine. -/
theorem ScanItem.ofPieces_genuine (text : List Char) (line : Nat) :
    ∀ token, .token token ∈ ofPieces line (Piece.cut text) → token.Genuine := by
  fun_induction Piece.cut text generalizing line with
  | case1 =>
    intro token member
    obtain rfl : token = ⟨.eof, "", line⟩ := by simpa [ofPieces] using member
    exact ⟨by simp, by simp⟩
  | case2 first rest content length classified inductionHypothesis =>
    intro token member
    unfold ofPieces at member
    cases content with
    | skipped => exact inductionHypothesis _ token member
    | fault cause =>
      rcases List.mem_cons.mp member with same | member
      · cases same
      · exact inductionHypothesis _ token member
    | token kind =>
      rcases List.mem_cons.mp member with same | member
      · obtain rfl := ScanItem.token.inj same
        exact Piece.classify_genuine classified _
      · exact inductionHypothesis _ token member

/-- Scanned tokens are genuine. -/
theorem scannedTokens_genuine (source : String) :
    ∀ token ∈ scannedTokens (scan source), token.Genuine := by
  intro token member
  obtain ⟨item, listed, found⟩ := List.mem_filterMap.mp member
  cases item with
  | fault line cause => cases found
  | token scanned =>
    obtain rfl := Option.some.inj found
    exact ScanItem.ofPieces_genuine source.toList 1 scanned listed

end LoxLang
