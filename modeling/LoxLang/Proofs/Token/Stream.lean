import Mathlib.Data.List.Forall2
import LoxLang.Proofs.Token.Lexeme

/-!
# Scanning one item at a time

A `Scanner` is a scan under way. It gives one item whenever it is asked for the next one: it passes
over blanks and comments, gives the end marker where the text ends, and nothing from then on. The
items it gives are those of `scan`, in order. `scan_maximal_munch` says what they are: the text
falls into consecutive pieces, each the longest lexeme or comment at its place, a blank or a fault,
and the items stand for the pieces that are not skipped.
-/

namespace LoxLang

/-- A scan under way: the text that is left, or nothing once the end marker was given, and the line
that was reached. -/
structure Scanner where
  left? : Option (List Char)
  line : Nat

namespace Scanner

/-- A scan that has read nothing yet. -/
def start (source : String) : Scanner :=
  { left? := some source.toList, line := 1 }

/-- The first item of a text that starts on a line, and the scan behind it. -/
def read (line : Nat) : List Char → ScanItem × Scanner
  | [] => (.token { kind := .eof, lexeme := "", line }, { left? := none, line })
  | first :: rest =>
    let (content, length) := Piece.classify first rest
    let text := first :: rest.take length
    let ending := line + text.count '\n'
    match content with
    | .skipped => read ending (rest.drop length)
    | .token kind =>
      (.token { kind, lexeme := String.ofList text, line := ending },
        { left? := some (rest.drop length), line := ending })
    | .fault cause =>
      (.fault ending cause, { left? := some (rest.drop length), line := ending })
termination_by text => text.length
decreasing_by simp only [List.length_drop, List.length_cons]; omega

/-- Ask for the next item. -/
def next (scanner : Scanner) : Option ScanItem × Scanner :=
  match scanner.left? with
  | none => (none, scanner)
  | some text =>
    let (item, behind) := read scanner.line text
    (some item, behind)

/-- What a scanner gives when it has been asked a number of times before. -/
def answer (scanner : Scanner) : Nat → Option ScanItem
  | 0 => scanner.next.1
  | count + 1 => scanner.next.2.answer count

/-- The items that a scanner has still to give. -/
def items (scanner : Scanner) : List ScanItem :=
  match scanner.left? with
  | none => []
  | some text => ScanItem.ofPieces scanner.line (Piece.cut text)

/-- The first item of a text is the first one of its pieces. -/
theorem items_read (line : Nat) (text : List Char) :
    ScanItem.ofPieces line (Piece.cut text) = (read line text).1 :: (read line text).2.items := by
  fun_induction read line text with
  | case1 line =>
    rw [Piece.cut]
    rfl
  | case2 line first rest length text ending classified inductionHypothesis =>
    rw [Piece.cut, classified]
    exact inductionHypothesis
  | case3 line first rest length text ending kind classified =>
    rw [Piece.cut, classified]
    rfl
  | case4 line first rest length text ending cause classified =>
    rw [Piece.cut, classified]
    rfl

/-- Asking for the next item takes it off the items. -/
theorem items_next (scanner : Scanner) :
    scanner.items = scanner.next.1.toList ++ scanner.next.2.items ∧
      (scanner.next.1 = none → scanner.next.2.items = []) := by
  obtain ⟨left, line⟩ := scanner
  cases left with
  | none => exact ⟨rfl, fun _ => rfl⟩
  | some text => exact ⟨items_read line text, nofun⟩

/-- A scanner gives its items in order, and then nothing. -/
theorem answer_eq (scanner : Scanner) (count : Nat) :
    scanner.answer count = scanner.items[count]? := by
  induction count generalizing scanner with
  | zero =>
    obtain ⟨taken, ended⟩ := scanner.items_next
    rw [answer, taken]
    cases given : scanner.next.1 with
    | none => simp [ended given]
    | some item => rfl
  | succ count inductionHypothesis =>
    obtain ⟨taken, ended⟩ := scanner.items_next
    rw [answer, inductionHypothesis, taken]
    cases given : scanner.next.1 with
    | none => simp [ended given]
    | some item => rfl

end Scanner

/-- An item stands for a piece of text. -/
def ScanItem.Shows : ScanItem → Piece → Prop
  | .token scanned, piece =>
    piece.content = .token scanned.kind ∧ scanned.lexeme = String.ofList piece.text
  | .fault _ cause, piece => piece.content = .fault cause

/-- The items of consecutive pieces show those that are not skipped, and then the end. -/
theorem ScanItem.ofPieces_shows (line : Nat) (pieces : List Piece) :
    ∃ items ending, ofPieces line pieces = items ++ [.token ⟨.eof, "", ending⟩] ∧
      List.Forall₂ Shows items (pieces.filter (·.content ≠ .skipped)) := by
  induction pieces generalizing line with
  | nil => exact ⟨[], line, rfl, .nil⟩
  | cons piece rest inductionHypothesis =>
    obtain ⟨items, ending, same, shown⟩ := inductionHypothesis (line + piece.text.count '\n')
    unfold ofPieces
    cases content : piece.content with
    | skipped => exact ⟨items, ending, same, by simpa [content] using shown⟩
    | token kind =>
      exact ⟨_ :: items, ending, congrArg (List.cons _) same,
        by simpa [content, Shows] using shown⟩
    | fault cause =>
      exact ⟨_ :: items, ending, congrArg (List.cons _) same,
        by simpa [content, Shows] using shown⟩

theorem ScanItem.exists_shown {items : List ScanItem} {pieces : List Piece} {item : ScanItem}
    (shown : List.Forall₂ Shows items pieces) (member : item ∈ items) :
    ∃ piece ∈ pieces, item.Shows piece := by
  induction shown with
  | nil => cases member
  | cons head _ inductionHypothesis =>
    rcases List.mem_cons.mp member with rfl | member
    · exact ⟨_, List.mem_cons_self, head⟩
    · obtain ⟨piece, listed, shows⟩ := inductionHypothesis member
      exact ⟨piece, List.mem_cons_of_mem _ listed, shows⟩

/-- A text falls into consecutive pieces that lose nothing and never divide a character. Each piece
is the longest lexeme or comment in front of what is left of the text, a blank, a character with
which nothing starts, or an open string. A scanner gives one item for each piece that is not
skipped, with the piece as its lexeme; then it gives the end marker once, and then nothing. -/
theorem scan_maximal_munch (source : String) :
    ((Piece.cut source.toList).map Piece.text).flatten = source.toList ∧
    (∀ before behind, Piece.cut source.toList = before ++ behind →
      String.Pos.Raw.IsValid source (String.ofList (before.map Piece.text).flatten).rawEndPos) ∧
    (∀ before piece behind, Piece.cut source.toList = before ++ piece :: behind →
      piece.Proper ((piece :: behind).map Piece.text).flatten) ∧
    ∃ items line,
      List.Forall₂ ScanItem.Shows items
        ((Piece.cut source.toList).filter (·.content ≠ .skipped)) ∧
      (∀ token, .token token ∈ items → token.kind ≠ .eof) ∧
      scan source = items ++ [.token ⟨.eof, "", line⟩] ∧
      ∀ count, (Scanner.start source).answer count =
        (items ++ [.token ⟨.eof, "", line⟩])[count]? := by
  obtain ⟨items, line, scanned, shown⟩ := ScanItem.ofPieces_shows 1 (Piece.cut source.toList)
  refine ⟨Piece.flatten_cut source.toList, ?_, ?_, items, line, shown, ?_, scanned, ?_⟩
  · intro before behind cuts
    rw [String.Pos.Raw.isValid_iff_exists_append]
    refine ⟨_, String.ofList (behind.map Piece.text).flatten, ?_, rfl⟩
    rw [← String.ofList_append, ← List.flatten_append, ← List.map_append, ← cuts,
      Piece.flatten_cut, String.ofList_toList]
  · intro before piece behind cuts
    exact Piece.proper_of_cut cuts
  · intro token member
    obtain ⟨piece, kept, content, _⟩ := ScanItem.exists_shown shown member
    exact (Piece.lexeme_of_mem_cut (List.mem_of_mem_filter kept) content).ne_eof
  · intro count
    rw [Scanner.answer_eq, ← scanned]
    rfl

end LoxLang
