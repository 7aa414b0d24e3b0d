import LoxLang.Token

/-!
# Cutting source text into pieces

`Piece.cut` divides a text into consecutive pieces: tokens, skipped blanks and comments, and faults.
Each piece is the longest one that the text allows at its place, and the pieces concatenate to the
text, so nothing is lost (`flatten_cut`).
-/

namespace LoxLang

/-- Why a piece of text is no lexeme. -/
inductive ScanFault where
  | unexpectedCharacter (character : Char)
  | unterminatedString
deriving DecidableEq, Repr

/-- The wording of a scan fault. -/
def ScanFault.message : ScanFault → String
  | unexpectedCharacter character => "Unexpected character: " ++ String.singleton character
  | unterminatedString => "Unterminated string."

/-- What a piece of text stands for. -/
inductive Content where
  | skipped
  | token (kind : Kind)
  | fault (cause : ScanFault)
deriving DecidableEq, Repr

/-- Consecutive characters that belong together. -/
structure Piece where
  text : List Char
  content : Content
deriving DecidableEq, Repr

namespace Piece

/-- Space, tab, carriage return and newline are skipped one at a time. -/
def isBlank (character : Char) : Bool :=
  character == ' ' || character == '\r' || character == '\t' || character == '\n'

/-- A name starts with a letter or an underscore. -/
def startsName (character : Char) : Bool :=
  character.isAlpha || character == '_'

/-- A name goes on with letters, digits and underscores. -/
def continuesName (character : Char) : Bool :=
  character.isAlphanum || character == '_'

/-- The symbols that no second character extends. -/
def singleSymbol? : Char → Option Symbol
  | '(' => some .leftParen
  | ')' => some .rightParen
  | '{' => some .leftBrace
  | '}' => some .rightBrace
  | ',' => some .comma
  | '.' => some .dot
  | '-' => some .minus
  | '+' => some .plus
  | ';' => some .semicolon
  | '*' => some .star
  | _ => none

/-- The symbols that an equals sign extends: alone, and with the sign. -/
def extensibleSymbol? : Char → Option (Symbol × Symbol)
  | '!' => some (.bang, .bangEqual)
  | '=' => some (.equal, .equalEqual)
  | '<' => some (.less, .lessEqual)
  | '>' => some (.greater, .greaterEqual)
  | _ => none

/-- The kind of a name: a reserved word or an identifier. -/
def nameKind (name : List Char) : Kind :=
  match Keyword.ofSpelling? (String.ofList name) with
  | some word => .keyword word
  | none => .identifier

/-- How many of the characters behind the first digit belong to a number: the digits that follow,
and a point with digits behind it. -/
def numeralLength (rest : List Char) : Nat :=
  let whole := (rest.takeWhile Char.isDigit).length
  match rest.drop whole with
  | '.' :: fraction =>
    let places := (fraction.takeWhile Char.isDigit).length
    if places = 0 then whole else whole + 1 + places
  | _ => whole

/-- What starts at a character, and how many of the characters behind it belong to it. -/
def classify (first : Char) (rest : List Char) : Content × Nat :=
  match singleSymbol? first with
  | some symbol => (.token (.symbol symbol), 0)
  | none =>
    match extensibleSymbol? first with
    | some (alone, extended) =>
      if rest.head? = some '=' then (.token (.symbol extended), 1) else (.token (.symbol alone), 0)
    | none =>
      if first = '/' then
        if rest.head? = some '/' then (.skipped, (rest.takeWhile (· ≠ '\n')).length)
        else (.token (.symbol .slash), 0)
      else if isBlank first then (.skipped, 0)
      else if first = '"' then
        let contents := rest.takeWhile (· ≠ '"')
        if contents.length < rest.length then
          (.token (.string (String.ofList contents)), contents.length + 1)
        else (.fault .unterminatedString, rest.length)
      else if first.isDigit then
        let length := numeralLength rest
        (.token (.number (numeralValue (first :: rest.take length))), length)
      else if startsName first then
        let name := rest.takeWhile continuesName
        (.token (nameKind (first :: name)), name.length)
      else (.fault (.unexpectedCharacter first), 0)

/-- Divide a text into its pieces. -/
def cut : List Char → List Piece
  | [] => []
  | first :: rest =>
    let (content, length) := classify first rest
    { text := first :: rest.take length, content } :: cut (rest.drop length)
termination_by text => text.length
decreasing_by simp only [List.length_drop, List.length_cons]; omega

/-- The pieces of a text concatenate to it. -/
theorem flatten_cut (text : List Char) : ((cut text).map Piece.text).flatten = text := by
  fun_induction cut text with
  | case1 => rfl
  | case2 first rest content length _ inductionHypothesis =>
    simp [inductionHypothesis, List.take_append_drop]

end Piece

end LoxLang
