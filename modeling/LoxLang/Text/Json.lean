import LoxLang.Number.Text

/-!
# JSON text

A JSON value and its text over several lines: each item and each field stands on a line of its own,
two spaces further in than the brackets around it, and empty brackets stay closed.
-/

namespace LoxLang

mutual

/-- A JSON value; a number is kept as its digits. -/
inductive JsonValue where
  | null
  | numeral (digits : String)
  | text (contents : String)
  | list (items : List JsonValue)
  | record (fields : List JsonField)

/-- A name and its value in a record. -/
inductive JsonField where
  | mk (name : String) (value : JsonValue)

end

namespace JsonValue

/-- A character inside a JSON string. -/
def escapedCharacter (character : Char) : String :=
  match character with
  | '"' => "\\\""
  | '\\' => "\\\\"
  | '\n' => "\\n"
  | '\r' => "\\r"
  | '\t' => "\\t"
  | '\x08' => "\\b"
  | '\x0c' => "\\f"
  | other =>
    if other.toNat < 0x20 then
      let digits := Nat.toDigits 16 other.toNat
      "\\u" ++ String.ofList (List.replicate (4 - digits.length) '0' ++ digits)
    else String.singleton other

/-- A JSON string. -/
def stringText (contents : String) : String :=
  "\"" ++ String.join (contents.toList.map escapedCharacter) ++ "\""

/-- A new line, indented for a depth of nesting. -/
def newLine (depth : Nat) : String :=
  "\n" ++ "".pushn ' ' (2 * depth)

/-- Lines between brackets, each indented one step further than the brackets. -/
def bracketed (opening closing : String) (depth : Nat) (lines : List String) : String :=
  if lines.isEmpty then opening ++ closing
  else
    let separator := "," ++ newLine (depth + 1)
    opening ++ newLine (depth + 1) ++ separator.intercalate lines ++ newLine depth ++ closing

mutual

/-- The text of a value at a depth of nesting. -/
def pretty (depth : Nat) : JsonValue → String
  | .null => "null"
  | .numeral digits => digits
  | .text contents => stringText contents
  | .list items => bracketed "[" "]" depth (prettyItems (depth + 1) items)
  | .record fields => bracketed "\x7b" "\x7d" depth (prettyFields (depth + 1) fields)

/-- The texts of items. -/
def prettyItems (depth : Nat) : List JsonValue → List String
  | [] => []
  | first :: rest => first.pretty depth :: prettyItems depth rest

/-- The texts of fields. -/
def prettyFields (depth : Nat) : List JsonField → List String
  | [] => []
  | .mk name value :: rest =>
    (stringText name ++ ": " ++ value.pretty depth) :: prettyFields depth rest

end

end JsonValue

end LoxLang
