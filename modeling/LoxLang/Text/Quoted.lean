import LoxLang.Text.Extending
import LoxLang.Text.Invisible
import LoxLang.Text.Unassigned

/-!
# Quoted names

`quoted` shows a name on one line between double quotes. A double quote and a backslash stand behind
a backslash, and some controls have a letter. Every other character stands for itself if it can be
seen next to its neighbours, and is written as its code point otherwise.
-/

namespace LoxLang

/-- A character that is seen on its own, whatever stands around it. -/
def isPlainlyVisible (character : Char) : Bool :=
  !isDrawnOnto character && !isInvisible character && !isUnassigned character

/-- A character as its code point in hexadecimal digits. -/
def codePointText (character : Char) : String :=
  "\\u\x7b" ++ String.ofList (Nat.toDigits 16 character.toNat) ++ "\x7d"

/-- A character inside quotes. -/
def quotedCharacter (character : Char) : String :=
  match character with
  | '"' => "\\\""
  | '\\' => "\\\\"
  | '\n' => "\\n"
  | '\r' => "\\r"
  | '\t' => "\\t"
  | '\x00' => "\\0"
  | other => if isPlainlyVisible other then String.singleton other else codePointText other

/-- A name between double quotes. -/
def quoted (name : String) : String :=
  "\"" ++ String.join (name.toList.map quotedCharacter) ++ "\""

end LoxLang
