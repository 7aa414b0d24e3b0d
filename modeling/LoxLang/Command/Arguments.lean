import LoxLang.Machine

/-!
# Command lines

A command line names what to do and with which file. The options `--log` and `--max-call-depth` may
stand anywhere, `--json` anywhere behind `tokenize`. Of two limits the later one holds.
-/

namespace LoxLang

/-- What to do. -/
inductive Command where
  /-- Run the program in a file. -/
  | run (file : String)
  /-- Run the lines of the standard input one after another. -/
  | prompt
  /-- Show the tokens of a file. -/
  | tokenize (file : String) (json : Bool)
  /-- Show the outline of the program in a file. -/
  | outline (file : String)
deriving DecidableEq, Repr

/-- A command line that was understood. -/
structure Invocation where
  command : Command
  callLimit : Nat
deriving DecidableEq, Repr

namespace Invocation

/-- The words of a command line by what they are for. -/
structure Words where
  plain : List String
  json : Bool
  /-- The last limit that was given. -/
  callLimit : Option Nat

/-- Put a limit in front of words; a limit among them still holds. -/
def Words.limited (words : Words) (callLimit : Nat) : Words :=
  { words with callLimit := some (words.callLimit.getD callLimit) }

/-- A number that fits into 64 bits, as decimal digits behind an optional plus sign. -/
def number? (text : String) : Option Nat :=
  let digits := match text.toList with
    | '+' :: rest => rest
    | all => all
  let value := Decimal.digitsValue digits
  if !digits.isEmpty && digits.all Char.isDigit && value < Nat.pow 2 64 then some value else none

/-- The name of the option that limits nesting calls. -/
def callLimitOption : String := "--max-call-depth"

/-- Sort the words of a command line; options of other names are refused. -/
def sortWords : List String → Option Words
  | [] => some { plain := [], json := false, callLimit := none }
  | "--log" :: rest => sortWords rest
  | "--json" :: rest => (sortWords rest).map fun words => { words with json := true }
  | word :: rest =>
    if word = callLimitOption then
      match rest with
      | [] => none
      | value :: others => do
        let callLimit ← number? value
        let words ← sortWords others
        return words.limited callLimit
    else if (callLimitOption ++ "=").toList.isPrefixOf word.toList then do
      let callLimit ← number? (String.ofList (word.toList.drop (callLimitOption.length + 1)))
      let words ← sortWords rest
      return words.limited callLimit
    else if word.startsWith "--" then none
    else (sortWords rest).map fun words => { words with plain := word :: words.plain }

/-- Understand a command line. -/
def ofArguments? (arguments : List String) : Option Invocation := do
  let words ← sortWords arguments
  let command ← match words.plain, words.json with
    | ["run"], false => some Command.prompt
    | ["run", file], false => some (.run file)
    | ["tokenize", file], json => some (.tokenize file json)
    | ["parse", file], false => some (.outline file)
    | _, _ => none
  return { command, callLimit := words.callLimit.getD defaultCallLimit }

/-- The file that a command reads, if any. -/
def file? (invocation : Invocation) : Option String :=
  match invocation.command with
  | .run file => some file
  | .prompt => none
  | .tokenize file _ => some file
  | .outline file => some file

end Invocation

end LoxLang
