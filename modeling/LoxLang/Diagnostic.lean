import LoxLang.Token

/-!
# Diagnostics

Every stage reports what it refuses as a `Diagnostic`. Each stage has its own type of causes with
one wording each; a diagnostic keeps only what a reader sees: the stage, the line, the lexeme and
the message.
-/

namespace LoxLang

/-- The stage that refused a program. -/
inductive Stage where
  | scan
  | parse
  | resolve
  | runtime
deriving DecidableEq, Repr

/-- The tag of a stage in a diagnostic. -/
def Stage.tag : Stage → String
  | scan => "ScanError"
  | parse => "ParseError"
  | resolve => "ResolveError"
  | runtime => "RuntimeError"

/-- A reported problem; an empty lexeme means the end of the input. -/
structure Diagnostic where
  stage : Stage
  line : Nat
  lexeme : Option String
  message : String
deriving DecidableEq, Repr

namespace Diagnostic

/-- A problem at a token; the end marker is shown without its lexeme. -/
def onToken (stage : Stage) (token : Token) (message : String) : Diagnostic :=
  { stage
    line := token.line
    lexeme := some (if token.kind = .eof then "" else token.lexeme)
    message }

/-- A problem that belongs to a line only. -/
def onLine (stage : Stage) (line : Nat) (message : String) : Diagnostic :=
  { stage, line, lexeme := none, message }

/-- Where a diagnostic points to, behind its tag. -/
def location (lexeme : Option String) : String :=
  match lexeme with
  | none => ""
  | some text => if text = "" then " at end" else " at '" ++ text ++ "'"

/-- The line that is shown to a reader. -/
def display (diagnostic : Diagnostic) : String :=
  "[line " ++ naturalText diagnostic.line ++ "] " ++ diagnostic.stage.tag ++
    location diagnostic.lexeme ++ ": " ++ diagnostic.message

end Diagnostic

end LoxLang
