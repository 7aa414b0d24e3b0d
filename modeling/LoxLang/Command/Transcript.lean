import LoxLang.Command.Arguments
import LoxLang.Session
import LoxLang.Text.Quoted
import LoxLang.Text.Utf8
import LoxLang.Token.Report
import LoxLang.Tree.Outline

/-!
# What a command does

A `Transcript` is everything that a command leaves behind: what it writes to the two outputs and its
exit status. The transcript of a command is a function of what it reads, the clock and the fuel.
-/

namespace LoxLang

/-- What a process wrote and how it exited. -/
structure Transcript where
  output : String
  errors : String
  status : Nat
deriving DecidableEq, Repr

/-- Why a file gives no bytes. -/
inductive FileFault where
  | missing
  | directory
  | unopened (reason : String)
deriving DecidableEq, Repr

/-- The wording of a failure that ends a process, with its cause. -/
def failureText (context cause : String) : String :=
  "Error: " ++ context ++ "\n\nCaused by:\n    " ++ cause ++ "\n"

/-- The wording of a file fault. -/
def FileFault.text (file : String) : FileFault → String
  | missing =>
    failureText ("Failed to open file " ++ quoted file) "No such file or directory (os error 2)"
  | directory => failureText ("Failed to read file " ++ quoted file) "Is a directory (os error 21)"
  | unopened reason => failureText ("Failed to open file " ++ quoted file) reason

/-- The text of a file, or what to say about its failure. -/
def fileText (file : String) : Except FileFault (List UInt8) → Except String String
  | .error fault => .error (fault.text file)
  | .ok bytes =>
    match Utf8.decode bytes with
    | .ok text => .ok text
    | .error fault =>
      .error (failureText ("File " ++ quoted file ++ " is not valid UTF-8") fault.message)

/-- One line for each diagnostic. -/
def diagnosticLines (diagnostics : List Diagnostic) : String :=
  String.join (diagnostics.map fun diagnostic => diagnostic.display ++ "\n")

/-- The exit status for reported diagnostics. -/
def staticStatus (diagnostics : List Diagnostic) : Nat :=
  if diagnostics.isEmpty then 0 else Outcome.staticErrorStatus

namespace Transcript

/-- The exit status of a process that could not do its work. -/
def failureStatus : Nat := 1

/-- A process that could not do its work. -/
def failed (text : String) : Transcript :=
  { output := "", errors := text, status := failureStatus }

/-- Show the tokens of a text. -/
def ofTokens (json : Bool) (source : String) : Transcript :=
  let items := scan source
  let diagnostics := scanDiagnostics items
  let status := staticStatus diagnostics
  if json then { output := (scanReport items).pretty 0 ++ "\n", errors := "", status }
  else { output := scanListing items, errors := diagnosticLines diagnostics, status }

/-- Show the outline of a text, or only what is wrong with it. -/
def ofOutline (source : String) : Transcript :=
  let program := Program.ofSource source 0
  { output :=
      if program.diagnostics.isEmpty then outlineProgram program.statements ++ "\n" else ""
    errors := diagnosticLines program.diagnostics
    status := staticStatus program.diagnostics }

/-- Run a text in a session; the session goes on behind it. -/
def ofRun (fuel : Nat) (session : Session) (source : String) : Option (Transcript × Session) := do
  let (outcome, after) ← session.run fuel source
  let (output, drained) := after.takeOutput
  return ({ output, errors := diagnosticLines outcome.diagnostics, status := outcome.exitStatus },
    drained)

/-- What the prompt shows before it reads a line. -/
def promptMark : String := "> "

/-- The lines of an input, each with its newline. -/
def inputLines : List UInt8 → List (List UInt8)
  | [] => []
  | byte :: rest =>
    if byte = 10 then [byte] :: inputLines rest
    else
      match inputLines rest with
      | [] => [[byte]]
      | line :: lines => (byte :: line) :: lines

/-- Run each line of an input on its own. Errors are shown and the session goes on; only a line that
is no text ends it. -/
def ofPrompt (fuel : Nat) (session : Session) : List (List UInt8) → Option Transcript
  | [] => some { output := promptMark ++ "\n", errors := "", status := 0 }
  | line :: lines =>
    match Utf8.decode line with
    | .error _ =>
      some { output := promptMark
             errors := failureText "Failed to read from stdin" "stream did not contain valid UTF-8"
             status := failureStatus }
    | .ok source => do
      let (first, after) ← ofRun fuel session source
      let rest ← ofPrompt fuel after lines
      return { output := promptMark ++ first.output ++ rest.output
               errors := first.errors ++ rest.errors
               status := rest.status }

end Transcript

namespace Invocation

/-- Carry out a command that works on the text of a file. -/
def onText (fuel : Nat) (clock : Nat → Nat) (invocation : Invocation) (source : String) :
    Option Transcript :=
  match invocation.command with
  | .tokenize _ json => some (.ofTokens json source)
  | .outline _ => some (.ofOutline source)
  | _ => (Transcript.ofRun fuel (.start clock invocation.callLimit) source).map Prod.fst

/-- Carry out a command. `read` gives what files hold and `input` what stands on the standard input.
There is no transcript if the fuel does not suffice. -/
def transcript (fuel : Nat) (clock : Nat → Nat) (read : String → Except FileFault (List UInt8))
    (input : List UInt8) (invocation : Invocation) : Option Transcript :=
  match invocation.file? with
  | none =>
    Transcript.ofPrompt fuel (.start clock invocation.callLimit) (Transcript.inputLines input)
  | some file =>
    match fileText file (read file) with
    | .error text => some (.failed text)
    | .ok source => invocation.onText fuel clock source

end Invocation

end LoxLang
