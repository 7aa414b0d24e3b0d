import LoxLang.Command.Transcript
import Std.Time.DateTime.Timestamp

/-!
# The command line

Reads what a command asks for, carries the command out and shows its transcript. The prompt runs
each line as soon as it is read.
-/

namespace LoxLang

/-- More fuel than a process can use up. -/
def processFuel : Nat := Nat.pow 2 62

/-- Readings of a clock that starts now; each is a microsecond behind the one before it. -/
def processClock : IO (Nat → Nat) := do
  let now ← Std.Time.Timestamp.now
  let microseconds := now.toNanosecondsSinceUnixEpoch.toInt.toNat / 1000
  return fun count => microseconds + count

/-- What a file holds. -/
def readBytes (file : String) : IO (Except FileFault (List UInt8)) := do
  try
    let bytes ← IO.FS.readBinFile file
    return .ok bytes.toList
  catch
    | .noFileOrDirectory _ _ _ => return .error .missing
    | .inappropriateType _ _ _ => return .error .directory
    | error => return .error (.unopened (toString error))

/-- Write a transcript and give its exit status. -/
def showTranscript (transcript : Transcript) : IO UInt32 := do
  IO.print transcript.output
  IO.eprint transcript.errors
  (← IO.getStdout).flush
  return transcript.status.toUInt32

/-- Run the lines of the standard input as they come. -/
partial def servePrompt (session : Session) : IO UInt32 := do
  IO.print Transcript.promptMark
  (← IO.getStdout).flush
  let line ← (← IO.getStdin).getLine
  if line.isEmpty then
    IO.println ""
    return 0
  else
    match Transcript.ofRun processFuel session line with
    | none => return 1
    | some (transcript, after) =>
      let _ ← showTranscript transcript
      servePrompt after

/-- Carry out a command line that was understood. -/
def carryOut (invocation : Invocation) : IO UInt32 := do
  let clock ← processClock
  match invocation.file? with
  | none => servePrompt (.start clock invocation.callLimit)
  | some file =>
    let bytes ← readBytes file
    match invocation.transcript processFuel clock (fun _ => bytes) [] with
    | none => return 1
    | some transcript => showTranscript transcript

end LoxLang

/-- The process: exit status 2 says that the command line was not understood. -/
def main (arguments : List String) : IO UInt32 := do
  match LoxLang.Invocation.ofArguments? arguments with
  | some invocation => LoxLang.carryOut invocation
  | none =>
    IO.eprintln "Usage: (run [FILE] | tokenize [--json] FILE | parse FILE) [--max-call-depth N]"
    return 2
