import Agenda.Command.Program
import Std.Time.DateTime.Timestamp
/-!
The command line. What the program finds is gathered here and its outcome is written out; everything between is in
`World.outcome`.
-/
namespace Agenda.Shell

open Text

/-- What the system calls an error: a number and words. -/
def codeAndWords : IO.Error → UInt32 × String
  | .interrupted _ code words | .noFileOrDirectory _ code words | .alreadyExists _ code words
  | .invalidArgument _ code words | .permissionDenied _ code words | .resourceExhausted _ code words
  | .inappropriateType _ code words | .noSuchThing _ code words => (code, words)
  | .otherError code words | .resourceBusy code words | .resourceVanished code words | .unsupportedOperation code words
  | .hardwareFault code words | .unsatisfiedConstraints code words | .illegalOperation code words
  | .protocolError code words | .timeExpired code words => (code, words)
  | .unexpectedEof => (0, "unexpected end of file")
  | .userError words => (0, words)

def flawOf (e : IO.Error) : FileFlaw :=
  let (code, words) := codeAndWords e
  if code = 2 then .missing
  else if code = 20 then .notDirectory
  else if code = 21 then .isDirectory
  else if code = 36 then .nameTooLong
  else .other s!"{words} (os error {code})"

/-- Reads to the end or up to an error. What was read before an error is not lost. -/
partial def readChunks (read : IO ByteArray) (chunks : List Bytes) : IO (Reader × Option FileFlaw) := do
  let chunk? ← try
      let chunk ← read
      pure (Except.ok chunk)
    catch e => pure (Except.error (flawOf e))
  match chunk? with
  | .error flaw => return (chunks.reverse, some flaw)
  | .ok chunk =>
    if chunk.isEmpty then return (chunks.reverse, none)
    readChunks read (chunk.toList :: chunks)

/-- What a path names. That a folder cannot be read is found out when it is. -/
def findFile (name : String) : IO (Except FileFlaw Entry) := do
  try
    let file ← IO.FS.Handle.mk name .read
    let (content, flaw) ← readChunks (file.read 65536) []
    return .ok (.file content flaw)
  catch e => return .error (flawOf e)

def getVariable (name : String) : IO (Option Bytes) := do
  return (← IO.getEnv name).map Environment.bytesOf

/-- Gathers what a run finds, but for the standard input. -/
def gather (args : List String) : IO World := do
  let files ← args.mapM fun name => return (Environment.bytesOf name, ← findFile name)
  let now ← Std.Time.Timestamp.now
  return {
    arguments := args.map Environment.bytesOf
    environment := {
      today := ← getVariable "DUE_NOW"
      timeZone := ← getVariable "TZ"
      logLevel := ← getVariable "DUE_LOG"
      noColor := ← getVariable "NO_COLOR"
      terminal := ← getVariable "TERM"
      details := none
      libraryDetails := none }
    stdin := []
    find := fun path => (files.lookup path).getD (.error .missing)
    clock := now.toNanosecondsSinceUnixEpoch.val
    zones := .shipped
    isOpen := true
    hasTerminal := ← (← IO.getStderr).isTty }

def timeText : IO String := do
  let now ← Std.Time.Timestamp.now
  return toString now.toSecondsSinceUnixEpoch.val

end Agenda.Shell

open Agenda Shell in
def main (args : List String) : IO UInt32 := do
  let gathered ← gather args
  let (stdin, stdinFlaw) ←
    if gathered.asksForInput then do
      let input ← IO.getStdin
      readChunks (input.read 65536) []
    else pure ([], none)
  let w := { gathered with stdin, stdinFlaw }
  let outcome := w.outcome
  for r in outcome.records do
    IO.eprintln (r.line w.hasColor (← timeText))
  try
    IO.print outcome.stdout
    (← IO.getStdout).flush
  catch _ => return 0
  IO.eprint outcome.stderr
  return outcome.exitCode.toUInt32
