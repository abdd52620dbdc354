/-
  Lexiscope.Main

  The program on a real machine. It reads the command line, the environment and
  files, hands them to the pure parts, and writes what they give back. Output of
  a unit is written when the unit has ended, that of the shell after every line.
-/
import Lexiscope.CommandLine.Invocation
import Std.Time

namespace Lexiscope.Main

/-- More steps than any run takes. -/
def fuel : Nat := 1000000000000000000

/-- The text that help shows. -/
def helpText : String :=
  "Usage: langxa [OPTIONS] [SCRIPT]\n\n"
    ++ "Arguments:\n"
    ++ "  [SCRIPT]  Script to run; starts an interactive session if omitted\n\n"
    ++ "Options:\n"
    ++ "  -c, --command <COMMAND>          Run the given source text and exit\n"
    ++ "  -v, --verbose...                 Increase log verbosity (-v info, -vv debug, -vvv trace)\n"
    ++ "      --log <LOG>                  Write log output to this file instead of stderr\n"
    ++ "      --no-color                   Disable colored log output\n"
    ++ "      --max-depth <MAX_DEPTH>      Maximum function call depth [default: 1000]\n"
    ++ "      --max-nesting <MAX_NESTING>  Maximum syntactic nesting depth [default: 256]\n"
    ++ "  -h, --help                       Print help\n"
    ++ "  -V, --version                    Print version\n"

/-- What is said about a command line that is not understood. -/
def usageText : Refusal → String
  | .unknownArgument => "error: unexpected argument found"
  | .missingValue => "error: a value is required"
  | .badNumber => "error: invalid value for a limit"
  | .conflict => "error: an argument cannot be used with another one"
  | .unwantedValue => "error: unexpected value found"
  | .help | .version => ""

/-- An error of the operating system, in its words. -/
def reason : IO.Error → String
  | .noFileOrDirectory _ _ _ => FileError.notFound.message
  | .interrupted _ code details
  | .inappropriateType _ code details
  | .permissionDenied _ code details
  | .alreadyExists _ code details
  | .invalidArgument _ code details
  | .resourceExhausted _ code details
  | .noSuchThing _ code details
  | .resourceBusy code details
  | .otherError code details => details ++ " (os error " ++ toString code ++ ")"
  | other => toString other

/-- The time as log lines show it. -/
def clock : IO String := do
  let now ← Std.Time.Timestamp.now
  let time := Std.Time.DateTime.ofTimestamp now Std.Time.TimeZone.ZoneRules.UTC
  return time.format "uuuu-MM-dd'T'HH:mm:ss.SSSSSS'Z'"

/-- The number of this process, or zero where it cannot be told. -/
def processNumber : IO Nat := do
  try
    let stat ← IO.FS.readFile "/proc/self/stat"
    return ((stat.splitOn " ").head?.bind String.toNat?).getD 0
  catch _ => return 0

/-- Where the log goes. -/
structure LogWriter where
  handle : Option IO.FS.Handle

namespace LogWriter

/-- Writes events to the log. -/
def write (w : LogWriter) (events : List Event) : IO Unit :=
  for e in events do
    let line := e.line (← clock) ++ "\n"
    match w.handle with
    | some h =>
      h.putStr line
      h.flush
    | none => (← IO.getStderr).putStr line

end LogWriter

/-- Writes what a session has to say, and gives the session without it. -/
def flush (w : LogWriter) (s : Session) : IO Session := do
  let (s', bytes, events) := s.drain
  w.write events
  let out ← IO.getStdout
  out.write bytes
  out.flush
  return s'

/-- Reads bytes up to a newline or the end. -/
partial def readLine (input : IO.FS.Stream) (read : ByteArray) : IO ByteArray := do
  let b ← input.read 1
  if b.isEmpty then return read
  else if b.data.contains 10 then return read ++ b
  else readLine input (read ++ b)

/-- Says that a run took more steps than it was given. -/
def exhausted : Ending := Ending.ofMessage "too many steps"

/-- Runs the shell on the standard input. -/
partial def shell (w : LogWriter) (sh : Shell) : IO Ending := do
  let (sh, _) := sh.write sh.prompt
  let sh := { sh with session := ← flush w sh.session }
  let line ← readLine (← IO.getStdin) ByteArray.empty
  let given := if line.isEmpty then none else some line.toList
  match sh.answer Sink.unbounded given fuel with
  | none => return exhausted
  | some (sh, errors, failure) =>
    let sh := { sh with session := ← flush w sh.session }
    (← IO.getStderr).write errors.bytes
    match failure, given with
    | some f, _ => return Ending.ofMessage f.message
    | none, none =>
      let (sh, _, _) := Shell.finish (sh, errors, none)
      let _ ← flush w sh.session
      return Ending.success
    | none, some _ => shell w sh

/-- Runs a unit that a session was asked to perform. -/
def finishUnit (w : LogWriter) (r : Option (Ending × Session)) : IO Ending :=
  match r with
  | none => return exhausted
  | some (ending, s) => do
    let _ ← flush w s
    return ending

/-- Runs what the options ask for. -/
def runMode (w : LogWriter) (o : Options) (s : Session) : IO Ending :=
  match o.script, o.command with
  | some path, _ => do
    try
      let bytes ← IO.FS.readBinFile path
      finishUnit w (s.performScript path bytes.toList fuel)
    catch e => return Ending.ofMessage (reason e)
  | none, some source => finishUnit w (s.perform commandUnit source fuel)
  | none, none =>
    let sh := Shell.new (s.note .shellStarted)
    shell w sh

/-- Opens the log, if the options ask for a file. -/
def openLog (o : Options) : IO (Except String LogWriter) :=
  match o.log with
  | none => return .ok ⟨none⟩
  | some path => do
    try
      return .ok ⟨some (← IO.FS.Handle.mk path .append)⟩
    catch e => return .error ("Could not open log file: " ++ reason e)

/-- Runs the program with options that were understood. -/
def run (o : Options) : IO Ending := do
  match ← openLog o with
  | .error message => return Ending.ofMessage message
  | .ok w =>
    let journal := o.journal (← IO.getEnv "LANGXA_LOG_LEVEL") (← processNumber)
    w.write journal.toList
    runMode w o (Session.new o.limits Sink.unbounded ⟨journal.filter, []⟩)

end Lexiscope.Main

open Lexiscope in
/-- Runs the program. -/
def main (args : List String) : IO UInt32 := do
  match Options.parse args with
  | .error .help =>
    IO.print Main.helpText
    return 0
  | .error .version =>
    IO.println ("langxa " ++ version)
    return 0
  | .error r =>
    IO.eprintln (Main.usageText r)
    return UInt32.ofNat r.exitCode
  | .ok o =>
    let ending ← Main.run o
    match ending.complaint with
    | some text => IO.eprintln text
    | none => pure ()
    return UInt32.ofNat ending.exitCode
