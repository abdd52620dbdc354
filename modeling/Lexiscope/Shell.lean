/-
  Lexiscope.Shell

  The interactive shell. It prompts with the number of the line, runs the line
  as a source unit and echoes its value; errors go to a sink of their own and do
  not end it. Blank lines are passed over without a number. What ends a run
  early is a sink that takes no more, or a line that is not text.
-/
import Lexiscope.Session
import Lexiscope.Text.Utf8

namespace Lexiscope

/-- A session and the number of the next line. -/
structure Shell where
  session : Session
  counter : Nat
deriving Inhabited

/-- What ends a run of the shell early. -/
inductive ShellFailure where
  | sinkFull
  | notText
deriving DecidableEq, Inhabited

/-- The failure in words. -/
def ShellFailure.message : ShellFailure → String
  | sinkFull => Sink.fullMessage
  | notText => "stream did not contain valid UTF-8"

namespace Shell

/-- The name of the unit that every line is. -/
def unit : String := "<stdin>"

/-- A shell at its first line. -/
def new (session : Session) : Shell := ⟨session, 1⟩

/-- Writes to the output, and says whether all of it was taken. -/
def write (sh : Shell) (text : String) : Shell × Bool :=
  let m := sh.session.machine
  let (sink, ok) := m.sink.write text
  ({ sh with session := { sh.session with machine := { m with sink := sink } } }, ok)

/-- The prompt for the next line. -/
def prompt (sh : Shell) : String := ">>> [" ++ toString sh.counter ++ "]: "

/-- A value as it is echoed after the next line. -/
def echoLine (sh : Shell) (v : Value) : String :=
  "<<< [" ++ toString sh.counter ++ "]: " ++ v.echo ++ "\n"

/-- The shell, the sink for errors, and what ended the run early if something did. -/
abbrev Outcome := Shell × Sink × Option ShellFailure

/-- Shows how a line ended. -/
def report (sh : Shell) (errors : Sink) (result : Except Diagnostic Value) : Outcome :=
  match result with
  | .ok .nil => ({ sh with counter := sh.counter + 1 }, errors, none)
  | .ok v =>
    match sh.write (sh.echoLine v) with
    | (sh', true) => ({ sh' with counter := sh'.counter + 1 }, errors, none)
    | (sh', false) => (sh', errors, some .sinkFull)
  | .error d =>
    let sh := { sh with session := sh.session.note (.lineFailed sh.counter) }
    match errors.write (d.text ++ "\n") with
    | (errors', true) => ({ sh with counter := sh.counter + 1 }, errors', none)
    | (errors', false) => (sh, errors', some .sinkFull)

/-- Runs one line, given as bytes with the newline that ends it. Blanks at the end do not count,
    those at the beginning do, so that positions are those of the line as typed. -/
def runLine (sh : Shell) (errors : Sink) (line : List UInt8) (fuel : Nat) : Option Outcome :=
  match Text.decode? line with
  | none => some (sh, errors, some .notText)
  | some text =>
    let source := Text.trimEnd text.toList
    if source.isEmpty then some (sh, errors, none)
    else
      match sh.session.run unit (String.ofList source) fuel with
      | none => none
      | some (result, session) => some ({ sh with session := session }.report errors result)

/-- What follows a prompt: a line to run, or the end of the input. -/
def answer (sh : Shell) (errors : Sink) (line : Option (List UInt8)) (fuel : Nat) :
    Option Outcome :=
  match line with
  | some bytes => sh.runLine errors bytes fuel
  | none =>
    match sh.write "\n" with
    | (sh', true) => some (sh', errors, none)
    | (sh', false) => some (sh', errors, some .sinkFull)

/-- Prompts, and then runs the line that follows if there is one. -/
def step (sh : Shell) (errors : Sink) (line : Option (List UInt8)) (fuel : Nat) :
    Option Outcome :=
  match sh.write sh.prompt with
  | (sh', false) => some (sh', errors, some .sinkFull)
  | (sh', true) => sh'.answer errors line fuel

/-- Runs lines one after the other, and then ends. -/
def runLines (sh : Shell) (errors : Sink) (fuel : Nat) : List (List UInt8) → Option Outcome
  | [] => sh.step errors none fuel
  | line :: rest =>
    match sh.step errors (some line) fuel with
    | some (sh', errors', none) => runLines sh' errors' fuel rest
    | other => other

/-- Cuts bytes behind every newline. -/
def splitLines : List UInt8 → List (List UInt8)
  | [] => []
  | b :: rest =>
    if b = 10 then [b] :: splitLines rest
    else match splitLines rest with
      | [] => [[b]]
      | line :: more => (b :: line) :: more

/-- The journal of a run that came to the end of its input says how many lines there were. -/
def finish (outcome : Outcome) : Outcome :=
  match outcome with
  | (sh, errors, none) =>
    ({ sh with session := sh.session.note (.shellEnded (sh.counter - 1)) }, errors, none)
  | other => other

/-- Runs all lines of an input. -/
def run (sh : Shell) (errors : Sink) (input : List UInt8) (fuel : Nat) : Option Outcome :=
  let sh := { sh with session := sh.session.note .shellStarted }
  (sh.runLines errors fuel (splitLines input)).map finish

end Shell

end Lexiscope
