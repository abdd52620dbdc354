/-
  Lexiscope.CommandLine.Invocation

  The program as it is called: options, a folder to work in, and an input give
  an exit code, two outputs and a changed folder. A script or a command is one
  source unit, and its value is not shown; without either, the shell reads the
  input. An error of the language ends the program with code 1, and anything
  else that goes wrong with code 2.
-/
import Lexiscope.CommandLine.Disk
import Lexiscope.CommandLine.Options
import Lexiscope.Shell

namespace Lexiscope

namespace Options

/-- How the program is asked to run. -/
def mode (o : Options) : RunMode :=
  if o.script.isSome then .script else if o.command.isSome then .command else .shell

/-- The name of the level that the verbosity stands for. -/
def levelName (o : Options) : String :=
  match o.verbosity with
  | 0 => "warn"
  | 1 => "info"
  | 2 => "debug"
  | _ => "trace"

/-- The rank of that level. -/
def levelRank (o : Options) : Nat := min (o.verbosity + 2) 5

/-- The journal of a program that begins. The variable for the log filter goes before the
    verbosity, unless it is not understood; the journal then says so. -/
def journal (o : Options) (logLevel : Option String) (pid : Nat) : Journal :=
  let byVerbosity : Journal := ⟨Filter.ofRank o.levelRank, []⟩
  let opened : Journal := match logLevel with
    | none => byVerbosity
    | some text =>
      match Filter.ofText text with
      | .ok filter => ⟨filter, []⟩
      | .error e => byVerbosity.note (.filterIgnored o.levelName text e.message)
  opened.note (.started pid o.mode)

end Options

/-- The name of the unit that a command is. -/
def commandUnit : String := "<string>"

/-- How a program ends. -/
structure Ending where
  exitCode : Nat
  /-- What is said last on the error output, if anything. -/
  complaint : Option String
deriving DecidableEq, Inhabited

namespace Ending

/-- All went well. -/
def success : Ending := ⟨0, none⟩

/-- An error of the language. -/
def ofDiagnostic (d : Diagnostic) : Ending := ⟨1, some d.text⟩

/-- Something else that goes wrong. -/
def ofMessage (message : String) : Ending := ⟨2, some message⟩

end Ending

namespace Session

/-- Runs one source unit for its effects. -/
def perform (s : Session) (unit source : String) (fuel : Nat) : Option (Ending × Session) :=
  match s.run unit source fuel with
  | none => none
  | some (.ok _, s') => some (Ending.success, s')
  | some (.error d, s') => some (Ending.ofDiagnostic d, s')

/-- Runs the bytes of a script. -/
def performScript (s : Session) (path : String) (bytes : List UInt8) (fuel : Nat) :
    Option (Ending × Session) :=
  match Text.decode? bytes with
  | none => some (Ending.ofMessage ShellFailure.notText.message, s)
  | some source => s.perform path source fuel

/-- Runs the shell on an input. Gives what it wrote to the error output, too. -/
def performShell (s : Session) (input : List UInt8) (fuel : Nat) :
    Option (Ending × ByteArray × Session) :=
  match (Shell.new s).run Sink.unbounded input fuel with
  | none => none
  | some (sh, errors, none) => some (Ending.success, errors.bytes, sh.session)
  | some (sh, errors, some failure) =>
    some (Ending.ofMessage failure.message, errors.bytes, sh.session)

end Session

/-- What the program finds when it is called. -/
structure Surroundings where
  folder : Folder
  input : List UInt8
  /-- The variable for the log filter. -/
  logLevel : Option String
  pid : Nat
  /-- The time that log lines show. -/
  time : String
deriving Inhabited

/-- What the program leaves behind. -/
structure Result where
  exitCode : Nat
  out : ByteArray
  err : ByteArray
  folder : Folder
deriving Inhabited

namespace Surroundings

/-- The log as text, one line for each event. -/
def logText (time : String) (events : List Event) : List UInt8 :=
  (String.join (events.map fun e => e.line time ++ "\n")).toUTF8.toList

/-- The files that there are when the program is called. -/
def disk (s : Surroundings) : Disk := ⟨s.folder, Folder.system s.input⟩

/-- The files once the events are in the log, if there is a log file. -/
def logged (s : Surroundings) (disk : Disk) (log : Option Spot) (events : List Event) : Disk :=
  match log with
  | none => disk
  | some spot => disk.append spot (logText s.time events)

/-- Runs what the options ask for in a session that has begun. The script is read from the given
    files. -/
def runMode (s : Surroundings) (o : Options) (disk : Disk) (session : Session) (fuel : Nat) :
    Option (Ending × ByteArray × Session) :=
  match o.script, o.command with
  | some path, _ =>
    match disk.read path with
    | .error e => some (Ending.ofMessage e.message, ByteArray.empty, session)
    | .ok bytes =>
      (session.performScript path bytes fuel).map fun r => (r.1, ByteArray.empty, r.2)
  | none, some source =>
    (session.perform commandUnit source fuel).map fun r => (r.1, ByteArray.empty, r.2)
  | none, none => session.performShell s.input fuel

/-- Ends the program: the complaint goes to the error output, behind what is there. -/
def close (ending : Ending) (out err : ByteArray) (folder : Folder) : Result :=
  match ending.complaint with
  | none => ⟨ending.exitCode, out, err, folder⟩
  | some text => ⟨ending.exitCode, out, err ++ (text ++ "\n").toUTF8, folder⟩

/-- Runs the program with options that were understood. -/
def run (s : Surroundings) (o : Options) (fuel : Nat) : Option Result :=
  let opened : Except FileError (Disk × Option Spot) := match o.log with
    | none => .ok (s.disk, none)
    | some path => (s.disk.openForAppending path).map fun r => (r.1, some r.2)
  match opened with
  | .error e =>
    some (close (Ending.ofMessage ("Could not open log file: " ++ e.message))
      ByteArray.empty ByteArray.empty s.folder)
  | .ok (disk, log) =>
    let journal := o.journal s.logLevel s.pid
    let begun := s.logged disk log journal.toList
    let session := Session.new o.limits Sink.unbounded ⟨journal.filter, []⟩
    match s.runMode o begun session fuel with
    | none => none
    | some (ending, err, session') =>
      let ended := s.logged begun log session'.machine.journal.toList
      some (close ending session'.machine.sink.bytes err ended.folder)

/-- Calls the program. -/
def call (s : Surroundings) (args : List String) (fuel : Nat) : Except Refusal (Option Result) :=
  (Options.parse args).map fun o => s.run o fuel

end Surroundings

end Lexiscope
