/-
  Lexiscope.Journal.Event

  What the program writes to its log. An event has a level, the part of the
  program it comes from, a message, and named fields; a line of the log shows
  them in this order behind the time.
-/
import Lexiscope.Text.Escape

namespace Lexiscope

/-- How much an event matters. -/
inductive Level where
  | error | warn | info | debug | trace
deriving DecidableEq, Inhabited

namespace Level

/-- Levels as numbers: the less an event matters, the larger. -/
def rank : Level → Nat
  | error => 1
  | warn => 2
  | info => 3
  | debug => 4
  | trace => 5

/-- The level as log lines show it, filled up on the left to five characters. -/
def label : Level → String
  | error => "ERROR"
  | warn => " WARN"
  | info => " INFO"
  | debug => "DEBUG"
  | trace => "TRACE"

end Level

/-- How the program was asked to run. -/
inductive RunMode where
  | script | command | shell
deriving DecidableEq, Inhabited

/-- The mode as log lines show it. -/
def RunMode.name : RunMode → String
  | script => "script"
  | command => "command"
  | shell => "shell"

/-- The version of the program. -/
def version : String := "0.1.0"

/-- Things that the log can tell. -/
inductive Event where
  /-- The log filter asked for was not understood, and the one for `level` is used. -/
  | filterIgnored (level directive reason : String)
  | started (pid : Nat) (mode : RunMode)
  | running (unit : String) (length : Nat)
  | scanned (count : Nat)
  | parsed (count : Nat)
  | calling (function : String) (depth : Nat)
  | evaluated (result : String)
  | shellStarted
  | lineFailed (line : Nat)
  | shellEnded (lines : Nat)
deriving DecidableEq, Inhabited

namespace Event

/-- How much the event matters. -/
def level : Event → Level
  | filterIgnored .. => .warn
  | started .. | shellStarted | shellEnded _ => .info
  | running .. | scanned _ | parsed _ | evaluated _ | lineFailed _ => .debug
  | calling .. => .trace

/-- The part of the program that the event comes from. -/
def target : Event → String
  | filterIgnored .. | started .. => "langxa"
  | running .. => "langxa::interpreter::runner"
  | scanned _ => "langxa::interpreter::lexer"
  | parsed _ => "langxa::interpreter::parser"
  | calling .. | evaluated _ => "langxa::interpreter::evaluator"
  | shellStarted | lineFailed _ | shellEnded _ => "langxa::repl"

/-- The event in words. -/
def message : Event → String
  | filterIgnored level _ _ => "Ignoring invalid LANGXA_LOG_LEVEL, using -v level '" ++ level ++ "'"
  | started .. => "Starting langxa interpreter"
  | running .. => "running source unit"
  | scanned _ => "scanned tokens"
  | parsed _ => "parsed top-level statements"
  | calling .. => "calling function"
  | evaluated _ => "evaluated program"
  | shellStarted => "Starting interactive session"
  | lineFailed _ => "line failed"
  | shellEnded _ => "Interactive session ended"

/-- The named fields of the event, as they are written. -/
def fields : Event → List (String × String)
  | filterIgnored _ directive reason => [("directive", directive), ("error", reason)]
  | started pid mode =>
    [("version", Text.field version), ("pid", toString pid), ("mode", Text.field mode.name)]
  | running unit length => [("unit", Text.field unit), ("length", toString length)]
  | scanned count => [("count", toString count)]
  | parsed count => [("count", toString count)]
  | calling function depth => [("function", Text.field function), ("depth", toString depth)]
  | evaluated result => [("result", result)]
  | shellStarted => []
  | lineFailed line => [("line", toString line)]
  | shellEnded lines => [("lines", toString lines)]

/-- Does the event have a field of this name? The message is one. -/
def hasField (e : Event) (name : String) : Bool :=
  name == "message" || e.fields.any fun f => f.1 == name

/-- The line of the log for an event at the given time. -/
def line (time : String) (e : Event) : String :=
  time ++ " " ++ e.level.label ++ " " ++ e.target ++ ": " ++ e.message
    ++ String.join (e.fields.map fun f => " " ++ f.1 ++ "=" ++ f.2)

end Event

end Lexiscope
