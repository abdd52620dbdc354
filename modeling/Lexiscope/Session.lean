/-
  Lexiscope.Session

  A session runs source units one after the other in the same scopes, so what
  one unit binds the next can use, also after an error. Every unit that is
  loaded gets labels of its own for its function definitions.
-/
import Lexiscope.Diagnostic
import Lexiscope.Eval.Run

namespace Lexiscope

/-- How deep things may nest, in the text and in calls. -/
structure Limits where
  nesting : Nat
  calls : Nat
deriving DecidableEq, Inhabited

/-- The limits that hold unless someone asks for others. -/
def Limits.default : Limits := ⟨defaultMaxNesting, 1000⟩

/-- The state between two source units. -/
structure Session where
  machine : Machine
  limits : Limits
  /-- The first label that no definition has. -/
  nextLabel : Nat
deriving Inhabited

namespace Session

/-- The scope in which the units of a session run. -/
def globals : ScopeId := 0

/-- A new session, in which nothing but the builtin functions is bound. -/
def new (limits : Limits) (sink : Sink) (journal : Journal) : Session :=
  ⟨⟨Store.empty.newGlobal.1, sink, 0, journal⟩, limits, 1⟩

/-- Enters an event in the journal. -/
def note (s : Session) (e : Event) : Session := { s with machine := s.machine.note e }

/-- Reads a source text as a program with labels of its own. -/
def load (s : Session) (source : String) : Except Error Program × Session :=
  match Token.tokenize source with
  | .error e => (.error (.lex e), s)
  | .ok tokens =>
    let s := s.note (.scanned tokens.length)
    match Program.parse tokens s.limits.nesting with
    | .error e => (.error (.parse e), s)
    | .ok program =>
      let s := s.note (.parsed program.statements.length)
      let (labelled, free) := program.relabel s.nextLabel
      (.ok labelled, { s with nextLabel := free })

/-- Does a step on the state of the session. -/
def step {α : Type} (s : Session) (x : EvalM α) : Option (Except RuntimeError α × Session) :=
  match x s.machine with
  | none => none
  | some (r, m) => some (r, { s with machine := m })

/-- Runs a loaded program in a scope. -/
def exec (s : Session) (program : Program) (scope : ScopeId) (fuel : Nat) :
    Option (Except RuntimeError Value × Session) :=
  s.step (program.run s.limits.calls fuel scope)

/-- The value of an expression in a scope. -/
def evalExpr (s : Session) (e : Expr) (scope : ScopeId) (fuel : Nat) :
    Option (Except RuntimeError Value × Session) :=
  s.step (eval s.limits.calls fuel e scope)

/-- Reads a source text and runs it in a scope. -/
def runIn (s : Session) (source : String) (scope : ScopeId) (fuel : Nat) :
    Option (Except Error Value × Session) :=
  match s.load source with
  | (.error e, s') => some (.error e, s')
  | (.ok program, s') =>
    match s'.exec program scope fuel with
    | none => none
    | some (.error e, s'') => some (.error (.runtime e), s'')
    | some (.ok v, s'') => some (.ok v, s'')

/-- Runs a source unit in the global scope of the session. -/
def run (s : Session) (unit source : String) (fuel : Nat) :
    Option (Except Diagnostic Value × Session) :=
  match (s.note (.running unit source.utf8ByteSize)).runIn source globals fuel with
  | none => none
  | some (.error e, s') => some (.error ⟨unit, e⟩, s')
  | some (.ok v, s') => some (.ok v, s')

/-- Takes out what has been written to the sink and entered in the journal since the last time. -/
def drain (s : Session) : Session × ByteArray × List Event :=
  let m := s.machine
  let emptied : Machine :=
    { m with sink := { m.sink with bytes := ByteArray.empty },
             journal := { m.journal with entries := [] } }
  ({ s with machine := emptied }, m.sink.bytes, m.journal.toList)

end Session

end Lexiscope
