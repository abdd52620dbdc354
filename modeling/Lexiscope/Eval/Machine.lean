/-
  Lexiscope.Eval.Machine

  The state that a running program works on, and steps that use it. A step ends
  with a value or with an error, and leaves a changed state in both cases; or it
  runs out of the fuel it was given, and then there is nothing to tell.
-/
import Lexiscope.Eval.Fault
import Lexiscope.Journal.Filter
import Lexiscope.Scope
import Lexiscope.Sink

namespace Lexiscope

/-- Everything that a program can change. -/
structure Machine where
  store : Store
  sink : Sink
  /-- How many function calls have begun and not ended. -/
  activeCalls : Nat
  journal : Journal
deriving Inhabited

namespace Machine

/-- Enters an event in the journal. -/
def note (m : Machine) (e : Event) : Machine := { m with journal := m.journal.note e }

end Machine

/-- A step of a running program. The steps below take the state apart before they change a part of
    it, so that nothing else holds that part and it is changed in place. -/
def EvalM (α : Type) : Type := Machine → Option (Except RuntimeError α × Machine)

namespace EvalM

@[inline] protected def pure {α : Type} (a : α) : EvalM α := fun m => some (.ok a, m)

@[inline] protected def bind {α β : Type} (x : EvalM α) (f : α → EvalM β) : EvalM β :=
  fun m =>
    match x m with
    | none => none
    | some (.error e, m') => some (.error e, m')
    | some (.ok a, m') => f a m'

instance : Monad EvalM where
  pure := EvalM.pure
  bind := EvalM.bind

/-- The fuel is used up. -/
@[inline] def outOfFuel {α : Type} : EvalM α := fun _ => none

/-- Ends with a fault at a token. -/
@[inline] def fail {α : Type} (t : Token) (f : Fault) : EvalM α := fun m => some (.error ⟨t, f⟩, m)

/-- Ends with a result that needs no state. -/
@[inline] def ofExcept {α : Type} (r : Except RuntimeError α) : EvalM α := fun m => some (r, m)

/-- Reads the state. -/
@[inline] def gets {α : Type} (f : Machine → α) : EvalM α := fun m => some (.ok (f m), m)

/-- Changes the state. -/
@[inline] def modify (f : Machine → Machine) : EvalM Unit := fun m => some (.ok (), f m)

/-- Makes a scope inside another one. -/
@[inline] def newChild (e : ScopeId) : EvalM ScopeId := fun ⟨store, sink, calls, journal⟩ =>
  match store.child e with
  | (store', s) => some (.ok s, ⟨store', sink, calls, journal⟩)

/-- Binds a name in a scope. -/
@[inline] def define (e : ScopeId) (name : String) (v : Value) : EvalM Unit :=
  fun ⟨store, sink, calls, journal⟩ => some (.ok (), ⟨store.define e name v, sink, calls, journal⟩)

/-- Looks up the name that a token stands for. -/
@[inline] def lookup (e : ScopeId) (name : Token) : EvalM Value := fun m =>
  match m.store.get? e name.lexeme with
  | some v => some (.ok v, m)
  | none => some (.error ⟨name, .undefined name.lexeme⟩, m)

/-- Gives a new value to the name that a token stands for. -/
@[inline] def assign (e : ScopeId) (name : Token) (v : Value) : EvalM Unit :=
  fun ⟨store, sink, calls, journal⟩ =>
    match store.nearest? e name.lexeme with
    | some s => some (.ok (), ⟨store.define s name.lexeme v, sink, calls, journal⟩)
    | none => some (.error ⟨name, .unassignable name.lexeme⟩, ⟨store, sink, calls, journal⟩)

/-- Writes a text to the sink. A write that fails is a fault at the token. -/
@[inline] def write (t : Token) (text : String) : EvalM Unit :=
  fun ⟨store, sink, calls, journal⟩ =>
    match sink.write text with
    | (sink', true) => some (.ok (), ⟨store, sink', calls, journal⟩)
    | (sink', false) =>
      some (.error ⟨t, .outputFailed Sink.fullMessage⟩, ⟨store, sink', calls, journal⟩)

/-- Runs a step as the body of a function call. The call ends with the step, also by an error. -/
@[inline] def inCall {α : Type} (x : EvalM α) : EvalM α := fun m =>
  match x { m with activeCalls := m.activeCalls + 1 } with
  | none => none
  | some (r, m') => some (r, { m' with activeCalls := m'.activeCalls - 1 })

end EvalM

end Lexiscope
