/-
  Lexiscope.Proofs.Session.Recovery

  A request that fails does not spoil a session.

  A session can be asked to run a source unit, to run a program in some scope, or
  for the value of an expression in some scope. Each of these may fail in the middle
  of any number of calls, and an expression does not set the count of active calls
  back before it starts. It does not have to: no request leaves a call active. So a
  session differs from a new one in its scopes, its output and its labels only, and
  answers every request as a new session with these would. A source unit that cannot
  be read does not even change its scopes or its output.
-/
import Lexiscope.Proofs.Eval.Effects
import Lexiscope.Proofs.Eval.Names
import Lexiscope.Proofs.Lockstep.Session

namespace Lexiscope

-- ============================================================================
-- How a source unit ends
-- ============================================================================

namespace Session

/-- The session with another journal. -/
def withJournal (s : Session) (journal : Journal) : Session :=
  { s with machine := { s.machine with journal := journal } }

/-- A step on the state of a session changes nothing else of it. -/
theorem step_eq_some {α : Type} {s s' : Session} {x : EvalM α} {r : Except RuntimeError α}
    (h : s.step x = some (r, s')) :
    ∃ m, x s.machine = some (r, m) ∧ s' = { s with machine := m } := by
  unfold step at h
  split at h
  · cases h
  · next r₁ m hrun =>
    cases h
    exact ⟨m, hrun, rfl⟩

/-- A source unit fails before it is run, and then only the journal tells, or it is run as the
    program that it reads as. -/
theorem run_cases {s s' : Session} {unit source : String} {fuel : Nat}
    {r : Except Diagnostic Value} (h : s.run unit source fuel = some (r, s')) :
    (∃ e journal, Token.tokenize source = .error e ∧ r = .error ⟨unit, .lex e⟩ ∧
      s' = s.withJournal journal) ∨
    (∃ ts e journal, Token.tokenize source = .ok ts ∧
      Program.parse ts s.limits.nesting = .error e ∧ r = .error ⟨unit, .parse e⟩ ∧
      s' = s.withJournal journal) ∨
    ∃ p journal r', ReadsAs s.limits source p ∧
      (Lockstep.loaded s p journal).exec (p.relabel s.nextLabel).1 globals fuel = some (r', s') ∧
      r = Lockstep.reported unit r' := by
  cases htokens : Token.tokenize source with
  | error e =>
    rw [run, runIn, load, htokens] at h
    cases h
    exact .inl ⟨e, _, rfl, rfl, rfl⟩
  | ok ts =>
    cases hparse : Program.parse ts s.limits.nesting with
    | error e =>
      rw [run, runIn, load, htokens] at h
      dsimp only at h
      rw [show Program.parse ts ((s.note (.running unit source.utf8ByteSize)).note
        (.scanned ts.length)).limits.nesting = .error e from hparse] at h
      cases h
      exact .inr (.inl ⟨ts, e, _, rfl, hparse, rfl, rfl⟩)
    | ok p =>
      have hread : ReadsAs s.limits source p := ⟨ts, htokens, hparse⟩
      obtain ⟨journal, hrun⟩ := Lockstep.run_of_readsAs hread unit
      rw [hrun, Option.map_eq_some_iff] at h
      obtain ⟨⟨r', s₁⟩, hexec, hanswer⟩ := h
      cases hanswer
      exact .inr (.inr ⟨p, journal, r', hread, hexec, rfl⟩)

/-- A source unit that cannot be read leaves scopes and output as they were. -/
theorem run_unread {s s' : Session} {unit source : String} {fuel : Nat} {d : Diagnostic}
    (h : s.run unit source fuel = some (.error d, s')) (hstage : d.error.stage ≠ .runtime) :
    s'.machine.store = s.machine.store ∧ s'.machine.sink = s.machine.sink := by
  rcases run_cases h with ⟨e, journal, -, -, rfl⟩ | ⟨ts, e, journal, -, -, -, rfl⟩ |
    ⟨p, journal, r', -, -, hreported⟩
  · exact ⟨rfl, rfl⟩
  · exact ⟨rfl, rfl⟩
  · cases r' with
    | ok v => cases hreported
    | error e =>
      cases hreported
      exact absurd rfl hstage

-- ============================================================================
-- Requests
-- ============================================================================

/-- What a session can be asked to do. -/
inductive Request where
  /-- To run a source unit in the global scope. -/
  | run (unit source : String)
  /-- To run a program in a scope. -/
  | evaluate (p : Program) (scope : ScopeId)
  /-- To find the value of an expression in a scope. -/
  | evaluateExpr (e : Expr) (scope : ScopeId)

/-- Why a request failed. Only a source unit has a name to be reported with. -/
inductive Failure where
  | diagnosed (d : Diagnostic)
  | raised (e : RuntimeError)

/-- Does what the session is asked to do. -/
def serve (s : Session) (request : Request) (fuel : Nat) :
    Option (Except Failure Value × Session) :=
  match request with
  | .run unit source =>
    (s.run unit source fuel).map fun answer => (answer.1.mapError .diagnosed, answer.2)
  | .evaluate p scope =>
    (s.exec p scope fuel).map fun answer => (answer.1.mapError .raised, answer.2)
  | .evaluateExpr e scope =>
    (s.evalExpr e scope fuel).map fun answer => (answer.1.mapError .raised, answer.2)

/-- Sessions with the given limits that have served any number of requests, whether these failed or
    not. In between, whoever uses the session may have made and changed scopes, have taken out the
    output or put in another sink, and have read programs. -/
inductive Served (limits : Limits) : Session → Prop where
  | new (sink : Sink) (journal : Journal) : Served limits (.new limits sink journal)
  | serve {s s' : Session} {request : Request} {fuel : Nat} {r : Except Failure Value}
      (h : Served limits s) (hserve : s.serve request fuel = some (r, s')) : Served limits s'
  | adjust {s : Session} (h : Served limits s) (store : Store) (sink : Sink) (journal : Journal)
      (nextLabel : Nat) :
      Served limits ⟨⟨store, sink, s.machine.activeCalls, journal⟩, s.limits, nextLabel⟩

/-- A new session that is given scopes with their labels. -/
def newOn (limits : Limits) (store : Store) (nextLabel : Nat) (sink : Sink) (journal : Journal) :
    Session :=
  let s := new limits sink journal
  { s with machine := { s.machine with store := store }, nextLabel := nextLabel }

-- ============================================================================
-- No request leaves a call active
-- ============================================================================

/-- No call is active, and the limits are these. -/
structure Idle (limits : Limits) (s : Session) : Prop where
  calls : s.machine.activeCalls = 0
  limits : s.limits = limits

variable {limits : Limits} {s s' : Session}

theorem Idle.step {α : Type} {x : EvalM α} {r : Except RuntimeError α} (h : Idle limits s)
    (hx : ∀ ⦃r m'⦄, x s.machine = some (r, m') → m'.activeCalls = 0)
    (hstep : s.step x = some (r, s')) : Idle limits s' := by
  obtain ⟨m, hrun, rfl⟩ := step_eq_some hstep
  exact ⟨hx hrun, h.limits⟩

theorem Idle.exec {p : Program} {scope : ScopeId} {fuel : Nat} {r : Except RuntimeError Value}
    (h : Idle limits s) (hexec : s.exec p scope fuel = some (r, s')) : Idle limits s' :=
  h.step (fun _ _ hrun => Program.run_activeCalls hrun) hexec

theorem Idle.evalExpr {e : Expr} {scope : ScopeId} {fuel : Nat} {r : Except RuntimeError Value}
    (h : Idle limits s) (heval : s.evalExpr e scope fuel = some (r, s')) : Idle limits s' :=
  h.step (fun _ _ hrun => (eval_sameCalls hrun).trans h.calls) heval

theorem Idle.run {unit source : String} {fuel : Nat} {r : Except Diagnostic Value}
    (h : Idle limits s) (hrun : s.run unit source fuel = some (r, s')) : Idle limits s' := by
  rcases run_cases hrun with ⟨e, journal, -, -, rfl⟩ | ⟨ts, e, journal, -, -, -, rfl⟩ |
    ⟨p, journal, r', -, hexec, -⟩
  · exact ⟨h.calls, h.limits⟩
  · exact ⟨h.calls, h.limits⟩
  · have hloaded : Idle limits (Lockstep.loaded s p journal) := ⟨h.calls, h.limits⟩
    exact hloaded.exec hexec

theorem Idle.serve {request : Request} {fuel : Nat} {r : Except Failure Value}
    (h : Idle limits s) (hserve : s.serve request fuel = some (r, s')) : Idle limits s' := by
  cases request with
  | run unit source =>
    obtain ⟨⟨r₁, s₁⟩, hrun, hanswer⟩ := Option.map_eq_some_iff.mp hserve
    cases hanswer
    exact h.run hrun
  | evaluate p scope =>
    obtain ⟨⟨r₁, s₁⟩, hexec, hanswer⟩ := Option.map_eq_some_iff.mp hserve
    cases hanswer
    exact h.exec hexec
  | evaluateExpr e scope =>
    obtain ⟨⟨r₁, s₁⟩, heval, hanswer⟩ := Option.map_eq_some_iff.mp hserve
    cases hanswer
    exact h.evalExpr heval

theorem Served.idle (h : Served limits s) : Idle limits s := by
  induction h with
  | new sink journal => exact ⟨rfl, rfl⟩
  | serve _ hserve ih => exact ih.serve hserve
  | adjust _ store sink journal nextLabel ih => exact ⟨ih.calls, ih.limits⟩

/-- A session without active calls is a new one that was given its scopes. -/
theorem Idle.eq_newOn (h : Idle limits s) :
    s = newOn limits s.machine.store s.nextLabel s.machine.sink s.machine.journal := by
  obtain ⟨⟨store, sink, calls, journal⟩, limits', nextLabel⟩ := s
  obtain rfl : calls = 0 := h.calls
  obtain rfl : limits' = limits := h.limits
  rfl

-- ============================================================================
-- Failures do no harm
-- ============================================================================

/-- However its requests ended, a session has no active call. It answers every request as a new
    session with its scopes and its sink does, and is left with the same scopes and the same output.
    If a source unit cannot be read, scopes and output stay exactly as they were. -/
theorem served_as_new (h : Served limits s) :
    s.machine.activeCalls = 0 ∧
    (∀ request fuel, s.serve request fuel
      = (newOn limits s.machine.store s.nextLabel s.machine.sink s.machine.journal).serve request
        fuel) ∧
    ∀ unit source fuel d s', s.run unit source fuel = some (.error d, s') →
      d.error.stage ≠ .runtime →
      s'.machine.store = s.machine.store ∧ s'.machine.sink = s.machine.sink := by
  refine ⟨h.idle.calls, fun request fuel => ?_, fun _ _ _ _ _ hrun hstage => run_unread hrun hstage⟩
  rw [← h.idle.eq_newOn]

section Witness

/-- `f(nil)` -/
def callingF : Expr := .call (.identifier (looseName "f")) (looseName "(") [.nil]

/-- The kind of error for which a request was given up while it ran. -/
def raisedKind? : Except Failure Value → Option RuntimeKind
  | .error (.raised e) => some e.kind
  | _ => none

/-- The stage at which a source unit failed. -/
def failedStage? : Except Diagnostic Value → Option Stage
  | .error d => some d.error.stage
  | .ok _ => none

/-- An expression overflows three calls deep, and afterwards no call is active. Then a source unit
    cannot be read, and nothing is changed. -/
theorem served_as_new_overflow :
    ∃ s r s' d s'', Served ⟨20, 3⟩ s ∧ s.serve (.evaluateExpr callingF globals) 40 = some (r, s') ∧
      raisedKind? r = some .stackOverflow ∧ s'.machine.activeCalls = 0 ∧
      s'.run "unit" "let" 40 = some (.error d, s'') ∧ d.error.stage = .parse ∧
      s''.machine.store = s'.machine.store ∧ s''.machine.sink = s'.machine.sink := by
  have hruns : (((new ⟨20, 3⟩ .unbounded .silent).serve
      (.run "unit" "fn f(n) \x7b print(n); return f(n); \x7d") 40).bind fun defined =>
        (defined.2.serve (.evaluateExpr callingF globals) 40).bind fun called =>
          (called.2.run "unit" "let" 40).map fun unread =>
            (raisedKind? called.1, failedStage? unread.1))
        = some (some .stackOverflow, some .parse) := by
    decide +kernel
  obtain ⟨⟨r₀, s⟩, hdefined, hruns⟩ := Option.bind_eq_some_iff.mp hruns
  obtain ⟨⟨r, s'⟩, hcalled, hruns⟩ := Option.bind_eq_some_iff.mp hruns
  obtain ⟨⟨r', s''⟩, hunread, hends⟩ := Option.map_eq_some_iff.mp hruns
  obtain ⟨hkind, hstage⟩ := Prod.mk.inj hends
  cases r' with
  | ok v => cases hstage
  | error d =>
    have hstage : d.error.stage = .parse := Option.some.inj hstage
    have hserved : Served ⟨20, 3⟩ s := .serve (.new .unbounded .silent) hdefined
    obtain ⟨hcalls, -, hkept⟩ := served_as_new (.serve hserved hcalled)
    obtain ⟨hstore, hsink⟩ := hkept "unit" "let" 40 d s'' hunread (by rw [hstage]; decide)
    exact ⟨s, r, s', d, s'', hserved, hcalled, hkind, hcalls, hunread, hstage, hstore, hsink⟩

end Witness

end Session

end Lexiscope
