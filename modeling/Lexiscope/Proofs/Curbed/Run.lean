/-
  Lexiscope.Proofs.Curbed.Run

  A run under tight bounds goes the way of a free one, as far as it gets.

  Two runs of the same program differ in how many calls may be active at once, in
  the sinks that they write to and in the journals that they keep (`Curb`). They stay
  in pace: neither has ended, or both end with the same result, or the curbed one was
  stopped by its bounds (`Outcome`). Once it is stopped the free run goes on alone and
  can only add to its output, so what holds of the two sinks then must not be undone
  by more output. Both runs compute the same values, so it is enough that sequences
  and calls are in pace if their parts are (`RunsInPace.congruence`).
-/
import Lexiscope.Proofs.Eval.Effects

namespace Lexiscope

-- ============================================================================
-- Bounds
-- ============================================================================

theorem Journal.note_eq ⦃j j' : Journal⦄ (h : j = j') (e : Event) : j.note e = j'.note e :=
  congrArg (Journal.note · e) h

/-- Two sets of bounds for the same run, a tight one and a loose one, and what becomes of a run that
    the tight bounds stop. -/
structure Curb where
  /-- How many calls may be active at once in the curbed run. -/
  tight : Nat
  /-- How many calls may be active at once in the free run. -/
  loose : Nat
  /-- Which sinks belong together as long as both runs go on. -/
  Paired : Sink → Sink → Prop
  /-- Which journals belong together as long as both runs go on. -/
  Journals : Journal → Journal → Prop
  /-- What the curbed run can be stopped with. -/
  Stops : RuntimeError → Prop
  /-- Which sinks belong together once the curbed run was stopped. -/
  Left : Sink → Sink → Prop
  tight_le : tight ≤ loose
  /-- With fewer calls allowed, a call may be one too many for the curbed run alone. -/
  tooDeep : tight ≠ loose →
    (∀ t name, Stops ⟨t, .tooDeep tight name⟩) ∧ ∀ ⦃s s'⦄, Paired s s' → Left s s'
  /-- Both sinks take a text or both refuse it, or it is too much for the sink of the curbed run. -/
  write : ∀ ⦃s s'⦄, Paired s s' → ∀ text,
    ((s.write text).2 = (s'.write text).2 ∧ Paired (s.write text).1 (s'.write text).1) ∨
    ((s.write text).2 = false ∧ (∀ t, Stops ⟨t, .outputFailed Sink.fullMessage⟩) ∧
      Left (s.write text).1 (s'.write text).1)
  note : ∀ ⦃j j'⦄, Journals j j' → ∀ e, Journals (j.note e) (j'.note e)
  /-- What is left when the curbed run was stopped stays so while the free run writes more. -/
  later : ∀ ⦃s s' s''⦄, Left s s' → s'.GrowsTo s'' → Left s s''

namespace Curb

/-- Machines that differ in their sinks and journals only, and these belong together. -/
structure Machines (c : Curb) (m m' : Machine) : Prop where
  store : m.store = m'.store
  sink : c.Paired m.sink m'.sink
  calls : m.activeCalls = m'.activeCalls
  journal : c.Journals m.journal m'.journal

/-- Neither run has ended, or both have with the same result, or the curbed run was stopped. -/
inductive Outcome (c : Curb) {α : Type} : Option (Except RuntimeError α × Machine) →
    Option (Except RuntimeError α × Machine) → Prop where
  | unended : Outcome c none none
  | together {m m' : Machine} (r : Except RuntimeError α) (h : c.Machines m m') :
      Outcome c (some (r, m)) (some (r, m'))
  | stopped {e : RuntimeError} {m : Machine} {y : Option (Except RuntimeError α × Machine)}
      (he : c.Stops e) (hleft : ∀ r m', y = some (r, m') → c.Left m.sink m'.sink) :
      Outcome c (some (.error e, m)) y

/-- The step only adds to the output. -/
def Adds {α : Type} (y : EvalM α) : Prop := y.Meets (.ofChange Machine.allows_growsTo) fun _ => True

theorem Adds.growsTo {α : Type} {y : EvalM α} (h : Adds y) {m m' : Machine}
    {r : Except RuntimeError α} (hy : y m = some (r, m')) : m.sink.GrowsTo m'.sink :=
  (h (.all m.store) hy).1

/-- The first step goes the way of the second, as far as it gets; the second only adds to its
    output. -/
structure InPace (c : Curb) {α : Type} (x y : EvalM α) : Prop where
  outcome : ∀ ⦃m m'⦄, c.Machines m m' → c.Outcome (x m) (y m')
  grows : Adds y

variable {c : Curb} {α β : Type}

-- ============================================================================
-- Sequences of steps
-- ============================================================================

namespace InPace

theorem outOfFuel : c.InPace (EvalM.outOfFuel : EvalM α) EvalM.outOfFuel where
  outcome _ _ _ := .unended
  grows := .outOfFuel

protected theorem pure (a : α) : c.InPace (pure a) (pure a) where
  outcome _ _ hm := .together (.ok a) hm
  grows := .pure trivial

theorem fail (t : Token) (f : Fault) : c.InPace (EvalM.fail t f : EvalM α) (EvalM.fail t f) where
  outcome _ _ hm := .together (.error ⟨t, f⟩) hm
  grows := .fail trivial

theorem ofExcept (r : Except RuntimeError α) :
    c.InPace (EvalM.ofExcept r) (EvalM.ofExcept r) where
  outcome _ _ hm := .together r hm
  grows := by
    refine .ofExcept ?_
    cases r with
    | ok a => trivial
    | error e => trivial

protected theorem bind {x y : EvalM α} {f g : α → EvalM β} (hxy : c.InPace x y)
    (hfg : ∀ a, c.InPace (f a) (g a)) : c.InPace (x >>= f) (y >>= g) where
  outcome m m' hm := by
    show c.Outcome (EvalM.bind x f m) (EvalM.bind y g m')
    have hfirst := hxy.outcome hm
    unfold EvalM.bind
    generalize x m = p, y m' = q at hfirst ⊢
    cases hfirst with
    | unended => exact .unended
    | together r h =>
      cases r with
      | error e => exact .together (.error e) h
      | ok a => exact (hfg a).outcome h
    | stopped he hleft =>
      -- The free run goes on alone, from wherever its first part has led.
      refine .stopped he fun r m₂ hy => ?_
      split at hy
      · cases hy
      · next e m₁ =>
        cases hy
        exact hleft _ _ rfl
      · next a m₁ => exact c.later (hleft _ _ rfl) ((hfg a).grows.growsTo hy)
  grows := .bind hxy.grows fun a _ => (hfg a).grows

theorem ite {p : Prop} [Decidable p] {x y x' y' : EvalM α} (hyes : c.InPace x x')
    (hno : c.InPace y y') : c.InPace (if p then x else y) (if p then x' else y') := by
  split
  · exact hyes
  · exact hno

theorem inCall {x y : EvalM α} (hxy : c.InPace x y) :
    c.InPace (EvalM.inCall x) (EvalM.inCall y) where
  outcome m m' hm := by
    have hcalls : m.activeCalls + 1 = m'.activeCalls + 1 := congrArg (· + 1) hm.calls
    have hbody := @hxy.outcome { m with activeCalls := m.activeCalls + 1 }
      { m' with activeCalls := m'.activeCalls + 1 } ⟨hm.store, hm.sink, hcalls, hm.journal⟩
    unfold EvalM.inCall
    generalize x _ = p, y _ = q at hbody ⊢
    cases hbody with
    | unended => exact .unended
    | together r h => exact .together r ⟨h.store, h.sink, congrArg (· - 1) h.calls, h.journal⟩
    | stopped he hleft =>
      refine .stopped he fun r m₂ hy => ?_
      split at hy
      · cases hy
      · next r₁ m₁ =>
        cases hy
        exact hleft r m₁ rfl
  grows := .inCall hxy.grows

-- ============================================================================
-- Steps on the machine
-- ============================================================================

theorem activeCalls :
    c.InPace (EvalM.gets Machine.activeCalls) (EvalM.gets Machine.activeCalls) where
  outcome m m' hm := by
    show c.Outcome (some (.ok m.activeCalls, m)) (some (.ok m'.activeCalls, m'))
    rw [hm.calls]
    exact .together _ hm
  grows := .gets _

theorem note (e : Event) :
    c.InPace (EvalM.modify fun m => m.note e) (EvalM.modify fun m => m.note e) where
  outcome _ _ hm :=
    .together (.ok ()) ⟨hm.store, hm.sink, hm.calls, c.note hm.journal e⟩
  grows := .note e

theorem resetCalls : c.InPace (EvalM.modify fun m => { m with activeCalls := 0 })
    (EvalM.modify fun m => { m with activeCalls := 0 }) where
  outcome _ _ hm := .together (.ok ()) ⟨hm.store, hm.sink, rfl, hm.journal⟩
  grows := by
    rintro m r m' hm ⟨⟩
    exact ⟨.refl m.sink, hm, trivial⟩

theorem newChild (e : ScopeId) : c.InPace (EvalM.newChild e) (EvalM.newChild e) where
  outcome m m' hm := by
    show c.Outcome (some (.ok (m.store.child e).2, _)) (some (.ok (m'.store.child e).2, _))
    rw [hm.store]
    exact .together _ ⟨rfl, hm.sink, hm.calls, hm.journal⟩
  grows := .newChild e

theorem define (e : ScopeId) (x : String) (v : Value) :
    c.InPace (EvalM.define e x v) (EvalM.define e x v) where
  outcome _ _ hm :=
    .together (.ok ()) ⟨congrArg (Store.define · e x v) hm.store, hm.sink, hm.calls, hm.journal⟩
  grows := .define (.all v) e x

theorem lookup (e : ScopeId) (name : Token) :
    c.InPace (EvalM.lookup e name) (EvalM.lookup e name) where
  outcome m m' hm := by
    unfold EvalM.lookup
    rw [hm.store]
    cases m'.store.get? e name.lexeme with
    | none => exact .together _ hm
    | some v => exact .together _ hm
  grows := (@EvalM.Meets.lookup _ name false trivial e).mono fun _ _ => trivial

theorem assign (e : ScopeId) (name : Token) (v : Value) :
    c.InPace (EvalM.assign e name v) (EvalM.assign e name v) where
  outcome m m' hm := by
    unfold EvalM.assign
    dsimp only
    rw [hm.store]
    cases m'.store.nearest? e name.lexeme with
    | none => exact .together _ ⟨rfl, hm.sink, hm.calls, hm.journal⟩
    | some s => exact .together _ ⟨rfl, hm.sink, hm.calls, hm.journal⟩
  grows := @EvalM.Meets.assign _ name false trivial v (.all v) e

theorem write (t : Token) (text : String) : c.InPace (EvalM.write t text) (EvalM.write t text) where
  outcome m m' hm := by
    have hsinks := c.write hm.sink text
    unfold EvalM.write
    dsimp only
    generalize m.sink.write text = w, m'.sink.write text = w' at hsinks ⊢
    obtain ⟨sink, taken⟩ := w
    obtain ⟨sink', taken'⟩ := w'
    rcases hsinks with ⟨hsame, hpaired⟩ | ⟨hfull, hstops, hleft⟩
    · obtain rfl : taken = taken' := hsame
      cases taken with
      | true => exact .together _ ⟨hm.store, hpaired, hm.calls, hm.journal⟩
      | false => exact .together _ ⟨hm.store, hpaired, hm.calls, hm.journal⟩
    · obtain rfl : taken = false := hfull
      refine .stopped (hstops t) fun r m₂ hy => ?_
      cases taken' with
      | true =>
        cases hy
        exact hleft
      | false =>
        cases hy
        exact hleft
  grows := @EvalM.Meets.write _ t false trivial text

/-- Where the curbed run has too many calls already, it is stopped, or else the free run has as
    many. -/
theorem unlessTooDeep (depth : Nat) (t : Token) (name : String) {x y : EvalM α}
    (hxy : c.InPace x y) :
    c.InPace (if c.tight ≤ depth then EvalM.fail t (.tooDeep c.tight name) else x)
      (if c.loose ≤ depth then EvalM.fail t (.tooDeep c.loose name) else y) := by
  by_cases heq : c.tight = c.loose
  · rw [heq]
    exact .ite (.fail t _) hxy
  · have hgrows : Adds (if c.loose ≤ depth then EvalM.fail t (.tooDeep c.loose name) else y) :=
      .ite (fun _ => .fail trivial) fun _ => hxy.grows
    by_cases hdeep : c.tight ≤ depth
    · refine ⟨fun m m' hm => ?_, hgrows⟩
      obtain ⟨hstops, hleft⟩ := c.tooDeep heq
      rw [if_pos hdeep]
      exact .stopped (hstops t name) fun r m₂ hy => c.later (hleft hm.sink) (hgrows.growsTo hy)
    · have hloose : ¬ c.loose ≤ depth := by
        have hle := c.tight_le
        omega
      rw [if_neg hdeep, if_neg hloose]
      exact hxy

theorem bindParams (scope : ScopeId) (params : List Token) (args : List Value) :
    c.InPace (Lexiscope.bindParams scope params args) (Lexiscope.bindParams scope params args) := by
  induction params generalizing args with
  | nil => exact .pure ()
  | cons p params ih =>
    cases args with
    | nil => exact .pure ()
    | cons a args =>
      rw [Lexiscope.bindParams]
      exact .bind (.define scope p.lexeme a) fun _ => ih args

end InPace

-- ============================================================================
-- The evaluator
-- ============================================================================

/-- With this much fuel, every function of the evaluator goes the way of the free run under the
    tight bounds. -/
structure RunsInPace (c : Curb) (fuel : Nat) : Prop where
  eval : ∀ e scope, c.InPace (eval c.tight fuel e scope) (eval c.loose fuel e scope)
  evalAll : ∀ es scope, c.InPace (evalAll c.tight fuel es scope) (evalAll c.loose fuel es scope)
  call : ∀ f args paren,
    c.InPace (call c.tight fuel f args paren) (call c.loose fuel f args paren)
  exec : ∀ s scope, c.InPace (exec c.tight fuel s scope) (exec c.loose fuel s scope)
  execAll : ∀ ss last scope,
    c.InPace (execAll c.tight fuel ss last scope) (execAll c.loose fuel ss last scope)
  repeatWhile : ∀ condition body scope,
    c.InPace (repeatWhile c.tight fuel condition body scope)
      (repeatWhile c.loose fuel condition body scope)

namespace RunsInPace

/-- Steps that are in pace make up sequences and calls that are. -/
def congruence (c : Curb) : Congruence where
  limit := c.tight
  limit' := c.loose
  Steps := c.InPace
  outOfFuel := .outOfFuel
  pure := .pure
  fail := .fail
  ofExcept := .ofExcept
  bind := .bind
  inCall := .inCall
  activeCalls := .activeCalls
  note := .note
  newChild := .newChild
  define := .define
  lookup := .lookup
  assign := .assign
  write := .write
  tooDeep t name depth _ _ hxy := .unlessTooDeep depth t name hxy

/-- The evaluator goes the way of the free run under the tight bounds, whatever the fuel. -/
theorem all (c : Curb) (fuel : Nat) : c.RunsInPace fuel := by
  have hrespects := Congruence.respects_of_along ((congruence c).walk.along fuel)
  exact ⟨hrespects.eval, hrespects.evalAll, hrespects.call, hrespects.exec, hrespects.execAll,
    hrespects.repeatWhile⟩

end RunsInPace

-- ============================================================================
-- Programs and expressions
-- ============================================================================

theorem phrase_inPace (c : Curb) (phrase : Phrase) (fuel : Nat) (scope : ScopeId) :
    c.InPace (phrase.run c.tight fuel scope) (phrase.run c.loose fuel scope) := by
  cases phrase with
  | expression e => exact (RunsInPace.all c fuel).eval e scope
  | program p =>
    refine .bind .resetCalls fun _ => ?_
    refine .bind ((RunsInPace.all c fuel).execAll p.statements .nil scope) fun flow => ?_
    cases flow with
    | normal v => exact .bind (.note _) fun _ => .pure v
    | returned v => exact .pure v

variable {phrase : Phrase} {scope : ScopeId} {m m' : Machine} {r : Except RuntimeError Value}

/-- If the free run ends, so does the curbed one: with the same result, or because it was
    stopped. -/
theorem ends_of_loose {m₂ : Machine} (hm : c.Machines m m')
    (hends : phrase.Ends c.loose scope m' r m₂) :
    (∃ m₁, phrase.Ends c.tight scope m r m₁ ∧ c.Machines m₁ m₂) ∨
    ∃ e m₁, phrase.Ends c.tight scope m (.error e) m₁ ∧ c.Stops e ∧ c.Left m₁.sink m₂.sink := by
  obtain ⟨fuel, hfree⟩ := hends
  have houtcome := (phrase_inPace c phrase fuel scope).outcome hm
  rw [hfree] at houtcome
  generalize hcurbed : phrase.run c.tight fuel scope m = x at houtcome
  cases houtcome with
  | together r h => exact .inl ⟨_, ⟨fuel, hcurbed⟩, h⟩
  | stopped he hleft => exact .inr ⟨_, _, ⟨fuel, hcurbed⟩, he, hleft _ _ rfl⟩

/-- If the curbed run ends and was not stopped, the free run ends with the same result. -/
theorem ends_of_tight {m₁ : Machine} (hm : c.Machines m m')
    (hends : phrase.Ends c.tight scope m r m₁) (hfree : ∀ e, r = .error e → ¬ c.Stops e) :
    ∃ m₂, phrase.Ends c.loose scope m' r m₂ ∧ c.Machines m₁ m₂ := by
  obtain ⟨fuel, hcurbed⟩ := hends
  have houtcome := (phrase_inPace c phrase fuel scope).outcome hm
  rw [hcurbed] at houtcome
  generalize hloose : phrase.run c.loose fuel scope m' = y at houtcome
  cases houtcome with
  | together r h => exact ⟨_, ⟨fuel, hloose⟩, h⟩
  | stopped he _ => exact absurd he (hfree _ rfl)

end Curb

end Lexiscope
