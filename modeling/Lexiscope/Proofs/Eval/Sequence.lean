/-
  Lexiscope.Proofs.Eval.Sequence

  One program behind another.

  Running the statements of two programs in a row is running the first program and
  then, on the machine that it leaves, the second one. There is a seam between two
  runs that is not there in one: the value of the first program is entered in the
  journal, and calls are counted from zero again. Neither can be seen from inside,
  since every statement leaves as many calls active as it finds, and no step looks at
  the journal (`Curb.journals`).
-/
import Lexiscope.Proofs.Curbed.Run
import Lexiscope.Proofs.Eval.WellFormed

namespace Lexiscope

-- ============================================================================
-- Statements in a row
-- ============================================================================

/-- A sequence ends if its first step fails, or if that ends well and then the rest ends. -/
theorem EvalM.bind_eq_some_iff {α β : Type} {x : EvalM α} {f : α → EvalM β} {m m' : Machine}
    {r : Except RuntimeError β} :
    (x >>= f) m = some (r, m') ↔
      (∃ e, r = .error e ∧ x m = some (.error e, m')) ∨
      ∃ a m₁, x m = some (.ok a, m₁) ∧ f a m₁ = some (r, m') := by
  show EvalM.bind x f m = some (r, m') ↔ _
  unfold EvalM.bind
  rcases x m with _ | ⟨e | a, m₁⟩
  · simp
  · simp [eq_comm, and_comm]
  · simp

/-- Statements behind others run if those have ended normally. -/
theorem execAll_append (limit fuel : Nat) (ss rest : List Stmt) (last : Value) (scope : ScopeId) :
    execAll limit fuel (ss ++ rest) last scope = (do
      let flow ← execAll limit fuel ss last scope
      match flow with
      | .normal v => execAll limit (fuel - ss.length) rest v scope
      | .returned v => pure (.returned v)) := by
  induction ss generalizing fuel last with
  | nil =>
    cases fuel with
    | zero => rw [execAll, execAll]; rfl
    | succ fuel =>
      have hnone : execAll limit (fuel + 1) [] last scope = pure (.normal last) := by rw [execAll]
      rw [hnone]
      rfl
  | cons s ss ih =>
    cases fuel with
    | zero => rw [execAll, execAll]; rfl
    | succ fuel =>
      rw [List.cons_append, execAll, execAll, EvalM.bind_assoc]
      congr 1
      funext flow
      cases flow with
      | normal v =>
        rw [List.length_cons, Nat.add_sub_add_right]
        exact ih fuel v
      | returned v => rfl

/-- Statements that fail are not helped by others behind them. -/
theorem execAll_append_of_error {limit fuel : Nat} {ss : List Stmt} {last : Value}
    {scope : ScopeId} {m m' : Machine} {e : RuntimeError}
    (h : execAll limit fuel ss last scope m = some (.error e, m')) (rest : List Stmt) :
    execAll limit fuel (ss ++ rest) last scope m = some (.error e, m') := by
  rw [execAll_append, EvalM.bind_eq_some_iff]
  exact .inl ⟨e, rfl, h⟩

/-- Behind statements that end normally, others run from there. -/
theorem execAll_append_of_normal {limit fuel more : Nat} {ss rest : List Stmt} {last v : Value}
    {scope : ScopeId} {m m₁ m' : Machine} {r : Except RuntimeError Flow}
    (hfirst : execAll limit fuel ss last scope m = some (.ok (.normal v), m₁))
    (hrest : execAll limit more rest v scope m₁ = some (r, m')) :
    execAll limit (max fuel (ss.length + more)) (ss ++ rest) last scope m = some (r, m') := by
  have hfuel : more ≤ max fuel (ss.length + more) - ss.length := by omega
  rw [execAll_append, EvalM.bind_eq_some_iff]
  refine .inr ⟨.normal v, m₁, ?_, ?_⟩
  · exact (FuelKeeps.of_le limit (Nat.le_max_left _ _)).execAll ss last scope m _ hfirst
  · exact (FuelKeeps.of_le limit hfuel).execAll rest v scope m₁ _ hrest

/-- Where there is a statement, the value before it is forgotten. -/
theorem execAll_last (limit fuel : Nat) {ss : List Stmt} (h : ss ≠ []) (last last' : Value)
    (scope : ScopeId) : execAll limit fuel ss last scope = execAll limit fuel ss last' scope := by
  cases ss with
  | nil => exact absurd rfl h
  | cons s rest =>
    cases fuel with
    | zero => rw [execAll, execAll]
    | succ fuel => rw [execAll, execAll]

-- ============================================================================
-- Steps do not look at the journal
-- ============================================================================

/-- Machines of which only the journals differ. -/
structure Machine.SameButJournal (m m' : Machine) : Prop where
  store : m.store = m'.store
  sink : m.sink = m'.sink
  calls : m.activeCalls = m'.activeCalls

theorem Machine.SameButJournal.symm {m m' : Machine} (h : m.SameButJournal m') :
    m'.SameButJournal m := ⟨h.store.symm, h.sink.symm, h.calls.symm⟩

/-- The same bounds and the same sink for both runs, which keep journals of their own. -/
def Curb.journals (limit : Nat) : Curb where
  tight := limit
  loose := limit
  Paired := Eq
  Journals _ _ := True
  Stops _ := False
  Left _ _ := False
  tight_le := Nat.le_refl limit
  tooDeep hne := absurd rfl hne
  write := by
    rintro s _ rfl text
    exact .inl ⟨rfl, rfl⟩
  note _ _ h _ := h
  later _ _ _ hleft _ := hleft

/-- Statements end in the same way whatever is in the journal. -/
theorem execAll_sameButJournal {limit fuel : Nat} {ss : List Stmt} {last : Value} {scope : ScopeId}
    {m m' m₁ : Machine} {r : Except RuntimeError Flow} (hm : m.SameButJournal m')
    (h : execAll limit fuel ss last scope m = some (r, m₁)) :
    ∃ m₁', execAll limit fuel ss last scope m' = some (r, m₁') ∧ m₁.SameButJournal m₁' := by
  have hmachines : (Curb.journals limit).Machines m m' := ⟨hm.store, hm.sink, hm.calls, trivial⟩
  have hpace := (Curb.RunsInPace.all (Curb.journals limit) fuel).execAll ss last scope
  have houtcome := hpace.outcome hmachines
  rw [show execAll (Curb.journals limit).tight fuel ss last scope m = some (r, m₁) from h]
    at houtcome
  generalize hother : execAll (Curb.journals limit).loose fuel ss last scope m' = y at houtcome
  cases houtcome with
  | together r h => exact ⟨_, hother, h.store, h.sink, h.calls⟩
  | stopped he _ => exact he.elim

-- ============================================================================
-- Programs in a row
-- ============================================================================

/-- The statements of one program behind those of another. -/
instance : Append Program := ⟨fun p q => ⟨p.statements ++ q.statements⟩⟩

theorem Program.statements_append (p q : Program) :
    (p ++ q).statements = p.statements ++ q.statements := rfl

/-- The machine on which the statements of a program begin. -/
def Machine.begun (m : Machine) : Machine := { m with activeCalls := 0 }

/-- How a program ends, from how its statements did. -/
def Program.finish : Except RuntimeError Flow × Machine → Except RuntimeError Value × Machine
  | (.error e, m) => (.error e, m)
  | (.ok (.normal v), m) => (.ok v, m.note (.evaluated v.echo))
  | (.ok (.returned v), m) => (.ok v, m)

variable {limit fuel : Nat} {scope : ScopeId} {m m' : Machine}

theorem Program.run_eq_finish (p : Program) :
    p.run limit fuel scope m = (execAll limit fuel p.statements .nil scope m.begun).map finish := by
  show EvalM.bind (execAll limit fuel p.statements .nil scope) _ m.begun = _
  unfold EvalM.bind
  rcases execAll limit fuel p.statements .nil scope m.begun with _ | ⟨_ | _ | _, _⟩ <;> rfl

theorem Program.run_eq_some_iff {p : Program} {r : Except RuntimeError Value} :
    p.run limit fuel scope m = some (r, m') ↔
      ∃ end_, execAll limit fuel p.statements .nil scope m.begun = some end_ ∧
        finish end_ = (r, m') := by
  rw [run_eq_finish, Option.map_eq_some_iff]

/-- On machines of which only the journals differ, programs end alike. -/
theorem Program.finish_sameButJournal {r : Except RuntimeError Flow}
    {s : Except RuntimeError Value} {m₁ : Machine} (hm : m.SameButJournal m')
    (h : finish (r, m) = (s, m₁)) :
    ∃ m₁', finish (r, m') = (s, m₁') ∧ m₁.SameButJournal m₁' := by
  obtain ⟨hstore, hsink, hcalls⟩ := hm
  rcases r with e | v | v
  · cases h
    exact ⟨_, rfl, hstore, hsink, hcalls⟩
  · cases h
    exact ⟨_, rfl, hstore, hsink, hcalls⟩
  · cases h
    exact ⟨_, rfl, hstore, hsink, hcalls⟩

theorem Program.finish_eq_error_iff {end_ : Except RuntimeError Flow × Machine} {e : RuntimeError} :
    finish end_ = (.error e, m) ↔ end_ = (.error e, m) := by
  rcases end_ with ⟨e' | v | v, m'⟩ <;> simp [finish]

/-- If a program without a `return` at the top level ends well, its statements have ended
    normally. -/
theorem Program.WellFormed.ends_normally {p : Program} (hp : p.WellFormed) {v : Value}
    (h : p.run limit fuel scope m = some (.ok v, m')) :
    ∃ m₁, execAll limit fuel p.statements .nil scope m.begun = some (.ok (.normal v), m₁) ∧
      m' = m₁.note (.evaluated v.echo) := by
  obtain ⟨⟨e | flow, m₁⟩, hstatements, hend⟩ := Program.run_eq_some_iff.mp h
  · cases hend
  · obtain ⟨w, rfl⟩ := (RunsOn.all limit fuel).execAll hp _ _ hstatements
    cases hend
    exact ⟨m₁, hstatements, rfl⟩

/-- Between the statements of two programs, and between the two programs, only the journals
    differ. -/
theorem Program.seam_sameButJournal {p : Program} {v : Value}
    (h : execAll limit fuel p.statements .nil scope m.begun = some (.ok (.normal v), m')) :
    m'.SameButJournal (m'.note (.evaluated v.echo)).begun := by
  have hrun : p.run limit fuel scope m = some (.ok v, m'.note (.evaluated v.echo)) :=
    run_eq_some_iff.mpr ⟨_, h, rfl⟩
  have hidle : (m'.note (.evaluated v.echo)).activeCalls = 0 := Program.run_activeCalls hrun
  exact ⟨rfl, rfl, hidle⟩

/-- A program that fails is not helped by one behind it. -/
theorem Program.ends_append_of_error {p : Program} (q : Program) {e : RuntimeError}
    (h : (Phrase.program p).Ends limit scope m (.error e) m') :
    (Phrase.program (p ++ q)).Ends limit scope m (.error e) m' := by
  obtain ⟨fuel, hrun⟩ := h
  obtain ⟨_, hstatements, hend⟩ := run_eq_some_iff.mp hrun
  obtain rfl := finish_eq_error_iff.mp hend
  exact ⟨fuel, run_eq_some_iff.mpr ⟨_, execAll_append_of_error hstatements q.statements, rfl⟩⟩

/-- Behind a program that ends well, another one runs as it does alone on the machine that is
    left. -/
theorem Program.ends_append_of_ok {p q : Program} (hp : p.WellFormed) (hq : q.statements ≠ [])
    {v : Value} {r : Except RuntimeError Value} {m₁ m₂ : Machine}
    (hfirst : (Phrase.program p).Ends limit scope m (.ok v) m₁)
    (hsecond : (Phrase.program q).Ends limit scope m₁ r m₂) :
    ∃ m', (Phrase.program (p ++ q)).Ends limit scope m r m' ∧ m₂.SameButJournal m' := by
  obtain ⟨fuel, hfirst⟩ := hfirst
  obtain ⟨more, hsecond⟩ := hsecond
  obtain ⟨m₀, hstatements, rfl⟩ := hp.ends_normally hfirst
  obtain ⟨⟨r', m₃⟩, hrest, hend⟩ := run_eq_some_iff.mp hsecond
  rw [execAll_last limit more hq .nil v] at hrest
  obtain ⟨m₄, hrest', hsame⟩ := execAll_sameButJournal (seam_sameButJournal hstatements).symm hrest
  obtain ⟨m', hend', hleft⟩ := finish_sameButJournal hsame hend
  have hboth := execAll_append_of_normal hstatements hrest'
  exact ⟨m', ⟨_, run_eq_some_iff.mpr ⟨_, hboth, hend'⟩⟩, hleft⟩

/-- If two programs in a row end, either the first one fails, or it ends well and then the second
    one ends. -/
theorem Program.ends_of_append {p q : Program} (hp : p.WellFormed) (hq : q.statements ≠ [])
    {r : Except RuntimeError Value} (h : (Phrase.program (p ++ q)).Ends limit scope m r m') :
    (∃ e, r = .error e ∧ (Phrase.program p).Ends limit scope m (.error e) m') ∨
    ∃ v m₁ m₂, (Phrase.program p).Ends limit scope m (.ok v) m₁ ∧
      (Phrase.program q).Ends limit scope m₁ r m₂ ∧ m'.SameButJournal m₂ := by
  obtain ⟨fuel, hrun⟩ := h
  obtain ⟨⟨r', m₃⟩, hboth, hend⟩ := run_eq_some_iff.mp hrun
  rw [statements_append, execAll_append, EvalM.bind_eq_some_iff] at hboth
  rcases hboth with ⟨e, rfl, hstatements⟩ | ⟨flow, m₀, hstatements, hrest⟩
  · obtain ⟨rfl, rfl⟩ := Prod.mk.inj hend
    exact .inl ⟨e, rfl, fuel, run_eq_some_iff.mpr ⟨_, hstatements, rfl⟩⟩
  · obtain ⟨v, rfl⟩ := (RunsOn.all limit fuel).execAll hp _ _ hstatements
    dsimp only at hrest
    rw [execAll_last limit _ hq v .nil] at hrest
    obtain ⟨m₁, hrest', hsame⟩ := execAll_sameButJournal (seam_sameButJournal hstatements) hrest
    obtain ⟨m₂, hend', hleft⟩ := finish_sameButJournal hsame hend
    have hfirst : (Phrase.program p).Ends limit scope m (.ok v) (m₀.note (.evaluated v.echo)) :=
      ⟨fuel, run_eq_some_iff.mpr ⟨_, hstatements, rfl⟩⟩
    exact .inr ⟨v, _, m₂, hfirst, ⟨_, run_eq_some_iff.mpr ⟨_, hrest', hend'⟩⟩, hleft⟩

end Lexiscope
