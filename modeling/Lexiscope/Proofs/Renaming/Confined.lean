/-
  Lexiscope.Proofs.Renaming.Confined

  A run stays within what its scope can reach.

  What a program can get hold of from its scope, by parents and by the scopes of
  functions, and what it makes itself, is all that matters to it and all that it
  changes. To see this, a store is compared with one that is the same on reachable
  scopes only, each of these paired with itself. The run goes on in both in the
  same way, and neither run changes a scope without a partner. The first two parts
  compare a store with itself.
-/
import Lexiscope.Proofs.Eval.Names
import Lexiscope.Proofs.Renaming.Run

namespace Lexiscope

-- ============================================================================
-- The reachable part of a store
-- ============================================================================

/-- The scope can be reached from scope `e`, or from the function that is the result. -/
def Store.InReach (st : Store) (e : ScopeId) (r : Except RuntimeError Value) (s : ScopeId) : Prop :=
  st.Reaches e s ∨ ∃ f c, r = .ok (.function f c) ∧ st.Reaches c s

/-- The second store differs from the first in scopes only that cannot be reached from `e`. -/
structure Store.ChangedOutside (st : Store) (e : ScopeId) (st' : Store) : Prop where
  size : st'.scopes.size = st.scopes.size
  reached : ∀ ⦃s⦄, st.Reaches e s → st'.scope? s = st.scope? s

/-- The scope has the same parent, and its names have the same values. -/
structure Store.SameAt (st st' : Store) (s : ScopeId) : Prop where
  parent : st'.parent? s = st.parent? s
  values : ∀ x, st'.localValue? s x = st.localValue? s x

namespace Store

variable {st st' : Store} {a b e s : ScopeId} {r : Except RuntimeError Value}

theorem SameAt.leads (h : st.SameAt st' a) : st'.Leads a b ↔ st.Leads a b := by
  rw [Leads, Leads, h.parent]
  simp only [h.values]

/-- Where every scope that can be reached is the same, no more can be reached. -/
theorem Reaches.of_sameAt (h : ∀ s, st.Reaches a s → st.SameAt st' s) (hs : st'.Reaches a s) :
    st.Reaches a s := by
  induction hs with
  | refl => exact .refl
  | tail _ hlast ih => exact ih.tail ((h _ ih).leads.mp hlast)

/-- A new scope cannot be reached from those that were there. -/
theorem Reaches.of_push {new : Scope} (h : st.WellFormed) (ha : a < st.scopes.size)
    (hs : (st.push new).1.Reaches a s) : st.Reaches a s := by
  refine hs.of_sameAt fun s hold => ?_
  have hlt : s < st.scopes.size := hold.lt_size h ha
  exact ⟨parent?_push_of_lt new hlt, fun x => localValue?_push_of_lt new hlt⟩

theorem InReach.of_sameAt (h : ∀ s, st.InReach e r s → st.SameAt st' s) (hs : st'.InReach e r s) :
    st.InReach e r s := by
  rcases hs with hs | ⟨f, c, rfl, hs⟩
  · exact .inl (hs.of_sameAt fun s hs => h s (.inl hs))
  · exact .inr ⟨f, c, rfl, hs.of_sameAt fun s hs => h s (.inr ⟨f, c, rfl, hs⟩)⟩

end Store

namespace Renaming

open Lockstep (Scopes)

variable {ρ : Scopes} {st st' : Store} {a b e s : ScopeId} {r r' : Except RuntimeError Value}

/-- What can be reached from paired scopes or from the same result is paired. -/
theorem Mirror.inReach (h : Mirror ρ st st') (hab : ρ a b) (hr : ResultRenamed (Renamed ρ) r r')
    (hs : st.InReach a r s) : ∃ t, ρ s t ∧ st'.InReach b r' t := by
  rcases hs with hs | ⟨f, c, rfl, hs⟩
  · obtain ⟨t, hst, ht⟩ := h.reaches hab hs
    exact ⟨t, hst, .inl ht⟩
  · cases hr with
    | ok hv =>
      cases hv with
      | plain hplain => exact absurd rfl (hplain f c)
      | @function _ _ d hcd =>
        obtain ⟨t, hst, ht⟩ := h.reaches hcd hs
        exact ⟨t, hst, .inr ⟨f, d, rfl, ht⟩⟩

-- ============================================================================
-- Reachable scopes paired with themselves
-- ============================================================================

/-- Every scope that can be reached from `e` is paired with itself. -/
def reachPairs (st : Store) (e : ScopeId) : Scopes := fun a b => a = b ∧ st.Reaches e a

theorem reachPairs_self (st : Store) (e : ScopeId) : reachPairs st e e e := ⟨rfl, .refl⟩

/-- Stores that are the same on reachable scopes. -/
theorem mirror_reachPairs (h : st.WellFormed) (h' : st'.WellFormed) (he : e < st.scopes.size)
    (hchanged : st.ChangedOutside e st') : Mirror (reachPairs st e) st st' := by
  refine .of_renamed ?_ ?_ ?_ ?_ ?_ h.ordered h'.ordered
  · rintro a b c d ⟨rfl, -⟩ ⟨rfl, -⟩
    exact Iff.rfl
  · rintro a b ⟨rfl, ha⟩
    exact ha.lt_size h he
  · rintro a b ⟨rfl, ha⟩
    rw [hchanged.size]
    exact ha.lt_size h he
  · rintro a b ⟨rfl, ha⟩
    rw [Store.parent?, Store.parent?, hchanged.reached ha]
    cases hp : (st.scope? a).bind Scope.parent with
    | none => exact .none
    | some p => exact .some ⟨rfl, ha.tail (.inl hp)⟩
  · rintro a b ⟨rfl, ha⟩ x
    rw [show st'.localValue? a x = st.localValue? a x by
      rw [Store.localValue?, hchanged.reached ha, Store.localValue?]]
    cases hv : st.localValue? a x with
    | none => exact .none
    | some v =>
      refine .some (.of_closure fun f c hfunction => ⟨rfl, ha.tail (.inr ⟨x, f, ?_⟩)⟩)
      rw [hv, hfunction]

/-- Scopes that are made at the same time get the same number if as many were there. -/
theorem Grown.eq_of_reachPairs {ρ₁ : Scopes} {st₁ st₁' : Store}
    (hgrown : Grown (reachPairs st e) st st' ρ₁ st₁ st₁') (hsize : st'.scopes.size = st.scopes.size)
    (hab : ρ₁ a b) : a = b := by
  rcases hgrown.fresh hab with ⟨heq, -⟩ | ⟨k, rfl, rfl⟩
  · exact heq
  · rw [hsize]

theorem ResultRenamed.eq {ρ₁ : Scopes} (hρ : ∀ ⦃a b⦄, ρ₁ a b → a = b)
    (h : ResultRenamed (Renamed ρ₁) r r') : r = r' := by
  cases h with
  | ok hv => rw [hv.eq hρ]
  | error e => rfl

theorem Mirror.sameAt {ρ₁ : Scopes} (hρ : ∀ ⦃a b⦄, ρ₁ a b → a = b) (h : Mirror ρ₁ st st')
    (hs : ρ₁ s s) : st.SameAt st' s where
  parent := by
    have hparents := h.parents hs
    generalize st.parent? s = p, st'.parent? s = q at hparents ⊢
    cases hparents with
    | none => rfl
    | some hpq => rw [hρ hpq]
  values x := by
    have hvalues := h.renamed hs x
    generalize st.localValue? s x = v, st'.localValue? s x = w at hvalues ⊢
    cases hvalues with
    | none => rfl
    | some hvw => rw [hvw.eq hρ]

-- ============================================================================
-- Runs
-- ============================================================================

variable {phrase : Phrase} {limit : Nat} {m m' : Machine}

/-- A phrase ends in the same way when scopes are changed that it cannot reach. -/
theorem ends_of_changedOutside (hwf : m.store.WellFormed) (he : e < m.store.scopes.size)
    (hends : phrase.Ends limit e m r m') (hst : st.WellFormed)
    (hchanged : m.store.ChangedOutside e st) :
    ∃ m'' ρ₁, phrase.Ends limit e { m with store := st } r m'' ∧
      Grown (reachPairs m.store e) m.store st ρ₁ m'.store m''.store ∧
      MachineMirror ρ₁ m' m'' ∧ (∀ ⦃a b⦄, ρ₁ a b → a = b) ∧ ResultRenamed (Renamed ρ₁) r r := by
  have hmirror := mirror_reachPairs hwf hst he hchanged
  have hmachine : MachineMirror (reachPairs m.store e) m { m with store := st } :=
    ⟨hmirror, rfl, rfl, rfl⟩
  have hself := reachPairs_self m.store e
  obtain ⟨r'', m'', hends''⟩ := (phrase_ends_iff phrase limit hmachine hself).mp ⟨r, m', hends⟩
  obtain ⟨ρ₁, hgrown, hresult, hafter⟩ := phrase_ends hmachine hself hends hends''
  have hρ : ∀ ⦃a b⦄, ρ₁ a b → a = b := fun _ _ => hgrown.eq_of_reachPairs hchanged.size
  obtain rfl : r = r'' := hresult.eq hρ
  exact ⟨m'', ρ₁, hends'', hgrown, hafter, hρ, hresult⟩

/-- A program or an expression that ends in scope `e` has left every scope as it was that cannot be
    reached from `e`. What can be reached afterwards from `e` or from the result could be reached
    before or was made by the run. And if scopes that cannot be reached are changed beforehand, the
    run ends with the same result and output, and with the same reachable scopes. -/
theorem run_stays_within_reach (hwf : m.store.WellFormed) (he : e < m.store.scopes.size)
    (hends : phrase.Ends limit e m r m') :
    (∀ s < m.store.scopes.size, ¬ m.store.Reaches e s → m'.store.scope? s = m.store.scope? s) ∧
    (∀ s, m'.store.InReach e r s →
      m.store.Reaches e s ∨ (m.store.scopes.size ≤ s ∧ s < m'.store.scopes.size)) ∧
    ∀ st, st.WellFormed → m.store.ChangedOutside e st →
      ∃ m'', phrase.Ends limit e { m with store := st } r m'' ∧ m''.sink = m'.sink ∧
        (∀ s, m''.store.InReach e r s ↔ m'.store.InReach e r s) ∧
        ∀ s, m'.store.InReach e r s → m'.store.SameAt m''.store s := by
  have hself := reachPairs_self m.store e
  refine ⟨fun s hs hunreached => ?_, fun s hs => ?_, fun st hst hchanged => ?_⟩
  · obtain ⟨m'', ρ₁, -, hgrown, -⟩ := ends_of_changedOutside hwf he hends hwf ⟨rfl, fun _ _ => rfl⟩
    exact hgrown.left hs fun b hpair => hunreached hpair.2
  · obtain ⟨m'', ρ₁, -, hgrown, hafter, -, hresult⟩ :=
      ends_of_changedOutside hwf he hends hwf ⟨rfl, fun _ _ => rfl⟩
    obtain ⟨t, hst, -⟩ := hafter.stores.inReach (hgrown.le _ _ hself) hresult hs
    rcases hgrown.fresh hst with hold | ⟨k, rfl, -⟩
    · exact .inl hold.2
    · exact .inr ⟨Nat.le_add_right _ k, hafter.stores.left hst⟩
  · obtain ⟨m'', ρ₁, hends'', hgrown, hafter, hρ, hresult⟩ :=
      ends_of_changedOutside hwf he hends hst hchanged
    have hpaired : ∀ s, m'.store.InReach e r s → ρ₁ s s ∧ m''.store.InReach e r s := by
      intro s hs
      obtain ⟨t, hst, ht⟩ := hafter.stores.inReach (hgrown.le _ _ hself) hresult hs
      obtain rfl : s = t := hρ hst
      exact ⟨hst, ht⟩
    have hsame : ∀ s, m'.store.InReach e r s → m'.store.SameAt m''.store s :=
      fun s hs => hafter.stores.sameAt hρ (hpaired s hs).1
    refine ⟨m'', hends'', hafter.sink.symm, fun s => ⟨?_, fun hs => (hpaired s hs).2⟩, hsame⟩
    exact Store.InReach.of_sameAt hsame

section Witness

/-- `fn make() { fn made() {} return made; }` -/
def makingFunction : FunctionDef :=
  ⟨1, looseName "make", [], [.function 2 (looseName "made") [] [],
    .returnStmt (looseName "return") (some (.identifier (looseName "made")))]⟩

/-- The builtin functions and `makingFunction`, which closes over the scope that binds it. -/
def makingStore : Store := Store.empty.newGlobal.1.define 0 "make" (.function makingFunction 0)

/-- A scope inside that of `makingStore`, which nothing leads to. -/
def makingMachine : Machine := ⟨(makingStore.child 0).1, .unbounded, 0, .silent⟩

/-- `make()` -/
def makingPhrase : Phrase :=
  .expression (.call (.identifier (looseName "make")) (looseName "(") [])

/-- The scope that the result closes over, if it is a function. -/
def closure? : Except RuntimeError Value → Option ScopeId
  | .ok (.function _ c) => some c
  | _ => none

theorem ends_of_closure? {fuel : Nat} {c : ScopeId}
    (h : ((phrase.run limit fuel e m).bind fun answer => closure? answer.1) = some c) :
    ∃ f m', phrase.Ends limit e m (.ok (.function f c)) m' := by
  obtain ⟨⟨r, m'⟩, hrun, hclosure⟩ := Option.bind_eq_some_iff.mp h
  dsimp only [closure?] at hclosure
  split at hclosure
  · next f c' =>
    obtain rfl : c' = c := Option.some.inj hclosure
    exact ⟨f, m', fuel, hrun⟩
  · cases hclosure

theorem makingStore_wellFormed : makingStore.WellFormed := by
  refine Store.WellFormed.empty.newGlobal.define fun f c hfunction => ?_
  obtain ⟨-, rfl⟩ := Value.function.inj hfunction
  decide

theorem makingMachine_unreached : ¬ makingMachine.store.Reaches 0 1 := by
  intro h
  have hlt := (h.of_push makingStore_wellFormed (by decide)).lt_size makingStore_wellFormed (by decide)
  exact absurd hlt (by decide)

/-- A call makes a function over the scope of the call. It cannot get at the scope inside, and ends
    in the same way when a name is bound there. -/
theorem run_stays_within_reach_making :
    ∃ f m', makingPhrase.Ends 1 0 makingMachine (.ok (.function f 2)) m' ∧
      m'.store.scope? 1 = makingMachine.store.scope? 1 ∧
      ¬ m'.store.InReach 0 (.ok (.function f 2)) 1 ∧
      ∃ m'', makingPhrase.Ends 1 0
        { makingMachine with store := makingMachine.store.define 1 "made" (.boolean true) }
        (.ok (.function f 2)) m'' := by
  obtain ⟨f, m', hends⟩ : ∃ f m', makingPhrase.Ends 1 0 makingMachine (.ok (.function f 2)) m' :=
    ends_of_closure? (show ((makingPhrase.run 1 20 0 makingMachine).bind _) = some 2 by decide +kernel)
  have hwf : makingMachine.store.WellFormed := makingStore_wellFormed.child (by decide)
  have hrest := run_stays_within_reach hwf (by decide) hends
  let other := makingMachine.store.define 1 "made" (.boolean true)
  have hother : other.WellFormed := hwf.define (by simp)
  have hchanged : makingMachine.store.ChangedOutside 0 other := by
    refine ⟨Store.size_define _ 1 "made" _, fun s hs => Store.scope?_define_of_ne ?_⟩
    rintro rfl
    exact makingMachine_unreached hs
  obtain ⟨m'', hends'', -⟩ := hrest.2.2 other hother hchanged
  refine ⟨f, m', hends, hrest.1 1 (by decide) makingMachine_unreached, fun hs => ?_, m'', hends''⟩
  rcases hrest.2.1 1 hs with hold | ⟨hnew, -⟩
  · exact makingMachine_unreached hold
  · exact absurd hnew (by decide)

end Witness

end Renaming

end Lexiscope
