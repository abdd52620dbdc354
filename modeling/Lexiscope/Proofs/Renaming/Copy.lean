/-
  Lexiscope.Proofs.Renaming.Copy

  A program does the same in a copied scope.

  Where all functions on the way from a scope to its root are bound in the scopes
  that they close over, the chain refers to nothing outside. So if two stores hold
  it, pairing the images of each scope makes the stores the same under a renaming,
  and runs from the two images of the scope correspond (`RunsAlike`). The store
  itself and a store with a copy are of this kind, and stay so for every chain that
  a run does not work on.
-/
import Lexiscope.Proofs.Renaming.Confined
import Lexiscope.Proofs.Store.Copy

namespace Lexiscope

/-- Functions on the way from scope `e` to its root close over the very scope that binds them. -/
def Store.OwnFunctions (st : Store) (e : ScopeId) : Prop :=
  ∀ s ∈ st.chain e, ∀ x f c, st.localValue? s x = some (.function f c) → c = s

/-- Such functions are stored without their scope. -/
theorem Store.OwnFunctions.ne_function {st : Store} {e s : ScopeId} {scope : Scope} {x : String}
    {v : Value} (hown : st.OwnFunctions e) (hwf : st.WellFormed) (hs : s ∈ st.chain e)
    (hscope : st.scope? s = some scope) (hx : scope.get? x = some (.value v)) (f : FunctionDef)
    (c : ScopeId) : v ≠ .function f c := by
  rintro rfl
  have hvalue : st.localValue? s x = some (.function f c) := by
    rw [Store.localValue?, hscope, Option.bind_some, hx, Option.map_some, Binding.toValue]
  obtain rfl : c = s := hown s hs x f c hvalue
  exact hwf.own hscope x f hx

namespace Renaming

open Lockstep (Scopes OneToOne)

variable {ρ : Scopes} {st st' st₁ st₂ : Store} {a b e : ScopeId} {f g : ScopeId → ScopeId}
  {phrase : Phrase} {limit : Nat} {m m₁ m₂ : Machine} {r : Except RuntimeError Value}

-- ============================================================================
-- Runs that correspond
-- ============================================================================

/-- A phrase ends from both machines or from neither. If it ends, it has put out the same, and the
    results and the bindings on the ways to the roots are the same under a renaming. -/
structure RunsAlike (phrase : Phrase) (limit : Nat) (a : ScopeId) (m : Machine) (b : ScopeId)
    (m' : Machine) : Prop where
  ends_iff : (∃ r m₁, phrase.Ends limit a m r m₁) ↔ ∃ r m₁, phrase.Ends limit b m' r m₁
  ends : ∀ ⦃r m₁ r' m₁'⦄, phrase.Ends limit a m r m₁ → phrase.Ends limit b m' r' m₁' →
    m₁.sink = m₁'.sink ∧ ∃ ρ, OneToOne ρ ∧ ResultRenamed (Renamed ρ) r r' ∧
      List.Forall₂ (fun s t => ρ s t ∧
          ∀ x, Option.Rel (Renamed ρ) (m₁.store.localValue? s x) (m₁'.store.localValue? t x))
        (m₁.store.chain a) (m₁'.store.chain b)

/-- From paired scopes the ways to the roots are paired. -/
theorem Mirror.chain (h : Mirror ρ st st') (hab : ρ a b) :
    List.Forall₂ ρ (st.chain a) (st'.chain b) := by
  induction a, h.left hab using h.ordered.induction generalizing b with
  | root a ha hp =>
    have hparents := h.parents hab
    rw [hp] at hparents
    generalize hq : st'.parent? b = q at hparents
    cases hparents with
    | none =>
      rw [Store.chain_of_root ha hp, Store.chain_of_root (h.right hab) hq]
      exact .cons hab .nil
  | inner a ha p _ hp ih =>
    have hparents := h.parents hab
    rw [hp] at hparents
    generalize hq : st'.parent? b = q at hparents
    cases hparents with
    | some hpq =>
      rw [Store.chain_of_parent h.ordered hp, Store.chain_of_parent h.ordered' hq]
      exact .cons hab (ih hpq)

/-- From paired scopes of machines that are the same under a renaming, runs correspond. -/
theorem MachineMirror.runsAlike {m' : Machine} (h : MachineMirror ρ m m') (hab : ρ a b)
    (phrase : Phrase) (limit : Nat) : RunsAlike phrase limit a m b m' where
  ends_iff := phrase_ends_iff phrase limit h hab
  ends r m₁ r' m₁' hends hends' := by
    obtain ⟨ρ₁, hgrown, hresult, hafter⟩ := phrase_ends h hab hends hends'
    have hchains := hafter.stores.chain (hgrown.le _ _ hab)
    refine ⟨hafter.sink, ρ₁, hafter.stores.unique, hresult, hchains.imp fun s t hst => ⟨hst, ?_⟩⟩
    exact hafter.stores.renamed hst

-- ============================================================================
-- Stores that hold the same chain
-- ============================================================================

/-- The images of one scope are paired. -/
def imagePairs (st : Store) (e : ScopeId) (f g : ScopeId → ScopeId) : Scopes :=
  fun a b => ∃ s ∈ st.chain e, f s = a ∧ g s = b

section Holds

variable (hwf : st.WellFormed) (he : e < st.scopes.size) (hown : st.OwnFunctions e)

include hwf he hown

/-- Stores that hold a chain with its own functions only. -/
theorem mirror_imagePairs (h₁ : st.Holds e f st₁) (h₂ : st.Holds e g st₂) (hst₁ : st₁.Ordered)
    (hst₂ : st₂.Ordered) : Mirror (imagePairs st e f g) st₁ st₂ := by
  refine .of_renamed ?_ ?_ ?_ ?_ ?_ hst₁ hst₂
  · rintro _ _ _ _ ⟨s, hs, rfl, rfl⟩ ⟨t, ht, rfl, rfl⟩
    constructor
    · intro heq
      rw [h₁.unique hs ht heq]
    · intro heq
      rw [h₂.unique hs ht heq]
  · rintro _ _ ⟨s, hs, rfl, rfl⟩
    exact h₁.lt_size hs
  · rintro _ _ ⟨s, hs, rfl, rfl⟩
    exact h₂.lt_size hs
  · rintro _ _ ⟨s, hs, rfl, rfl⟩
    rw [h₁.parent? hs, h₂.parent? hs]
    cases hp : st.parent? s with
    | none => exact .none
    | some p => exact .some ⟨p, Store.mem_chain_of_parent? hwf.ordered he hs hp, rfl, rfl⟩
  · rintro _ _ ⟨s, hs, rfl, rfl⟩ x
    rw [h₁.localValue? hs, h₂.localValue? hs]
    cases hscope : st.scope? s with
    | none => exact .none
    | some scope =>
      rw [Option.bind_some]
      cases hx : scope.get? x with
      | none => exact .none
      | some binding =>
        cases binding with
        | own definition => exact .some (.function definition ⟨s, hs, rfl, rfl⟩)
        | value v => exact .some (.plain (hown.ne_function hwf hs hscope hx))

/-- Where two stores hold the chain of a scope, runs from the two images of the scope correspond. -/
theorem runsAlike_of_holds (h₁ : st.Holds e f st₁) (h₂ : st.Holds e g st₂) (hst₁ : st₁.Ordered)
    (hst₂ : st₂.Ordered) (phrase : Phrase) (limit : Nat) (m : Machine) :
    RunsAlike phrase limit (f e) { m with store := st₁ } (g e) { m with store := st₂ } := by
  have hstores := mirror_imagePairs hwf he hown h₁ h₂ hst₁ hst₂
  have hmachine : MachineMirror (imagePairs st e f g) { m with store := st₁ } { m with store := st₂ } :=
    ⟨hstores, rfl, rfl, rfl⟩
  exact hmachine.runsAlike ⟨e, Store.mem_chain_self hwf.ordered he, rfl, rfl⟩ phrase limit

/-- A run from the image of a scope leaves scopes as they were that are not images. -/
theorem scope?_of_holds (h : st.Holds e f st₁) (hst₁ : st₁.Ordered)
    (hends : phrase.Ends limit (f e) { m with store := st₁ } r m₁) :
    m₁.store.Ordered ∧ ∀ b < st₁.scopes.size, (∀ s ∈ st.chain e, f s ≠ b) →
      m₁.store.scope? b = st₁.scope? b := by
  have hstores := mirror_imagePairs hwf he hown h h hst₁ hst₁
  have hmachine : MachineMirror (imagePairs st e f f) { m with store := st₁ } { m with store := st₁ } :=
    ⟨hstores, rfl, rfl, rfl⟩
  obtain ⟨ρ₁, hgrown, -, hafter⟩ :=
    phrase_ends hmachine ⟨e, Store.mem_chain_self hwf.ordered he, rfl, rfl⟩ hends hends
  refine ⟨hafter.stores.ordered, fun b hb hfree => hgrown.left hb ?_⟩
  rintro _ ⟨s, hs, heq, -⟩
  exact hfree s hs heq

/-- A run from an image that was made later leaves the chain as it was. -/
theorem chain_kept_of_holds (h : st.Holds e f st₁) (hst₁ : st₁.Ordered) (hkept : st.Extends st₁)
    (hnew : ∀ s, st.scopes.size ≤ f s)
    (hends : phrase.Ends limit (f e) { m with store := st₁ } r m₁) :
    ∀ s ∈ st.chain e, m₁.store.scope? s = st.scope? s := by
  intro s hs
  have hlt : s < st.scopes.size := Store.lt_size_of_mem_chain hs
  have hrun := (scope?_of_holds hwf he hown h hst₁ hends).2
  rw [hrun s (Nat.lt_of_lt_of_le hlt hkept.le) fun t _ => ?_, hkept.same hlt]
  exact Nat.ne_of_gt (Nat.lt_of_lt_of_le hlt (hnew t))

end Holds

-- ============================================================================
-- Runs in copies
-- ============================================================================

/-- Where functions around scope `e` close over the scopes that bind them, a program or an
    expression does the same in a copy of `e` as in `e`, whether the copy is there for the run in `e`
    or not, and it leaves `e` and the scopes around it as they were. So it does the same in a second
    copy, made after the run in the first one or before it. -/
theorem runs_alike_in_copy {copy₁ copy₂ : ScopeId} (hwf : m.store.WellFormed)
    (he : e < m.store.scopes.size) (hown : m.store.OwnFunctions e)
    (hcopy₁ : m.store.copy e = (st₁, copy₁)) (hcopy₂ : st₁.copy e = (st₂, copy₂))
    (phrase : Phrase) (limit : Nat) :
    RunsAlike phrase limit e m copy₁ { m with store := st₁ } ∧
    RunsAlike phrase limit e { m with store := st₁ } copy₁ { m with store := st₁ } ∧
    (∀ r m₁, phrase.Ends limit copy₁ { m with store := st₁ } r m₁ →
      (∀ s ∈ m.store.chain e, m₁.store.scope? s = m.store.scope? s) ∧
      ∀ st₃ copy₃, m₁.store.copy e = (st₃, copy₃) →
        RunsAlike phrase limit copy₁ { m with store := st₁ } copy₃ { m with store := st₃ }) ∧
    ∀ r m₁, phrase.Ends limit copy₁ { m with store := st₂ } r m₁ →
      (∀ s ∈ m.store.chain e, m₁.store.scope? s = m.store.scope? s) ∧
      RunsAlike phrase limit copy₁ { m with store := st₂ } copy₂ { m with store := m₁.store } := by
  have hst : m.store.Ordered := hwf.ordered
  obtain ⟨hcopied₁, rfl⟩ := Store.copied_of_copy hst he hcopy₁
  have hst₁ : st₁.Ordered := hcopied₁.ordered
  have hsame : m.store.Holds e id st₁ := .of_extends hcopied₁.kept
  have he₁ : e < st₁.scopes.size := Nat.lt_of_lt_of_le he hcopied₁.kept.le
  obtain ⟨hcopied₂, rfl⟩ := Store.copied_of_copy hst₁ he₁ hcopy₂
  have hst₂ : st₂.Ordered := hcopied₂.ordered
  -- The second copy leaves the first one alone, and is one of the original, too.
  have hfirst : m.store.Holds e m.store.copyOf st₂ :=
    hcopied₁.holds.mono fun s hs => hcopied₂.kept.same (hcopied₁.holds.lt_size hs)
  have hsecond : m.store.Holds e st₁.copyOf st₂ := hsame.trans hcopied₂.holds hst hst₁ he
  refine ⟨?_, ?_, fun r m₁ hends => ?_, fun r m₁ hends => ⟨?_, ?_⟩⟩
  · exact runsAlike_of_holds hwf he hown (.of_unchanged fun _ _ => rfl) hcopied₁.holds hst hst₁
      phrase limit m
  · exact runsAlike_of_holds hwf he hown hsame hcopied₁.holds hst₁ hst₁ phrase limit m
  · have hchain :=
      chain_kept_of_holds hwf he hown hcopied₁.holds hst₁ hcopied₁.kept (Store.le_copyOf _) hends
    have hkept : m.store.Holds e id m₁.store := .of_unchanged hchain
    have hm₁ : m₁.store.Ordered := (scope?_of_holds hwf he hown hcopied₁.holds hst₁ hends).1
    have he₃ : e < m₁.store.scopes.size := hkept.lt_size (Store.mem_chain_self hst he)
    refine ⟨hchain, fun st₃ copy₃ hcopy₃ => ?_⟩
    obtain ⟨hcopied₃, rfl⟩ := Store.copied_of_copy hm₁ he₃ hcopy₃
    have hthird : m.store.Holds e m₁.store.copyOf st₃ := hkept.trans hcopied₃.holds hst hm₁ he
    exact runsAlike_of_holds hwf he hown hcopied₁.holds hthird hst₁ hcopied₃.ordered phrase limit m
  · exact chain_kept_of_holds hwf he hown hfirst hst₂ (hcopied₁.kept.trans hcopied₂.kept)
      (Store.le_copyOf _) hends
  · obtain ⟨hm₁, hrun⟩ := scope?_of_holds hwf he hown hfirst hst₂ hends
    have hother : m.store.Holds e st₁.copyOf m₁.store := by
      refine hsecond.mono fun s hs => hrun _ (hsecond.lt_size hs) fun t ht => ?_
      exact Nat.ne_of_lt
        (Nat.lt_of_lt_of_le (hcopied₁.holds.lt_size ht) (Store.le_copyOf _ s))
    exact runsAlike_of_holds hwf he hown hfirst hother hst₂ hm₁ phrase limit m

section Witness

/-- The name `kept` is bound in a scope inside that of `makingStore`. -/
def keepingMachine : Machine := { makingMachine with store := makingMachine.store.define 1 "kept" .nil }

/-- `kept = make()` -/
def keepingPhrase : Phrase :=
  .expression (.assign (looseName "kept")
    (.call (.identifier (looseName "make")) (looseName "(") []))

theorem keepingMachine_wellFormed : keepingMachine.store.WellFormed :=
  (makingStore_wellFormed.child (by decide)).define (by simp)

theorem keepingMachine_ownFunctions : keepingMachine.store.OwnFunctions 1 := by
  intro s hs x f c hv
  have hchain : keepingMachine.store.chain 1 = [1, 0] := rfl
  rw [hchain, List.mem_cons, List.mem_singleton] at hs
  rcases hs with rfl | rfl
  · by_cases hx : x = "kept"
    · subst hx
      cases (Store.localValue?_define_self (by decide)).symm.trans hv
    · have hnone := (Store.localValue?_define_of_ne (.inr hx)).symm.trans hv
      cases (Store.localValue?_child_self makingStore 0 x).symm.trans hnone
  · have hmaking : makingStore.localValue? 0 x = some (.function f c) := by
      rw [← hv, keepingMachine, Store.localValue?_define_of_ne (.inl (by decide))]
      exact (Store.localValue?_push_of_lt _ (by decide)).symm
    exact Nat.lt_one_iff.mp (makingStore_wellFormed.closures hmaking)

/-- The function that is made closes over another scope in the copy, where it is kept. Scope 1 does
    not change. -/
theorem runs_alike_in_copy_keeping :
    keepingMachine.store.OwnFunctions 1 ∧
      RunsAlike keepingPhrase 1 1 keepingMachine 3
        { keepingMachine with store := (keepingMachine.store.copy 1).1 } ∧
      ∃ f m₁, keepingPhrase.Ends 1 3
          { keepingMachine with store := (keepingMachine.store.copy 1).1 } (.ok (.function f 4)) m₁ ∧
        m₁.store.scope? 1 = keepingMachine.store.scope? 1 := by
  have halike := runs_alike_in_copy keepingMachine_wellFormed (by decide)
    keepingMachine_ownFunctions rfl rfl keepingPhrase 1
  let copied : Machine := { keepingMachine with store := (keepingMachine.store.copy 1).1 }
  obtain ⟨f, m₁, hends⟩ : ∃ f m₁, keepingPhrase.Ends 1 3 copied (.ok (.function f 4)) m₁ :=
    ends_of_closure? (show ((keepingPhrase.run 1 20 3 copied).bind _) = some 4 by decide +kernel)
  have hkept := (halike.2.2.1 _ m₁ hends).1 1 (by decide)
  exact ⟨keepingMachine_ownFunctions, halike.1, f, m₁, hends, hkept⟩

end Witness

end Renaming

end Lexiscope
