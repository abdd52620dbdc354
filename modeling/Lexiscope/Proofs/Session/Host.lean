/-
  Lexiscope.Proofs.Session.Host

  Whatever a host does, its scopes stay well formed.

  A host makes, copies and clears scopes, binds names in them, and has programs and
  expressions evaluated in them (`HostStep`). Each of these leaves a well-formed store
  that continues the one before (`HostStep.continues`), so every store that is reached
  in this way is well formed. There, the way from a scope to its root has an end, and
  looking up a name comes to an end on it (`Store.Finds`), although neither asks how
  far it has to go.
-/
import Lexiscope.Proofs.Eval.Names
import Lexiscope.Proofs.Eval.Upkeep
import Lexiscope.Proofs.Store.Copy
import Lexiscope.Proofs.Store.Lookup
import Mathlib.Data.List.Chain
import Mathlib.Data.List.Nodup

namespace Lexiscope

namespace Store

variable {st st' : Store} {e : ScopeId} {x : String}

-- ============================================================================
-- The way to the root
-- ============================================================================

/-- The scopes are those that one comes to from `e` by going on to parents, down to a root. There is
    an end to them, and none comes twice. -/
structure WayToRoot (st : Store) (e : ScopeId) (way : List ScopeId) : Prop where
  first : way.head? = some e
  step : way.IsChain fun a b => st.parent? a = some b
  last : ∃ root, way.getLast? = some root ∧ st.parent? root = none
  distinct : way.Nodup
  made : ∀ s ∈ way, s < st.scopes.size

theorem wayToRoot_chain (h : st.Ordered) (he : e < st.scopes.size) :
    st.WayToRoot e (st.chain e) := by
  induction e, he using h.induction with
  | root e he hp =>
    rw [chain_of_root he hp]
    exact ⟨rfl, .singleton e, ⟨e, rfl, hp⟩, List.nodup_singleton e, by simpa using he⟩
  | inner e he p hlt hp ih =>
    rw [chain_of_parent h hp]
    obtain ⟨hfirst, hstep, ⟨root, hlast, hroot⟩, hdistinct, hmade⟩ := ih
    refine ⟨rfl, ?_, ⟨root, ?_, hroot⟩, ?_, List.forall_mem_cons.mpr ⟨he, hmade⟩⟩
    · rw [List.isChain_cons]
      refine ⟨fun q hq => ?_, hstep⟩
      rw [hfirst] at hq
      exact Option.some.inj hq ▸ hp
    · rw [List.getLast?_cons, hlast, Option.getD_some]
    · refine List.nodup_cons.mpr ⟨fun hmem => ?_, hdistinct⟩
      -- a scope further out has fewer scopes around it
      have hdepth := depth_of_parent h hp
      obtain rfl | hless := depth_lt_of_mem_chain h hlt hmem <;> omega

-- ============================================================================
-- Own functions
-- ============================================================================

/-- A function over the scope that binds it is stored without this scope, and no other is. -/
theorem WellFormed.own_iff (h : st.WellFormed) {f : FunctionDef} :
    st.localValue? e x = some (.function f e) ↔
      ∃ s, st.scope? e = some s ∧ s.get? x = some (.own f) := by
  constructor
  · intro hv
    obtain ⟨b, hb, hvalue⟩ := Option.map_eq_some_iff.mp hv
    obtain ⟨s, hs, hsb⟩ := Option.bind_eq_some_iff.mp hb
    refine ⟨s, hs, ?_⟩
    cases b with
    | value w =>
      obtain rfl : w = .function f e := hvalue
      exact absurd hsb (h.own hs x f)
    | own g =>
      obtain ⟨rfl, -⟩ := Value.function.inj hvalue
      exact hsb
  · rintro ⟨s, hs, hsb⟩
    rw [localValue?, hs, Option.bind_some, hsb, Option.map_some, Binding.toValue]

end Store

-- ============================================================================
-- What a host can do
-- ============================================================================

/-- One thing that a host can do with its scopes. The scopes that it names are there, and so are
    those that its functions close over. -/
inductive HostStep : Store → Store → Prop where
  | newGlobal (st : Store) : HostStep st st.newGlobal.1
  | newEmpty (st : Store) : HostStep st st.newEmpty.1
  | child {st : Store} {e : ScopeId} (he : e < st.scopes.size) : HostStep st (st.child e).1
  | copy {st : Store} {e : ScopeId} (he : e < st.scopes.size) : HostStep st (st.copy e).1
  | define {st : Store} {e : ScopeId} {v : Value} (he : e < st.scopes.size)
      (hv : v.LivesIn st.scopes.size) (x : String) : HostStep st (st.define e x v)
  | assign {st st' : Store} {e : ScopeId} {x : String} {v : Value} (he : e < st.scopes.size)
      (hv : v.LivesIn st.scopes.size) (h : st.assign? e x v = some st') : HostStep st st'
  | clear {st : Store} {e : ScopeId} (he : e < st.scopes.size) : HostStep st (st.clear e)
  | evaluate {phrase : Phrase} {limit : Nat} {e : ScopeId} {m m' : Machine}
      {r : Except RuntimeError Value} (he : e < m.store.scopes.size)
      (h : phrase.Ends limit e m r m') : HostStep m.store m'.store

variable {st st' : Store}

theorem HostStep.continues (h : HostStep st st') (hwf : st.WellFormed) : st.Continues st' := by
  cases h with
  | newGlobal => exact .newGlobal hwf
  | newEmpty => exact .newEmpty hwf
  | child he => exact .child hwf he
  | copy => exact .copy hwf
  | define _ hv => exact .define hwf hv
  | assign _ hv h =>
    obtain ⟨s, -, rfl⟩ := Option.map_eq_some_iff.mp h
    exact .define hwf hv
  | clear => exact .clear hwf
  | @evaluate phrase limit e m m' r he h =>
    obtain ⟨fuel, hrun⟩ := h
    exact (phrase.upholds limit fuel he hwf (Nat.le_refl _) hrun).1

theorem continues_of_steps (hwf : st.WellFormed) (h : Relation.ReflTransGen HostStep st st') :
    st.Continues st' := by
  induction h with
  | refl => exact .refl hwf
  | tail _ hlast ih => exact ih.trans (hlast.continues ih.wellFormed)

/-- In every store that a host gets to, following parents from a scope ends at a root and meets no
    scope twice, so looking up a name has an end; every function that is bound closes over a scope
    that is there, and if this is the scope that binds it, it is stored as the scope's own. However
    a host goes on, no scope gets another parent. And what an evaluation in such a store returns
    closes over a scope that is there. -/
theorem hosted_store_stays_well_formed
    (hreached : Relation.ReflTransGen HostStep Store.empty st)
    (hmore : Relation.ReflTransGen HostStep st st') :
    (∀ e < st'.scopes.size, st'.WayToRoot e (st'.chain e) ∧
      ∀ x r, st'.Finds x e r ↔ r = st'.nearest? e x) ∧
    (st.scopes.size ≤ st'.scopes.size ∧
      ∀ e < st.scopes.size, st'.parent? e = st.parent? e) ∧
    (∀ e x f c, st'.localValue? e x = some (.function f c) → c < st'.scopes.size) ∧
    (∀ e x f, st'.localValue? e x = some (.function f e) ↔
      ∃ s, st'.scope? e = some s ∧ s.get? x = some (.own f)) ∧
    ∀ (phrase : Phrase) (limit : Nat) (e : ScopeId) (m m' : Machine) (f : FunctionDef) (c : ScopeId),
      m.store = st' → e < st'.scopes.size → phrase.Ends limit e m (.ok (.function f c)) m' →
        c < m'.store.scopes.size := by
  have hcontinues := continues_of_steps (continues_of_steps .empty hreached).wellFormed hmore
  have hwf := hcontinues.wellFormed
  refine ⟨fun e he => ⟨?_, fun x r => ?_⟩, ⟨hcontinues.size, fun e he => hcontinues.parents he⟩,
    fun e x f c hv => hwf.closures hv, fun e x f => hwf.own_iff, ?_⟩
  · exact Store.wayToRoot_chain hwf.ordered he
  · exact Store.finds_iff hwf.ordered x he
  · rintro phrase limit e m m' f c rfl he ⟨fuel, hrun⟩
    have hresult := (phrase.upholds limit fuel he hwf (Nat.le_refl _) hrun).2
    exact hresult _ rfl f c rfl

section Witness

/-- `fn inner() { }` -/
def innerFunction : FunctionDef := ⟨2, looseName "inner", [], []⟩

/-- `fn give() { fn inner() { } return inner; }` -/
def givingFunction : FunctionDef :=
  ⟨1, looseName "give", [], [.function 2 (looseName "inner") [] [],
    .returnStmt (looseName "return") (some (.identifier (looseName "inner")))]⟩

/-- `give()` -/
def givingCall : Expr := .call (.identifier (looseName "give")) (looseName "(") []

/-- The definition of `givingFunction`, then `give();` -/
def givingProgram : Program :=
  ⟨[.function 1 (looseName "give") [] givingFunction.body, .expression givingCall]⟩

/-- `-give()` -/
def refusedExpr : Expr := .unary .negate (looseName "-") givingCall

/-- What a call of `givingFunction` leaves: one more scope, which binds `innerFunction`. -/
def Store.withInner (st : Store) : Store :=
  (st.child 0).1.define (st.child 0).2 "inner" (.function innerFunction (st.child 0).2)

/-- The machine after `givingProgram`. -/
def givenMachine : Machine :=
  { hidingMachine with
    store := (hidingMachine.store.define 0 "give" (.function givingFunction 0)).withInner }

/-- A program makes a closure and returns it, and an expression fails after it has made one more.
    Then a function over the first scope, which binds it, is copied with the scope, and the copy
    keeps it when the first scope is cleared. -/
theorem hosted_store_stays_well_formed_copied :
    Relation.ReflTransGen HostStep Store.empty hidingMachine.store ∧
    ∃ made refused e st,
      (Phrase.program givingProgram).Ends 1 0 hidingMachine (.ok (.function innerFunction 1)) made ∧
      (Phrase.expression refusedExpr).Ends 1 0 made (.error e) refused ∧
      st = (refused.store.copy 0).1.clear 0 ∧
      Relation.ReflTransGen HostStep hidingMachine.store st ∧
      (∃ s, st.scope? 1 = some s ∧ s.get? "inner" = some (.own innerFunction)) ∧
      ∃ s, st.scope? 3 = some s ∧ s.get? "f" = some (.own hidingFunction) := by
  have hfunction :
      (Value.function hidingFunction 0).LivesIn Store.empty.newGlobal.1.scopes.size := by
    rintro f c ⟨⟩
    decide
  have hreached : Relation.ReflTransGen HostStep Store.empty hidingMachine.store :=
    (Relation.ReflTransGen.single (.newGlobal Store.empty)).tail (.define (by decide) hfunction "f")
  have hmade : (Phrase.program givingProgram).Ends 1 0 hidingMachine
      (.ok (.function innerFunction 1)) givenMachine :=
    ⟨10, by with_unfolding_all rfl⟩
  have hrefused : (Phrase.expression refusedExpr).Ends 1 0 givenMachine
      (.error ⟨looseName "-", .badOperand .function⟩)
      { givenMachine with store := givenMachine.store.withInner } :=
    ⟨10, by with_unfolding_all rfl⟩
  have hmore : Relation.ReflTransGen HostStep hidingMachine.store
      ((givenMachine.store.withInner.copy 0).1.clear 0) :=
    (((Relation.ReflTransGen.single (.evaluate (by decide) hmade)).tail
      (.evaluate (by decide) hrefused)).tail (.copy (by decide))).tail (.clear (by decide))
  obtain ⟨-, -, -, hown, -⟩ := hosted_store_stays_well_formed hreached hmore
  exact ⟨hreached, givenMachine, _, _, _, hmade, hrefused, rfl, hmore,
    (hown 1 "inner" innerFunction).mp rfl, (hown 3 "f" hidingFunction).mp rfl⟩

end Witness

end Lexiscope
