/-
  Lexiscope.Proofs.Store.Isolation

  A copy has the bindings of the original and shares no scope with it.

  Requests that make no scope leave every way to the root as it is, and change
  only scopes on the ways of the scopes they are about. So where two sets of
  scopes have no scope in common and neither can be left on the way to a root
  (`Enclosed`), what is asked of the one set cannot be seen in the other.
-/
import Lexiscope.Proofs.Store.Copy
import Lexiscope.Proofs.Store.Plain
import Lexiscope.Proofs.Store.WellFormed
import Mathlib.Data.List.Find
import Mathlib.Data.List.Forall2

namespace Lexiscope

/-- Is the request about one of these scopes? -/
def ScopeRequest.isAbout (way : List ScopeId) (q : ScopeRequest) : Bool :=
  q.scope?.any fun e => decide (e ∈ way)

theorem ScopeRequest.isAbout_iff {way : List ScopeId} {q : ScopeRequest} :
    q.isAbout way = true ↔ ∃ e ∈ way, q.scope? = some e := by
  rw [isAbout, Option.any_eq_true]
  simp only [decide_eq_true_eq, and_comm]

namespace Store

variable {st st₁ st' : Store} {way other : List ScopeId} {e s : ScopeId}

-- ============================================================================
-- Stores that agree on some scopes
-- ============================================================================

/-- On the way to a root one stays among these scopes. -/
def Enclosed (st : Store) (way : List ScopeId) : Prop := ∀ s ∈ way, st.chain s ⊆ way

/-- The stores have the same scopes here, and the same ways to the root everywhere. -/
structure AgreeOn (way : List ScopeId) (st st' : Store) : Prop where
  chain : ∀ e, st'.chain e = st.chain e
  scope : ∀ s ∈ way, st'.scope? s = st.scope? s

namespace AgreeOn

theorem refl (way : List ScopeId) (st : Store) : AgreeOn way st st where
  chain _ := rfl
  scope _ _ := rfl

theorem contains (h : AgreeOn way st st') (hs : s ∈ way) (x : String) :
    st'.contains s x = st.contains s x := by
  rw [Store.contains, h.scope s hs, Store.contains]

theorem nearest? (h : AgreeOn way st st') (hway : st.Enclosed way) (hs : s ∈ way) (x : String) :
    st'.nearest? s x = st.nearest? s x := by
  rw [Store.nearest?, h.chain, Store.nearest?]
  exact List.find?_congr fun t ht => h.contains (hway s hs ht) x

theorem get? (h : AgreeOn way st st') (hway : st.Enclosed way) (hs : s ∈ way) (x : String) :
    st'.get? s x = st.get? s x := by
  rw [Store.get?, h.nearest? hway hs, Store.get?]
  cases hnearest : st.nearest? s x with
  | none => rfl
  | some t =>
    have ht : t ∈ way := hway s hs (List.mem_of_find?_eq_some hnearest)
    rw [Option.bind_some, Option.bind_some, localValue?, h.scope t ht, localValue?]

theorem define (h : AgreeOn way st st') (e : ScopeId) (x : String) (v : Value) :
    AgreeOn way (st.define e x v) (st'.define e x v) where
  chain e' := by rw [chain_define, chain_define, h.chain]
  scope s hs := by
    by_cases he : s = e
    · rw [← he, scope?_define_self, scope?_define_self, h.scope s hs]
    · rw [scope?_define_of_ne he, scope?_define_of_ne he, h.scope s hs]

theorem clear (h : AgreeOn way st st') (e : ScopeId) : AgreeOn way (st.clear e) (st'.clear e) where
  chain e' := by rw [chain_clear, chain_clear, h.chain]
  scope s hs := by
    by_cases he : s = e
    · rw [← he, scope?_clear_self, scope?_clear_self, h.scope s hs]
    · rw [scope?_clear_of_ne he, scope?_clear_of_ne he, h.scope s hs]

theorem define_left (h : AgreeOn way st st') (he : e ∉ way) :
    AgreeOn way (st.define e x v) st' where
  chain e' := by rw [chain_define, h.chain]
  scope s hs := by rw [scope?_define_of_ne (ne_of_mem_of_not_mem hs he), h.scope s hs]

theorem clear_left (h : AgreeOn way st st') (he : e ∉ way) : AgreeOn way (st.clear e) st' where
  chain e' := by rw [chain_clear, h.chain]
  scope s hs := by rw [scope?_clear_of_ne (ne_of_mem_of_not_mem hs he), h.scope s hs]

end AgreeOn

-- ============================================================================
-- One request
-- ============================================================================

theorem chain_perform {q : ScopeRequest} (hq : q.makes = 0) (st : Store) (e : ScopeId) :
    (table.perform st q).1.chain e = st.chain e := by
  cases q with
  | newGlobal | newEmpty | child => cases hq
  | define e' x v => exact chain_define st e' x v e
  | assign e' x v =>
    rw [ScopeTable.perform]
    dsimp only [table]
    cases hassign : st.assign? e' x v with
    | none => rfl
    | some st' =>
      obtain ⟨s, -, rfl⟩ := Option.map_eq_some_iff.mp hassign
      exact chain_define st s x v e
  | get e' x =>
    rw [ScopeTable.perform]
    cases table.get? st e' x <;> rfl
  | contains | parent => rfl
  | clear e' => exact chain_clear st e' e

theorem Enclosed.perform {q : ScopeRequest} (h : st.Enclosed way) (hq : q.makes = 0) :
    (table.perform st q).1.Enclosed way := by
  intro s hs
  rw [chain_perform hq]
  exact h s hs

/-- A request about these scopes does the same in both stores. -/
theorem AgreeOn.perform {q : ScopeRequest} (h : AgreeOn way st st') (hway : st.Enclosed way)
    (hq : q.makes = 0) (habout : q.isAbout way = true) :
    AgreeOn way (table.perform st q).1 (table.perform st' q).1 := by
  obtain ⟨e, he, hscope⟩ := ScopeRequest.isAbout_iff.mp habout
  cases q with
  | newGlobal | newEmpty | child => cases hq
  | define e' x v => exact h.define e' x v
  | assign e' x v =>
    obtain rfl : e' = e := Option.some.inj hscope
    rw [ScopeTable.perform, ScopeTable.perform]
    dsimp only [table]
    rw [assign?, assign?, h.nearest? hway he]
    cases st.nearest? e' x with
    | none => exact h
    | some s => exact h.define s x v
  | get e' x =>
    obtain rfl : e' = e := Option.some.inj hscope
    rw [ScopeTable.perform, ScopeTable.perform]
    dsimp only [table]
    rw [h.get? hway he]
    cases st.get? e' x <;> exact h
  | contains | parent => exact h
  | clear e' => exact h.clear e'

/-- A request about other scopes does nothing here. -/
theorem AgreeOn.perform_left {q : ScopeRequest} (h : AgreeOn way st st')
    (hother : st.Enclosed other) (hdisjoint : ∀ s ∈ other, s ∉ way) (hq : q.makes = 0)
    (habout : q.isAbout other = true) :
    AgreeOn way (table.perform st q).1 st' := by
  obtain ⟨e, he, hscope⟩ := ScopeRequest.isAbout_iff.mp habout
  cases q with
  | newGlobal | newEmpty | child => cases hq
  | define e' x v =>
    obtain rfl : e' = e := Option.some.inj hscope
    exact h.define_left (hdisjoint e' he)
  | assign e' x v =>
    obtain rfl : e' = e := Option.some.inj hscope
    rw [ScopeTable.perform]
    dsimp only [table]
    cases hassign : st.assign? e' x v with
    | none => exact h
    | some =>
      obtain ⟨s, hs, rfl⟩ := Option.map_eq_some_iff.mp hassign
      exact h.define_left (hdisjoint s (hother e' he (List.mem_of_find?_eq_some hs)))
  | get e' x =>
    rw [ScopeTable.perform]
    dsimp only [table]
    cases st.get? e' x <;> exact h
  | contains | parent => exact h
  | clear e' =>
    obtain rfl : e' = e := Option.some.inj hscope
    exact h.clear_left (hdisjoint e' he)

-- ============================================================================
-- All requests
-- ============================================================================

/-- Of requests about scopes of either set, only those about the first set have an effect there. -/
theorem AgreeOn.performAll {requests : List ScopeRequest} (h : AgreeOn way st st')
    (hway : st.Enclosed way) (hother : st.Enclosed other) (hdisjoint : ∀ s ∈ other, s ∉ way)
    (hrequests : ∀ q ∈ requests, q.makes = 0 ∧ (q.isAbout way = true ∨ q.isAbout other = true)) :
    AgreeOn way (table.performAll st requests).1
      (table.performAll st' (requests.filter fun q => q.isAbout way)).1 := by
  induction requests generalizing st st' with
  | nil => exact h
  | cons q rest ih =>
    rw [List.forall_mem_cons] at hrequests
    obtain ⟨⟨hq, habout⟩, hrest⟩ := hrequests
    rw [ScopeTable.performAll]
    cases hhere : q.isAbout way with
    | true =>
      rw [List.filter_cons_of_pos hhere, ScopeTable.performAll]
      exact ih (h.perform hway hq hhere) (hway.perform hq) (hother.perform hq) hrest
    | false =>
      rw [List.filter_cons_of_neg (by simp [hhere])]
      have hthere : q.isAbout other = true := habout.resolve_left (by simp [hhere])
      exact ih (h.perform_left hother hdisjoint hq hthere) (hway.perform hq) (hother.perform hq)
        hrest

/-- Whatever is asked of the scopes of either set without making scopes, lookups from the first set
    and the names bound there are as if nothing had been asked of the second. -/
def Isolated (st : Store) (way other : List ScopeId) : Prop :=
  ∀ requests : List ScopeRequest,
    (∀ q ∈ requests, q.makes = 0 ∧ (q.isAbout way = true ∨ q.isAbout other = true)) →
    ∀ s ∈ way, ∀ x,
      (table.performAll st requests).1.get? s x
        = (table.performAll st (requests.filter fun q => q.isAbout way)).1.get? s x ∧
      (table.performAll st requests).1.contains s x
        = (table.performAll st (requests.filter fun q => q.isAbout way)).1.contains s x

theorem Enclosed.performAll {requests : List ScopeRequest} (h : st.Enclosed way)
    (hrequests : ∀ q ∈ requests, q.makes = 0) :
    (table.performAll st requests).1.Enclosed way := by
  induction requests generalizing st with
  | nil => exact h
  | cons q rest ih =>
    rw [List.forall_mem_cons] at hrequests
    exact ih (h.perform hrequests.1) hrequests.2

theorem isolated_of_disjoint (hway : st.Enclosed way) (hother : st.Enclosed other)
    (hdisjoint : ∀ s ∈ other, s ∉ way) : st.Isolated way other := by
  intro requests hrequests s hs x
  have hagree := (AgreeOn.refl way st).performAll hway hother hdisjoint hrequests
  have hafter := hway.performAll fun q hq => (hrequests q hq).1
  exact ⟨(hagree.get? hafter hs x).symm, (hagree.contains hs x).symm⟩

-- ============================================================================
-- Copies
-- ============================================================================

/-- Scope `t` of the second store is a copy of scope `s` of the first. It binds the same names: to
    functions that close over `t` where `s` has functions that close over `s`, and otherwise to the
    same values. -/
structure LevelCopied (st st₁ : Store) (s t : ScopeId) : Prop where
  new : st.scopes.size ≤ t
  names : ∀ x, st₁.contains t x = st.contains s x
  own : ∀ x f, st.localValue? s x = some (.function f s) →
    st₁.localValue? t x = some (.function f t)
  shared : ∀ x v, st.localValue? s x = some v → (∀ f, v ≠ .function f s) →
    st₁.localValue? t x = some v

/-- Whoever is on the way stays on it. -/
theorem enclosed_chain (h : st.Ordered) (he : e < st.scopes.size) : st.Enclosed (st.chain e) := by
  intro s hs t ht
  induction e, he using h.induction with
  | root e he hp =>
    have hse : s = e := List.mem_singleton.mp (chain_of_root he hp ▸ hs)
    exact hse ▸ ht
  | inner e he p hlt hp ih =>
    have hchain : st.chain e = e :: st.chain p := chain_of_parent h hp
    rcases List.mem_cons.mp (hchain ▸ hs) with hse | hs
    · exact hse ▸ ht
    · rw [hchain]
      exact List.mem_cons_of_mem e (ih hs)

theorem Copied.levelCopied (h : st.WellFormed) (hcopied : st.Copied e st₁) (hs : s ∈ st.chain e) :
    LevelCopied st st₁ s (st.copyOf s) := by
  have hlocal : ∀ x, st₁.localValue? (st.copyOf s) x
      = ((st.scope? s).bind fun scope => scope.get? x).map fun b => b.toValue (st.copyOf s) :=
    hcopied.holds.localValue? hs
  refine ⟨st.le_copyOf s, fun x => ?_, fun x f hv => ?_, fun x v hv hnot => ?_⟩
  · rw [contains_eq_isSome, hlocal, Option.isSome_map, contains_eq_isSome, localValue?,
      Option.isSome_map]
  · obtain ⟨b, hb, hvalue⟩ := Option.map_eq_some_iff.mp hv
    rw [hlocal, hb, Option.map_some]
    cases b with
    | value w =>
      -- A function with its own scope is never stored as a value.
      obtain rfl : w = .function f s := hvalue
      obtain ⟨scope, hscope, hget⟩ := Option.bind_eq_some_iff.mp hb
      exact absurd hget (h.own hscope x f)
    | own g =>
      obtain ⟨rfl, -⟩ := Value.function.inj hvalue
      rfl
  · obtain ⟨b, hb, hvalue⟩ := Option.map_eq_some_iff.mp hv
    rw [hlocal, hb, Option.map_some]
    cases b with
    | value w => exact congrArg some hvalue
    | own g => exact absurd hvalue.symm (hnot g)

/-- A scope is copied with all scopes around it, level by level, to new scopes, and no scope that
    was there before changes. After that the original and the copy, each with the scopes around it,
    have nothing to do with each other. -/
theorem copy_isolated {copy : ScopeId} (h : st.WellFormed) (he : e < st.scopes.size)
    (hcopy : st.copy e = (st₁, copy)) :
    List.Forall₂ (LevelCopied st st₁) (st.chain e) (st₁.chain copy) ∧
      (∀ s < st.scopes.size, st₁.scope? s = st.scope? s) ∧
      st₁.Isolated (st.chain e) (st₁.chain copy) ∧ st₁.Isolated (st₁.chain copy) (st.chain e) := by
  obtain ⟨hcopied, rfl⟩ := copied_of_copy h.ordered he hcopy
  have hst₁ : st₁.Ordered := hcopied.ordered
  have hcopies : st₁.chain (st.copyOf e) = (st.chain e).map st.copyOf :=
    hcopied.holds.chain_image h.ordered hst₁ he
  have hkept : st₁.chain e = st.chain e := by
    have himage := (Holds.of_extends (e := e) hcopied.kept).chain_image h.ordered hst₁ he
    rwa [List.map_id] at himage
  have hold : st₁.Enclosed (st.chain e) := by
    rw [← hkept]
    exact enclosed_chain hst₁ (Nat.lt_of_lt_of_le he hcopied.kept.le)
  have hnew : st₁.Enclosed (st₁.chain (st.copyOf e)) :=
    enclosed_chain hst₁ (hcopied.holds.lt_size (mem_chain_self h.ordered he))
  have hdisjoint : ∀ s ∈ st.chain e, s ∉ st₁.chain (st.copyOf e) := by
    intro s hs hmem
    rw [hcopies] at hmem
    obtain ⟨t, -, rfl⟩ := List.mem_map.mp hmem
    exact Nat.not_lt_of_le (st.le_copyOf t) (lt_size_of_mem_chain hs)
  refine ⟨?_, fun s hs => hcopied.kept.same hs, ?_, ?_⟩
  · rw [hcopies, List.forall₂_map_right_iff, List.forall₂_same]
    exact fun s hs => hcopied.levelCopied h hs
  · exact isolated_of_disjoint hold hnew fun s hmem hs => hdisjoint s hs hmem
  · exact isolated_of_disjoint hnew hold hdisjoint

section Witness

/-- Scope 0 binds a function over itself, and scope 1, inside it, binds the same function. -/
def ownAndSharedStore : Store :=
  ((empty.newEmpty.1.child 0).1.define 0 "f" (.function idleFunction 0)).define 1 "g"
    (.function idleFunction 0)

theorem ownAndSharedStore_wellFormed : ownAndSharedStore.WellFormed := by
  have hzero : ∀ f c, Value.function idleFunction 0 = .function f c → c < 2 := by
    intro f c hfc
    obtain ⟨-, rfl⟩ := Value.function.inj hfc
    decide
  exact ((WellFormed.empty.newEmpty.child (by decide)).define hzero).define hzero

/-- Scope 3 is the copy of scope 1 and scope 2 that of scope 0. The function is bound in scope 2 as
    one over scope 2, and in scope 3 as it was in scope 1; a new value in the copy is not seen from
    scope 1. -/
theorem copy_isolated_ownAndShared :
    ownAndSharedStore.WellFormed ∧
      (ownAndSharedStore.copy 1).1.localValue? 2 "f" = some (.function idleFunction 2) ∧
      (ownAndSharedStore.copy 1).1.localValue? 3 "g" = some (.function idleFunction 0) ∧
      (table.performAll (ownAndSharedStore.copy 1).1 [.assign 3 "f" .nil]).1.get? 1 "f"
        = some (.function idleFunction 0) := by
  have hwf := ownAndSharedStore_wellFormed
  obtain ⟨hlevels, -, hkept, -⟩ :=
    copy_isolated hwf (show 1 < ownAndSharedStore.scopes.size by decide)
      (show ownAndSharedStore.copy 1 = ((ownAndSharedStore.copy 1).1, 3) from rfl)
  cases hlevels with
  | cons hinner hlevels =>
    cases hlevels with
    | cons houter _ =>
      refine ⟨hwf, houter.own "f" idleFunction rfl, hinner.shared "g" _ rfl (by simp), ?_⟩
      exact (hkept [.assign 3 "f" .nil] (by decide) 1 (by decide) "f").1.trans rfl

end Witness

end Store

end Lexiscope
