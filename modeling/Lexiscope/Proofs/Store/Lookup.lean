/-
  Lexiscope.Proofs.Store.Lookup

  Which lookups a write changes.

  A name is looked up in the nearest scope that binds it (`Nearest`). Binding a
  name in a scope changes the lookups that come to this scope without having
  found the name (`Unshadowed`), also those that found it further out before, and
  no others. Giving a name a new value changes the lookups that found the old one.

  Both notions are about the way to the root as the store lists it. Where parents
  are older than their children, they are what one comes to by asking parent after
  parent (`unshadowed_iff_comesTo`, `nearest_iff_finds`).
-/
import Lexiscope.Proofs.Store.Plain

namespace Lexiscope.Store

variable {st : Store} {e e' s : ScopeId} {x y : String} {v : Value}

-- ============================================================================
-- Where a name is found
-- ============================================================================

/-- Scope `s` is on the way from `e` to the root, and no scope before it binds the name. -/
def Unshadowed (st : Store) (e s : ScopeId) (x : String) : Prop :=
  ∃ nearer outer, st.chain e = nearer ++ s :: outer ∧ ∀ t ∈ nearer, st.contains t x = false

/-- Scope `s` is the first one on the way from `e` to the root that binds the name. -/
def Nearest (st : Store) (e s : ScopeId) (x : String) : Prop :=
  st.Unshadowed e s x ∧ st.contains s x = true

theorem Unshadowed.lt_size (h : st.Unshadowed e s x) : s < st.scopes.size := by
  obtain ⟨nearer, outer, hchain, -⟩ := h
  exact lt_size_of_mem_chain (by rw [hchain]; exact List.mem_append_right nearer List.mem_cons_self)

theorem nearest?_eq_some_iff : st.nearest? e x = some s ↔ st.Nearest e s x := by
  rw [nearest?, List.find?_eq_some_iff_append]
  constructor
  · rintro ⟨hx, nearer, outer, hchain, hnot⟩
    exact ⟨⟨nearer, outer, hchain, fun t ht => by simpa using hnot t ht⟩, hx⟩
  · rintro ⟨⟨nearer, outer, hchain, hnot⟩, hx⟩
    exact ⟨hx, nearer, outer, hchain, fun t ht => by simp [hnot t ht]⟩

/-- A name has a value where some scope on the way to the root binds it. -/
theorem exists_get?_iff : (∃ w, st.get? e x = some w) ↔ ∃ s, st.nearest? e x = some s := by
  constructor
  · rintro ⟨w, hw⟩
    obtain ⟨s, hs, -⟩ := Option.bind_eq_some_iff.mp hw
    exact ⟨s, hs⟩
  · rintro ⟨s, hs⟩
    have hx : st.contains s x = true := contains_of_nearest? hs
    rw [contains_eq_isSome] at hx
    obtain ⟨w, hw⟩ := Option.isSome_iff_exists.mp hx
    exact ⟨w, by rw [get?, hs, Option.bind_some, hw]⟩

theorem exists_assign?_iff :
    (∃ st', st.assign? e x v = some st') ↔ ∃ s, st.nearest? e x = some s := by
  constructor
  · rintro ⟨st', hassign⟩
    obtain ⟨s, hs, -⟩ := Option.map_eq_some_iff.mp hassign
    exact ⟨s, hs⟩
  · rintro ⟨s, hs⟩
    exact ⟨st.define s x v, by rw [assign?, hs, Option.map_some]⟩

-- ============================================================================
-- Looking up a name by a walk outward
-- ============================================================================

/-- Looking up a name from a scope comes to scope `s` without having found the name before. -/
inductive ComesTo (st : Store) (x : String) : ScopeId → ScopeId → Prop where
  | here (e : ScopeId) : ComesTo st x e e
  | outward {e p s : ScopeId} (h : st.contains e x = false) (hp : st.parent? e = some p)
      (hs : ComesTo st x p s) : ComesTo st x e s

theorem unshadowed_iff_of_root (he : e < st.scopes.size) (hp : st.parent? e = none) :
    st.Unshadowed e s x ↔ s = e := by
  rw [Unshadowed, chain_of_root he hp]
  constructor
  · rintro ⟨_ | ⟨t, nearer⟩, outer, hchain, -⟩
    · exact (List.cons.inj hchain).1.symm
    · have hrest : [] = nearer ++ s :: outer := (List.cons.inj hchain).2
      simp at hrest
  · rintro rfl
    exact ⟨[], [], rfl, by simp⟩

theorem unshadowed_iff_of_parent {p : ScopeId} (h : st.Ordered) (hp : st.parent? e = some p) :
    st.Unshadowed e s x ↔ s = e ∨ st.contains e x = false ∧ st.Unshadowed p s x := by
  rw [Unshadowed, chain_of_parent h hp]
  constructor
  · rintro ⟨_ | ⟨t, nearer⟩, outer, hchain, hnot⟩
    · exact .inl (List.cons.inj hchain).1.symm
    · obtain ⟨rfl, hrest⟩ := List.cons.inj hchain
      rw [List.forall_mem_cons] at hnot
      exact .inr ⟨hnot.1, nearer, outer, hrest, hnot.2⟩
  · rintro (rfl | ⟨hx, nearer, outer, hrest, hnot⟩)
    · exact ⟨[], st.chain p, rfl, by simp⟩
    · exact ⟨e :: nearer, outer, by rw [hrest, List.cons_append],
        List.forall_mem_cons.mpr ⟨hx, hnot⟩⟩

/-- In an ordered store the ways to the root are gone by parents, so the lookups that come to a
    scope unshadowed are those that get there from parent to parent. -/
theorem unshadowed_iff_comesTo (h : st.Ordered) (he : e < st.scopes.size) :
    st.Unshadowed e s x ↔ st.ComesTo x e s := by
  induction e, he using h.induction with
  | root e he hp =>
    rw [unshadowed_iff_of_root he hp]
    constructor
    · rintro rfl
      exact .here s
    · rintro (_ | ⟨-, hp', -⟩)
      · rfl
      · exact nomatch hp.symm.trans hp'
  | inner e he p hlt hp ih =>
    rw [unshadowed_iff_of_parent h hp, ih]
    constructor
    · rintro (rfl | ⟨hx, hs⟩)
      · exact .here s
      · exact .outward hx hp hs
    · rintro (_ | ⟨hx, hp', hs⟩)
      · exact .inl rfl
      · obtain rfl := Option.some.inj (hp.symm.trans hp')
        exact .inr ⟨hx, hs⟩

/-- Looking up a name from a scope comes to the scope that binds it, or to no scope: a scope that
    does not bind the name asks its parent. -/
inductive Finds (st : Store) (x : String) : ScopeId → Option ScopeId → Prop where
  | here {e : ScopeId} (h : st.contains e x = true) : Finds st x e (some e)
  | outward {e p : ScopeId} {r : Option ScopeId} (h : st.contains e x = false)
      (hp : st.parent? e = some p) (hr : Finds st x p r) : Finds st x e r
  | missing {e : ScopeId} (h : st.contains e x = false) (hp : st.parent? e = none) :
      Finds st x e none

theorem Finds.unique {r r' : Option ScopeId} (h : st.Finds x e r) (h' : st.Finds x e r') :
    r = r' := by
  induction h with
  | here hbinds =>
    cases h' with
    | here => rfl
    | outward hnot | missing hnot => exact nomatch hbinds.symm.trans hnot
  | outward hnot hp _ ih =>
    cases h' with
    | here hbinds => exact nomatch hbinds.symm.trans hnot
    | outward _ hp' hr =>
      obtain rfl := Option.some.inj (hp.symm.trans hp')
      exact ih hr
    | missing _ hp' => exact nomatch hp.symm.trans hp'
  | missing hnot hp =>
    cases h' with
    | here hbinds => exact nomatch hbinds.symm.trans hnot
    | outward _ hp' => exact nomatch hp.symm.trans hp'
    | missing => rfl

theorem finds_nearest? (h : st.Ordered) (x : String) (he : e < st.scopes.size) :
    st.Finds x e (st.nearest? e x) := by
  induction e, he using h.induction with
  | root e he hp =>
    cases hx : st.contains e x with
    | true => exact nearest?_of_contains h he hx ▸ .here hx
    | false => exact nearest?_of_root he hp hx ▸ .missing hx hp
  | inner e he p hlt hp ih =>
    cases hx : st.contains e x with
    | true => exact nearest?_of_contains h he hx ▸ .here hx
    | false => exact nearest?_of_parent h hp hx ▸ .outward hx hp ih

theorem finds_iff (h : st.Ordered) (x : String) (he : e < st.scopes.size) {r : Option ScopeId} :
    st.Finds x e r ↔ r = st.nearest? e x :=
  ⟨fun hr => hr.unique (finds_nearest? h x he), fun hr => hr ▸ finds_nearest? h x he⟩

/-- In an ordered store the nearest scope that binds a name is the one that the walk finds. -/
theorem nearest_iff_finds (h : st.Ordered) (he : e < st.scopes.size) :
    st.Nearest e s x ↔ st.Finds x e (some s) := by
  rw [finds_iff h x he, ← nearest?_eq_some_iff, eq_comm]

-- ============================================================================
-- Where a name is found after it was bound
-- ============================================================================

/-- A lookup that comes to the scope without having found the name ends there. -/
theorem Unshadowed.nearest?_define (h : st.Unshadowed e' s x) (v : Value) :
    (st.define s x v).nearest? e' x = some s := by
  have hs : s < st.scopes.size := h.lt_size
  obtain ⟨nearer, outer, hchain, hnot⟩ := h
  rw [nearest?, chain_define, hchain]
  clear hchain
  induction nearer with
  | nil => exact List.find?_cons_of_pos (contains_define_self hs)
  | cons t nearer ih =>
    rw [List.forall_mem_cons] at hnot
    rw [List.cons_append]
    by_cases ht : t = s
    · subst ht
      exact List.find?_cons_of_pos (contains_define_self hs)
    · rw [List.find?_cons_of_neg (by rw [contains_define_of_ne (.inl ht), hnot.1]; decide)]
      exact ih hnot.2

/-- A lookup that does not come to the scope, or found the name before, goes as it did. -/
theorem nearest?_define_of_not_unshadowed (h : ¬ st.Unshadowed e' s x) (v : Value) :
    (st.define s x v).nearest? e' x = st.nearest? e' x := by
  rw [Unshadowed] at h
  rw [nearest?, chain_define, nearest?]
  generalize st.chain e' = way at h ⊢
  -- With a scope that does not bind the name, the rest of the way is shadowed as well.
  induction way with
  | nil => rfl
  | cons t rest ih =>
    have ht : t ≠ s := by
      rintro rfl
      exact h ⟨[], rest, rfl, by simp⟩
    rw [List.find?_cons, List.find?_cons, contains_define_of_ne (.inl ht)]
    cases hx : st.contains t x with
    | true => rfl
    | false =>
      refine ih ?_
      rintro ⟨nearer, outer, hrest, hnot⟩
      refine h ⟨t :: nearer, outer, ?_, ?_⟩
      · rw [hrest, List.cons_append]
      · exact List.forall_mem_cons.mpr ⟨hx, hnot⟩

theorem nearest?_define_of_ne (h : y ≠ x) : (st.define s x v).nearest? e' y = st.nearest? e' y := by
  rw [nearest?, chain_define, nearest?]
  congr 1
  funext t
  exact contains_define_of_ne (.inr h)

-- ============================================================================
-- What lookups give after a name was bound
-- ============================================================================

theorem Unshadowed.get?_define (h : st.Unshadowed e' s x) (v : Value) :
    (st.define s x v).get? e' x = some v := by
  rw [get?, h.nearest?_define, Option.bind_some, localValue?_define_self h.lt_size]

/-- All other lookups give what they gave before. -/
theorem get?_define_of_not (h : ¬ (y = x ∧ st.Unshadowed e' s x)) (v : Value) :
    (st.define s x v).get? e' y = st.get? e' y := by
  by_cases hyx : y = x
  · subst hyx
    have hshadowed : ¬ st.Unshadowed e' s y := fun hs => h ⟨rfl, hs⟩
    rw [get?, nearest?_define_of_not_unshadowed hshadowed, get?]
    cases ht : st.nearest? e' y with
    | none => rfl
    | some t =>
      have hts : t ≠ s := by
        rintro rfl
        exact hshadowed (nearest?_eq_some_iff.mp ht).1
      exact localValue?_define_of_ne (.inl hts)
  · rw [get?, nearest?_define_of_ne hyx, get?]
    cases st.nearest? e' y with
    | none => rfl
    | some t => exact localValue?_define_of_ne (.inr hyx)

/-- A name can be given a new value where it has one. Then the lookups that end in the scope where
    the name is found give the new value; all others give what they gave before, as they do after a
    failure, and every scope binds the names that it did. A name that is bound in a scope is found
    there by the lookups that come to this scope and did not find it before; all others give what
    they gave before. -/
theorem writes_change_lookups (st : Store) (e : ScopeId) (x : String) (v : Value) :
    ((∃ st', st.assign? e x v = some st') ↔ ∃ w, st.get? e x = some w) ∧
      (st.assign? e x v = none → table.perform st (.assign e x v) = (st, .unbound x)) ∧
      (∀ st', st.assign? e x v = some st' → ∃ s, st.Nearest e s x ∧
        (∀ e', st.Nearest e' s x → st'.get? e' x = some v) ∧
        (∀ e' y, ¬ (y = x ∧ st.Nearest e' s x) → st'.get? e' y = st.get? e' y) ∧
        ∀ e' y, st'.contains e' y = st.contains e' y) ∧
      (∀ e', st.Unshadowed e' e x → (st.define e x v).get? e' x = some v) ∧
      ∀ e' y, ¬ (y = x ∧ st.Unshadowed e' e x) → (st.define e x v).get? e' y = st.get? e' y := by
  refine ⟨?_, fun hfail => ?_, fun st' hassign => ?_, fun e' he' => he'.get?_define v,
    fun e' y he' => get?_define_of_not he' v⟩
  · exact exists_assign?_iff.trans exists_get?_iff.symm
  · rw [ScopeTable.perform]
    dsimp only [table]
    rw [hfail]
  · obtain ⟨s, hs, rfl⟩ := Option.map_eq_some_iff.mp hassign
    have hnearest : st.Nearest e s x := nearest?_eq_some_iff.mp hs
    refine ⟨s, hnearest, fun e' he' => he'.1.get?_define v, fun e' y he' => ?_,
      contains_define_of_contains hnearest.2⟩
    have hnot : ¬ (y = x ∧ st.Unshadowed e' s x) := by
      rintro ⟨hyx, hreach⟩
      exact he' ⟨hyx, hreach, hnearest.2⟩
    exact get?_define_of_not hnot v

end Lexiscope.Store
