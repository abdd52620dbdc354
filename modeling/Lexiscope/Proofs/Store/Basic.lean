/-
  Lexiscope.Proofs.Store.Basic

  What can be read from a store, and how making a scope or binding a name
  changes it.

  A scope shows its parent (`parent?`) and the values of its own names
  (`localValue?`); everything else is looked up through these two. A name is
  looked up scope by scope on the way to the root, and that way has an end
  because parents are older than their children (`Ordered`).
-/
import Lexiscope.Scope
import Mathlib.Data.List.Basic

namespace Lexiscope.Store

variable {st : Store} {e e' p : ScopeId} {x y : String} {v : Value}

-- ============================================================================
-- New scopes
-- ============================================================================

theorem size_push (st : Store) (s : Scope) :
    (st.push s).1.scopes.size = st.scopes.size + 1 := by
  simp [push]

theorem parent?_push_of_lt (s : Scope) (h : e < st.scopes.size) :
    (st.push s).1.parent? e = st.parent? e := by
  rw [parent?, scope?_push_of_lt st s h, parent?]

theorem parent?_push_self (st : Store) (s : Scope) :
    (st.push s).1.parent? (st.push s).2 = s.parent := by
  rw [parent?, scope?_push_self, Option.bind_some]

theorem localValue?_push_of_lt (s : Scope) (h : e < st.scopes.size) :
    (st.push s).1.localValue? e x = st.localValue? e x := by
  rw [localValue?, scope?_push_of_lt st s h, localValue?]

theorem localValue?_child_self (st : Store) (e : ScopeId) (x : String) :
    (st.child e).1.localValue? (st.child e).2 x = none := by
  rw [child, localValue?, scope?_push_self]
  rfl

/-- Nothing is known of scopes that were never made. -/
theorem scope?_eq_none (h : st.scopes.size ≤ e) : st.scope? e = none := by
  rw [scope?, Array.getElem?_eq_none h]

theorem lt_size_of_scope? {s : Scope} (h : st.scope? e = some s) : e < st.scopes.size := by
  by_contra hlt
  rw [scope?_eq_none (Nat.le_of_not_lt hlt)] at h
  cases h

/-- A scope is one that was there before, or the new one. -/
theorem scope?_push_cases {s t : Scope} (h : (st.push s).1.scope? e = some t) :
    (e < st.scopes.size ∧ st.scope? e = some t) ∨ (e = st.scopes.size ∧ t = s) := by
  have hlt := lt_size_of_scope? h
  rw [size_push] at hlt
  rcases Nat.lt_or_eq_of_le (Nat.le_of_lt_succ hlt) with hold | rfl
  · rw [scope?_push_of_lt st s hold] at h
    exact .inl ⟨hold, h⟩
  · exact .inr ⟨rfl, Option.some.inj (h.symm.trans (scope?_push_self st s))⟩

/-- A first global scope binds the builtin functions only. -/
theorem exists_builtin_of_newGlobal (h : empty.newGlobal.1.localValue? e x = some v) :
    ∃ b, v = .builtin b := by
  obtain ⟨binding, hbinding, rfl⟩ := Option.map_eq_some_iff.mp h
  obtain ⟨s, hs, hsb⟩ := Option.bind_eq_some_iff.mp hbinding
  rcases scope?_push_cases hs with ⟨-, hold⟩ | ⟨-, rfl⟩
  · rw [scope?_eq_none (Nat.zero_le e)] at hold
    cases hold
  · rw [Scope.get?, List.find?_map, Option.map_map, Option.map_eq_some_iff] at hsb
    obtain ⟨b, -, rfl⟩ := hsb
    exact ⟨b, rfl⟩

theorem lt_size_of_parent? (h : st.parent? e = some p) : e < st.scopes.size := by
  obtain ⟨s, hs, -⟩ := Option.bind_eq_some_iff.mp h
  exact lt_size_of_scope? hs

-- ============================================================================
-- Binding a name
-- ============================================================================

theorem size_define (st : Store) (e : ScopeId) (x : String) (v : Value) :
    (st.define e x v).scopes.size = st.scopes.size := by
  simp [define]

theorem scope?_define_of_ne (h : e' ≠ e) : (st.define e x v).scope? e' = st.scope? e' := by
  rw [define, scope?, Array.getElem?_modify, if_neg (Ne.symm h), scope?]

theorem scope?_define_self (st : Store) (e : ScopeId) (x : String) (v : Value) :
    (st.define e x v).scope? e
      = (st.scope? e).map fun s =>
          { s with bindings := Scope.insert x (.ofValue e v) s.bindings } := by
  rw [define, scope?, Array.getElem?_modify, if_pos rfl, scope?]

theorem parent?_define (st : Store) (e : ScopeId) (x : String) (v : Value) (e' : ScopeId) :
    (st.define e x v).parent? e' = st.parent? e' := by
  by_cases h : e' = e
  · subst h
    rw [parent?, scope?_define_self, parent?]
    cases st.scope? e' <;> rfl
  · rw [parent?, scope?_define_of_ne h, parent?]

/-- A name is read with the value that it was bound to. -/
theorem localValue?_define_self (h : e < st.scopes.size) :
    (st.define e x v).localValue? e x = some v := by
  obtain ⟨s, hs⟩ : ∃ s, st.scope? e = some s := ⟨_, Array.getElem?_eq_getElem h⟩
  rw [localValue?, scope?_define_self, hs, Option.map_some, Option.bind_some, Scope.get?,
    Scope.find?_insert_self, Option.map_some, Option.map_some, Binding.toValue_ofValue]

/-- Binding a name changes nothing for other names, and nothing in other scopes. -/
theorem localValue?_define_of_ne (h : e' ≠ e ∨ y ≠ x) :
    (st.define e x v).localValue? e' y = st.localValue? e' y := by
  by_cases he : e' = e
  · subst he
    have hy : y ≠ x := h.resolve_left fun hne => hne rfl
    rw [localValue?, scope?_define_self, localValue?]
    cases st.scope? e' with
    | none => rfl
    | some s =>
      rw [Option.map_some, Option.bind_some, Option.bind_some, Scope.get?, Scope.get?,
        Scope.find?_insert_of_ne hy]
  · rw [localValue?, scope?_define_of_ne he, localValue?]

-- ============================================================================
-- Unbinding all names
-- ============================================================================

theorem size_clear (st : Store) (e : ScopeId) : (st.clear e).scopes.size = st.scopes.size := by
  simp [clear]

theorem scope?_clear_of_ne (h : e' ≠ e) : (st.clear e).scope? e' = st.scope? e' := by
  rw [clear, scope?, Array.getElem?_modify, if_neg (Ne.symm h), scope?]

theorem scope?_clear_self (st : Store) (e : ScopeId) :
    (st.clear e).scope? e = (st.scope? e).map fun s => { s with bindings := [] } := by
  rw [clear, scope?, Array.getElem?_modify, if_pos rfl, scope?]

theorem parent?_clear (st : Store) (e e' : ScopeId) : (st.clear e).parent? e' = st.parent? e' := by
  by_cases h : e' = e
  · subst h
    rw [parent?, scope?_clear_self, parent?]
    cases st.scope? e' <;> rfl
  · rw [parent?, scope?_clear_of_ne h, parent?]

-- ============================================================================
-- Looking up a name
-- ============================================================================

/-- A scope binds exactly the names that have a value in it. -/
theorem contains_eq_isSome (st : Store) (e : ScopeId) (x : String) :
    st.contains e x = (st.localValue? e x).isSome := by
  rw [contains, localValue?, Option.isSome_map]
  cases st.scope? e with
  | none => rfl
  | some s => exact s.binds_eq_isSome_get? x

theorem contains_push_of_lt (s : Scope) (h : e < st.scopes.size) :
    (st.push s).1.contains e x = st.contains e x := by
  rw [contains_eq_isSome, localValue?_push_of_lt s h, contains_eq_isSome]

theorem lt_size_of_contains (h : st.contains e x = true) : e < st.scopes.size := by
  by_contra hlt
  rw [contains, scope?_eq_none (Nat.le_of_not_lt hlt)] at h
  cases h

/-- The scope in which a name is found binds it. -/
theorem contains_of_nearest? {s : ScopeId} (h : st.nearest? e x = some s) :
    st.contains s x = true :=
  List.find?_some (p := fun s => st.contains s x) h

theorem contains_define_self (h : e < st.scopes.size) : (st.define e x v).contains e x = true := by
  rw [contains_eq_isSome, localValue?_define_self h, Option.isSome_some]

theorem contains_define_of_ne (h : e' ≠ e ∨ y ≠ x) :
    (st.define e x v).contains e' y = st.contains e' y := by
  rw [contains_eq_isSome, localValue?_define_of_ne h, contains_eq_isSome]

/-- A new value for a name that is bound already binds nothing. -/
theorem contains_define_of_contains (h : st.contains e x = true) (e' : ScopeId) (y : String) :
    (st.define e x v).contains e' y = st.contains e' y := by
  by_cases hself : e' = e ∧ y = x
  · obtain ⟨rfl, rfl⟩ := hself
    rw [contains_define_self (lt_size_of_contains h), h]
  · exact contains_define_of_ne (not_and_or.mp hself)

/-- The ways to the root are the same where every scope has the same one around it. -/
theorem chain_congr {st' : Store}
    (h : ∀ s, (st'.scope? s).map Scope.parent = (st.scope? s).map Scope.parent) (e : ScopeId) :
    st'.chain e = st.chain e := by
  have hbound : ∀ bound e, st'.chainUpTo bound e = st.chainUpTo bound e := by
    intro bound
    induction bound with
    | zero => exact fun _ => rfl
    | succ bound ih =>
      intro e
      have hscope := h e
      rw [chainUpTo, chainUpTo]
      cases hs : st.scope? e with
      | none =>
        rw [hs, Option.map_none, Option.map_eq_none_iff] at hscope
        rw [hscope]
      | some s =>
        rw [hs, Option.map_some] at hscope
        obtain ⟨s', hs', hparent⟩ := Option.map_eq_some_iff.mp hscope
        rw [hs']
        cases hp : s.parent with
        | none => simp only [hparent, hp]
        | some p => simp only [hparent, hp, ih]
  exact hbound (e + 1) e

theorem chain_define (st : Store) (e : ScopeId) (x : String) (v : Value) (e' : ScopeId) :
    (st.define e x v).chain e' = st.chain e' := by
  refine chain_congr (fun s => ?_) e'
  by_cases h : s = e
  · rw [h, scope?_define_self, Option.map_map]
    rfl
  · rw [scope?_define_of_ne h]

theorem chain_clear (st : Store) (e e' : ScopeId) : (st.clear e).chain e' = st.chain e' := by
  refine chain_congr (fun s => ?_) e'
  by_cases h : s = e
  · rw [h, scope?_clear_self, Option.map_map]
    rfl
  · rw [scope?_clear_of_ne h]

/-- Only scopes that were made are on the way to a root. -/
theorem lt_size_of_mem_chain {s : ScopeId} (hs : s ∈ st.chain e) : s < st.scopes.size := by
  have hbound : ∀ bound e, s ∈ st.chainUpTo bound e → s < st.scopes.size := by
    intro bound
    induction bound with
    | zero => exact fun _ hs => nomatch hs
    | succ bound ih =>
      intro e hs
      rw [chainUpTo] at hs
      cases hscope : st.scope? e with
      | none => simp [hscope] at hs
      | some scope =>
        have he : e < st.scopes.size := lt_size_of_scope? hscope
        cases hp : scope.parent with
        | none =>
          simp only [hscope, hp, List.mem_singleton] at hs
          exact hs ▸ he
        | some p =>
          simp only [hscope, hp, List.mem_cons] at hs
          rcases hs with rfl | hs
          · exact he
          · exact ih p hs
  exact hbound (e + 1) e hs

/-- Every scope is younger than its parent. -/
def Ordered (st : Store) : Prop := ∀ ⦃e p⦄, st.parent? e = some p → p < e

/-- A statement that holds of roots, and of a scope if it does of its parent, holds of all
    scopes. -/
@[elab_as_elim]
theorem Ordered.induction (h : st.Ordered) {motive : (e : ScopeId) → e < st.scopes.size → Prop}
    (root : ∀ e he, st.parent? e = none → motive e he)
    (inner : ∀ e he p hlt, st.parent? e = some p → motive p hlt → motive e he)
    (e : ScopeId) (he : e < st.scopes.size) : motive e he := by
  induction e using Nat.strongRecOn with
  | ind e ih =>
    cases hp : st.parent? e with
    | none => exact root e he hp
    | some p =>
      have hlt : p < e := h hp
      exact inner e he p (Nat.lt_trans hlt he) hp (ih p hlt (Nat.lt_trans hlt he))

theorem Ordered.push {s : Scope} (h : st.Ordered)
    (hs : ∀ q, s.parent = some q → q < st.scopes.size) : (st.push s).1.Ordered := by
  intro e p hp
  have hlt := lt_size_of_parent? hp
  rw [size_push] at hlt
  rcases Nat.lt_or_eq_of_le (Nat.le_of_lt_succ hlt) with hold | rfl
  · rw [parent?_push_of_lt s hold] at hp
    exact h hp
  · exact hs p ((parent?_push_self st s).symm.trans hp)

theorem Ordered.child (h : st.Ordered) (he : e < st.scopes.size) : (st.child e).1.Ordered := by
  refine h.push fun q hq => ?_
  obtain rfl : e = q := Option.some.inj hq
  exact he

theorem Ordered.define (h : st.Ordered) : (st.define e x v).Ordered := by
  intro e' p hp
  rw [parent?_define] at hp
  exact h hp

theorem Ordered.clear (h : st.Ordered) : (st.clear e).Ordered := by
  intro e' p hp
  rw [parent?_clear] at hp
  exact h hp

theorem ordered_newGlobal : empty.newGlobal.1.Ordered := by
  refine Ordered.push (fun e p hp => ?_) fun q hq => nomatch hq
  exact absurd (lt_size_of_parent? hp) (Nat.not_lt_zero e)

/-- The way to the root does not depend on the bound, once it is large enough. -/
theorem chainUpTo_eq (h : st.Ordered) {n m : Nat} (hn : e < n) (hm : e < m) :
    st.chainUpTo n e = st.chainUpTo m e := by
  induction n generalizing e m with
  | zero => exact absurd hn (Nat.not_lt_zero e)
  | succ n ih =>
    obtain ⟨m, rfl⟩ := Nat.exists_eq_add_one_of_ne_zero (Nat.ne_zero_of_lt hm)
    rw [chainUpTo, chainUpTo]
    cases hs : st.scope? e with
    | none => rfl
    | some s =>
      cases hp : s.parent with
      | none => simp only [hp]
      | some p =>
        have hlt : p < e := h (by rw [parent?, hs, Option.bind_some, hp])
        simp only [hp]
        rw [ih (Nat.lt_of_lt_of_le hlt (Nat.le_of_lt_succ hn))
          (Nat.lt_of_lt_of_le hlt (Nat.le_of_lt_succ hm))]

theorem chain_of_parent (h : st.Ordered) (hp : st.parent? e = some p) :
    st.chain e = e :: st.chain p := by
  obtain ⟨s, hs, hsp⟩ := Option.bind_eq_some_iff.mp hp
  have hlt : p < e := h hp
  rw [chain, chainUpTo, hs]
  simp only [hsp]
  rw [chain, chainUpTo_eq h hlt (Nat.lt_succ_self p)]

theorem chain_of_root (he : e < st.scopes.size) (hp : st.parent? e = none) : st.chain e = [e] := by
  obtain ⟨s, hs⟩ : ∃ s, st.scope? e = some s := ⟨_, Array.getElem?_eq_getElem he⟩
  rw [parent?, hs, Option.bind_some] at hp
  rw [chain, chainUpTo, hs]
  simp only [hp]

/-- A scope that binds the name is the nearest one to itself. -/
theorem nearest?_of_contains (h : st.Ordered) (he : e < st.scopes.size)
    (hx : st.contains e x = true) : st.nearest? e x = some e := by
  cases hp : st.parent? e with
  | none => rw [nearest?, chain_of_root he hp, List.find?_cons_of_pos (by exact hx)]
  | some p => rw [nearest?, chain_of_parent h hp, List.find?_cons_of_pos (by exact hx)]

/-- What a scope does not bind itself is looked up from its parent. -/
theorem nearest?_of_parent (h : st.Ordered) (hp : st.parent? e = some p)
    (hx : st.contains e x = false) : st.nearest? e x = st.nearest? p x := by
  rw [nearest?, chain_of_parent h hp, List.find?_cons_of_neg (by simp [hx]), nearest?]

/-- What a root does not bind is not bound. -/
theorem nearest?_of_root (he : e < st.scopes.size) (hp : st.parent? e = none)
    (hx : st.contains e x = false) : st.nearest? e x = none := by
  rw [nearest?, chain_of_root he hp, List.find?_cons_of_neg (by simp [hx]), List.find?_nil]

/-- What a scope binds itself is what is looked up from it. -/
theorem get?_of_localValue? (h : st.Ordered) (hv : st.localValue? e x = some v) :
    st.get? e x = some v := by
  have hx : st.contains e x = true := by rw [contains_eq_isSome, hv, Option.isSome_some]
  rw [get?, nearest?_of_contains h (lt_size_of_contains hx) hx, Option.bind_some, hv]

theorem get?_of_parent (h : st.Ordered) (hp : st.parent? e = some p)
    (hv : st.localValue? e x = none) : st.get? e x = st.get? p x := by
  have hx : st.contains e x = false := by rw [contains_eq_isSome, hv, Option.isSome_none]
  rw [get?, nearest?_of_parent h hp hx, get?]

theorem get?_of_root (he : e < st.scopes.size) (hp : st.parent? e = none)
    (hv : st.localValue? e x = none) : st.get? e x = none := by
  have hx : st.contains e x = false := by rw [contains_eq_isSome, hv, Option.isSome_none]
  rw [get?, nearest?_of_root he hp hx, Option.bind_none]

/-- A name that was given a new value is looked up with this value. -/
theorem get?_of_assign? {st' : Store} (h : st.assign? e x v = some st') :
    st'.get? e x = some v := by
  obtain ⟨s, hs, rfl⟩ := Option.map_eq_some_iff.mp h
  have hx : st.contains s x = true := contains_of_nearest? hs
  have hnearest : (st.define s x v).nearest? e x = some s := by
    rw [nearest?, chain_define]
    simp only [contains_define_of_contains hx]
    exact hs
  rw [get?, hnearest, Option.bind_some, localValue?_define_self (lt_size_of_contains hx)]

end Lexiscope.Store
