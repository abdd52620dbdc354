/-
  Lexiscope.Proofs.Store.Copy

  Copies of a scope with all scopes around it.

  Outer scopes are copied before inner ones, so a scope's copy is numbered by how
  many scopes are around it (`depth`). A store holds the chain of a scope if each
  scope of the chain has an image in it, with the same bindings and with the image
  of its parent around it (`Holds`). The store itself does, each scope being its
  own image, and so does the store after a copy, in its new scopes. What a function
  stored without its scope closes over is not written down, so it is the image.
-/
import Lexiscope.Proofs.Store.Basic

namespace Lexiscope.Store

variable {st st₁ st₂ : Store} {a b e p s : ScopeId} {f g : ScopeId → ScopeId}

-- ============================================================================
-- The way to the root
-- ============================================================================

theorem mem_chain_self (h : st.Ordered) (he : e < st.scopes.size) : e ∈ st.chain e := by
  cases hp : st.parent? e with
  | none => rw [chain_of_root he hp]; exact List.mem_singleton_self e
  | some p => rw [chain_of_parent h hp]; exact List.mem_cons_self

/-- The parent of a scope of the chain is in the chain. -/
theorem mem_chain_of_parent? (h : st.Ordered) (he : e < st.scopes.size) (hs : s ∈ st.chain e)
    (hp : st.parent? s = some p) : p ∈ st.chain e := by
  induction e, he using h.induction with
  | root e he hroot =>
    rw [chain_of_root he hroot, List.mem_singleton] at hs
    rw [hs, hroot] at hp
    cases hp
  | inner e he q hq hparent ih =>
    rw [chain_of_parent h hparent, List.mem_cons] at hs ⊢
    rcases hs with rfl | hs
    · obtain rfl : q = p := Option.some.inj (hparent.symm.trans hp)
      exact .inr (mem_chain_self h hq)
    · exact .inr (ih hs)

/-- How many scopes there are around a scope. -/
def depth (st : Store) (e : ScopeId) : Nat := (st.chain e).tail.length

theorem length_chain (h : st.Ordered) (he : e < st.scopes.size) :
    (st.chain e).length = st.depth e + 1 := by
  rw [depth, List.length_tail]
  have hpos : 0 < (st.chain e).length := List.length_pos_of_mem (mem_chain_self h he)
  omega

theorem depth_of_root (he : e < st.scopes.size) (hp : st.parent? e = none) : st.depth e = 0 := by
  rw [depth, chain_of_root he hp, List.tail_cons, List.length_nil]

theorem depth_of_parent (h : st.Ordered) (hp : st.parent? e = some p) :
    st.depth e = st.depth p + 1 := by
  have hlt : p < st.scopes.size := Nat.lt_trans (h hp) (lt_size_of_parent? hp)
  rw [depth, chain_of_parent h hp, List.tail_cons, length_chain h hlt]

/-- Every other scope of the chain has fewer scopes around it. -/
theorem depth_lt_of_mem_chain (h : st.Ordered) (he : e < st.scopes.size) (hs : s ∈ st.chain e) :
    s = e ∨ st.depth s < st.depth e := by
  induction e, he using h.induction with
  | root e he hp =>
    rw [chain_of_root he hp, List.mem_singleton] at hs
    exact .inl hs
  | inner e he p hlt hp ih =>
    rw [chain_of_parent h hp, List.mem_cons] at hs
    refine hs.imp_right fun hs => ?_
    rw [depth_of_parent h hp]
    rcases ih hs with rfl | hless
    · exact Nat.lt_succ_self _
    · exact Nat.lt_succ_of_lt hless

/-- Scopes of one chain differ in how many scopes are around them. -/
theorem eq_of_depth_eq (h : st.Ordered) (he : e < st.scopes.size) (ha : a ∈ st.chain e)
    (hb : b ∈ st.chain e) (hdepth : st.depth a = st.depth b) : a = b := by
  induction e, he using h.induction with
  | root e he hp =>
    rw [chain_of_root he hp, List.mem_singleton] at ha hb
    rw [ha, hb]
  | inner e he p hlt hp ih =>
    have hlast := depth_of_parent h hp
    rw [chain_of_parent h hp, List.mem_cons] at ha hb
    rcases ha with rfl | ha
    · rcases hb with rfl | hb
      · rfl
      · rcases depth_lt_of_mem_chain h hlt hb with rfl | hless <;> omega
    · rcases hb with rfl | hb
      · rcases depth_lt_of_mem_chain h hlt ha with rfl | hless <;> omega
      · exact ih ha hb

-- ============================================================================
-- Stores with more scopes
-- ============================================================================

/-- The second store has the scopes of the first as they are, and may have more. -/
structure Extends (st st₁ : Store) : Prop where
  le : st.scopes.size ≤ st₁.scopes.size
  same : ∀ ⦃s⦄, s < st.scopes.size → st₁.scope? s = st.scope? s

namespace Extends

theorem push (st : Store) (s : Scope) : st.Extends (st.push s).1 where
  le := by
    rw [size_push]
    exact Nat.le_succ _
  same _ hs := scope?_push_of_lt st s hs

theorem trans (h : st.Extends st₁) (h₁ : st₁.Extends st₂) : st.Extends st₂ where
  le := Nat.le_trans h.le h₁.le
  same _ hs := (h₁.same (Nat.lt_of_lt_of_le hs h.le)).trans (h.same hs)

end Extends

-- ============================================================================
-- Stores that hold a chain
-- ============================================================================

/-- The second store has an image of every scope in the chain of `e`, with the same bindings and
    the image of the parent around it. -/
structure Holds (st : Store) (e : ScopeId) (image : ScopeId → ScopeId) (st₁ : Store) : Prop where
  unique : ∀ ⦃a b⦄, a ∈ st.chain e → b ∈ st.chain e → image a = image b → a = b
  scopes : ∀ ⦃s⦄, s ∈ st.chain e → st₁.scope? (image s)
    = (st.scope? s).map fun scope => { scope with parent := scope.parent.map image }

namespace Holds

/-- A store in which the chain has not changed holds it. -/
theorem of_unchanged (h : ∀ s ∈ st.chain e, st₁.scope? s = st.scope? s) : st.Holds e id st₁ where
  unique _ _ _ _ heq := heq
  scopes s hs := by
    rw [id, h s hs]
    cases st.scope? s <;> simp

/-- A store with more scopes holds the chain. -/
theorem of_extends (h : st.Extends st₁) : st.Holds e id st₁ :=
  of_unchanged fun _ hs => h.same (lt_size_of_mem_chain hs)

/-- Scopes that are not images may change. -/
theorem mono (h : st.Holds e f st₁) (hsame : ∀ s ∈ st.chain e, st₂.scope? (f s) = st₁.scope? (f s)) :
    st.Holds e f st₂ where
  unique := h.unique
  scopes s hs := by rw [hsame s hs, h.scopes hs]

theorem parent? (h : st.Holds e f st₁) (hs : s ∈ st.chain e) :
    st₁.parent? (f s) = (st.parent? s).map f := by
  rw [Store.parent?, h.scopes hs, Store.parent?]
  cases st.scope? s <;> rfl

theorem localValue? (h : st.Holds e f st₁) (hs : s ∈ st.chain e) (x : String) :
    st₁.localValue? (f s) x
      = ((st.scope? s).bind fun scope => scope.get? x).map fun b => b.toValue (f s) := by
  rw [Store.localValue?, h.scopes hs]
  cases st.scope? s <;> rfl

theorem lt_size (h : st.Holds e f st₁) (hs : s ∈ st.chain e) : f s < st₁.scopes.size := by
  have hlt : s < st.scopes.size := lt_size_of_mem_chain hs
  obtain ⟨scope, hscope⟩ : ∃ scope, st.scope? s = some scope := ⟨_, Array.getElem?_eq_getElem hlt⟩
  have himage := h.scopes hs
  rw [hscope, Option.map_some] at himage
  exact lt_size_of_scope? himage

/-- The chain of the image of a scope is made of the images. -/
theorem chain_image (h : st.Holds e f st₁) (hst : st.Ordered) (hst₁ : st₁.Ordered)
    (he : e < st.scopes.size) : st₁.chain (f e) = (st.chain e).map f := by
  have hall : ∀ s < st.scopes.size, s ∈ st.chain e → st₁.chain (f s) = (st.chain s).map f := by
    intro s hlt hs
    induction s, hlt using hst.induction with
    | root s hlt hp =>
      have hparent := h.parent? hs
      rw [hp, Option.map_none] at hparent
      rw [chain_of_root (h.lt_size hs) hparent, chain_of_root hlt hp, List.map_singleton]
    | inner s hlt p _ hp ih =>
      have hparent := h.parent? hs
      rw [hp, Option.map_some] at hparent
      rw [chain_of_parent hst₁ hparent, chain_of_parent hst hp, List.map_cons,
        ih (mem_chain_of_parent? hst he hs hp)]
  exact hall e he (mem_chain_self hst he)

/-- What holds the images holds the chain. -/
theorem trans (h : st.Holds e f st₁) (h₁ : st₁.Holds (f e) g st₂) (hst : st.Ordered)
    (hst₁ : st₁.Ordered) (he : e < st.scopes.size) : st.Holds e (g ∘ f) st₂ := by
  have hmem : ∀ ⦃s⦄, s ∈ st.chain e → f s ∈ st₁.chain (f e) := by
    intro s hs
    rw [h.chain_image hst hst₁ he]
    exact List.mem_map_of_mem hs
  constructor
  · intro a b ha hb heq
    exact h.unique ha hb (h₁.unique (hmem ha) (hmem hb) heq)
  · intro s hs
    rw [Function.comp_apply, h₁.scopes (hmem hs), h.scopes hs]
    cases st.scope? s <;> simp

end Holds

-- ============================================================================
-- Copies
-- ============================================================================

/-- The number that the copy of a scope gets. -/
def copyOf (st : Store) (s : ScopeId) : ScopeId := st.scopes.size + st.depth s

/-- The second store is the first with a copy of scope `e` and of those around it. -/
structure Copied (st : Store) (e : ScopeId) (st₁ : Store) : Prop where
  size : st₁.scopes.size = st.copyOf e + 1
  kept : st.Extends st₁
  holds : st.Holds e st.copyOf st₁
  ordered : st₁.Ordered

theorem copyOf_of_parent (h : st.Ordered) (hp : st.parent? e = some p) :
    st.copyOf e = st.copyOf p + 1 := by
  rw [copyOf, depth_of_parent h hp, copyOf, Nat.add_assoc]

theorem le_copyOf (st : Store) (s : ScopeId) : st.scopes.size ≤ st.copyOf s := Nat.le_add_right _ _

/-- Scopes of one chain have different copies. -/
theorem copyOf_inj (h : st.Ordered) (he : e < st.scopes.size) (ha : a ∈ st.chain e)
    (hb : b ∈ st.chain e) (heq : st.copyOf a = st.copyOf b) : a = b :=
  eq_of_depth_eq h he ha hb (Nat.add_left_cancel heq)

theorem copyAll_cons (st : Store) {scope : Scope} (hscope : st.scope? e = some scope)
    (outer : List ScopeId) :
    st.copyAll (e :: outer) =
      (((st.copyAll outer).1.push ⟨scope.bindings, (st.copyAll outer).2⟩).1,
        some (st.copyAll outer).1.scopes.size) := by
  rw [copyAll, hscope]
  rfl

/-- A root is copied to a root. -/
theorem copied_root (h : st.Ordered) {scope : Scope} (hscope : st.scope? e = some scope)
    (hp : scope.parent = none) : st.Copied e (st.push ⟨scope.bindings, none⟩).1 := by
  have he : e < st.scopes.size := lt_size_of_scope? hscope
  have hroot : st.parent? e = none := by rw [parent?, hscope, Option.bind_some, hp]
  have hcopy : st.copyOf e = st.scopes.size := by rw [copyOf, depth_of_root he hroot, Nat.add_zero]
  refine ⟨?_, .push st _, ⟨fun a b => copyOf_inj h he, ?_⟩, ?_⟩
  · rw [size_push, hcopy]
  · intro s hs
    rw [chain_of_root he hroot, List.mem_singleton] at hs
    rw [hs, hcopy, hscope, Option.map_some, hp, Option.map_none]
    exact scope?_push_self st _
  · exact h.push (by simp)

/-- With its parent copied, a scope is copied into the copy of the parent. -/
theorem Copied.inner (h : st.Ordered) {scope : Scope} (hscope : st.scope? e = some scope)
    (hp : scope.parent = some p) (hcopied : st.Copied p st₁) :
    st.Copied e (st₁.push ⟨scope.bindings, some (st.copyOf p)⟩).1 := by
  have he : e < st.scopes.size := lt_size_of_scope? hscope
  have hparent : st.parent? e = some p := by rw [parent?, hscope, Option.bind_some, hp]
  have hlt : p < st.scopes.size := Nat.lt_trans (h hparent) he
  have hcopy : st.copyOf e = st₁.scopes.size := by
    rw [copyOf_of_parent h hparent, hcopied.size]
  refine ⟨?_, hcopied.kept.trans (.push st₁ _), ⟨fun a b => copyOf_inj h he, fun s hs => ?_⟩, ?_⟩
  · rw [size_push, hcopy]
  · rw [chain_of_parent h hparent, List.mem_cons] at hs
    rcases hs with rfl | hs
    · rw [hcopy, hscope, Option.map_some, hp, Option.map_some]
      exact scope?_push_self st₁ _
    · rw [scope?_push_of_lt st₁ _ (hcopied.holds.lt_size hs), hcopied.holds.scopes hs]
  · refine hcopied.ordered.push fun q hq => ?_
    obtain rfl : st.copyOf p = q := Option.some.inj hq
    rw [hcopied.size]
    exact Nat.lt_succ_self _

theorem copied_copyAll (h : st.Ordered) (he : e < st.scopes.size) :
    st.Copied e (st.copyAll (st.chain e)).1 ∧
      (st.copyAll (st.chain e)).2 = some (st.copyOf e) := by
  induction e, he using h.induction with
  | root e he hp =>
    obtain ⟨scope, hscope⟩ : ∃ scope, st.scope? e = some scope := ⟨_, Array.getElem?_eq_getElem he⟩
    rw [chain_of_root he hp, copyAll_cons st hscope, copyOf, depth_of_root he hp]
    rw [parent?, hscope, Option.bind_some] at hp
    exact ⟨copied_root h hscope hp, rfl⟩
  | inner e he p hlt hp ih =>
    obtain ⟨hcopied, hmade⟩ := ih
    obtain ⟨scope, hscope, hparent⟩ := Option.bind_eq_some_iff.mp hp
    rw [chain_of_parent h hp, copyAll_cons st hscope, hmade, hcopied.size, copyOf_of_parent h hp]
    exact ⟨hcopied.inner h hscope hparent, rfl⟩

/-- A scope is copied with all scopes around it. -/
theorem copied_of_copy {made : ScopeId} (h : st.Ordered) (he : e < st.scopes.size)
    (hcopy : st.copy e = (st₁, made)) : st.Copied e st₁ ∧ made = st.copyOf e := by
  obtain ⟨hcopied, hmade⟩ := copied_copyAll h he
  obtain ⟨rfl, rfl⟩ := Prod.ext_iff.mp hcopy
  refine ⟨hcopied, ?_⟩
  show (st.copyAll (st.chain e)).2.getD e = st.copyOf e
  rw [hmade, Option.getD_some]

end Lexiscope.Store
