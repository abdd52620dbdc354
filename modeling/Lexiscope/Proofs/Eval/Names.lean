/-
  Lexiscope.Proofs.Eval.Names

  Definitions stay in the scope that they are made in.

  An expression binds no name in any scope that is there already: a call makes a
  scope of its own for the parameters and the body of the function. A statement
  binds names in the scope that it runs in, and only those that it declares
  itself or in its branches (`Stmt.declared`); blocks, loops and functions declare
  theirs in scopes that they make. No scope loses a name or gets another parent.

  Which names may be bound is said of the scopes that were there at the beginning,
  the first `n` (`EvalM.BindsOnly`). A scope that was made on the way may bind
  anything.
-/
import Lexiscope.Proofs.Eval.Walk
import Lexiscope.Proofs.Store.Basic

namespace Lexiscope

-- ============================================================================
-- Stores that bind more
-- ============================================================================

/-- The second store has all scopes and names of the first, with the same parents, and of the first
    `n` scopes it binds more names only where that is allowed. -/
structure Store.Widens (n : Nat) (allowed : ScopeId → String → Prop) (st st' : Store) : Prop where
  size : st.scopes.size ≤ st'.scopes.size
  parents : ∀ ⦃e⦄, e < st.scopes.size → st'.parent? e = st.parent? e
  kept : ∀ ⦃e x⦄, st.contains e x = true → st'.contains e x = true
  gained : ∀ ⦃e x⦄, e < n → st'.contains e x = true → st.contains e x = true ∨ allowed e x

/-- Nothing may be bound anywhere. -/
def noNames : ScopeId → String → Prop := fun _ _ => False

/-- Only these names may be bound, and only in this scope. -/
def namesIn (scope : ScopeId) (names : List String) : ScopeId → String → Prop :=
  fun e x => e = scope ∧ x ∈ names

namespace Store.Widens

variable {n : Nat} {allowed : ScopeId → String → Prop} {st st₁ st₂ : Store} {e : ScopeId}
  {x : String}

protected theorem refl (st : Store) : st.Widens n allowed st where
  size := Nat.le_refl _
  parents _ _ := rfl
  kept _ _ h := h
  gained _ _ _ h := .inl h

theorem trans (h : st.Widens n allowed st₁) (h' : st₁.Widens n allowed st₂) :
    st.Widens n allowed st₂ where
  size := Nat.le_trans h.size h'.size
  parents _ he := (h'.parents (Nat.lt_of_lt_of_le he h.size)).trans (h.parents he)
  kept _ _ hx := h'.kept (h.kept hx)
  gained _ _ he hx := (h'.gained he hx).elim (h.gained he) .inr

theorem child (hn : n ≤ st.scopes.size) (e : ScopeId) : st.Widens n allowed (st.child e).1 where
  size := Nat.le_of_lt (Nat.lt_of_lt_of_eq (Nat.lt_succ_self _) (size_push st _).symm)
  parents _ he := parent?_push_of_lt _ he
  kept _ _ hx := by rwa [Store.child, contains_push_of_lt _ (lt_size_of_contains hx)]
  gained _ _ he hx := by
    rw [Store.child, contains_push_of_lt _ (Nat.lt_of_lt_of_le he hn)] at hx
    exact .inl hx

theorem define (h : n ≤ e ∨ allowed e x) (v : Value) :
    st.Widens n allowed (st.define e x v) where
  size := Nat.le_of_eq (size_define st e x v).symm
  parents e' _ := parent?_define st e x v e'
  kept e' y hy := by
    by_cases hself : e' = e ∧ y = x
    · obtain ⟨rfl, rfl⟩ := hself
      rw [contains_eq_isSome, localValue?_define_self (lt_size_of_contains hy)]
      rfl
    · rw [contains_eq_isSome, localValue?_define_of_ne (not_and_or.mp hself), ← contains_eq_isSome]
      exact hy
  gained e' y he hy := by
    by_cases hself : e' = e ∧ y = x
    · obtain ⟨rfl, rfl⟩ := hself
      exact .inr (h.resolve_left (Nat.not_le_of_lt he))
    · rw [contains_eq_isSome, localValue?_define_of_ne (not_and_or.mp hself),
        ← contains_eq_isSome] at hy
      exact .inl hy

/-- A new value for a name that is bound already binds nothing. -/
theorem define_of_contains (h : st.contains e x = true) (v : Value) :
    st.Widens n allowed (st.define e x v) where
  size := Nat.le_of_eq (size_define st e x v).symm
  parents e' _ := parent?_define st e x v e'
  kept e' y hy := (contains_define_of_contains h e' y).trans hy
  gained e' y _ hy := .inl ((contains_define_of_contains h e' y).symm.trans hy)

/-- A scope binds the same names as before, where no more may be bound. -/
theorem contains_eq (h : st.Widens n allowed st₁) (he : e < n) (hx : ¬ allowed e x) :
    st₁.contains e x = st.contains e x := by
  rw [Bool.eq_iff_iff]
  exact ⟨fun hafter => (h.gained he hafter).resolve_right hx, fun hbefore => h.kept hbefore⟩

end Store.Widens

-- ============================================================================
-- Steps that bind names
-- ============================================================================

/-- On a store with `n` scopes or more, and however the step ends, it binds more names in the first
    `n` only where that is allowed. A result that it ends with has the property. -/
def EvalM.BindsOnly {α : Type} (n : Nat) (allowed : ScopeId → String → Prop) (A : α → Prop)
    (x : EvalM α) : Prop :=
  ∀ ⦃m r m'⦄, n ≤ m.store.scopes.size → x m = some (r, m') →
    m.store.Widens n allowed m'.store ∧ ∀ a, r = .ok a → A a

namespace EvalM.BindsOnly

variable {α β : Type} {n : Nat} {allowed : ScopeId → String → Prop} {A : α → Prop} {B : β → Prop}

theorem outOfFuel : (EvalM.outOfFuel : EvalM α).BindsOnly n allowed A := by
  intro m r m' _ h
  cases h

/-- A step that leaves the store alone binds nothing. -/
theorem of_store_eq {x : EvalM α}
    (h : ∀ ⦃m r m'⦄, x m = some (r, m') → m'.store = m.store ∧ ∀ a, r = .ok a → A a) :
    x.BindsOnly n allowed A := by
  intro m r m' _ hx
  obtain ⟨hstore, hresult⟩ := h hx
  rw [hstore]
  exact ⟨.refl m.store, hresult⟩

theorem ofExcept {r : Except RuntimeError α} (h : ∀ a, r = .ok a → A a) :
    (EvalM.ofExcept r).BindsOnly n allowed A :=
  of_store_eq (by rintro m _ m' ⟨⟩; exact ⟨rfl, h⟩)

protected theorem pure {a : α} (h : A a) : (pure a : EvalM α).BindsOnly n allowed A :=
  ofExcept (r := .ok a) (by rintro _ ⟨⟩; exact h)

theorem fail (t : Token) (f : Fault) : (EvalM.fail t f : EvalM α).BindsOnly n allowed A :=
  ofExcept (r := .error ⟨t, f⟩) nofun

theorem lookup (e : ScopeId) (name : Token) :
    (EvalM.lookup e name).BindsOnly n allowed fun _ => True := by
  refine of_store_eq fun m r m' h => ?_
  unfold EvalM.lookup at h
  split at h <;> (cases h; exact ⟨rfl, fun _ _ => trivial⟩)

theorem write (t : Token) (text : String) :
    (EvalM.write t text).BindsOnly n allowed fun _ => True := by
  refine of_store_eq fun m r m' h => ?_
  unfold EvalM.write at h
  dsimp only at h
  split at h <;> (cases h; exact ⟨rfl, fun _ _ => trivial⟩)

/-- The new scope is none of the first ones. -/
theorem newChild (e : ScopeId) : (EvalM.newChild e).BindsOnly n allowed fun inner => n ≤ inner := by
  rintro m r m' hn ⟨⟩
  refine ⟨.child hn e, ?_⟩
  rintro _ ⟨⟩
  exact hn

theorem define {e : ScopeId} {x : String} (h : n ≤ e ∨ allowed e x) (v : Value) :
    (EvalM.define e x v).BindsOnly n allowed fun _ => True := by
  rintro m r m' _ ⟨⟩
  exact ⟨.define h v, fun _ _ => trivial⟩

/-- An assignment finds its name bound. -/
theorem assign (e : ScopeId) (name : Token) (v : Value) :
    (EvalM.assign e name v).BindsOnly n allowed fun _ => True := by
  intro m r m' _ h
  unfold EvalM.assign at h
  dsimp only at h
  split at h
  · next s hs =>
    cases h
    exact ⟨.define_of_contains (Store.contains_of_nearest? hs) v, fun _ _ => trivial⟩
  · cases h
    exact ⟨.refl m.store, fun _ _ => trivial⟩

theorem mono {A' : α → Prop} {x : EvalM α} (hx : x.BindsOnly n allowed A) (h : ∀ a, A a → A' a) :
    x.BindsOnly n allowed A' := by
  intro m r m' hn hrun
  obtain ⟨hwidens, hresult⟩ := hx hn hrun
  exact ⟨hwidens, fun a ha => h a (hresult a ha)⟩

protected theorem bind {x : EvalM α} {f : α → EvalM β} (hx : x.BindsOnly n allowed A)
    (hf : ∀ a, A a → (f a).BindsOnly n allowed B) : (x >>= f).BindsOnly n allowed B := by
  intro m r m' hn h
  have h' : EvalM.bind x f m = some (r, m') := h
  unfold EvalM.bind at h'
  split at h'
  · cases h'
  · next e m₁ hfirst =>
    cases h'
    exact ⟨(hx hn hfirst).1, nofun⟩
  · next a m₁ hfirst =>
    obtain ⟨hwidens, hresult⟩ := hx hn hfirst
    obtain ⟨hwidens', hresult'⟩ := hf a (hresult a rfl) (Nat.le_trans hn hwidens.size) h'
    exact ⟨hwidens.trans hwidens', hresult'⟩

theorem ite {c : Prop} [Decidable c] {x y : EvalM α} (hyes : x.BindsOnly n allowed A)
    (hno : y.BindsOnly n allowed A) : (if c then x else y).BindsOnly n allowed A := by
  split
  · exact hyes
  · exact hno

theorem inCall {x : EvalM α} (hx : x.BindsOnly n allowed A) :
    (EvalM.inCall x).BindsOnly n allowed A := by
  intro m r m' hn h
  unfold EvalM.inCall at h
  split at h
  · cases h
  · next r₁ m₁ hbody =>
    cases h
    obtain ⟨hwidens, hresult⟩ := @hx { m with activeCalls := m.activeCalls + 1 } _ _ hn hbody
    exact ⟨hwidens, hresult⟩

end EvalM.BindsOnly

-- ============================================================================
-- The evaluator
-- ============================================================================

/-- Only the first run is looked at. Any name may be bound in a scope that is none of the first
    ones. -/
def binding (limit n : Nat) (allowed : ScopeId → String → Prop) : Walk OneWorld where
  toTrees := .same
  limit := limit
  limit' := limit
  Scopes _ := Eq
  Values _ := Eq
  Binds _ e x := n ≤ e ∨ allowed e x
  Steps _ A x _ := x.BindsOnly n allowed fun a => ∃ b, A ⟨⟩ a b
  scopes_mono _ h := h
  binds_mono _ h := h
  values_iff := ValuePair.eq_iff
  outOfFuel _ _ := .outOfFuel
  pure h := .pure ⟨_, h ⟨⟩ le_rfl⟩
  bind hx hf := .bind hx fun a ⟨b, hab⟩ => hf ⟨⟩ le_rfl a b hab
  inCall h := .inCall h
  activeCalls _ := .of_store_eq (by rintro m r m' ⟨⟩; exact ⟨rfl, fun d _ => ⟨d, rfl⟩⟩)
  note e := .of_store_eq (by rintro m r m' ⟨⟩; exact ⟨rfl, fun _ _ => ⟨(), trivial⟩⟩)
  newChild _ := (EvalM.BindsOnly.newChild _).mono fun c hc => ⟨c, rfl, fun _ => .inl hc⟩
  define _ hname _ := (EvalM.BindsOnly.define hname _).mono fun _ _ => ⟨(), trivial⟩
  lookup _ _ := (EvalM.BindsOnly.lookup _ _).mono fun v _ => ⟨v, rfl⟩
  assign _ _ _ := (EvalM.BindsOnly.assign _ _ _).mono fun _ _ => ⟨(), trivial⟩
  write text _ := (EvalM.BindsOnly.write _ text).mono fun _ _ => ⟨(), trivial⟩
  sign _ _ := .ofExcept fun v _ => ⟨v, rfl⟩
  operator _ _ _ := .ofExcept fun v _ => ⟨v, rfl⟩
  notCallable _ _ := .fail _ _
  wrongArity _ _ _ _ _ := .fail _ _
  tooDeep _ _ _ _ _ h := .ite (.fail _ _) h

variable {limit fuel : Nat} {m m' : Machine}

/-- Of the scopes that were there, a statement binds names only in the one that it runs in, and only
    those that it declares. -/
theorem exec_widens {r : Except RuntimeError Flow} (s : Stmt) (scope : ScopeId)
    (h : exec limit fuel s scope m = some (r, m')) :
    m.store.Widens m.store.scopes.size (namesIn scope s.declared) m'.store := by
  have halong := (binding limit m.store.scopes.size (namesIn scope s.declared)).along fuel
  exact (halong.exec false (w := ⟨⟩) rfl rfl (fun x hx => .inr ⟨rfl, hx⟩) (Nat.le_refl _) h).1

/-- Of the scopes that were there, an expression binds names in none. -/
theorem eval_widens {r : Except RuntimeError Value} (e : Expr) (scope : ScopeId)
    (h : eval limit fuel e scope m = some (r, m')) :
    m.store.Widens m.store.scopes.size noNames m'.store := by
  have halong := (binding limit m.store.scopes.size noNames).along fuel
  exact (halong.eval false (w := ⟨⟩) rfl rfl (Nat.le_refl _) h).1

-- ============================================================================
-- Definitions stay in their scope
-- ============================================================================

/-- However a statement or an expression that runs in scope `e` ends: no scope that was there loses
    a name or gets another parent. A statement binds more names in `e` only, and only those that it
    declares; an expression binds no more names at all. -/
theorem definitions_stay_in_scope {limit : Nat} {m : Machine} {e : ScopeId}
    (he : e < m.store.scopes.size) :
    (∀ s fuel r m', exec limit fuel s e m = some (r, m') →
      (∀ scope < m.store.scopes.size, m'.store.parent? scope = m.store.parent? scope ∧
        ∀ x, m.store.contains scope x = true → m'.store.contains scope x = true) ∧
      (∀ scope < m.store.scopes.size, scope ≠ e →
        ∀ x, m'.store.contains scope x = m.store.contains scope x) ∧
      ∀ x, m'.store.contains e x = true → m.store.contains e x = true ∨ x ∈ s.declared) ∧
    ∀ expr fuel r m', eval limit fuel expr e m = some (r, m') →
      ∀ scope < m.store.scopes.size, m'.store.parent? scope = m.store.parent? scope ∧
        ∀ x, m'.store.contains scope x = m.store.contains scope x := by
  constructor
  · intro s fuel r m' hrun
    have hwidens := exec_widens s e hrun
    refine ⟨fun scope hscope => ⟨hwidens.parents hscope, fun _ => (hwidens.kept ·)⟩, ?_, ?_⟩
    · intro scope hscope hne x
      refine hwidens.contains_eq hscope fun hallowed => ?_
      exact hne hallowed.1
    · intro x hx
      exact (hwidens.gained he hx).imp_right And.right
  · intro expr fuel r m' hrun scope hscope
    have hwidens := eval_widens expr e hrun
    exact ⟨hwidens.parents hscope, fun x => hwidens.contains_eq hscope fun hfalse => hfalse⟩

section Witness

/-- A name that stands nowhere in particular. -/
def looseName (name : String) : Token := ⟨.identifier, name, Pos.first, Pos.first⟩

/-- `fn f() { let z; return true; }` -/
def hidingFunction : FunctionDef :=
  ⟨1, looseName "f", [], [.letVar (looseName "z") none,
    .returnStmt (looseName "return") (some (.boolean true))]⟩

/-- The builtin functions and `hidingFunction`, which closes over the scope that binds it. -/
def hidingMachine : Machine :=
  ⟨Store.empty.newGlobal.1.define 0 "f" (.function hidingFunction 0), .unbounded, 0, .silent⟩

/-- `if (f()) let y; else { let w; }` -/
def choosingStmt : Stmt :=
  .ifThenElse (looseName "if") (.call (.identifier (looseName "f")) (looseName "(") [])
    (.letVar (looseName "y") none) (.block (looseName "block") [.letVar (looseName "w") none])

/-- The branch binds its name; what the function declares in its own scope does not show. -/
theorem definitions_stay_in_scope_choosing :
    ∃ r m', exec 1 20 choosingStmt 0 hidingMachine = some (r, m') ∧
      m'.store.contains 0 "y" = true ∧ m'.store.contains 0 "z" = false ∧
      ∀ x, m'.store.contains 0 x = true → hidingMachine.store.contains 0 x = true ∨ x = "y" := by
  have hends : ((exec 1 20 choosingStmt 0 hidingMachine).map fun answer =>
      (answer.2.store.contains 0 "y", answer.2.store.contains 0 "z")) = some (true, false) := by
    decide +kernel
  obtain ⟨⟨r, m'⟩, hrun, hnames⟩ := Option.map_eq_some_iff.mp hends
  have hstay := ((definitions_stay_in_scope (by decide)).1 choosingStmt 20 r m' hrun).2.2
  refine ⟨r, m', hrun, congrArg Prod.fst hnames, congrArg Prod.snd hnames, fun x hx => ?_⟩
  exact (hstay x hx).imp_right List.mem_singleton.mp

end Witness

end Lexiscope
