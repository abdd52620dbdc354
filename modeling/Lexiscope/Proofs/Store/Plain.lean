/-
  Lexiscope.Proofs.Store.Plain

  How functions are stored cannot be seen.

  In the plain model of scopes a name stands for a value in full, also when the
  value is a function that closes over the scope that binds it. Reading and
  writing walk from scope to parent. A store gives the same reply as the plain
  model to every request, whatever requests came before (`replies_eq_plain`), so
  a function is read back with the definition and the scope it was stored with.
  Requests are about scopes that were made before (`Addressed`); there is no other
  way to name one.
-/
import Lexiscope.Proofs.Store.Basic

namespace Lexiscope

-- ============================================================================
-- Requests and replies
-- ============================================================================

/-- What can be asked of scopes. -/
inductive ScopeRequest where
  /-- A new scope without a parent that binds the builtin functions. -/
  | newGlobal
  /-- A new scope that binds nothing and has no parent. -/
  | newEmpty
  /-- A new scope inside another one. -/
  | child (e : ScopeId)
  /-- Binds a name in the scope itself. -/
  | define (e : ScopeId) (x : String) (v : Value)
  /-- Gives a name a new value where it is bound. -/
  | assign (e : ScopeId) (x : String) (v : Value)
  /-- Looks a name up. -/
  | get (e : ScopeId) (x : String)
  /-- Does the scope itself bind the name? -/
  | contains (e : ScopeId) (x : String)
  /-- The scope around. -/
  | parent (e : ScopeId)
  /-- Unbinds every name of the scope itself. -/
  | clear (e : ScopeId)

/-- What comes back. -/
inductive ScopeReply where
  | made (e : ScopeId)
  | done
  | unbound (x : String)
  | value (v : Value)
  | bound (answer : Bool)
  | around (parent : Option ScopeId)

/-- The scope that a request is about. -/
def ScopeRequest.scope? : ScopeRequest → Option ScopeId
  | newGlobal | newEmpty => none
  | child e | define e _ _ | assign e _ _ | get e _ | contains e _ | parent e | clear e => some e

/-- How many scopes a request makes. -/
def ScopeRequest.makes : ScopeRequest → Nat
  | newGlobal | newEmpty | child _ => 1
  | define .. | assign .. | get .. | contains .. | parent _ | clear _ => 0

/-- Where so many scopes were made already, every request is about one that was made before. -/
def Addressed : Nat → List ScopeRequest → Prop
  | _, [] => True
  | made, q :: rest => (∀ e ∈ q.scope?, e < made) ∧ Addressed (made + q.makes) rest

/-- Some way to keep scopes. -/
structure ScopeTable (σ : Type) where
  newGlobal : σ → σ × ScopeId
  newEmpty : σ → σ × ScopeId
  child : σ → ScopeId → σ × ScopeId
  define : σ → ScopeId → String → Value → σ
  assign? : σ → ScopeId → String → Value → Option σ
  get? : σ → ScopeId → String → Option Value
  contains : σ → ScopeId → String → Bool
  parent? : σ → ScopeId → Option ScopeId
  clear : σ → ScopeId → σ

namespace ScopeTable

variable {σ : Type}

/-- The reply to one request, and the scopes afterwards. -/
def perform (t : ScopeTable σ) (s : σ) : ScopeRequest → σ × ScopeReply
  | .newGlobal => ((t.newGlobal s).1, .made (t.newGlobal s).2)
  | .newEmpty => ((t.newEmpty s).1, .made (t.newEmpty s).2)
  | .child e => ((t.child s e).1, .made (t.child s e).2)
  | .define e x v => (t.define s e x v, .done)
  | .assign e x v =>
    match t.assign? s e x v with
    | some s' => (s', .done)
    | none => (s, .unbound x)
  | .get e x =>
    match t.get? s e x with
    | some v => (s, .value v)
    | none => (s, .unbound x)
  | .contains e x => (s, .bound (t.contains s e x))
  | .parent e => (s, .around (t.parent? s e))
  | .clear e => (t.clear s e, .done)

/-- The replies to requests that come one after the other, and the scopes afterwards. -/
def performAll (t : ScopeTable σ) : σ → List ScopeRequest → σ × List ScopeReply
  | s, [] => (s, [])
  | s, q :: rest =>
    let (s', reply) := t.perform s q
    let (s'', replies) := performAll t s' rest
    (s'', reply :: replies)

end ScopeTable

/-- Scopes as a store keeps them. -/
def Store.table : ScopeTable Store where
  newGlobal := newGlobal
  newEmpty := newEmpty
  child := child
  define := define
  assign? := assign?
  get? := get?
  contains := contains
  parent? := parent?
  clear := clear

-- ============================================================================
-- The plain model
-- ============================================================================

/-- What each name stands for, in full, and the scope around. -/
structure PlainScope where
  value? : String → Option Value
  parent : Option ScopeId

/-- The scope with this name bound. -/
def PlainScope.set (s : PlainScope) (x : String) (v : Value) : PlainScope :=
  { s with value? := fun y => if y = x then some v else s.value? y }

/-- All scopes, in the order they were made. -/
structure PlainStore where
  scopes : List PlainScope

namespace PlainStore

/-- No scopes at all. -/
def empty : PlainStore := ⟨[]⟩

/-- The value that the name has in this scope itself. -/
def localValue? (pl : PlainStore) (e : ScopeId) (x : String) : Option Value :=
  pl.scopes[e]?.bind fun s => s.value? x

/-- The scope around a scope. -/
def parent? (pl : PlainStore) (e : ScopeId) : Option ScopeId := pl.scopes[e]?.bind PlainScope.parent

/-- Makes a new scope. -/
def push (pl : PlainStore) (s : PlainScope) : PlainStore × ScopeId :=
  (⟨pl.scopes ++ [s]⟩, pl.scopes.length)

/-- Binds the name in this scope itself. -/
def define (pl : PlainStore) (e : ScopeId) (x : String) (v : Value) : PlainStore :=
  ⟨pl.scopes.modify e fun s => s.set x v⟩

/-- Unbinds every name of this scope itself. -/
def clear (pl : PlainStore) (e : ScopeId) : PlainStore :=
  ⟨pl.scopes.modify e fun s => { s with value? := fun _ => none }⟩

/-- The value that the name has in this scope, or else when it is looked up from the parent. -/
def get? (pl : PlainStore) (e : ScopeId) (x : String) : Option Value :=
  match pl.localValue? e x with
  | some v => some v
  | none =>
    match pl.parent? e with
    | none => none
    | some p => if p < e then pl.get? p x else none
termination_by e

/-- Gives the name a new value in this scope, or else from the parent on. -/
def assign? (pl : PlainStore) (e : ScopeId) (x : String) (v : Value) : Option PlainStore :=
  match pl.localValue? e x with
  | some _ => some (pl.define e x v)
  | none =>
    match pl.parent? e with
    | none => none
    | some p => if p < e then pl.assign? p x v else none
termination_by e

/-- Scopes as the plain model keeps them. -/
def table : ScopeTable PlainStore where
  newGlobal pl := pl.push ⟨fun x => (Builtin.all.find? fun b => b.name = x).map .builtin, none⟩
  newEmpty pl := pl.push ⟨fun _ => none, none⟩
  child pl e := pl.push ⟨fun _ => none, some e⟩
  define := define
  assign? := assign?
  get? := get?
  contains pl e x := (pl.localValue? e x).isSome
  parent? := parent?
  clear := clear

end PlainStore

-- ============================================================================
-- Stores and the plain model
-- ============================================================================

/-- The plain scope has the values and the parent of the stored one. -/
structure Depicts (e : ScopeId) (s : PlainScope) (t : Scope) : Prop where
  parent : s.parent = t.parent
  values : ∀ x, s.value? x = (t.get? x).map fun b => b.toValue e

/-- The stored binding loses the scope of an own function, which gets it back when it is read. -/
theorem Depicts.set {e : ScopeId} {s : PlainScope} {t : Scope} (h : Depicts e s t) (x : String)
    (v : Value) :
    Depicts e (s.set x v) { t with bindings := Scope.insert x (.ofValue e v) t.bindings } where
  parent := h.parent
  values y := by
    rw [PlainScope.set, Scope.get?]
    dsimp only
    by_cases hy : y = x
    · subst hy
      rw [if_pos rfl, Scope.find?_insert_self, Option.map_some, Option.map_some,
        Binding.toValue_ofValue]
    · rw [if_neg hy, Scope.find?_insert_of_ne hy]
      exact h.values y

/-- The plain model has the same scopes as the store. -/
structure Represents (pl : PlainStore) (st : Store) : Prop where
  size : pl.scopes.length = st.scopes.size
  scopes : ∀ e, Option.Rel (Depicts e) pl.scopes[e]? (st.scope? e)
  ordered : st.Ordered

namespace Represents

variable {pl : PlainStore} {st : Store} {e : ScopeId} {x : String} {v : Value}

theorem empty : Represents .empty .empty where
  size := rfl
  scopes _ := .none
  ordered _ _ hp := absurd (Store.lt_size_of_parent? hp) (Nat.not_lt_zero _)

theorem parent? (h : Represents pl st) (e : ScopeId) : pl.parent? e = st.parent? e := by
  have hscopes := h.scopes e
  rw [PlainStore.parent?, Store.parent?]
  generalize pl.scopes[e]? = s, st.scope? e = t at hscopes ⊢
  cases hscopes with
  | none => rfl
  | some hst => exact hst.parent

theorem localValue? (h : Represents pl st) (e : ScopeId) (x : String) :
    pl.localValue? e x = st.localValue? e x := by
  have hscopes := h.scopes e
  rw [PlainStore.localValue?, Store.localValue?]
  generalize pl.scopes[e]? = s, st.scope? e = t at hscopes ⊢
  cases hscopes with
  | none => rfl
  | some hst => exact hst.values x

-- ============================================================================
-- One request
-- ============================================================================

theorem push (h : Represents pl st) {s : PlainScope} {t : Scope} (hnew : Depicts st.scopes.size s t)
    (hparent : ∀ q, t.parent = some q → q < st.scopes.size) :
    Represents (pl.push s).1 (st.push t).1 where
  size := by rw [Store.size_push, PlainStore.push, List.length_append, List.length_singleton, h.size]
  scopes e := by
    have hsize := h.size
    rcases Nat.lt_trichotomy e st.scopes.size with hlt | rfl | hgt
    · have hleft : (pl.push s).1.scopes[e]? = pl.scopes[e]? :=
        List.getElem?_append_left (by omega)
      rw [hleft, Store.scope?_push_of_lt st t hlt]
      exact h.scopes e
    · have hleft : (pl.push s).1.scopes[st.scopes.size]? = some s := by
        rw [← hsize]
        exact List.getElem?_concat_length
      have hright : (st.push t).1.scope? st.scopes.size = some t := Store.scope?_push_self st t
      rw [hleft, hright]
      exact .some hnew
    · have hleft : (pl.push s).1.scopes[e]? = none := by
        rw [List.getElem?_eq_none]
        show (pl.scopes ++ [s]).length ≤ e
        rw [List.length_append, List.length_singleton]
        omega
      rw [hleft, Store.scope?_eq_none (by rw [Store.size_push]; omega)]
      exact .none
  ordered := h.ordered.push hparent

theorem define (h : Represents pl st) (e : ScopeId) (x : String) (v : Value) :
    Represents (pl.define e x v) (st.define e x v) where
  size := by rw [Store.size_define, PlainStore.define, List.length_modify, h.size]
  scopes e' := by
    have hscopes := h.scopes e'
    dsimp only [PlainStore.define]
    by_cases he : e = e'
    · subst he
      rw [List.getElem?_modify_eq, Store.scope?_define_self]
      generalize pl.scopes[e]? = s, st.scope? e = t at hscopes ⊢
      cases hscopes with
      | none => exact .none
      | some hst => exact .some (hst.set x v)
    · rw [List.getElem?_modify_ne _ _ he, Store.scope?_define_of_ne (Ne.symm he)]
      exact hscopes
  ordered := h.ordered.define

theorem clear (h : Represents pl st) (e : ScopeId) : Represents (pl.clear e) (st.clear e) where
  size := by rw [Store.size_clear, PlainStore.clear, List.length_modify, h.size]
  scopes e' := by
    have hscopes := h.scopes e'
    dsimp only [PlainStore.clear]
    by_cases he : e = e'
    · subst he
      rw [List.getElem?_modify_eq, Store.scope?_clear_self]
      generalize pl.scopes[e]? = s, st.scope? e = t at hscopes ⊢
      cases hscopes with
      | none => exact .none
      | some hst => exact .some ⟨hst.parent, fun _ => rfl⟩
    · rw [List.getElem?_modify_ne _ _ he, Store.scope?_clear_of_ne (Ne.symm he)]
      exact hscopes
  ordered := h.ordered.clear

/-- The plain model looks a name up scope by scope, with the same outcome. -/
theorem get? (h : Represents pl st) (he : e < st.scopes.size) (x : String) :
    pl.get? e x = st.get? e x := by
  induction e using Nat.strongRecOn with
  | ind e ih =>
    rw [PlainStore.get?, h.localValue?, h.parent?]
    cases hv : st.localValue? e x with
    | some v => exact (Store.get?_of_localValue? h.ordered hv).symm
    | none =>
      cases hp : st.parent? e with
      | none => exact (Store.get?_of_root he hp hv).symm
      | some p =>
        have hlt : p < e := h.ordered hp
        simp only [if_pos hlt]
        rw [ih p hlt (Nat.lt_trans hlt he), Store.get?_of_parent h.ordered hp hv]

theorem assign? (h : Represents pl st) (he : e < st.scopes.size) (x : String) (v : Value) :
    Option.Rel Represents (pl.assign? e x v) (st.assign? e x v) := by
  induction e using Nat.strongRecOn with
  | ind e ih =>
    rw [PlainStore.assign?, h.localValue?, h.parent?, Store.assign?]
    cases hv : st.localValue? e x with
    | some w =>
      have hx : st.contains e x = true := by rw [Store.contains_eq_isSome, hv, Option.isSome_some]
      rw [Store.nearest?_of_contains h.ordered he hx]
      exact .some (h.define e x v)
    | none =>
      have hx : st.contains e x = false := by
        rw [Store.contains_eq_isSome, hv, Option.isSome_none]
      cases hp : st.parent? e with
      | none =>
        rw [Store.nearest?_of_root he hp hx]
        exact .none
      | some p =>
        have hlt : p < e := h.ordered hp
        simp only [if_pos hlt]
        rw [Store.nearest?_of_parent h.ordered hp hx]
        exact ih p hlt (Nat.lt_trans hlt he)

/-- The reply to a request is the same, and the scopes are the same afterwards. -/
theorem perform (h : Represents pl st) {q : ScopeRequest}
    (hq : ∀ e ∈ q.scope?, e < st.scopes.size) :
    (PlainStore.table.perform pl q).2 = (Store.table.perform st q).2 ∧
      Represents (PlainStore.table.perform pl q).1 (Store.table.perform st q).1 := by
  cases q with
  | newGlobal =>
    refine ⟨congrArg ScopeReply.made h.size, h.push ⟨rfl, fun x => ?_⟩ (by simp)⟩
    rw [Scope.get?, List.find?_map, Option.map_map, Option.map_map]
    rfl
  | newEmpty =>
    exact ⟨congrArg ScopeReply.made h.size, h.push ⟨rfl, fun _ => rfl⟩ (by simp)⟩
  | child e =>
    refine ⟨congrArg ScopeReply.made h.size, h.push ⟨rfl, fun _ => rfl⟩ fun p hp => ?_⟩
    obtain rfl : e = p := Option.some.inj hp
    exact hq e rfl
  | define e x v => exact ⟨rfl, h.define e x v⟩
  | assign e x v =>
    have hassign := h.assign? (hq e rfl) x v
    rw [ScopeTable.perform, ScopeTable.perform]
    dsimp only [PlainStore.table, Store.table]
    generalize pl.assign? e x v = a, st.assign? e x v = b at hassign ⊢
    cases hassign with
    | none => exact ⟨rfl, h⟩
    | some hab => exact ⟨rfl, hab⟩
  | get e x =>
    have hget := h.get? (hq e rfl) x
    rw [ScopeTable.perform, ScopeTable.perform]
    dsimp only [PlainStore.table, Store.table]
    rw [hget]
    cases st.get? e x <;> exact ⟨rfl, h⟩
  | contains e x =>
    refine ⟨congrArg ScopeReply.bound ?_, h⟩
    show (pl.localValue? e x).isSome = st.contains e x
    rw [h.localValue?, Store.contains_eq_isSome]
  | parent e => exact ⟨congrArg ScopeReply.around (h.parent? e), h⟩
  | clear e => exact ⟨rfl, h.clear e⟩

end Represents

-- ============================================================================
-- All requests
-- ============================================================================

theorem Store.size_perform (st : Store) (q : ScopeRequest) :
    (Store.table.perform st q).1.scopes.size = st.scopes.size + q.makes := by
  cases q with
  | newGlobal | newEmpty | child e => exact Store.size_push st _
  | define e x v => exact Store.size_define st e x v
  | assign e x v =>
    rw [ScopeTable.perform]
    dsimp only [Store.table]
    cases h : st.assign? e x v with
    | none => rfl
    | some st' =>
      obtain ⟨s, -, rfl⟩ := Option.map_eq_some_iff.mp h
      exact Store.size_define st s x v
  | get e x =>
    rw [ScopeTable.perform]
    cases Store.table.get? st e x <;> rfl
  | contains e x => rfl
  | parent e => rfl
  | clear e => exact Store.size_clear st e

theorem Represents.performAll {pl : PlainStore} {st : Store} (h : Represents pl st)
    {requests : List ScopeRequest} (hrequests : Addressed st.scopes.size requests) :
    (PlainStore.table.performAll pl requests).2 = (Store.table.performAll st requests).2 ∧
      Represents (PlainStore.table.performAll pl requests).1
        (Store.table.performAll st requests).1 := by
  induction requests generalizing pl st with
  | nil => exact ⟨rfl, h⟩
  | cons q rest ih =>
    obtain ⟨hq, hrest⟩ := hrequests
    obtain ⟨hreply, hafter⟩ := h.perform hq
    rw [← Store.size_perform] at hrest
    obtain ⟨hreplies, hend⟩ := ih hafter hrest
    rw [ScopeTable.performAll, ScopeTable.performAll]
    exact ⟨congrArg₂ List.cons hreply hreplies, hend⟩

/-- To every row of requests a store gives the replies of the plain model. In particular, whatever
    the requests before: a function that was bound to a name, or given to it as its new value, is
    read back with the same definition and the same scope, and is equal to what was stored. -/
theorem replies_eq_plain {requests : List ScopeRequest} (h : Addressed 0 requests) :
    (Store.table.performAll .empty requests).2 = (PlainStore.table.performAll .empty requests).2 ∧
      ∀ st, (Store.table.performAll .empty requests).1 = st →
        ∀ e < st.scopes.size, ∀ x f closure,
          (st.define e x (.function f closure)).get? e x = some (.function f closure) ∧
          (∀ st', st.assign? e x (.function f closure) = some st' →
            st'.get? e x = some (.function f closure)) ∧
          (Value.function f closure == .function f closure) = true := by
  obtain ⟨hreplies, hend⟩ := Represents.empty.performAll h
  refine ⟨hreplies.symm, ?_⟩
  rintro st rfl e he x f closure
  refine ⟨?_, fun st' hassign => Store.get?_of_assign? hassign, ?_⟩
  · exact Store.get?_of_localValue? hend.ordered.define (Store.localValue?_define_self he)
  · show (f.label == f.label && closure == closure) = true
    rw [beq_self_eq_true, beq_self_eq_true, Bool.and_self]

section Witness

/-- A function without parameters and body. -/
def idleFunction : FunctionDef := ⟨1, ⟨.identifier, "f", Pos.first, Pos.first⟩, [], []⟩

/-- A function over a scope is bound in that scope, read from inside it, and given to a name of the
    scope inside; then it is unbound where it was first. -/
def ownAndShared : List ScopeRequest :=
  [.newEmpty, .child 0, .define 0 "f" (.function idleFunction 0), .get 1 "f",
   .define 1 "g" .nil, .assign 1 "g" (.function idleFunction 0), .clear 0, .get 1 "g", .get 1 "f"]

/-- The function is found with its scope wherever it was stored. -/
theorem replies_eq_plain_shared :
    Addressed 0 ownAndShared ∧
      (PlainStore.table.performAll .empty ownAndShared).2
        = [.made 0, .made 1, .done, .value (.function idleFunction 0), .done, .done, .done,
           .value (.function idleFunction 0), .unbound "f"] := by
  have haddressed : Addressed 0 ownAndShared := by
    simp [ownAndShared, Addressed, ScopeRequest.scope?, ScopeRequest.makes]
  exact ⟨haddressed, (replies_eq_plain haddressed).1.symm.trans rfl⟩

end Witness

end Lexiscope
