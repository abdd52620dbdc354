/-
  Lexiscope.Proofs.Eval.Effects

  What a run does to the machine, and what it can end with.

  A step changes scopes, writes, makes an entry in the journal, or runs the body of
  a call. A relation between the machine before and after that allows for these
  (`Machine.Allows`) holds of every run, however it ends. A run fails at a site of the
  program or at a site in the body of a function that it calls, and such a function
  was in the store or is defined by the program. So if a set of sites holds those of
  the program and those of all functions in the store (`Store.Made`), every error
  comes up at one of the set, and the functions in the store keep to it whatever is
  defined, captured, assigned or returned. What is to be shown of the machine, of
  functions and of errors is put together as an `Account`, and all of it is proved by
  one walk over the evaluator, which does not look at a second run.

  Two relations between machines are used further on. Output is only ever added
  behind what was written before (`Sink.GrowsTo`), and a run leaves as many calls
  active as it found, because a call that begins also ends, be it by an error in the
  middle of other calls.
-/
import Lexiscope.Proofs.Eval.Phrase
import Lexiscope.Proofs.Store.Basic

namespace Lexiscope

variable {P : Site → Prop}

-- ============================================================================
-- Functions in the store
-- ============================================================================

/-- If the value is a function, the sites of its body are some of these. -/
def Value.Made (P : Site → Prop) : Value → Prop
  | .function f _ => ∀ site ∈ Stmt.sitesAll true f.body, P site
  | _ => True

/-- The value that a statement ends with is made of these sites. -/
def Flow.Made (P : Site → Prop) : Flow → Prop
  | .normal v => v.Made P
  | .returned v => v.Made P

/-- Every function that is bound in the store is made of these sites. -/
def Store.Made (P : Site → Prop) (st : Store) : Prop :=
  ∀ ⦃e x v⦄, st.localValue? e x = some v → v.Made P

theorem Value.Made.nil : Value.nil.Made P := trivial

theorem Value.Made.all (v : Value) : v.Made fun _ => True := by
  cases v with
  | function f closure => exact fun _ _ => trivial
  | number _ | string _ | boolean _ | nil | builtin _ => trivial

/-- The sites of the body of a function are all inside. -/
theorem Value.Made.mono {Q : Site → Prop} {v : Value} (h : v.Made P)
    (hPQ : ∀ site, P site → site.inside = true → Q site) : v.Made Q := by
  cases v with
  | function f closure =>
    intro site hsite
    exact hPQ site (h site hsite) (Stmt.inside_of_mem_sitesAll f.body hsite)
  | number _ | string _ | boolean _ | nil | builtin _ => trivial

namespace Store.Made

variable {st : Store} {e : ScopeId} {x : String} {v : Value}

theorem all (st : Store) : st.Made fun _ => True := fun _ _ v _ => .all v

theorem get? (h : st.Made P) (hv : st.get? e x = some v) : v.Made P := by
  obtain ⟨s, -, hlocal⟩ := Option.bind_eq_some_iff.mp hv
  exact h hlocal

theorem push {s : Scope} (h : st.Made P)
    (hs : ∀ y v, (s.get? y).map (Binding.toValue st.scopes.size) = some v → v.Made P) :
    (st.push s).1.Made P := by
  intro e y w hw
  obtain ⟨b, hb, hvalue⟩ := Option.map_eq_some_iff.mp hw
  obtain ⟨t, ht, htb⟩ := Option.bind_eq_some_iff.mp hb
  rcases scope?_push_cases ht with ⟨he, -⟩ | ⟨rfl, rfl⟩
  · rw [localValue?_push_of_lt s he] at hw
    exact h hw
  · exact hs y w (by rw [htb, Option.map_some, hvalue])

theorem child (h : st.Made P) (e : ScopeId) : (st.child e).1.Made P := by
  refine h.push fun y v hv => ?_
  rw [Scope.get?, List.find?_nil] at hv
  cases hv

theorem define (h : st.Made P) (hv : v.Made P) (e : ScopeId) (x : String) :
    (st.define e x v).Made P := by
  intro e' y w hw
  by_cases hself : e' = e ∧ y = x
  · obtain ⟨rfl, rfl⟩ := hself
    by_cases he : e' < st.scopes.size
    · rw [localValue?_define_self he] at hw
      exact Option.some.inj hw ▸ hv
    · rw [localValue?, scope?_eq_none (by rw [size_define]; exact Nat.le_of_not_lt he)] at hw
      cases hw
  · rw [localValue?_define_of_ne (not_and_or.mp hself)] at hw
    exact h hw

/-- Where only the builtin functions are bound, there is no body at all. -/
theorem newGlobal : Store.empty.newGlobal.1.Made P := by
  intro e x v hv
  obtain ⟨b, rfl⟩ := exists_builtin_of_newGlobal hv
  trivial

end Store.Made

-- ============================================================================
-- Accounts
-- ============================================================================

/-- The relation holds between the machine before and the machine after of everything that a step
    can do. -/
structure Machine.Allows (R : Machine → Machine → Prop) : Prop where
  refl : ∀ m, R m m
  trans : ∀ ⦃m₁ m₂ m₃⦄, R m₁ m₂ → R m₂ m₃ → R m₁ m₃
  scopes : ∀ m store, R m { m with store := store }
  write : ∀ m text, R m { m with sink := (m.sink.write text).1 }
  note : ∀ m e, R m (m.note e)
  inCall : ∀ ⦃m m'⦄, R { m with activeCalls := m.activeCalls + 1 } m' →
    R m { m' with activeCalls := m'.activeCalls - 1 }

/-- What a run is held to: how the machine may change, of which sites its functions may be made, and
    which errors it may end with. -/
structure Account where
  Change : Machine → Machine → Prop
  Place : Site → Prop
  Error : RuntimeError → Prop
  allows : Machine.Allows Change
  raised : ∀ ⦃e site⦄, Place site → e.RaisedAt site → Error e

namespace Account

/-- Only the change of the machine matters. -/
def ofChange {R : Machine → Machine → Prop} (h : Machine.Allows R) : Account :=
  ⟨R, fun _ => True, fun _ => True, h, fun _ _ _ _ => trivial⟩

/-- Only the places matter: errors come up at them, and nowhere else. -/
def ofPlaces (P : Site → Prop) : Account where
  Change _ _ := True
  Place := P
  Error e := ∃ site, P site ∧ e.RaisedAt site
  allows := by constructor <;> intros <;> trivial
  raised _ site hsite hraised := ⟨site, hsite, hraised⟩

/-- The result has the property, or it is an error that the account admits. -/
def EndsWith (c : Account) {α : Type} (A : α → Prop) : Except RuntimeError α → Prop
  | .ok a => A a
  | .error e => c.Error e

end Account

/-- On a store with functions made of the places of the account, the step changes the machine as
    the account allows, leaves such a store, and ends with a result that has the property or with an
    error that is admitted. -/
def EvalM.Meets {α : Type} (c : Account) (A : α → Prop) (x : EvalM α) : Prop :=
  ∀ ⦃m r m'⦄, m.store.Made c.Place → x m = some (r, m') →
    c.Change m m' ∧ m'.store.Made c.Place ∧ c.EndsWith A r

-- ============================================================================
-- Steps
-- ============================================================================

namespace EvalM.Meets

variable {c : Account} {α β : Type} {A : α → Prop} {B : β → Prop}

theorem outOfFuel : (EvalM.outOfFuel : EvalM α).Meets c A := by
  intro m r m' _ h
  cases h

protected theorem pure {a : α} (ha : A a) : (pure a : EvalM α).Meets c A := by
  rintro m r m' hm ⟨⟩
  exact ⟨c.allows.refl m, hm, ha⟩

theorem fail {t : Token} {f : Fault} (h : c.Error ⟨t, f⟩) :
    (EvalM.fail t f : EvalM α).Meets c A := by
  rintro m r m' hm ⟨⟩
  exact ⟨c.allows.refl m, hm, h⟩

theorem ofExcept {r : Except RuntimeError α} (h : c.EndsWith A r) :
    (EvalM.ofExcept r).Meets c A := by
  rintro m r m' hm ⟨⟩
  exact ⟨c.allows.refl m, hm, h⟩

theorem gets (f : Machine → α) : (EvalM.gets f).Meets c fun _ => True := by
  rintro m r m' hm ⟨⟩
  exact ⟨c.allows.refl m, hm, trivial⟩

theorem note (e : Event) : (EvalM.modify fun m => m.note e).Meets c fun _ => True := by
  rintro m r m' hm ⟨⟩
  exact ⟨c.allows.note m e, hm, trivial⟩

theorem newChild (e : ScopeId) : (EvalM.newChild e).Meets c fun _ => True := by
  rintro m r m' hm ⟨⟩
  exact ⟨c.allows.scopes m _, hm.child e, trivial⟩

theorem define {v : Value} (hv : v.Made c.Place) (e : ScopeId) (x : String) :
    (EvalM.define e x v).Meets c fun _ => True := by
  rintro m r m' hm ⟨⟩
  exact ⟨c.allows.scopes m _, hm.define hv e x, trivial⟩

theorem lookup {name : Token} {inside : Bool} (hsite : c.Place ⟨.name, name, inside⟩)
    (e : ScopeId) : (EvalM.lookup e name).Meets c (Value.Made c.Place) := by
  intro m r m' hm h
  unfold EvalM.lookup at h
  split at h
  · next v hv =>
    cases h
    exact ⟨c.allows.refl m, hm, hm.get? hv⟩
  · cases h
    exact ⟨c.allows.refl m, hm, c.raised hsite ⟨rfl, .undefined⟩⟩

theorem assign {name : Token} {inside : Bool} (hsite : c.Place ⟨.name, name, inside⟩) {v : Value}
    (hv : v.Made c.Place) (e : ScopeId) : (EvalM.assign e name v).Meets c fun _ => True := by
  intro m r m' hm h
  unfold EvalM.assign at h
  dsimp only at h
  split at h
  · cases h
    exact ⟨c.allows.scopes m _, hm.define hv _ _, trivial⟩
  · cases h
    exact ⟨c.allows.refl m, hm, c.raised hsite ⟨rfl, .unassignable⟩⟩

/-- A write that fails may have written something. -/
theorem write {paren : Token} {inside : Bool} (hsite : c.Place ⟨.call, paren, inside⟩)
    (text : String) : (EvalM.write paren text).Meets c fun _ => True := by
  intro m r m' hm h
  have hwritten := c.allows.write m text
  unfold EvalM.write at h
  dsimp only at h
  split at h
  · next sink hsink =>
    cases h
    rw [hsink] at hwritten
    exact ⟨hwritten, hm, trivial⟩
  · next sink hsink =>
    cases h
    rw [hsink] at hwritten
    exact ⟨hwritten, hm, c.raised hsite ⟨rfl, .outputFailed _⟩⟩

protected theorem bind {x : EvalM α} {f : α → EvalM β} (hx : x.Meets c A)
    (hf : ∀ a, A a → (f a).Meets c B) : (x >>= f).Meets c B := by
  intro m r m' hm h
  have h' : EvalM.bind x f m = some (r, m') := h
  unfold EvalM.bind at h'
  split at h'
  · cases h'
  · next e m₁ hfirst =>
    cases h'
    exact hx hm hfirst
  · next a m₁ hfirst =>
    obtain ⟨hchange, hm₁, ha⟩ := hx hm hfirst
    obtain ⟨hchange', hm', hresult⟩ := hf a ha hm₁ h'
    exact ⟨c.allows.trans hchange hchange', hm', hresult⟩

theorem inCall {x : EvalM α} (hx : x.Meets c A) : (EvalM.inCall x).Meets c A := by
  intro m r m' hm h
  unfold EvalM.inCall at h
  split at h
  · cases h
  · next r₁ m₁ hbody =>
    cases h
    obtain ⟨hchange, hm₁, hresult⟩ := @hx { m with activeCalls := m.activeCalls + 1 } _ _ hm hbody
    exact ⟨c.allows.inCall hchange, hm₁, hresult⟩

theorem mono {A' : α → Prop} {x : EvalM α} (hx : x.Meets c A) (h : ∀ a, A a → A' a) :
    x.Meets c A' := by
  intro m r m' hm hrun
  obtain ⟨hchange, hm', hresult⟩ := hx hm hrun
  refine ⟨hchange, hm', ?_⟩
  cases r with
  | ok a => exact h a hresult
  | error e => exact hresult

theorem ite {p : Prop} [Decidable p] {x y : EvalM α} (hyes : p → x.Meets c A)
    (hno : ¬ p → y.Meets c A) : (if p then x else y).Meets c A := by
  split
  · next h => exact hyes h
  · next h => exact hno h

theorem bindParams (scope : ScopeId) (params : List Token) {args : List Value}
    (hargs : ∀ v ∈ args, v.Made c.Place) :
    (Lexiscope.bindParams scope params args).Meets c fun _ => True := by
  induction params generalizing args with
  | nil => exact .pure trivial
  | cons p params ih =>
    cases args with
    | nil => exact .pure trivial
    | cons a args =>
      rw [Lexiscope.bindParams]
      refine .bind (.define (hargs a List.mem_cons_self) scope p.lexeme) fun _ _ => ?_
      exact ih fun v hv => hargs v (List.mem_cons_of_mem a hv)

end EvalM.Meets

-- ============================================================================
-- Operators
-- ============================================================================

variable {c : Account}

theorem Value.Made.of_plain {v : Value} (h : ∀ f c, v ≠ .function f c) : v.Made P := by
  cases v with
  | function f closure => exact absurd rfl (h f closure)
  | number _ | string _ | boolean _ | nil | builtin _ => trivial

theorem UnaryOp.apply_endsWith {op : UnaryOp} {mark : Token} {inside : Bool}
    (hsite : c.Place ⟨.sign op, mark, inside⟩) (v : Value) :
    c.EndsWith (Value.Made c.Place) (op.apply mark v) := by
  cases hr : op.apply mark v with
  | error e =>
    obtain ⟨-, -, rfl⟩ := UnaryOp.eq_of_apply_error hr
    exact c.raised hsite ⟨rfl, .sign hr⟩
  | ok w => exact .of_plain (UnaryOp.ne_function_of_apply hr)

theorem BinaryOp.made_of_apply {op : BinaryOp} {mark : Token} {a b w : Value} (ha : a.Made P)
    (hb : b.Made P) (h : op.apply mark a b = .ok w) : w.Made P := by
  rcases BinaryOp.eq_operand_of_apply h with rfl | rfl | hplain
  · exact ha
  · exact hb
  · exact .of_plain hplain

theorem BinaryOp.apply_endsWith {op : BinaryOp} {mark : Token} {inside : Bool}
    (hsite : c.Place ⟨.operator op, mark, inside⟩) {a b : Value} (ha : a.Made c.Place)
    (hb : b.Made c.Place) : c.EndsWith (Value.Made c.Place) (op.apply mark a b) := by
  cases hr : op.apply mark a b with
  | ok w => exact BinaryOp.made_of_apply ha hb hr
  | error e =>
    have htoken : e.token = mark := by
      rcases BinaryOp.eq_of_apply_error hr with ⟨-, rfl⟩ | ⟨needed, -, hrejects⟩
      · rfl
      · rw [hrejects.error]
    obtain ⟨t, f⟩ := e
    obtain rfl : t = mark := htoken
    exact c.raised hsite ⟨rfl, .operator hr⟩

-- ============================================================================
-- The account as a walk
-- ============================================================================

namespace Account

/-- A tree belongs to itself if its sites are places of the account. -/
def trees (c : Account) : Trees where
  Marks inside role t u := c.Place ⟨role, t, inside⟩ ∧ t = u
  Exprs inside e e' := (∀ site ∈ e.sites inside, c.Place site) ∧ e = e'
  Stmts inside s s' := (∀ site ∈ s.sites inside, c.Place site) ∧ s = s'
  Defs f g := (∀ site ∈ Stmt.sitesAll true f.body, c.Place site) ∧ f = g
  exprs := by
    rintro inside e _ ⟨he, rfl⟩
    cases e with
    | number x => exact .number x
    | string s => exact .string s
    | boolean b => exact .boolean b
    | nil => exact .nil
    | identifier name => exact .identifier ⟨he _ (List.mem_singleton_self _), rfl⟩
    | unary op mark operand =>
      rw [Expr.sites, List.forall_mem_cons] at he
      exact .unary ⟨he.1, rfl⟩ ⟨he.2, rfl⟩
    | binary op mark left right =>
      rw [Expr.sites, List.forall_mem_cons, List.forall_mem_append] at he
      exact .binary ⟨he.1, rfl⟩ ⟨he.2.1, rfl⟩ ⟨he.2.2, rfl⟩
    | assign target value =>
      rw [Expr.sites, List.forall_mem_cons] at he
      exact .assign ⟨he.1, rfl⟩ ⟨he.2, rfl⟩
    | call callee paren args =>
      rw [Expr.sites, List.forall_mem_cons, List.forall_mem_append] at he
      exact .call ⟨he.2.1, rfl⟩ ⟨he.1, rfl⟩ (forall₂_self (Expr.forall_mem_sitesAll.mp he.2.2))
  stmts := by
    rintro inside s _ ⟨hs, rfl⟩
    cases s with
    | expression e => exact .expression ⟨hs, rfl⟩
    | letVar name value =>
      cases value with
      | none => exact .letBare rfl
      | some e => exact .letValue rfl ⟨hs, rfl⟩
    | block brace body => exact .block (forall₂_self (Stmt.forall_mem_sitesAll.mp hs))
    | ifThen word condition yes =>
      rw [Stmt.sites, List.forall_mem_append] at hs
      exact .ifThen ⟨hs.1, rfl⟩ ⟨hs.2, rfl⟩
    | ifThenElse word condition yes no =>
      rw [Stmt.sites, List.forall_mem_append, List.forall_mem_append] at hs
      exact .ifThenElse ⟨hs.1, rfl⟩ ⟨hs.2.1, rfl⟩ ⟨hs.2.2, rfl⟩
    | whileLoop word condition body =>
      rw [Stmt.sites, List.forall_mem_append] at hs
      exact .whileLoop ⟨hs.1, rfl⟩ ⟨hs.2, rfl⟩
    -- The sites of the definition are those of the body of the function it makes.
    | function label name params body => exact .function rfl ⟨hs, rfl⟩
    | returnStmt word value =>
      cases value with
      | none => exact .returnBare
      | some e => exact .returnValue ⟨hs, rfl⟩
  defs := by
    rintro f _ ⟨hf, rfl⟩
    exact ⟨rfl, rfl, forall₂_self (Stmt.forall_mem_sitesAll.mp hf)⟩

theorem values_iff {v v' : Value} :
    (v.Made c.Place ∧ v = v') ↔ ValuePair c.trees.Defs Eq v v' := by
  constructor
  · rintro ⟨hv, rfl⟩
    cases v with
    | function f closure => exact .function ⟨hv, rfl⟩ rfl
    | _ => exact .plain nofun
  · rintro (hplain | ⟨⟨hf, rfl⟩, rfl⟩)
    · exact ⟨.of_plain hplain, rfl⟩
    · exact ⟨hf, rfl⟩

/-- Only the first run is looked at. -/
def walk (c : Account) (limit : Nat) : Walk OneWorld where
  toTrees := c.trees
  limit := limit
  limit' := limit
  Scopes _ := Eq
  Values _ v v' := v.Made c.Place ∧ v = v'
  Binds _ _ _ := True
  Steps _ A x _ := x.Meets c fun a => ∃ b, A ⟨⟩ a b
  scopes_mono _ h := h
  binds_mono _ h := h
  values_iff := values_iff
  outOfFuel _ _ := .outOfFuel
  pure h := .pure ⟨_, h ⟨⟩ le_rfl⟩
  bind hx hf := .bind hx fun a ⟨b, hab⟩ => hf ⟨⟩ le_rfl a b hab
  inCall h := .inCall h
  activeCalls _ := (EvalM.Meets.gets _).mono fun depth _ => ⟨depth, rfl⟩
  note e := (EvalM.Meets.note e).mono fun _ _ => ⟨(), trivial⟩
  newChild _ := (EvalM.Meets.newChild _).mono fun d _ => ⟨d, rfl, fun _ => trivial⟩
  define _ _ hv := (EvalM.Meets.define hv.1 _ _).mono fun _ _ => ⟨(), trivial⟩
  lookup _ hname := (EvalM.Meets.lookup hname.1 _).mono fun v hv => ⟨v, hv, rfl⟩
  assign _ hname hv := (EvalM.Meets.assign hname.1 hv.1 _).mono fun _ _ => ⟨(), trivial⟩
  write text hparen := (EvalM.Meets.write hparen.1 text).mono fun _ _ => ⟨(), trivial⟩
  sign hmark _ := (EvalM.Meets.ofExcept (UnaryOp.apply_endsWith hmark.1 _)).mono
    fun v hv => ⟨v, hv, rfl⟩
  operator hmark hl hr := (EvalM.Meets.ofExcept (BinaryOp.apply_endsWith hmark.1 hl.1 hr.1)).mono
    fun v hv => ⟨v, hv, rfl⟩
  notCallable hparen htype := .fail (c.raised hparen.1 ⟨rfl, .notCallable htype⟩)
  wrongArity _ _ _ hparen harity := .fail (c.raised hparen.1 ⟨rfl, .wrongArity _ harity⟩)
  tooDeep _ _ _ _ hparen h :=
    .ite (fun _ => .fail (c.raised hparen.1 ⟨rfl, .tooDeep _ _⟩)) fun _ => h

end Account

theorem Flow.Made.of_pair {x y : Flow} (h : FlowPair (fun v v' => v.Made P ∧ v = v') x y) :
    x.Made P := by
  cases h with
  | normal h | returned h => exact h.1

-- ============================================================================
-- The evaluator
-- ============================================================================

/-- With this much fuel, every function of the evaluator keeps to the account, if the sites of what
    it is given are places of it. -/
structure RunsMeet (c : Account) (limit fuel : Nat) : Prop where
  eval : ∀ {inside e}, (∀ site ∈ e.sites inside, c.Place site) → ∀ scope,
    (eval limit fuel e scope).Meets c (Value.Made c.Place)
  evalAll : ∀ {inside es}, (∀ site ∈ Expr.sitesAll inside es, c.Place site) → ∀ scope,
    (evalAll limit fuel es scope).Meets c fun vs => ∀ v ∈ vs, v.Made c.Place
  call : ∀ {inside f args paren}, Value.Made c.Place f → (∀ v ∈ args, Value.Made c.Place v) →
    c.Place ⟨.call, paren, inside⟩ → (call limit fuel f args paren).Meets c (Value.Made c.Place)
  exec : ∀ {inside s}, (∀ site ∈ s.sites inside, c.Place site) → ∀ scope,
    (exec limit fuel s scope).Meets c (Flow.Made c.Place)
  execAll : ∀ {inside ss last}, (∀ site ∈ Stmt.sitesAll inside ss, c.Place site) →
    Value.Made c.Place last → ∀ scope,
    (execAll limit fuel ss last scope).Meets c (Flow.Made c.Place)
  repeatWhile : ∀ {inside condition body}, (∀ site ∈ condition.sites inside, c.Place site) →
    (∀ site ∈ body.sites inside, c.Place site) → ∀ scope,
    (repeatWhile limit fuel condition body scope).Meets c (Flow.Made c.Place)

namespace RunsMeet

/-- Every run keeps to the account, whatever the fuel. -/
theorem all (c : Account) (limit fuel : Nat) : RunsMeet c limit fuel := by
  have halong := (c.walk limit).along fuel
  have hflow : ∀ x, (∃ y, FlowPair (fun v v' => v.Made c.Place ∧ v = v') x y) → x.Made c.Place :=
    fun _ ⟨_, h⟩ => Flow.Made.of_pair h
  constructor
  · intro inside e he scope
    exact (halong.eval inside (w := ⟨⟩) ⟨he, rfl⟩ rfl).mono fun v ⟨_, hv⟩ => hv.1
  · intro inside es hes scope
    have hself := forall₂_self (Expr.forall_mem_sitesAll.mp hes)
    exact (halong.evalAll inside (w := ⟨⟩) hself rfl).mono
      fun vs ⟨_, hvs⟩ => ((List.forall₂_and_left _ _).mp hvs).1
  · intro inside f args paren hf hargs hparen
    exact (halong.call inside (w := ⟨⟩) ⟨hf, rfl⟩ (forall₂_self hargs) ⟨hparen, rfl⟩).mono
      fun v ⟨_, hv⟩ => hv.1
  · intro inside s hs scope
    exact (halong.exec inside (w := ⟨⟩) ⟨hs, rfl⟩ rfl fun _ _ => trivial).mono hflow
  · intro inside ss last hss hlast scope
    have hself := forall₂_self (Stmt.forall_mem_sitesAll.mp hss)
    exact (halong.execAll inside (w := ⟨⟩) hself ⟨hlast, rfl⟩ rfl fun _ => trivial).mono hflow
  · intro inside condition body hcondition hbody scope
    exact (halong.repeatWhile inside (w := ⟨⟩) ⟨hcondition, rfl⟩ ⟨hbody, rfl⟩ rfl).mono hflow

end RunsMeet

variable {limit fuel : Nat} {scope : ScopeId} {m m' : Machine} {r : Except RuntimeError Value}

/-- A program first sets the count of calls back. Then it keeps to the account, if its own sites are
    places of it. -/
theorem Program.run_meets {p : Program} (hp : ∀ site ∈ p.sites, c.Place site)
    (hm : m.store.Made c.Place) (h : p.run limit fuel scope m = some (r, m')) :
    c.Change { m with activeCalls := 0 } m' ∧ m'.store.Made c.Place ∧
      c.EndsWith (Value.Made c.Place) r := by
  have hrest : (execAll limit fuel p.statements .nil scope >>= _) { m with activeCalls := 0 }
    = some (r, m') := h
  have hbody := (RunsMeet.all c limit fuel).execAll hp .nil scope
  refine EvalM.Meets.bind hbody (fun flow hflow => ?_) hm hrest
  cases flow with
  | normal v => exact .bind (.note _) fun _ _ => .pure hflow
  | returned v => exact .pure hflow

-- ============================================================================
-- Output
-- ============================================================================

/-- The second sink holds what the first does, and perhaps more behind it. -/
structure Sink.GrowsTo (s s' : Sink) : Prop where
  limit : s'.limit = s.limit
  bytes : ∃ more, s'.bytes = s.bytes ++ more

namespace Sink.GrowsTo

protected theorem refl (s : Sink) : s.GrowsTo s where
  limit := rfl
  bytes := ⟨ByteArray.empty, ByteArray.append_empty.symm⟩

theorem trans {s₁ s₂ s₃ : Sink} (h : s₁.GrowsTo s₂) (h' : s₂.GrowsTo s₃) : s₁.GrowsTo s₃ where
  limit := h'.limit.trans h.limit
  bytes := by
    obtain ⟨first, hfirst⟩ := h.bytes
    obtain ⟨second, hsecond⟩ := h'.bytes
    exact ⟨first ++ second, by rw [hsecond, hfirst, ByteArray.append_assoc]⟩

theorem write (s : Sink) (text : String) : s.GrowsTo (s.write text).1 := by
  obtain ⟨bytes, limit⟩ := s
  cases limit with
  | none => exact ⟨rfl, _, rfl⟩
  | some limit =>
    rw [Sink.write, Sink.writeBytes]
    split
    · exact ⟨rfl, _, rfl⟩
    · exact ⟨rfl, _, rfl⟩

end Sink.GrowsTo

theorem Machine.allows_growsTo : Machine.Allows fun m m' => m.sink.GrowsTo m'.sink where
  refl m := .refl m.sink
  trans _ _ _ h h' := h.trans h'
  scopes m _ := .refl m.sink
  write m text := .write m.sink text
  note m _ := .refl m.sink
  inCall _ _ h := h

-- ============================================================================
-- Active calls
-- ============================================================================

theorem Machine.allows_sameCalls : Machine.Allows fun m m' => m'.activeCalls = m.activeCalls where
  refl _ := rfl
  trans _ _ _ h h' := h'.trans h
  scopes _ _ := rfl
  write _ _ := rfl
  note _ _ := rfl
  inCall m m' h := by
    show m'.activeCalls - 1 = m.activeCalls
    rw [h, Nat.add_sub_cancel]

/-- An expression leaves as many calls active as it finds. -/
theorem eval_sameCalls {e : Expr} (h : eval limit fuel e scope m = some (r, m')) :
    m'.activeCalls = m.activeCalls := by
  let c := Account.ofChange Machine.allows_sameCalls
  have hsites : ∀ site ∈ e.sites false, c.Place site := fun _ _ => trivial
  exact ((RunsMeet.all c limit fuel).eval hsites scope (.all _) h).1

/-- A program counts its calls from zero, and leaves none of them active. -/
theorem Program.run_activeCalls {p : Program} (h : p.run limit fuel scope m = some (r, m')) :
    m'.activeCalls = 0 := by
  let c := Account.ofChange Machine.allows_sameCalls
  have hsites : ∀ site ∈ p.sites, c.Place site := fun _ _ => trivial
  exact (Program.run_meets hsites (.all _) h).1

end Lexiscope
