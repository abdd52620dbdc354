/-
  Lexiscope.Proofs.Eval.Ending

  Without loops every run ends.

  What a statement does before it ends depends on its parts and on the functions that
  it calls, and these are found in scopes that may change as it runs. A run gets hold
  of what can be reached from its scope at the beginning, and of the scopes that are
  made meanwhile. If there is no loop in any function bound there, it stays so, since
  the run binds functions that it found there, or that it defines itself (`Region`).

  The body of a function runs with one more call active, so there are only as many
  calls inside each other as the limit leaves room for. An induction on this room, and
  inside of it on the syntax, shows that there is an amount of fuel with which the run
  ends, and that more fuel changes nothing (`EvalM.Finishes`).
-/
import Lexiscope.Proofs.Curbed.Depth
import Lexiscope.Proofs.Eval.Sequence
import Lexiscope.Proofs.Store.WellFormed

namespace Lexiscope

-- ============================================================================
-- Loop-free code
-- ============================================================================

mutual

/-- There is no loop in the statement, at any depth, and none in the functions it defines. -/
def Stmt.LoopFree : Stmt → Prop
  | .expression _ | .letVar _ _ | .returnStmt _ _ => True
  | .block _ body => Stmt.AllLoopFree body
  | .ifThen _ _ yes => yes.LoopFree
  | .ifThenElse _ _ yes no => yes.LoopFree ∧ no.LoopFree
  | .whileLoop _ _ _ => False
  | .function _ _ _ body => Stmt.AllLoopFree body

/-- All of the statements are free of loops. -/
def Stmt.AllLoopFree : List Stmt → Prop
  | [] => True
  | s :: rest => s.LoopFree ∧ Stmt.AllLoopFree rest

end

/-- A phrase without loops. Expressions hold no statements. -/
def Phrase.LoopFree : Phrase → Prop
  | program p => Stmt.AllLoopFree p.statements
  | expression _ => True

/-- No function that can be reached from the scope has a loop in its body. -/
def Store.LoopFree (st : Store) (e : ScopeId) : Prop :=
  ∀ ⦃a x f c⦄, st.Reaches e a → st.localValue? a x = some (.function f c) →
    Stmt.AllLoopFree f.body

-- ============================================================================
-- What a run can get hold of
-- ============================================================================

/-- The scopes that a run can get hold of: some of those that were there when it began, and all
    that are made after that. -/
structure Region where
  Known : ScopeId → Prop
  made : Nat

namespace Region

variable {g : Region} {st : Store} {e : ScopeId} {x : String} {v : Value}

/-- The scope belongs to the region. -/
def Has (g : Region) (e : ScopeId) : Prop := g.Known e ∨ g.made ≤ e

/-- If the value is a function, it is free of loops and closes over a scope of the region. -/
def Admits (g : Region) : Value → Prop
  | .function f c => Stmt.AllLoopFree f.body ∧ g.Has c
  | _ => True

/-- The statement ends with a value that may be in the region. -/
def AdmitsFlow (g : Region) : Flow → Prop
  | .normal v => g.Admits v
  | .returned v => g.Admits v

/-- From the region one gets to scopes of the region only, and all functions bound there are free
    of loops. -/
structure Encloses (g : Region) (st : Store) : Prop where
  made : g.made ≤ st.scopes.size
  parent : ∀ ⦃e p⦄, g.Has e → st.parent? e = some p → g.Has p
  value : ∀ ⦃e x v⦄, g.Has e → st.localValue? e x = some v → g.Admits v

/-- What can be reached from a scope, and what will be made. -/
def from_ (st : Store) (e : ScopeId) : Region := ⟨st.Reaches e, st.scopes.size⟩

theorem from_has (st : Store) (e : ScopeId) : (from_ st e).Has e := .inl .refl

theorem from_encloses (h : st.LoopFree e) : (from_ st e).Encloses st where
  made := Nat.le_refl _
  parent a p ha hp := by
    rcases ha with hknown | hnew
    · exact .inl (hknown.tail (.inl hp))
    · exact absurd (Store.lt_size_of_parent? hp) (Nat.not_lt_of_le hnew)
  value a x v ha hv := by
    rcases ha with hknown | hnew
    · cases v with
      | function f c => exact ⟨h hknown hv, .inl (hknown.tail (.inr ⟨x, f, hv⟩))⟩
      | number _ | string _ | boolean _ | nil | builtin _ => trivial
    · rw [Store.localValue?, Store.scope?_eq_none hnew] at hv
      cases hv

theorem Encloses.has_of_reaches {a : ScopeId} (h : g.Encloses st) (he : g.Has e)
    (ha : st.Reaches e a) : g.Has a := by
  induction ha with
  | refl => exact he
  | tail _ hlast ih =>
    rcases hlast with hp | ⟨x, f, hf⟩
    · exact h.parent ih hp
    · exact (h.value ih hf).2

theorem Encloses.loopFree (h : g.Encloses st) (he : g.Has e) : st.LoopFree e :=
  fun _ _ _ _ ha hv => (h.value (h.has_of_reaches he ha) hv).1

theorem AdmitsFlow.callResult {flow : Flow} (h : g.AdmitsFlow flow) : g.Admits flow.callResult := by
  cases flow with
  | normal v => trivial
  | returned v => exact h

theorem Admits.of_plain (h : ∀ f c, v ≠ .function f c) : g.Admits v := by
  cases v with
  | function f c => exact absurd rfl (h f c)
  | number _ | string _ | boolean _ | nil | builtin _ => trivial

theorem Admits.unary {op : UnaryOp} {mark : Token} {w : Value} (h : op.apply mark v = .ok w) :
    g.Admits w := by
  cases op with
  | not =>
    cases h
    trivial
  | negate =>
    cases v with
    | number x =>
      cases h
      trivial
    | string _ | boolean _ | nil | function _ _ | builtin _ => cases h

theorem Admits.binary {op : BinaryOp} {mark : Token} {a b w : Value} (ha : g.Admits a)
    (hb : g.Admits b) (h : op.apply mark a b = .ok w) : g.Admits w := by
  rcases BinaryOp.eq_operand_of_apply h with rfl | rfl | hplain
  · exact ha
  · exact hb
  · exact .of_plain hplain

namespace Encloses

theorem chainUpTo (h : g.Encloses st) (bound : Nat) (he : g.Has e) :
    ∀ s ∈ st.chainUpTo bound e, g.Has s := by
  induction bound generalizing e with
  | zero => exact List.forall_mem_nil _
  | succ bound ih =>
    rw [Store.chainUpTo]
    cases hs : st.scope? e with
    | none => exact List.forall_mem_nil _
    | some s =>
      cases hp : s.parent with
      | none => simpa only [hp, List.forall_mem_singleton] using he
      | some p =>
        have hparent : st.parent? e = some p := by rw [Store.parent?, hs, Option.bind_some, hp]
        simp only [hp]
        exact List.forall_mem_cons.mpr ⟨he, ih (h.parent he hparent)⟩

theorem nearest? {s : ScopeId} (h : g.Encloses st) (he : g.Has e)
    (hs : st.nearest? e x = some s) : g.Has s :=
  h.chainUpTo (e + 1) he s (List.mem_of_find?_eq_some hs)

theorem get? (h : g.Encloses st) (he : g.Has e) (hv : st.get? e x = some v) : g.Admits v := by
  obtain ⟨s, hs, hlocal⟩ := Option.bind_eq_some_iff.mp hv
  exact h.value (h.nearest? he hs) hlocal

theorem child (h : g.Encloses st) (he : g.Has e) :
    g.Has (st.child e).2 ∧ g.Encloses (st.child e).1 := by
  refine ⟨.inr h.made, ?_, ?_, ?_⟩
  · rw [Store.child, Store.size_push]
    exact Nat.le_succ_of_le h.made
  · intro a p ha hp
    have hlt := Store.lt_size_of_parent? hp
    rw [Store.child, Store.size_push] at hlt
    rcases Nat.lt_or_eq_of_le (Nat.le_of_lt_succ hlt) with hold | rfl
    · rw [Store.child, Store.parent?_push_of_lt _ hold] at hp
      exact h.parent ha hp
    · have hself := Store.parent?_push_self st ⟨[], some e⟩
      obtain rfl : e = p := Option.some.inj (hself.symm.trans hp)
      exact he
  · intro a x v ha hv
    obtain ⟨b, hb, -⟩ := Option.map_eq_some_iff.mp hv
    obtain ⟨s, hs, -⟩ := Option.bind_eq_some_iff.mp hb
    rcases Store.scope?_push_cases hs with ⟨hold, -⟩ | ⟨rfl, rfl⟩
    · rw [Store.child, Store.localValue?_push_of_lt _ hold] at hv
      exact h.value ha hv
    · have hnone := Store.localValue?_child_self st e x
      exact absurd (hnone.symm.trans hv) (by simp)

theorem define (h : g.Encloses st) (hv : g.Admits v) (e : ScopeId) (x : String) :
    g.Encloses (st.define e x v) where
  made := by
    rw [Store.size_define]
    exact h.made
  parent a p ha hp := by
    rw [Store.parent?_define] at hp
    exact h.parent ha hp
  value a y w ha hw := by
    by_cases hself : a = e ∧ y = x
    · obtain ⟨rfl, rfl⟩ := hself
      by_cases hlt : a < st.scopes.size
      · rw [Store.localValue?_define_self hlt] at hw
        exact Option.some.inj hw ▸ hv
      · have hsize : (st.define a y v).scopes.size ≤ a := by
          rw [Store.size_define]
          exact Nat.le_of_not_lt hlt
        rw [Store.localValue?, Store.scope?_eq_none hsize] at hw
        cases hw
    · rw [Store.localValue?_define_of_ne (not_and_or.mp hself)] at hw
      exact h.value ha hw

end Encloses

end Region

-- ============================================================================
-- Steps that end
-- ============================================================================

/-- Started on an enclosed store with no more calls active than leave this much room, the step ends
    with some amount of fuel, and in the same way with any larger one. The store stays enclosed, as
    many calls are active as before, and a value that it ends with has the property. -/
def EvalM.Finishes (g : Region) (limit room : Nat) {α : Type} (A : α → Prop)
    (x : Nat → EvalM α) : Prop :=
  ∀ ⦃m⦄, g.Encloses m.store → limit ≤ m.activeCalls + room →
    ∃ least r m', (∀ fuel, least ≤ fuel → x fuel m = some (r, m')) ∧
      g.Encloses m'.store ∧ m'.activeCalls = m.activeCalls ∧ ∀ a, r = .ok a → A a

namespace EvalM.Finishes

variable {g : Region} {limit room : Nat} {α β : Type} {A : α → Prop} {B : β → Prop}

/-- A step that needs no fuel and leaves the calls as they are. -/
theorem of_step {x : EvalM α}
    (h : ∀ m, g.Encloses m.store → limit ≤ m.activeCalls + room →
      ∃ r m', x m = some (r, m') ∧ g.Encloses m'.store ∧ m'.activeCalls = m.activeCalls ∧
        ∀ a, r = .ok a → A a) :
    Finishes g limit room A fun _ => x := by
  intro m hm hroom
  obtain ⟨r, m', hrun, hends⟩ := h m hm hroom
  exact ⟨0, r, m', fun _ _ => hrun, hends⟩

protected theorem pure {a : α} (ha : A a) : Finishes g limit room A fun _ => pure a :=
  of_step fun m hm _ => ⟨.ok a, m, rfl, hm, rfl, fun _ hb => Except.ok.inj hb ▸ ha⟩

theorem fail (t : Token) (f : Fault) : Finishes g limit room A fun _ => EvalM.fail t f :=
  of_step fun m hm _ => ⟨_, m, rfl, hm, rfl, fun _ hb => nomatch hb⟩

theorem ofExcept {r : Except RuntimeError α} (h : ∀ a, r = .ok a → A a) :
    Finishes g limit room A fun _ => EvalM.ofExcept r :=
  of_step fun m hm _ => ⟨r, m, rfl, hm, rfl, h⟩

/-- There is room for the calls that are active, and for no more than the limit allows. -/
theorem activeCalls : Finishes g limit room (fun depth => limit ≤ depth + room) fun _ =>
    EvalM.gets Machine.activeCalls :=
  of_step fun m hm hroom => ⟨_, m, rfl, hm, rfl, fun _ hb => Except.ok.inj hb ▸ hroom⟩

theorem note (e : Machine → Event) :
    Finishes g limit room (fun _ => True) fun _ => EvalM.modify fun m => m.note (e m) :=
  of_step fun _ hm _ => ⟨_, _, rfl, hm, rfl, fun _ _ => trivial⟩

theorem newChild {e : ScopeId} (he : g.Has e) :
    Finishes g limit room g.Has fun _ => EvalM.newChild e :=
  of_step fun _ hm _ =>
    ⟨_, _, rfl, (hm.child he).2, rfl, fun _ hb => Except.ok.inj hb ▸ (hm.child he).1⟩

theorem define {v : Value} (hv : g.Admits v) (e : ScopeId) (name : String) :
    Finishes g limit room (fun _ => True) fun _ => EvalM.define e name v :=
  of_step fun _ hm _ => ⟨_, _, rfl, hm.define hv e name, rfl, fun _ _ => trivial⟩

theorem lookup {e : ScopeId} (he : g.Has e) (name : Token) :
    Finishes g limit room g.Admits fun _ => EvalM.lookup e name := by
  refine of_step fun m hm _ => ?_
  unfold EvalM.lookup
  cases hv : m.store.get? e name.lexeme with
  | some v => exact ⟨_, m, rfl, hm, rfl, fun _ hb => Except.ok.inj hb ▸ hm.get? he hv⟩
  | none => exact ⟨_, m, rfl, hm, rfl, fun _ hb => nomatch hb⟩

theorem assign {v : Value} (hv : g.Admits v) (e : ScopeId) (name : Token) :
    Finishes g limit room (fun _ => True) fun _ => EvalM.assign e name v := by
  refine of_step fun m hm _ => ?_
  unfold EvalM.assign
  dsimp only
  cases m.store.nearest? e name.lexeme with
  | some s => exact ⟨_, _, rfl, hm.define hv s name.lexeme, rfl, fun _ _ => trivial⟩
  | none => exact ⟨_, m, rfl, hm, rfl, fun _ _ => trivial⟩

theorem write (t : Token) (text : String) :
    Finishes g limit room (fun _ => True) fun _ => EvalM.write t text := by
  refine of_step fun m hm _ => ?_
  unfold EvalM.write
  dsimp only
  rcases m.sink.write text with ⟨sink, written | _⟩
  · exact ⟨_, _, rfl, hm, rfl, fun _ _ => trivial⟩
  · exact ⟨_, _, rfl, hm, rfl, fun _ _ => trivial⟩

protected theorem bind {x : Nat → EvalM α} {f : Nat → α → EvalM β} (hx : Finishes g limit room A x)
    (hf : ∀ a, A a → Finishes g limit room B fun fuel => f fuel a) :
    Finishes g limit room B fun fuel => x fuel >>= f fuel := by
  intro m hm hroom
  obtain ⟨least, r, m₁, hrun, hm₁, hcalls, hr⟩ := hx hm hroom
  have hbind : ∀ fuel, least ≤ fuel → (x fuel >>= f fuel) m =
      match (r, m₁) with
      | (.error e, m₁) => some (.error e, m₁)
      | (.ok a, m₁) => f fuel a m₁ := by
    intro fuel hle
    show EvalM.bind (x fuel) (f fuel) m = _
    unfold EvalM.bind
    rw [hrun fuel hle]
    cases r <;> rfl
  cases r with
  | error e => exact ⟨least, .error e, m₁, hbind, hm₁, hcalls, fun _ hb => nomatch hb⟩
  | ok a =>
    obtain ⟨more, r₂, m₂, hrun₂, hm₂, hcalls₂, hr₂⟩ := hf a (hr a rfl) hm₁ (hcalls ▸ hroom)
    refine ⟨max least more, r₂, m₂, fun fuel hle => ?_, hm₂, hcalls₂.trans hcalls, hr₂⟩
    have hfirst := hbind fuel (Nat.le_trans (Nat.le_max_left least more) hle)
    exact hfirst.trans (hrun₂ fuel (Nat.le_trans (Nat.le_max_right least more) hle))

theorem ite {p : Prop} [Decidable p] {x y : Nat → EvalM α} (hyes : p → Finishes g limit room A x)
    (hno : ¬ p → Finishes g limit room A y) :
    Finishes g limit room A fun fuel => if p then x fuel else y fuel := by
  by_cases h : p
  · simpa only [if_pos h] using hyes h
  · simpa only [if_neg h] using hno h

/-- A step that hands on one unit less. -/
theorem of_succ {x y : Nat → EvalM α} (h : ∀ fuel, x (fuel + 1) = y fuel)
    (hy : Finishes g limit room A y) : Finishes g limit room A x := by
  intro m hm hroom
  obtain ⟨least, r, m', hrun, hends⟩ := hy hm hroom
  refine ⟨least + 1, r, m', fun fuel hle => ?_, hends⟩
  obtain ⟨fuel, rfl⟩ : ∃ less, fuel = less + 1 := ⟨fuel - 1, by omega⟩
  rw [h]
  exact hrun fuel (Nat.le_of_succ_le_succ hle)

/-- The body of a call has room for one call less inside of it. -/
theorem inCall {x : Nat → EvalM α} (hx : Finishes g limit room A x) :
    Finishes g limit (room + 1) A fun fuel => EvalM.inCall (x fuel) := by
  intro m hm hroom
  obtain ⟨least, r, m', hrun, hm', hcalls, hr⟩ :=
    @hx { m with activeCalls := m.activeCalls + 1 } hm (by dsimp only; omega)
  refine ⟨least, r, { m' with activeCalls := m'.activeCalls - 1 }, fun fuel hle => ?_, hm', ?_, hr⟩
  · show EvalM.inCall (x fuel) m = _
    unfold EvalM.inCall
    rw [hrun fuel hle]
  · dsimp only at hcalls ⊢
    omega

theorem bindParams (scope : ScopeId) (params : List Token) {args : List Value}
    (hargs : ∀ v ∈ args, g.Admits v) :
    Finishes g limit room (fun _ => True) fun _ => Lexiscope.bindParams scope params args := by
  induction params generalizing args with
  | nil => exact .pure trivial
  | cons p params ih =>
    cases args with
    | nil => exact .pure trivial
    | cons a args =>
      obtain ⟨ha, hargs⟩ := List.forall_mem_cons.mp hargs
      exact .bind (.define ha scope p.lexeme) fun _ _ => ih hargs

theorem builtinCall (b : Builtin) (args : List Value) (paren : Token) :
    Finishes g limit room g.Admits fun _ => b.call args paren := by
  cases b with
  | print => exact .bind (.write paren _) fun _ _ => .pure trivial

end EvalM.Finishes

-- ============================================================================
-- The evaluator
-- ============================================================================

section Evaluator

variable {g : Region} {limit room : Nat}

/-- Bodies of functions end where there is less room. -/
def BodiesFinish (g : Region) (limit room : Nat) : Prop :=
  ∀ less < room, ∀ body scope, Stmt.AllLoopFree body → g.Has scope →
    EvalM.Finishes g limit less g.AdmitsFlow fun fuel => execAll limit fuel body .nil scope

/-- Nothing but a function can be called. -/
theorem call_succ_of_type (limit fuel : Nat) {f : Value} (hf : f.type ≠ .function)
    (args : List Value) (paren : Token) :
    call limit (fuel + 1) f args paren = EvalM.fail paren (.notCallable f.type) := by
  cases f with
  | function f c => exact absurd rfl hf
  | builtin b => exact absurd rfl hf
  | number _ | string _ | boolean _ | nil =>
    rw [call]
    all_goals simp

theorem call_finishes (hbodies : BodiesFinish g limit room) {f : Value} (hf : g.Admits f)
    {args : List Value} (hargs : ∀ v ∈ args, g.Admits v) (paren : Token) :
    EvalM.Finishes g limit room g.Admits fun fuel => call limit fuel f args paren := by
  cases f with
  | number _ | string _ | boolean _ | nil =>
    exact .of_succ (fun fuel => call_succ_of_type limit fuel (by simp [Value.type]) args paren)
      (.fail ..)
  | builtin b => exact .of_succ (fun fuel => by rw [call]) (.builtinCall b args paren)
  | function f closure =>
    obtain ⟨hbody, hclosure⟩ := hf
    refine .of_succ (fun fuel => by rw [call]) ?_
    refine .bind .activeCalls fun depth hdepth => ?_
    refine .ite (fun _ => .fail paren _) fun _ => .ite (fun _ => .fail paren _) fun hroom => ?_
    refine .bind (.newChild hclosure) fun scope hscope => ?_
    refine .bind (.bindParams scope f.params hargs) fun _ _ => .bind (.note _) fun _ _ => ?_
    -- The limit is not met, so there is room for the call itself.
    obtain ⟨less, rfl⟩ : ∃ less, room = less + 1 := ⟨room - 1, by omega⟩
    refine .bind (.inCall (hbodies less (Nat.lt_succ_self less) f.body scope hbody hscope)) ?_
    exact fun flow hflow => .pure hflow.callResult

mutual

theorem eval_finishes (hbodies : BodiesFinish g limit room) {scope : ScopeId} (hscope : g.Has scope) :
    (e : Expr) → EvalM.Finishes g limit room g.Admits fun fuel => eval limit fuel e scope
  | .number _ | .string _ | .boolean _ | .nil => by
    refine .of_succ (fun fuel => by rw [eval]) (.pure ?_)
    trivial
  | .identifier name => .of_succ (fun fuel => by rw [eval]) (.lookup hscope name)
  | .unary op mark operand => by
    refine .of_succ (fun fuel => by rw [eval]) ?_
    exact .bind (eval_finishes hbodies hscope operand) fun v _ => .ofExcept fun _ => .unary
  | .binary op mark left right => by
    refine .of_succ (fun fuel => by rw [eval]) ?_
    refine .bind (eval_finishes hbodies hscope left) fun a ha => ?_
    refine .ite (fun _ => .pure ha) fun _ => ?_
    exact .bind (eval_finishes hbodies hscope right) fun b hb => .ofExcept fun _ => .binary ha hb
  | .assign target value => by
    refine .of_succ (fun fuel => by rw [eval]) ?_
    refine .bind (eval_finishes hbodies hscope value) fun v hv => ?_
    exact .bind (.assign hv scope target) fun _ _ => .pure hv
  | .call callee paren args => by
    refine .of_succ (fun fuel => by rw [eval]) ?_
    refine .bind (eval_finishes hbodies hscope callee) fun f hf => ?_
    refine .bind (evalAll_finishes hbodies hscope args) fun vs hvs => ?_
    exact call_finishes hbodies hf hvs paren

theorem evalAll_finishes (hbodies : BodiesFinish g limit room) {scope : ScopeId}
    (hscope : g.Has scope) :
    (es : List Expr) → EvalM.Finishes g limit room (fun vs => ∀ v ∈ vs, g.Admits v)
      fun fuel => evalAll limit fuel es scope
  | [] => .of_succ (fun fuel => by rw [evalAll]) (.pure (List.forall_mem_nil _))
  | e :: rest => by
    refine .of_succ (fun fuel => by rw [evalAll]) ?_
    refine .bind (eval_finishes hbodies hscope e) fun v hv => ?_
    refine .bind (evalAll_finishes hbodies hscope rest) fun vs hvs => ?_
    exact .pure (List.forall_mem_cons.mpr ⟨hv, hvs⟩)

end

mutual

theorem exec_finishes (hbodies : BodiesFinish g limit room) {scope : ScopeId}
    (hscope : g.Has scope) :
    (s : Stmt) → s.LoopFree →
      EvalM.Finishes g limit room g.AdmitsFlow fun fuel => exec limit fuel s scope
  | .expression e, _ => by
    refine .of_succ (fun fuel => by rw [exec]) ?_
    exact .bind (eval_finishes hbodies hscope e) fun v hv => .pure hv
  | .letVar name none, _ => by
    refine .of_succ (fun fuel => by rw [exec]) ?_
    exact .bind (.define (v := .nil) trivial scope name.lexeme) fun _ _ => .pure trivial
  | .letVar name (some e), _ => by
    refine .of_succ (fun fuel => by rw [exec]) ?_
    refine .bind (eval_finishes hbodies hscope e) fun v hv => ?_
    exact .bind (.define hv scope name.lexeme) fun _ _ => .pure trivial
  | .block _ body, h => by
    refine .of_succ (fun fuel => by rw [exec]) ?_
    exact .bind (.newChild hscope) fun inner hinner =>
      execAll_finishes hbodies hinner body h trivial
  | .ifThen _ condition yes, h => by
    refine .of_succ (fun fuel => by rw [exec]) ?_
    refine .bind (eval_finishes hbodies hscope condition) fun v _ => ?_
    exact .ite (fun _ => exec_finishes hbodies hscope yes h) fun _ => .pure trivial
  | .ifThenElse _ condition yes no, h => by
    refine .of_succ (fun fuel => by rw [exec]) ?_
    refine .bind (eval_finishes hbodies hscope condition) fun v _ => ?_
    exact .ite (fun _ => exec_finishes hbodies hscope yes h.1) fun _ =>
      exec_finishes hbodies hscope no h.2
  | .whileLoop _ _ _, h => h.elim
  | .function label name params body, h => by
    refine .of_succ (fun fuel => by rw [exec]) ?_
    have hf : g.Admits (.function ⟨label, name, params, body⟩ scope) := ⟨h, hscope⟩
    exact .bind (.define hf scope name.lexeme) fun _ _ => .pure trivial
  | .returnStmt _ none, _ => by
    refine .of_succ (fun fuel => by rw [exec]) (.pure ?_)
    trivial
  | .returnStmt _ (some e), _ => by
    refine .of_succ (fun fuel => by rw [exec]) ?_
    exact .bind (eval_finishes hbodies hscope e) fun v hv => .pure hv

theorem execAll_finishes (hbodies : BodiesFinish g limit room) {scope : ScopeId}
    (hscope : g.Has scope) :
    (ss : List Stmt) → Stmt.AllLoopFree ss → ∀ {last : Value}, g.Admits last →
      EvalM.Finishes g limit room g.AdmitsFlow fun fuel => execAll limit fuel ss last scope
  | [], _, last, hlast => by
    refine .of_succ (fun fuel => by rw [execAll]) (.pure ?_)
    exact hlast
  | s :: rest, h, last, _ => by
    refine .of_succ (fun fuel => by rw [execAll]) ?_
    refine .bind (exec_finishes hbodies hscope s h.1) fun flow hflow => ?_
    cases flow with
    | normal v => exact execAll_finishes hbodies hscope rest h.2 hflow
    | returned v => exact .pure hflow

end

/-- Bodies of functions without loops end, however much room there is for calls. -/
theorem bodies_finish (g : Region) (limit room : Nat) : BodiesFinish g limit room := by
  induction room with
  | zero => exact fun less hless => absurd hless (Nat.not_lt_zero less)
  | succ room ih =>
    intro less hless body scope hbody hscope
    rcases Nat.lt_or_eq_of_le (Nat.le_of_lt_succ hless) with hfewer | rfl
    · exact ih less hfewer body scope hbody hscope
    · exact execAll_finishes ih hscope body hbody trivial

end Evaluator

-- ============================================================================
-- Phrases
-- ============================================================================

/-- Without loops every run ends. A program with no loop in it, or an expression, ends with a value
    or with an error in every scope from which no function with a loop in its body can be reached,
    whatever the limit on active calls, the machine and its sink. -/
theorem loop_free_phrases_end (phrase : Phrase) (hphrase : phrase.LoopFree) (limit : Nat)
    (scope : ScopeId) (m : Machine) (hm : m.store.LoopFree scope) :
    ∃ r m', phrase.Ends limit scope m r m' := by
  have hstore := Region.from_encloses hm
  have hscope := Region.from_has m.store scope
  have hbodies := bodies_finish (.from_ m.store scope) limit limit
  cases phrase with
  | expression e =>
    obtain ⟨least, r, m', hrun, -⟩ := eval_finishes hbodies hscope e hstore (Nat.le_add_left _ _)
    exact ⟨r, m', least, hrun least (Nat.le_refl least)⟩
  | program p =>
    have hstatements :=
      execAll_finishes hbodies hscope p.statements hphrase
        (show (Region.from_ m.store scope).Admits .nil from trivial)
    obtain ⟨least, r, m', hrun, -⟩ := @hstatements m.begun hstore (Nat.le_add_left _ _)
    exact ⟨_, _, least, Program.run_eq_some_iff.mpr ⟨_, hrun least (Nat.le_refl least), rfl⟩⟩

section Witness

/-- `fn again(g) { g(g); }` -/
def againFunction : FunctionDef :=
  ⟨1, looseName "again", [looseName "g"], [.expression
    (.call (.identifier (looseName "g")) (looseName "(") [.identifier (looseName "g")])]⟩

/-- The builtin functions and `againFunction`, which closes over the scope that binds it. -/
def againMachine : Machine :=
  { idleMachine with store := idleMachine.store.define 0 "again" (.function againFunction 0) }

/-- `again(again);` -/
def againProgram : Program :=
  ⟨[.expression (.call (.identifier (looseName "again")) (looseName "(")
    [.identifier (looseName "again")])]⟩

/-- The kind of error that a run ended with. -/
def endKind? : Except RuntimeError Value → Option RuntimeKind
  | .error e => some e.kind
  | .ok _ => none

theorem againMachine_loopFree : againMachine.store.LoopFree 0 := by
  have hall : ∀ e, (Region.mk (fun _ => True) 0).Has e := fun _ => .inl trivial
  have hglobal : (Region.mk (fun _ => True) 0).Encloses idleMachine.store := by
    refine ⟨Nat.zero_le _, fun _ p _ _ => hall p, fun e x v _ hv => ?_⟩
    obtain ⟨b, rfl⟩ := Store.exists_builtin_of_newGlobal hv
    trivial
  have hagain : (Region.mk (fun _ => True) 0).Admits (.function againFunction 0) :=
    ⟨⟨trivial, trivial⟩, hall 0⟩
  exact (hglobal.define hagain 0 "again").loopFree (hall 0)

/-- A function that is called with itself calls itself with itself, and ends three calls deep. -/
theorem loop_free_phrases_end_again :
    (Phrase.program againProgram).LoopFree ∧ againMachine.store.LoopFree 0 ∧
      ∃ r m', (Phrase.program againProgram).Ends 3 0 againMachine r m' ∧ Overflowed r := by
  have hprogram : (Phrase.program againProgram).LoopFree := ⟨trivial, trivial⟩
  obtain ⟨r, m', hends⟩ :=
    loop_free_phrases_end (.program againProgram) hprogram 3 0 againMachine againMachine_loopFree
  refine ⟨hprogram, againMachine_loopFree, r, m', hends, ?_⟩
  have hkind : (((Phrase.program againProgram).run 3 20 0 againMachine).bind fun answer =>
      endKind? answer.1) = some .stackOverflow := by
    decide +kernel
  obtain ⟨⟨r', m''⟩, hrun, hr'⟩ := Option.bind_eq_some_iff.mp hkind
  obtain ⟨rfl, -⟩ := hends.unique ⟨20, hrun⟩
  cases r with
  | ok v => cases hr'
  | error e => exact ⟨e, rfl, Option.some.inj hr'⟩

end Witness

end Lexiscope
