/-
  Lexiscope.Proofs.Eval.WellFormed

  Running programs that were read.

  A program that was read has no `return` outside of functions, so none of its
  statements ends with one. Wherever its run comes to, be it in the body of a
  function that some other program defined, the sites of what is run fit their
  tokens, as long as all functions in the store come from programs that were read.
  So an operator is never applied under a token that does not stand for it.
-/
import Lexiscope.Proofs.Eval.Effects
import Lexiscope.Proofs.Eval.Reach
import Lexiscope.Proofs.Grammar.WellFormed

namespace Lexiscope

open Grammar

-- ============================================================================
-- Functions of programs
-- ============================================================================

mutual

/-- The functions that a statement defines, and those defined inside of them. -/
def Stmt.definitions : Stmt → List FunctionDef
  | .expression _ | .letVar _ _ | .returnStmt _ _ => []
  | .block _ body => Stmt.definitionsAll body
  | .ifThen _ _ yes => yes.definitions
  | .ifThenElse _ _ yes no => yes.definitions ++ no.definitions
  | .whileLoop _ _ body => body.definitions
  | .function label name params body => ⟨label, name, params, body⟩ :: Stmt.definitionsAll body

/-- The functions that some statements define. -/
def Stmt.definitionsAll : List Stmt → List FunctionDef
  | [] => []
  | s :: rest => s.definitions ++ Stmt.definitionsAll rest

end

/-- The functions that a program defines, at any depth. -/
def Program.definitions (p : Program) : List FunctionDef := Stmt.definitionsAll p.statements

/-- The program was read from tokens; how its functions are numbered does not matter. -/
def Program.Parsed (p : Program) : Prop :=
  ∃ tokens limit q, Program.parse tokens limit = .ok q ∧ (p.relabel 0).1 = (q.relabel 0).1

/-- If the value is a function, a program that was read defines it. -/
def Value.Parsed : Value → Prop
  | .function f _ => ∃ p : Program, p.Parsed ∧ f ∈ p.definitions
  | _ => True

/-- Every function that is bound in the store is defined by a program that was read. -/
def Store.Parsed (st : Store) : Prop := ∀ ⦃e x v⦄, st.localValue? e x = some v → v.Parsed

theorem Program.Parsed.wellFormed {p : Program} (h : p.Parsed) : p.WellFormed := by
  obtain ⟨tokens, limit, q, hparse, hsame⟩ := h
  rw [← p.wellFormed_relabel 0, hsame, q.wellFormed_relabel]
  exact .of_parse hparse

mutual

theorem Stmt.WellFormed.body {f : FunctionDef} {inside : Bool} :
    (s : Stmt) → s.WellFormed inside → f ∈ s.definitions → Stmt.AllWellFormed true f.body
  | .expression _, _, h | .letVar _ _, _, h | .returnStmt _ _, _, h => nomatch h
  | .block _ body, hs, h => Stmt.AllWellFormed.body body hs h
  | .ifThen _ _ yes, hs, h => Stmt.WellFormed.body yes hs.2 h
  | .ifThenElse _ _ yes no, hs, h => by
    rcases List.mem_append.mp h with h | h
    · exact Stmt.WellFormed.body yes hs.2.1 h
    · exact Stmt.WellFormed.body no hs.2.2.2 h
  | .whileLoop _ _ body, hs, h => Stmt.WellFormed.body body hs.2 h
  | .function _ _ _ body, hs, h => by
    rcases List.mem_cons.mp h with rfl | h
    · exact hs.2.2.2.2
    · exact Stmt.AllWellFormed.body body hs.2.2.2.2 h

/-- The bodies of the functions in well-formed statements are well formed. -/
theorem Stmt.AllWellFormed.body {f : FunctionDef} {inside : Bool} :
    (ss : List Stmt) → Stmt.AllWellFormed inside ss → f ∈ Stmt.definitionsAll ss →
      Stmt.AllWellFormed true f.body
  | [], _, h => nomatch h
  | s :: rest, hs, h => by
    rcases List.mem_append.mp h with h | h
    · exact Stmt.WellFormed.body s hs.1 h
    · exact Stmt.AllWellFormed.body rest hs.2 h

end

-- ============================================================================
-- Sites that fit their tokens
-- ============================================================================

/-- The token of the site can do what it does there. -/
def Site.Fits (site : Site) : Prop := site.role.Fits site.token

mutual

theorem Expr.WellFormed.sites {inside : Bool} :
    (e : Expr) → e.WellFormed → ∀ site ∈ e.sites inside, site.Fits
  | .number _, _ | .string _, _ | .boolean _, _ | .nil, _ => List.forall_mem_nil _
  | .identifier _, h => List.forall_mem_singleton.mpr h
  | .unary _ _ operand, ⟨_, hmark, h⟩ =>
    List.forall_mem_cons.mpr ⟨hmark, Expr.WellFormed.sites operand h⟩
  | .binary _ _ left right, ⟨_, hmark, hleft, hright⟩ =>
    List.forall_mem_cons.mpr ⟨hmark, List.forall_mem_append.mpr
      ⟨Expr.WellFormed.sites left hleft, Expr.WellFormed.sites right hright⟩⟩
  | .assign _ value, ⟨htarget, h⟩ =>
    List.forall_mem_cons.mpr ⟨htarget, Expr.WellFormed.sites value h⟩
  | .call callee _ args, ⟨hparen, _, hcallee, hargs⟩ =>
    List.forall_mem_cons.mpr ⟨hparen, List.forall_mem_append.mpr
      ⟨Expr.WellFormed.sites callee hcallee, Expr.AllWellFormed.sites args hargs⟩⟩

theorem Expr.AllWellFormed.sites {inside : Bool} :
    (es : List Expr) → Expr.AllWellFormed es → ∀ site ∈ Expr.sitesAll inside es, site.Fits
  | [], _ => List.forall_mem_nil _
  | e :: rest, h =>
    List.forall_mem_append.mpr ⟨Expr.WellFormed.sites e h.1, Expr.AllWellFormed.sites rest h.2⟩

end

mutual

theorem Stmt.WellFormed.sites {inside : Bool} :
    (s : Stmt) → s.WellFormed inside → ∀ site ∈ s.sites inside, site.Fits
  | .expression e, h => Expr.WellFormed.sites e h
  | .letVar _ none, _ | .returnStmt _ none, _ => List.forall_mem_nil _
  | .letVar _ (some e), h | .returnStmt _ (some e), h => Expr.WellFormed.sites e h.2
  | .block _ body, h => Stmt.AllWellFormed.sites body h
  | .ifThen _ condition yes, h =>
    List.forall_mem_append.mpr ⟨Expr.WellFormed.sites condition h.1, Stmt.WellFormed.sites yes h.2⟩
  | .ifThenElse _ condition yes no, ⟨hcondition, hyes, _, hno⟩ =>
    List.forall_mem_append.mpr ⟨Expr.WellFormed.sites condition hcondition,
      List.forall_mem_append.mpr ⟨Stmt.WellFormed.sites yes hyes, Stmt.WellFormed.sites no hno⟩⟩
  | .whileLoop _ condition body, h =>
    List.forall_mem_append.mpr ⟨Expr.WellFormed.sites condition h.1, Stmt.WellFormed.sites body h.2⟩
  | .function _ _ _ body, h => Stmt.AllWellFormed.sites body h.2.2.2.2

/-- The sites of well-formed statements fit their tokens. -/
theorem Stmt.AllWellFormed.sites {inside : Bool} :
    (ss : List Stmt) → Stmt.AllWellFormed inside ss →
      ∀ site ∈ Stmt.sitesAll inside ss, site.Fits
  | [], _ => List.forall_mem_nil _
  | s :: rest, h =>
    List.forall_mem_append.mpr ⟨Stmt.WellFormed.sites s h.1, Stmt.AllWellFormed.sites rest h.2⟩

end

theorem Value.Parsed.made {v : Value} (h : v.Parsed) : v.Made Site.Fits := by
  cases v with
  | function f closure =>
    obtain ⟨p, hp, hf⟩ := h
    exact Stmt.AllWellFormed.sites f.body (Stmt.AllWellFormed.body p.statements hp.wellFormed hf)
  | number _ | string _ | boolean _ | nil | builtin _ => trivial

theorem Store.Parsed.made {st : Store} (h : st.Parsed) : st.Made Site.Fits :=
  fun _ _ _ hv => (h hv).made

/-- Where only the builtin functions are bound, there is no definition at all. -/
theorem Store.Parsed.newGlobal : Store.empty.newGlobal.1.Parsed := by
  intro e x v hv
  obtain ⟨b, rfl⟩ := exists_builtin_of_newGlobal hv
  trivial

-- ============================================================================
-- Moments
-- ============================================================================

/-- The sites of what is run are some of these, and so are those of the functions that it is
    given. -/
def Task.Made (P : Site → Prop) : Task → Prop
  | eval e _ => ∃ inside, ∀ site ∈ e.sites inside, P site
  | evalAll es _ => ∃ inside, ∀ site ∈ Expr.sitesAll inside es, P site
  | call f args paren =>
    f.Made P ∧ (∀ v ∈ args, Value.Made P v) ∧ ∃ inside, P ⟨.call, paren, inside⟩
  | exec s _ => ∃ inside, ∀ site ∈ s.sites inside, P site
  | execAll ss last _ => (∃ inside, ∀ site ∈ Stmt.sitesAll inside ss, P site) ∧ last.Made P
  | repeatWhile condition body _ =>
    ∃ inside, (∀ site ∈ condition.sites inside, P site) ∧ ∀ site ∈ body.sites inside, P site

/-- What is run is made of these sites, and so are the functions in the store. -/
structure Moment.Made (P : Site → Prop) (z : Moment) : Prop where
  task : z.task.Made P
  store : z.machine.store.Made P

variable {P : Site → Prop} {limit fuel : Nat}

theorem Task.Made.first {task part : Task} (h : task.Made P) (hpart : task.first? = some part) :
    part.Made P := by
  cases task with
  | call f args paren => cases hpart
  | eval e scope =>
    obtain ⟨inside, h⟩ := h
    cases e with
    | number _ | string _ | boolean _ | nil | identifier _ => cases hpart
    | unary op mark operand | assign target value =>
      cases hpart
      exact ⟨inside, (List.forall_mem_cons.mp h).2⟩
    | binary op mark left right | call callee paren args =>
      cases hpart
      exact ⟨inside, (List.forall_mem_append.mp (List.forall_mem_cons.mp h).2).1⟩
  | evalAll es scope =>
    obtain ⟨inside, h⟩ := h
    cases es with
    | nil => cases hpart
    | cons e rest =>
      cases hpart
      exact ⟨inside, (List.forall_mem_append.mp h).1⟩
  | exec s scope =>
    obtain ⟨inside, h⟩ := h
    cases s with
    | block _ _ | function _ _ _ _ => cases hpart
    | expression e =>
      cases hpart
      exact ⟨inside, h⟩
    | letVar _ value | returnStmt _ value =>
      cases value with
      | none => cases hpart
      | some e =>
        cases hpart
        exact ⟨inside, h⟩
    | ifThen word condition yes | ifThenElse word condition yes no =>
      cases hpart
      exact ⟨inside, (List.forall_mem_append.mp h).1⟩
    | whileLoop word condition body =>
      cases hpart
      exact ⟨inside, List.forall_mem_append.mp h⟩
  | execAll ss last scope =>
    obtain ⟨inside, h⟩ := h.1
    cases ss with
    | nil => cases hpart
    | cons s rest =>
      cases hpart
      exact ⟨inside, (List.forall_mem_append.mp h).1⟩
  | repeatWhile condition body scope =>
    obtain ⟨inside, h, -⟩ := h
    cases hpart
    exact ⟨inside, h⟩

theorem Task.Made.turn {body : Stmt} {inside : Bool} (h : ∀ site ∈ body.sites inside, P site)
    (inner : ScopeId) : (Task.turn body inner).Made P := by
  cases body with
  | block brace statements => exact ⟨⟨inside, h⟩, .nil⟩
  | _ => exact ⟨inside, h⟩

/-- One turn of a loop keeps to what the loop is made of. -/
theorem runTurn_meets {c : Account} {body : Stmt} {inside : Bool}
    (h : ∀ site ∈ body.sites inside, c.Place site) (inner : ScopeId) :
    (runTurn limit fuel body inner).Meets c (Flow.Made c.Place) := by
  have hother := (RunsMeet.all c limit fuel).exec h inner
  cases body with
  | block brace statements => exact (RunsMeet.all c limit fuel).execAll h .nil inner
  | _ => exact hother

theorem enter_meets {c : Account} (f : FunctionDef) (closure : ScopeId) {args : List Value}
    (hargs : ∀ v ∈ args, v.Made c.Place) (depth : Nat) :
    (enter f closure args depth).Meets c fun _ => True :=
  .bind (.newChild closure) fun scope _ => .bind (.bindParams scope f.params hargs) fun _ _ =>
    .bind (.note _) fun _ _ => .pure trivial

/-- The parts of a run are made of the same sites as the run, and of those of functions in the
    store. -/
theorem Begins.made {z z₁ : Moment} (hbegins : Begins limit z z₁) (hz : z.Made P) : z₁.Made P := by
  obtain ⟨htask, hstore⟩ := hz
  have hmeets := RunsMeet.all (.ofPlaces P) limit
  cases hbegins with
  | first hpart => exact ⟨htask.first hpart, hstore⟩
  | right hleft _ =>
    obtain ⟨inside, h⟩ := htask
    obtain ⟨hl, hr⟩ := List.forall_mem_append.mp (List.forall_mem_cons.mp h).2
    exact ⟨⟨inside, hr⟩, ((hmeets _).eval hl _ hstore hleft).2.1⟩
  | arguments hcallee =>
    obtain ⟨inside, h⟩ := htask
    obtain ⟨hc, ha⟩ := List.forall_mem_append.mp (List.forall_mem_cons.mp h).2
    exact ⟨⟨inside, ha⟩, ((hmeets _).eval hc _ hstore hcallee).2.1⟩
  | call hcallee hargs =>
    obtain ⟨inside, h⟩ := htask
    obtain ⟨hparen, h⟩ := List.forall_mem_cons.mp h
    obtain ⟨hc, ha⟩ := List.forall_mem_append.mp h
    obtain ⟨-, hstore₁, hf⟩ := (hmeets _).eval hc _ hstore hcallee
    obtain ⟨-, hstore₂, hvalues⟩ := (hmeets _).evalAll ha _ hstore₁ hargs
    exact ⟨⟨hf, hvalues, inside, hparen⟩, hstore₂⟩
  | others hfirst =>
    obtain ⟨inside, h⟩ := htask
    obtain ⟨he, hrest⟩ := List.forall_mem_append.mp h
    exact ⟨⟨inside, hrest⟩, ((hmeets _).eval he _ hstore hfirst).2.1⟩
  | body _ _ henter =>
    -- The body of a function is made of these sites because the function is.
    obtain ⟨hf, hargs, -⟩ := htask
    have hstore₁ := (enter_meets (c := .ofPlaces P) _ _ hargs _ hstore henter).2.1
    exact ⟨⟨⟨true, hf⟩, .nil⟩, hstore₁⟩
  | block hinner =>
    have hstore₁ := (EvalM.Meets.newChild (c := .ofPlaces P) _ hstore hinner).2.1
    exact ⟨⟨htask, .nil⟩, hstore₁⟩
  | branch hcondition _ =>
    obtain ⟨inside, h⟩ := htask
    obtain ⟨hc, hyes⟩ := List.forall_mem_append.mp h
    exact ⟨⟨inside, hyes⟩, ((hmeets _).eval hc _ hstore hcondition).2.1⟩
  | either hcondition =>
    obtain ⟨inside, h⟩ := htask
    obtain ⟨hc, h⟩ := List.forall_mem_append.mp h
    obtain ⟨hyes, hno⟩ := List.forall_mem_append.mp h
    refine ⟨⟨inside, ?_⟩, ((hmeets _).eval hc _ hstore hcondition).2.1⟩
    split
    · exact hyes
    · exact hno
  | next hfirst =>
    obtain ⟨⟨inside, h⟩, -⟩ := htask
    obtain ⟨hs, hrest⟩ := List.forall_mem_append.mp h
    obtain ⟨-, hstore₁, hflow⟩ := (hmeets _).exec hs _ hstore hfirst
    exact ⟨⟨⟨inside, hrest⟩, hflow⟩, hstore₁⟩
  | turn hcondition _ hinner =>
    obtain ⟨inside, hc, hbody⟩ := htask
    have hstore₁ := ((hmeets _).eval hc _ hstore hcondition).2.1
    have hstore₂ := (EvalM.Meets.newChild (c := .ofPlaces P) _ hstore₁ hinner).2.1
    exact ⟨.turn hbody _, hstore₂⟩
  | again hcondition _ hinner hbody =>
    obtain ⟨inside, hc, hb⟩ := htask
    have hstore₁ := ((hmeets _).eval hc _ hstore hcondition).2.1
    have hstore₂ := (EvalM.Meets.newChild (c := .ofPlaces P) _ hstore₁ hinner).2.1
    have hstore₃ := (runTurn_meets (c := .ofPlaces P) hb _ hstore₂ hbody).2.1
    exact ⟨⟨inside, hc, hb⟩, hstore₃⟩

/-- Whatever a run comes to is made of these sites if the run is. -/
theorem Reaches.made {z z₁ : Moment} (hreaches : Reaches limit z z₁) (hz : z.Made P) :
    z₁.Made P := by
  induction hreaches with
  | refl => exact hz
  | tail _ hbegins ih => exact hbegins.made ih

-- ============================================================================
-- No return at the top level
-- ============================================================================

/-- The step never ends with a `return`. -/
def EvalM.NeverReturns (x : EvalM Flow) : Prop :=
  ∀ ⦃m flow m'⦄, x m = some (.ok flow, m') → ∃ v, flow = .normal v

namespace EvalM.NeverReturns

variable {α : Type}

theorem outOfFuel : (EvalM.outOfFuel : EvalM Flow).NeverReturns := by
  intro m flow m' h
  cases h

theorem normal (v : Value) : (pure (.normal v) : EvalM Flow).NeverReturns := by
  rintro m flow m' ⟨⟩
  exact ⟨v, rfl⟩

protected theorem bind (x : EvalM α) {f : α → EvalM Flow} (hf : ∀ a, (f a).NeverReturns) :
    (x >>= f).NeverReturns := by
  intro m flow m' h
  have h' : EvalM.bind x f m = some (.ok flow, m') := h
  unfold EvalM.bind at h'
  split at h'
  · cases h'
  · cases h'
  · next a m₁ _ => exact hf a h'

/-- After a step that never returns, only what follows a normal end matters. -/
theorem bind_flow {x : EvalM Flow} {f : Flow → EvalM Flow} (hx : x.NeverReturns)
    (hf : ∀ v, (f (.normal v)).NeverReturns) : (x >>= f).NeverReturns := by
  intro m flow m' h
  have h' : EvalM.bind x f m = some (.ok flow, m') := h
  unfold EvalM.bind at h'
  split at h'
  · cases h'
  · cases h'
  · next a m₁ hfirst =>
    obtain ⟨v, rfl⟩ := hx hfirst
    exact hf v h'

theorem ite {c : Prop} [Decidable c] {x y : EvalM Flow} (hyes : x.NeverReturns)
    (hno : y.NeverReturns) : (if c then x else y).NeverReturns := by
  split
  · exact hyes
  · exact hno

end EvalM.NeverReturns

/-- With this much fuel, statements outside of functions never end with a `return`. -/
structure RunsOn (limit fuel : Nat) : Prop where
  exec : ∀ {s}, s.WellFormed false → ∀ scope, (exec limit fuel s scope).NeverReturns
  execAll : ∀ {ss}, Stmt.AllWellFormed false ss → ∀ last scope,
    (execAll limit fuel ss last scope).NeverReturns
  repeatWhile : ∀ {body}, body.WellFormed false → ∀ condition scope,
    (repeatWhile limit fuel condition body scope).NeverReturns

namespace RunsOn

theorem zero (limit : Nat) : RunsOn limit 0 := by
  constructor <;> intros
  · rw [Lexiscope.exec]
    exact .outOfFuel
  · rw [Lexiscope.execAll]
    exact .outOfFuel
  · rw [Lexiscope.repeatWhile]
    exact .outOfFuel

section Step

variable (ih : RunsOn limit fuel)
include ih

theorem exec_succ {s : Stmt} (hs : s.WellFormed false) (scope : ScopeId) :
    (Lexiscope.exec limit (fuel + 1) s scope).NeverReturns := by
  cases s with
  | expression e =>
    rw [Lexiscope.exec]
    exact .bind _ fun v => .normal v
  | letVar name value =>
    cases value with
    | none =>
      rw [Lexiscope.exec]
      exact .bind _ fun _ => .normal .nil
    | some e =>
      rw [Lexiscope.exec]
      exact .bind _ fun _ => .bind _ fun _ => .normal .nil
  | block brace body =>
    rw [Lexiscope.exec]
    exact .bind _ fun inner => ih.execAll hs .nil inner
  | ifThen word condition yes =>
    rw [Lexiscope.exec]
    exact .bind _ fun v => .ite (ih.exec hs.2 scope) (.normal .nil)
  | ifThenElse word condition yes no =>
    rw [Lexiscope.exec]
    exact .bind _ fun v => .ite (ih.exec hs.2.1 scope) (ih.exec hs.2.2.2 scope)
  | whileLoop word condition body =>
    rw [Lexiscope.exec]
    exact ih.repeatWhile hs.2 condition scope
  | function label name params body =>
    rw [Lexiscope.exec]
    exact .bind _ fun _ => .normal .nil
  | returnStmt word value => cases hs.1

theorem execAll_succ {ss : List Stmt} (hss : Stmt.AllWellFormed false ss) (last : Value)
    (scope : ScopeId) : (Lexiscope.execAll limit (fuel + 1) ss last scope).NeverReturns := by
  cases ss with
  | nil =>
    rw [Lexiscope.execAll]
    exact .normal last
  | cons s rest =>
    rw [Lexiscope.execAll]
    exact .bind_flow (ih.exec hss.1 scope) fun v => ih.execAll hss.2 v scope

theorem repeatWhile_succ {body : Stmt} (hbody : body.WellFormed false) (condition : Expr)
    (scope : ScopeId) :
    (Lexiscope.repeatWhile limit (fuel + 1) condition body scope).NeverReturns := by
  rw [repeatWhile_succ_eq]
  refine .bind _ fun v => .ite (.bind _ fun inner => .bind_flow ?_ fun w => ?_) (.normal .nil)
  · have hother := ih.exec hbody inner
    cases body with
    | block brace statements => exact ih.execAll hbody .nil inner
    | _ => exact hother
  · exact ih.repeatWhile hbody condition scope

end Step

theorem all (limit fuel : Nat) : RunsOn limit fuel := by
  induction fuel with
  | zero => exact zero limit
  | succ fuel ih => exact ⟨ih.exec_succ, ih.execAll_succ, ih.repeatWhile_succ⟩

end RunsOn

-- ============================================================================
-- Programs that were read
-- ============================================================================

/-- The kinds of tokens between two operands that do not compare them. -/
def ownBranch : List Kind :=
  [.andWord, .andSign, .orWord, .orSign, .equal, .notEqual, .plus, .minus, .star, .slash]

/-- The operators that are left over compare their operands. -/
theorem compares_of_ofKind {mark : Token} {op : BinaryOp}
    (h : BinaryOp.ofKind? mark.kind = some op) (hkind : mark.kind ∉ ownBranch) :
    mark.kind ∈ [Kind.less, .lessEqual, .greater, .greaterEqual] ∧
      ∃ numbers strings, op.apply mark = BinaryOp.compare mark numbers strings := by
  have hmem := mem_binaryKinds h
  simp only [binaryKinds, ownBranch, List.mem_cons, List.not_mem_nil, or_false] at hmem hkind
  have hfour : mark.kind = .less ∨ mark.kind = .lessEqual ∨ mark.kind = .greater ∨
      mark.kind = .greaterEqual := by tauto
  rcases hfour with hk | hk | hk | hk <;> rw [hk] at h ⊢ <;> cases h <;>
    exact ⟨by decide, _, _, rfl⟩

/-- Of the prefix operators, the one that is left over negates the truth of its operand. -/
theorem negates_of_ofKind {mark : Token} {op : UnaryOp} (h : UnaryOp.ofKind? mark.kind = some op)
    (hkind : mark.kind ≠ .minus) :
    mark.kind = .not ∧ ∀ v, op.apply mark v = .ok (.boolean (!v.isTruthy)) := by
  have hnot := (minus_or_not h).resolve_left hkind
  rw [hnot] at h
  cases h
  exact ⟨hnot, fun _ => rfl⟩

/-- Every program that is read is well formed. Where all functions come from programs that were
    read, the run of such a program never ends with a `return`; and at every operator that it comes
    to, the token stands for the operator that is applied. So the operators between two operands that
    are left over when all others have had their branch are the four comparisons, and the prefix
    operator that is left over is `!`. -/
theorem parsed_programs_run_as_intended :
    (∀ tokens limit p, Program.parse tokens limit = .ok p → p.WellFormed) ∧
    ∀ (p : Program) (calls : Nat) (scope : ScopeId) (m : Machine), p.Parsed → m.store.Parsed →
      (∀ fuel flow m', execAll calls fuel p.statements .nil scope { m with activeCalls := 0 } =
        some (.ok flow, m') → ∃ v, flow = .normal v) ∧
      (∀ op mark left right inner before, Reaches calls ((Phrase.program p).start scope m)
          ⟨.eval (.binary op mark left right) inner, before⟩ →
        BinaryOp.ofKind? mark.kind = some op ∧ (mark.kind ∉ ownBranch →
          mark.kind ∈ [Kind.less, .lessEqual, .greater, .greaterEqual] ∧
            ∃ numbers strings, op.apply mark = BinaryOp.compare mark numbers strings)) ∧
      ∀ op mark operand inner before, Reaches calls ((Phrase.program p).start scope m)
          ⟨.eval (.unary op mark operand) inner, before⟩ →
        UnaryOp.ofKind? mark.kind = some op ∧ (mark.kind ≠ .minus →
          mark.kind = .not ∧ ∀ v, op.apply mark v = .ok (.boolean (!v.isTruthy))) := by
  refine ⟨fun _ _ _ => .of_parse, fun p calls scope m hp hstore => ?_⟩
  have hstart : ((Phrase.program p).start scope m).Made Site.Fits :=
    ⟨⟨⟨false, Stmt.AllWellFormed.sites p.statements hp.wellFormed⟩, .nil⟩, hstore.made⟩
  refine ⟨fun fuel flow m' h => (RunsOn.all calls fuel).execAll hp.wellFormed _ _ h, ?_, ?_⟩
  · intro op mark left right inner before hreaches
    obtain ⟨inside, hsites⟩ := (hreaches.made hstart).task
    have hmark : BinaryOp.ofKind? mark.kind = some op := hsites _ List.mem_cons_self
    exact ⟨hmark, compares_of_ofKind hmark⟩
  · intro op mark operand inner before hreaches
    obtain ⟨inside, hsites⟩ := (hreaches.made hstart).task
    have hmark : UnaryOp.ofKind? mark.kind = some op := hsites _ List.mem_cons_self
    exact ⟨hmark, negates_of_ofKind hmark⟩

section Witness

/-- The tokens of `!nil < nil;`. -/
def comparingTokens : List Token :=
  [⟨.not, "!", Pos.first, Pos.first⟩, ⟨.nilWord, "nil", Pos.first, Pos.first⟩,
    ⟨.less, "<", Pos.first, Pos.first⟩, ⟨.nilWord, "nil", Pos.first, Pos.first⟩,
    ⟨.semicolon, ";", Pos.first, Pos.first⟩, ⟨.eof, "", Pos.first, Pos.first⟩]

/-- `!nil < nil;` -/
def comparing : Program :=
  ⟨[.expression (.binary .less ⟨.less, "<", Pos.first, Pos.first⟩
    (.unary .not ⟨.not, "!", Pos.first, Pos.first⟩ .nil) .nil)]⟩

/-- `!nil < nil;` is read from its tokens, so it is well formed. Its run comes to the comparison and
    to its first operand, in a store that knows the builtin functions only. -/
theorem parsed_programs_run_as_intended_comparing :
    Program.parse comparingTokens 3 = .ok comparing ∧ comparing.WellFormed ∧
      (∃ numbers strings, BinaryOp.apply .less ⟨.less, "<", Pos.first, Pos.first⟩ =
        BinaryOp.compare ⟨.less, "<", Pos.first, Pos.first⟩ numbers strings) ∧
      ∀ v, UnaryOp.apply .not ⟨.not, "!", Pos.first, Pos.first⟩ v = .ok (.boolean (!v.isTruthy)) := by
  have hparse : Program.parse comparingTokens 3 = .ok comparing := by rfl
  have hp : comparing.Parsed := ⟨comparingTokens, 3, comparing, hparse, rfl⟩
  obtain ⟨hwellFormed, hruns⟩ := parsed_programs_run_as_intended
  obtain ⟨-, hbinary, hunary⟩ :=
    hruns comparing 1 0 ⟨Store.empty.newGlobal.1, .unbounded, 0, .silent⟩ hp .newGlobal
  have hcomparison := hbinary _ _ _ _ 0 _ (.first rfl (.first rfl (.refl _)))
  have hoperand := hunary _ _ _ 0 _ (.first rfl (.first rfl (.first rfl (.refl _))))
  exact ⟨hparse, hwellFormed _ _ _ hparse, (hcomparison.2 (by decide)).2,
    (hoperand.2 (by decide)).2⟩

end Witness

end Lexiscope
