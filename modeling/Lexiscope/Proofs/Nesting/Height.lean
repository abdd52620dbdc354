/-
  Lexiscope.Proofs.Nesting.Height

  How high the tree of a program can be that was read under a nesting limit.

  The limit is not the height. A chain of operators or of calls makes the tree
  higher by one for each of its members without taking a level of the room that is
  left; it may have as many members as there is room, and a chain of one rung of the
  ladder may stand on one of the next. With room for `n + 1` levels an expression
  has six such chains and one of calls on top of an expression with room for `n`, so
  it can be higher than that one by `7 * n` (`tallest`).
-/
import Lexiscope.Proofs.Grammar.Soundness
import Lexiscope.Proofs.Provenance.Parse
import Mathlib.Tactic.Ring

namespace Lexiscope

-- ============================================================================
-- Trees
-- ============================================================================

/-- A statement or an expression, as part of a syntax tree. -/
inductive Node where
  | stmt (s : Stmt)
  | expr (e : Expr)

namespace Node

/-- The statements and expressions right below a node. -/
def children : Node → List Node
  | stmt (.expression e) => [expr e]
  | stmt (.letVar _ value) => value.toList.map expr
  | stmt (.block _ body) => body.map stmt
  | stmt (.ifThen _ condition yes) => [expr condition, stmt yes]
  | stmt (.ifThenElse _ condition yes no) => [expr condition, stmt yes, stmt no]
  | stmt (.whileLoop _ condition body) => [expr condition, stmt body]
  | stmt (.function _ _ _ body) => body.map stmt
  | stmt (.returnStmt _ value) => value.toList.map expr
  | expr (.number _) | expr (.string _) | expr (.boolean _) | expr .nil
  | expr (.identifier _) => []
  | expr (.unary _ _ operand) => [expr operand]
  | expr (.binary _ _ left right) => [expr left, expr right]
  | expr (.assign _ value) => [expr value]
  | expr (.call callee _ args) => expr callee :: args.map expr

/-- The nodes on a way from a node down to a leaf, both included. -/
inductive Path : Node → List Node → Prop where
  | leaf {n : Node} (h : n.children = []) : Path n [n]
  | step {n child : Node} {path : List Node} (h : child ∈ n.children) (hpath : Path child path) :
      Path n (n :: path)

/-- No way from the node down to a leaf has more nodes. -/
def Within (n : Node) (height : Nat) : Prop := ∀ path, n.Path path → path.length ≤ height

theorem Within.mono {n : Node} {h h' : Nat} (hn : n.Within h) (hle : h ≤ h') : n.Within h' :=
  fun path hpath => Nat.le_trans (hn path hpath) hle

/-- A node is one higher than its children. -/
theorem within_succ {n : Node} {height : Nat} (h : ∀ child ∈ n.children, child.Within height) :
    n.Within (height + 1) := by
  intro path hpath
  cases hpath with
  | leaf _ => exact Nat.le_add_left 1 height
  | step hchild hpath => exact Nat.succ_le_succ (h _ hchild _ hpath)

theorem within_of_leaf {n : Node} (h : n.children = []) : n.Within 1 :=
  within_succ fun child hchild => by
    rw [h] at hchild
    cases hchild

end Node

/-- No way down from any of the expressions has more nodes. -/
def Expr.AllWithin (height : Nat) (es : List Expr) : Prop := ∀ e ∈ es, (Node.expr e).Within height

/-- No way down from any of the statements has more nodes. -/
def Stmt.AllWithin (height : Nat) (ss : List Stmt) : Prop := ∀ s ∈ ss, (Node.stmt s).Within height

-- ============================================================================
-- The bound
-- ============================================================================

/-- How high an expression can be that is read with so much room. -/
def tallest : Nat → Nat
  | 0 => 0
  | room + 1 => max 1 (7 * room + tallest room)

theorem tallest_succ_pos (room : Nat) : 1 ≤ tallest (room + 1) := Nat.le_max_left 1 _

/-- One level more makes room for a chain on every rung of the ladder and for one of calls. -/
theorem tallest_succ_succ (room : Nat) :
    tallest (room + 2) = 7 * (room + 1) + tallest (room + 1) :=
  Nat.max_eq_right (by omega)

theorem tallest_succ_eq (room : Nat) : tallest (room + 1) = 1 + 7 * (room + 1) * room / 2 := by
  have htwice : 2 * tallest (room + 1) = 2 + 7 * (room + 1) * room := by
    induction room with
    | zero => rfl
    | succ room ih =>
      rw [tallest_succ_succ, Nat.mul_add, ih]
      ring
  generalize 7 * (room + 1) * room = chains at htwice ⊢
  omega

theorem succ_tallest_le (room : Nat) : tallest room + 1 ≤ tallest (room + 1) := by
  cases room with
  | zero => exact tallest_succ_pos 0
  | succ room =>
    rw [tallest_succ_succ]
    omega

-- ============================================================================
-- Expressions
-- ============================================================================

namespace Parser

/-- The parser gives expressions that are no higher. -/
abbrev ReadsExpr (p : Parser Expr) (height : Nat) : Prop :=
  p.Yields (fun _ => True) fun e => (Node.expr e).Within height

theorem Yields.mono {α : Type} {S : Token → Prop} {A B : α → Prop} {p : Parser α}
    (h : p.Yields S A) (himp : ∀ a, A a → B a) : p.Yields S B := by
  intro ctx ts heof hts
  have hyielded := h heof hts
  generalize p ctx ts = x at hyielded ⊢
  rcases x with e | ⟨a, rest⟩
  · exact hyielded
  · exact ⟨himp a hyielded.1, hyielded.2⟩

variable {expr : Parser Expr} {height : Nat}

theorem primary_within (he : ReadsExpr expr height) : ReadsExpr (primary expr) (max 1 height) := by
  have hleaf : ∀ e : Expr, (Node.expr e).children = [] → (Node.expr e).Within (max 1 height) :=
    fun e h => (Node.within_of_leaf h).mono (Nat.le_max_left 1 height)
  refine .bind .current fun t _ => ?_
  split
  · refine .bind .take fun _ _ => ?_
    split
    · exact .pure (hleaf _ rfl)
    · exact .failAt trivial _
  · refine .bind .take fun _ _ => ?_
    split
    · exact .pure (hleaf _ rfl)
    · exact .failAt trivial _
  · exact .bind .take fun _ _ => .pure (hleaf _ rfl)
  · exact .bind .take fun _ _ => .pure (hleaf _ rfl)
  · exact .bind .take fun _ _ => .pure (hleaf _ rfl)
  · exact .bind .take fun _ _ => .pure (hleaf _ rfl)
  · refine .bind .take fun _ _ => .bind he fun e hwithin => ?_
    exact .bind (.expect _ _) fun _ _ => .pure (hwithin.mono (Nat.le_max_right 1 height))
  · exact .fail _

theorem moreArguments_within (he : ReadsExpr expr height) (slots : Nat) :
    (moreArguments expr slots).Yields (fun _ => True) (Expr.AllWithin height) := by
  induction slots with
  | zero =>
    exact .bind (.skip _) fun _ _ => .ite (fun _ => .fail _) fun _ => .pure (List.forall_mem_nil _)
  | succ slots ih =>
    refine .bind (.skip _) fun _ _ => .ite (fun _ => ?_) fun _ => .pure (List.forall_mem_nil _)
    refine .bind he fun e hfirst => .bind ih fun rest hrest => ?_
    exact .pure (List.forall_mem_cons.mpr ⟨hfirst, hrest⟩)

theorem arguments_within (he : ReadsExpr expr height) :
    (arguments expr).Yields (fun _ => True) (Expr.AllWithin height) := by
  have hlist : (argumentList expr).Yields (fun _ => True) (Expr.AllWithin height) := by
    refine .bind (.at_ _) fun _ _ => .ite (fun _ => .pure (List.forall_mem_nil _)) fun _ => ?_
    refine .bind he fun e hfirst => .bind (moreArguments_within he _) fun rest hrest => ?_
    exact .pure (List.forall_mem_cons.mpr ⟨hfirst, hrest⟩)
  exact .bind hlist fun args hargs => .bind (.expect _ _) fun _ _ => .pure hargs

/-- Every call of a chain makes the tree one higher. -/
theorem calls_within (he : ReadsExpr expr height) (room : Nat) {callee : Expr} {k : Nat}
    (hle : height ≤ k) (hcallee : (Node.expr callee).Within k) :
    ReadsExpr (calls expr room callee) (k + room) := by
  induction room generalizing callee k with
  | zero =>
    exact .bind .current fun t _ => .ite (fun _ => .tooDeep trivial) fun _ => .pure hcallee
  | succ room ih =>
    have hdone := hcallee.mono (Nat.le_add_right k (room + 1))
    refine .bind .current fun t _ => .ite (fun _ => ?_) fun _ => .pure hdone
    refine .bind .take fun _ _ => .bind (arguments_within he) fun args hargs => ?_
    have hcall : (Node.expr (.call callee t args)).Within (k + 1) := by
      refine Node.within_succ (List.forall_mem_cons.mpr ⟨hcallee, ?_⟩)
      exact List.forall_mem_map.mpr fun e he => (hargs e he).mono hle
    rw [Nat.add_comm room 1, ← Nat.add_assoc]
    exact ih (Nat.le_succ_of_le hle) hcall

/-- A prefix operator takes a level of the room, so it may stand in place of a chain of calls. -/
theorem unary_within {room : Nat} {operand : Parser Expr} (ho : ReadsExpr operand height)
    (he : ReadsExpr expr height) (hroom : height + 1 ≤ max 1 height + room) :
    ReadsExpr (unary room operand expr) (max 1 height + room) := by
  refine .bind .current fun t _ => ?_
  split
  · next op _ =>
    refine .bind .take fun _ _ => .bind ho fun e hwithin => .pure ?_
    have hmarked : (Node.expr (.unary op t e)).Within (height + 1) :=
      Node.within_succ (List.forall_mem_singleton.mpr hwithin)
    exact hmarked.mono hroom
  · refine .bind (primary_within he) fun e hwithin => ?_
    exact calls_within he room (Nat.le_max_right 1 height) hwithin

/-- Every operator of a chain makes the tree one higher. -/
theorem chain_within (rung : List BinaryOp) {tighter : Parser Expr} (ht : ReadsExpr tighter height)
    (room : Nat) {left : Expr} {k : Nat} (hle : height ≤ k) (hleft : (Node.expr left).Within k) :
    ReadsExpr (chain rung tighter room left) (k + room) := by
  induction room generalizing left k with
  | zero =>
    refine .bind .current fun t _ => ?_
    split
    · exact .tooDeep trivial
    · exact .pure hleft
  | succ room ih =>
    refine .bind .current fun t _ => ?_
    split
    · next op _ =>
      refine .bind .take fun _ _ => .bind ht fun right hright => ?_
      have hjoined : (Node.expr (.binary op t left right)).Within (k + 1) := by
        refine Node.within_succ (List.forall_mem_cons.mpr ⟨hleft, ?_⟩)
        exact List.forall_mem_singleton.mpr (hright.mono hle)
      rw [Nat.add_comm room 1, ← Nat.add_assoc]
      exact ih (Nat.le_succ_of_le hle) hjoined
    · exact .pure (hleft.mono (Nat.le_add_right k (room + 1)))

/-- Every rung of the ladder has a chain of its own. -/
theorem binary_within (room : Nat) {operand : Parser Expr} (ho : ReadsExpr operand height)
    (rungs : List (List BinaryOp)) :
    ReadsExpr (binary room operand rungs) (height + rungs.length * room) := by
  induction rungs with
  | nil =>
    rw [List.length_nil, Nat.zero_mul]
    exact ho
  | cons rung tighter ih =>
    rw [List.length_cons, Nat.succ_mul, ← Nat.add_assoc]
    exact .bind ih fun first hfirst => chain_within rung ih room (Nat.le_refl _) hfirst

theorem assignment_within {room : Nat} {operand : Parser Expr} (ho : ReadsExpr operand height)
    (he : ReadsExpr expr height) (hroom : height + 1 ≤ max 1 height + room) :
    ReadsExpr (assignment room operand expr) (max 1 height + 7 * room) := by
  have htarget := binary_within room (unary_within ho he hroom) ladder
  rw [show ladder.length = 6 from rfl] at htarget
  refine .bind htarget fun target hwithin => .bind .current fun t _ => ?_
  refine .ite (fun _ => .bind .take fun _ _ => .bind he fun value hvalue => ?_) fun _ => ?_
  · split
    · next name =>
      have hassigned : (Node.expr (.assign name value)).Within (height + 1) :=
        Node.within_succ (List.forall_mem_singleton.mpr hvalue)
      exact .pure (hassigned.mono (by omega))
    · exact .rejectTarget trivial target
  · exact .pure (hwithin.mono (by omega))

theorem tallest_succ_of_chains (room : Nat) :
    max 1 (tallest room) + 7 * room ≤ tallest (room + 1) := by
  cases room with
  | zero => exact Nat.le_refl 1
  | succ room =>
    have hpos := tallest_succ_pos room
    rw [tallest_succ_succ]
    omega

/-- With so much room, no expression is higher than the tallest. -/
theorem operand_and_expression_within (room : Nat) :
    ReadsExpr (operand room) (tallest room) ∧ ReadsExpr (expression room) (tallest room) := by
  induction room with
  | zero => exact ⟨.tooDeepHere, .tooDeepHere⟩
  | succ room ih =>
    have hroom : tallest room + 1 ≤ max 1 (tallest room) + room := by
      cases room with
      | zero => exact Nat.le_refl 1
      | succ room => omega
    have hall := tallest_succ_of_chains room
    constructor
    · exact (unary_within ih.1 ih.2 hroom).mono fun e h => h.mono (by omega)
    · exact (assignment_within ih.1 ih.2 hroom).mono fun e h => h.mono hall

theorem expression_within (room : Nat) : ReadsExpr (expression room) (tallest room) :=
  (operand_and_expression_within room).2

-- ============================================================================
-- Statements
-- ============================================================================

/-- The parser gives statements that are no higher. -/
abbrev ReadsStmt (p : Parser Stmt) (height : Nat) : Prop :=
  p.Yields (fun _ => True) fun s => (Node.stmt s).Within height

variable {stmt : Parser Stmt}

theorem letVar_within (he : ReadsExpr expr height) : ReadsStmt (letVar expr) (height + 1) := by
  refine .bind (.expect _ _) fun name _ => .bind (.skip _) fun _ _ => .ite (fun _ => ?_) fun _ => ?_
  · refine .bind he fun value hvalue => .bind .statementEnd fun _ _ => .pure ?_
    exact Node.within_succ (List.forall_mem_singleton.mpr hvalue)
  · exact .bind .statementEnd fun _ _ => .pure (Node.within_succ (List.forall_mem_nil _))

theorem statements_within (hs : ReadsStmt stmt height) (bound : Nat) :
    (statements stmt bound).Yields (fun _ => True) (Stmt.AllWithin height) := by
  induction bound with
  | zero => exact .pure (List.forall_mem_nil _)
  | succ bound ih =>
    refine .bind .current fun t _ => .ite (fun _ => .pure (List.forall_mem_nil _)) fun _ => ?_
    refine .bind hs fun s hfirst => .bind ih fun rest hrest => ?_
    exact .pure (List.forall_mem_cons.mpr ⟨hfirst, hrest⟩)

theorem block_within (hs : ReadsStmt stmt height) :
    (block stmt).Yields (fun _ => True) (Stmt.AllWithin height) := by
  refine .bind .remaining fun bound _ => .bind (statements_within hs bound) fun body hbody => ?_
  exact .bind (.expect _ _) fun _ _ => .pure hbody

theorem function_within (hs : ReadsStmt stmt height) : ReadsStmt (function stmt) (height + 1) := by
  refine .bind (.expect _ _) fun name _ => .bind (.expect _ _) fun _ _ => ?_
  refine .bind parameterList_yields fun params _ => .bind (.expect _ _) fun _ _ => ?_
  refine .bind (.expect _ _) fun _ _ => .bind (block_within hs) fun body hbody => ?_
  exact .pure (Node.within_succ (List.forall_mem_map.mpr hbody))

theorem condition_within (he : ReadsExpr expr height) (opening closing : Expected) :
    ReadsExpr (condition expr opening closing) height := by
  refine .bind (.expect _ _) fun _ _ => .bind he fun e hwithin => ?_
  exact .bind (.expect _ _) fun _ _ => .pure hwithin

theorem ifStmt_within (word : Token) (hs : ReadsStmt stmt height) (he : ReadsExpr expr height) :
    ReadsStmt (ifStmt word stmt expr) (height + 1) := by
  refine .bind (condition_within he _ _) fun test htest => .bind hs fun yes hyes => ?_
  refine .bind (.skip _) fun _ _ => ?_
  refine .ite (fun _ => .bind hs fun no hno => .pure ?_) fun _ => .pure ?_
  · refine Node.within_succ (List.forall_mem_cons.mpr ⟨htest, List.forall_mem_cons.mpr ⟨hyes, ?_⟩⟩)
    exact List.forall_mem_singleton.mpr hno
  · refine Node.within_succ (List.forall_mem_cons.mpr ⟨htest, ?_⟩)
    exact List.forall_mem_singleton.mpr hyes

theorem whileLoop_within (word : Token) (hs : ReadsStmt stmt height) (he : ReadsExpr expr height) :
    ReadsStmt (whileLoop word stmt expr) (height + 1) := by
  refine .bind (condition_within he _ _) fun test htest => .bind hs fun body hbody => .pure ?_
  refine Node.within_succ (List.forall_mem_cons.mpr ⟨htest, ?_⟩)
  exact List.forall_mem_singleton.mpr hbody

theorem returnStmt_within (word : Token) (inFunction : Bool) (he : ReadsExpr expr height) :
    ReadsStmt (returnStmt word inFunction expr) (height + 1) := by
  refine .ite (fun _ => .failAt trivial _) fun _ => ?_
  refine .bind .atStatementEnd fun _ _ => .ite (fun _ => ?_) fun _ => ?_
  · exact .bind .statementEnd fun _ _ => .pure (Node.within_succ (List.forall_mem_nil _))
  · refine .bind he fun value hvalue => .bind .statementEnd fun _ _ => .pure ?_
    exact Node.within_succ (List.forall_mem_singleton.mpr hvalue)

/-- A statement is one higher than what is read inside it. -/
theorem statementBody_within (inFunction : Bool) {statement : Bool → Parser Stmt}
    (hs : ∀ inside, ReadsStmt (statement inside) height) (he : ReadsExpr expr height) :
    ReadsStmt (statementBody inFunction statement expr) (height + 1) := by
  refine .bind .current fun t _ => ?_
  split
  · exact .bind .take fun _ _ => letVar_within he
  · exact .bind .take fun _ _ => function_within (hs true)
  · exact .bind .take fun _ _ => ifStmt_within t (hs inFunction) he
  · exact .bind .take fun _ _ => whileLoop_within t (hs inFunction) he
  · exact .bind .take fun _ _ => returnStmt_within t inFunction he
  · refine .bind .take fun _ _ => .bind (block_within (hs inFunction)) fun body hbody => .pure ?_
    exact Node.within_succ (List.forall_mem_map.mpr hbody)
  · refine .bind he fun e hwithin => .bind .statementEnd fun _ _ => .pure ?_
    exact Node.within_succ (List.forall_mem_singleton.mpr hwithin)

/-- With so much room a statement is no higher than the tallest expression. -/
theorem statement_within (inFunction : Bool) (room : Nat) :
    ReadsStmt (statement inFunction room) (tallest room) := by
  induction room generalizing inFunction with
  | zero => exact .tooDeepHere
  | succ room ih =>
    rw [Grammar.statement_succ_eq]
    have hbody := statementBody_within inFunction ih (expression_within room)
    exact hbody.mono fun s h => h.mono (succ_tallest_le room)

/-- What stands inside a statement has one level less than the statement. -/
theorem statement_succ_within (inFunction : Bool) (room : Nat) :
    ReadsStmt (statement inFunction (room + 1)) (tallest room + 1) := by
  rw [Grammar.statement_succ_eq]
  exact statementBody_within inFunction (fun inside => statement_within inside room)
    (expression_within room)

theorem topLevel_within {room bound : Nat} {ctx : ParseContext} {ts rest : List Token}
    {ss : List Stmt} (hlimit : ctx.maxNesting = room + 1)
    (h : topLevel bound ctx ts = .ok (ss, rest)) : Stmt.AllWithin (tallest room + 1) ss := by
  induction bound generalizing ts ss with
  | zero =>
    obtain ⟨rfl, rfl⟩ := Grammar.pure_eq_ok.mp h
    exact List.forall_mem_nil _
  | succ bound ih =>
    simp only [topLevel, Grammar.bind_eq_ok, Grammar.current_eq_ok] at h
    obtain ⟨t, _, ⟨rfl, rfl⟩, h⟩ := h
    split at h
    · obtain ⟨rfl, rfl⟩ := Grammar.pure_eq_ok.mp h
      exact List.forall_mem_nil _
    · simp only [Grammar.bind_eq_ok, Grammar.pure_eq_ok, maxNesting, Except.ok.injEq,
        Prod.mk.injEq] at h
      obtain ⟨limit, _, ⟨rfl, rfl⟩, s, mid, hfirst, more, _, hmore, rfl, rfl⟩ := h
      have hs : Yielded (fun _ => True) _ (statement false (room + 1) ctx ts) :=
        statement_succ_within false room trivial fun _ _ => trivial
      rw [← hlimit, hfirst] at hs
      exact List.forall_mem_cons.mpr ⟨hs.1, ih hmore⟩

end Parser

-- ============================================================================
-- Programs
-- ============================================================================

/-- No tree of a program is higher than a statement with the tallest expression in it. -/
theorem Program.within_of_parse {tokens : List Token} {room : Nat} {p : Program}
    (h : Program.parse tokens (room + 1) = .ok p) :
    Stmt.AllWithin (tallest room + 1) p.statements := by
  unfold Program.parse at h
  dsimp only at h
  cases hread : Parser.topLevel (beforeEof tokens).length ⟨eofOf tokens, room + 1⟩
      (beforeEof tokens) with
  | error e => simp [hread, Except.map] at h
  | ok r =>
    simp only [hread, Except.map, Except.ok.injEq] at h
    rw [← h]
    exact Parser.topLevel_within rfl hread

end Lexiscope
