/-
  Lexiscope.Proofs.Lockstep.Syntax

  Trees that are alike.

  Two programs run in lockstep when they differ only in what a run cannot see.
  Of a name a run sees the lexeme, of an operator the lexeme too, unless it is
  a logical one, which never fails; and the tokens at which a run can fail are
  paired by a relation that says which of them belong together. Function
  definitions have the same labels.
-/
import Lexiscope.Syntax.Basic
import Mathlib.Data.List.Forall2

namespace Lexiscope.Lockstep

-- ============================================================================
-- Trees
-- ============================================================================

/-- The tokens are paired and name the same thing. -/
structure SameName (T : Token → Token → Prop) (t u : Token) : Prop where
  paired : T t u
  lexeme : t.lexeme = u.lexeme

/-- Expressions that differ in tokens only, where a run can fail at paired tokens only. -/
inductive ExprAlike (T : Token → Token → Prop) : Expr → Expr → Prop where
  | number (x : Float) : ExprAlike T (.number x) (.number x)
  | string (s : String) : ExprAlike T (.string s) (.string s)
  | boolean (b : Bool) : ExprAlike T (.boolean b) (.boolean b)
  | nil : ExprAlike T .nil .nil
  | identifier {t u : Token} (hname : SameName T t u) :
      ExprAlike T (.identifier t) (.identifier u)
  | unary {op : UnaryOp} {t u : Token} {e e' : Expr} (hmark : T t u) (h : ExprAlike T e e') :
      ExprAlike T (.unary op t e) (.unary op u e')
  | binary {op : BinaryOp} {t u : Token} {l r l' r' : Expr} (hmark : T t u)
      (hlexeme : op ≠ .and → op ≠ .or → t.lexeme = u.lexeme) (hleft : ExprAlike T l l')
      (hright : ExprAlike T r r') : ExprAlike T (.binary op t l r) (.binary op u l' r')
  | assign {t u : Token} {v v' : Expr} (hname : SameName T t u) (h : ExprAlike T v v') :
      ExprAlike T (.assign t v) (.assign u v')
  | call {f f' : Expr} {t u : Token} {args args' : List Expr} (hcallee : ExprAlike T f f')
      (hparen : T t u) (hargs : List.Forall₂ (ExprAlike T) args args') :
      ExprAlike T (.call f t args) (.call f' u args')

/-- Statements that differ in tokens only, where a run can fail at paired tokens only. -/
inductive StmtAlike (T : Token → Token → Prop) : Stmt → Stmt → Prop where
  | expression {e e' : Expr} (h : ExprAlike T e e') : StmtAlike T (.expression e) (.expression e')
  | letBare {t u : Token} (hname : t.lexeme = u.lexeme) :
      StmtAlike T (.letVar t none) (.letVar u none)
  | letValue {t u : Token} {v v' : Expr} (hname : t.lexeme = u.lexeme) (h : ExprAlike T v v') :
      StmtAlike T (.letVar t (some v)) (.letVar u (some v'))
  | block {t u : Token} {body body' : List Stmt} (h : List.Forall₂ (StmtAlike T) body body') :
      StmtAlike T (.block t body) (.block u body')
  | ifThen {t u : Token} {c c' : Expr} {yes yes' : Stmt} (hcondition : ExprAlike T c c')
      (hyes : StmtAlike T yes yes') : StmtAlike T (.ifThen t c yes) (.ifThen u c' yes')
  | ifThenElse {t u : Token} {c c' : Expr} {yes yes' no no' : Stmt}
      (hcondition : ExprAlike T c c') (hyes : StmtAlike T yes yes') (hno : StmtAlike T no no') :
      StmtAlike T (.ifThenElse t c yes no) (.ifThenElse u c' yes' no')
  | whileLoop {t u : Token} {c c' : Expr} {body body' : Stmt} (hcondition : ExprAlike T c c')
      (hbody : StmtAlike T body body') : StmtAlike T (.whileLoop t c body) (.whileLoop u c' body')
  | function {label : Nat} {t u : Token} {params params' : List Token} {body body' : List Stmt}
      (hname : t.lexeme = u.lexeme) (hparams : params.map Token.lexeme = params'.map Token.lexeme)
      (hbody : List.Forall₂ (StmtAlike T) body body') :
      StmtAlike T (.function label t params body) (.function label u params' body')
  | returnBare {t u : Token} : StmtAlike T (.returnStmt t none) (.returnStmt u none)
  | returnValue {t u : Token} {v v' : Expr} (h : ExprAlike T v v') :
      StmtAlike T (.returnStmt t (some v)) (.returnStmt u (some v'))

/-- Function definitions with the same label that look and run alike. -/
structure DefAlike (T : Token → Token → Prop) (f g : FunctionDef) : Prop where
  label : f.label = g.label
  name : f.name.lexeme = g.name.lexeme
  params : f.params.map Token.lexeme = g.params.map Token.lexeme
  body : List.Forall₂ (StmtAlike T) f.body g.body

variable {T : Token → Token → Prop}

-- ============================================================================
-- A tree is like itself
-- ============================================================================

mutual

theorem exprAlike_refl (hT : ∀ t, T t t) : (e : Expr) → ExprAlike T e e
  | .number x => .number x
  | .string s => .string s
  | .boolean b => .boolean b
  | .nil => .nil
  | .identifier t => .identifier ⟨hT t, rfl⟩
  | .unary _ t operand => .unary (hT t) (exprAlike_refl hT operand)
  | .binary _ t l r =>
    .binary (hT t) (fun _ _ => rfl) (exprAlike_refl hT l) (exprAlike_refl hT r)
  | .assign t v => .assign ⟨hT t, rfl⟩ (exprAlike_refl hT v)
  | .call f t args => .call (exprAlike_refl hT f) (hT t) (exprsAlike_refl hT args)

theorem exprsAlike_refl (hT : ∀ t, T t t) : (es : List Expr) → List.Forall₂ (ExprAlike T) es es
  | [] => .nil
  | e :: rest => .cons (exprAlike_refl hT e) (exprsAlike_refl hT rest)

end

mutual

theorem stmtAlike_refl (hT : ∀ t, T t t) : (s : Stmt) → StmtAlike T s s
  | .expression e => .expression (exprAlike_refl hT e)
  | .letVar _ none => .letBare rfl
  | .letVar _ (some v) => .letValue rfl (exprAlike_refl hT v)
  | .block _ body => .block (stmtsAlike_refl hT body)
  | .ifThen _ c yes => .ifThen (exprAlike_refl hT c) (stmtAlike_refl hT yes)
  | .ifThenElse _ c yes no =>
    .ifThenElse (exprAlike_refl hT c) (stmtAlike_refl hT yes) (stmtAlike_refl hT no)
  | .whileLoop _ c body => .whileLoop (exprAlike_refl hT c) (stmtAlike_refl hT body)
  | .function _ _ _ body => .function rfl rfl (stmtsAlike_refl hT body)
  | .returnStmt _ none => .returnBare
  | .returnStmt _ (some v) => .returnValue (exprAlike_refl hT v)

theorem stmtsAlike_refl (hT : ∀ t, T t t) : (ss : List Stmt) → List.Forall₂ (StmtAlike T) ss ss
  | [] => .nil
  | s :: rest => .cons (stmtAlike_refl hT s) (stmtsAlike_refl hT rest)

end

theorem defAlike_refl (hT : ∀ t, T t t) (f : FunctionDef) : DefAlike T f f :=
  ⟨rfl, rfl, rfl, stmtsAlike_refl hT f.body⟩

-- ============================================================================
-- Labels
-- ============================================================================

/-- What was numbered is alike, and equally many numbers were taken for it. -/
structure NumberedAlike {α : Type} (A : α → α → Prop) (r r' : α × Nat) : Prop where
  alike : A r.1 r'.1
  free : r.2 = r'.2

mutual

theorem relabel_alike : (s : Stmt) → ∀ {s' : Stmt}, StmtAlike T s s' → ∀ next : Nat,
    NumberedAlike (StmtAlike T) (s.relabel next) (s'.relabel next)
  | .expression _, _, h, next => by
    cases h with
    | expression h => exact ⟨.expression h, rfl⟩
  | .letVar _ _, _, h, next => by
    cases h with
    | letBare hname => exact ⟨.letBare hname, rfl⟩
    | letValue hname h => exact ⟨.letValue hname h, rfl⟩
  | .block _ body, _, h, next => by
    cases h with
    | block h =>
      have hbody := relabelAll_alike body h next
      rw [Stmt.relabel, Stmt.relabel]
      exact ⟨.block hbody.alike, hbody.free⟩
  | .ifThen _ _ yes, _, h, next => by
    cases h with
    | ifThen hcondition hyes =>
      have hyes' := relabel_alike yes hyes next
      rw [Stmt.relabel, Stmt.relabel]
      exact ⟨.ifThen hcondition hyes'.alike, hyes'.free⟩
  | .ifThenElse _ _ yes no, _, h, next => by
    cases h with
    | ifThenElse hcondition hyes hno =>
      have hyes' := relabel_alike yes hyes next
      have hno' := relabel_alike no hno (yes.relabel next).2
      rw [Stmt.relabel, Stmt.relabel]
      rw [hyes'.free] at hno'
      simp only [hyes'.free]
      exact ⟨.ifThenElse hcondition hyes'.alike hno'.alike, hno'.free⟩
  | .whileLoop _ _ body, _, h, next => by
    cases h with
    | whileLoop hcondition hbody =>
      have hbody' := relabel_alike body hbody next
      rw [Stmt.relabel, Stmt.relabel]
      exact ⟨.whileLoop hcondition hbody'.alike, hbody'.free⟩
  | .function _ _ _ body, _, h, next => by
    cases h with
    | function hname hparams hbody =>
      have hbody' := relabelAll_alike body hbody (next + 1)
      rw [Stmt.relabel, Stmt.relabel]
      exact ⟨.function hname hparams hbody'.alike, hbody'.free⟩
  | .returnStmt _ _, _, h, next => by
    cases h with
    | returnBare => exact ⟨.returnBare, rfl⟩
    | returnValue h => exact ⟨.returnValue h, rfl⟩

theorem relabelAll_alike : (ss : List Stmt) → ∀ {ss' : List Stmt},
    List.Forall₂ (StmtAlike T) ss ss' → ∀ next : Nat,
    NumberedAlike (List.Forall₂ (StmtAlike T)) (Stmt.relabelAll next ss)
      (Stmt.relabelAll next ss')
  | [], _, h, next => by
    cases h
    exact ⟨.nil, rfl⟩
  | s :: rest, _, h, next => by
    cases h with
    | cons hs hrest =>
      have hs' := relabel_alike s hs next
      have hrest' := relabelAll_alike rest hrest (s.relabel next).2
      rw [Stmt.relabelAll, Stmt.relabelAll]
      rw [hs'.free] at hrest'
      simp only [hs'.free]
      exact ⟨.cons hs'.alike hrest'.alike, hrest'.free⟩

end

end Lexiscope.Lockstep
