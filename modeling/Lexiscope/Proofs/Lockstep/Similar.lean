/-
  Lexiscope.Proofs.Lockstep.Similar

  Programs that differ in layout and in the spelling of logical operators only.

  Such programs are the same once tokens are taken out of their places and `&&`
  and `||` are written `and` and `or` (`Program.Similar`). White space, comments,
  parentheses that change nothing, and different spellings of a number leave no
  other trace in a tree. Programs that were read from source texts and are
  similar are alike, with tokens at the same place of both trees paired.
-/
import Lexiscope.Proofs.Lockstep.Syntax
import Lexiscope.Proofs.Printing.Survival

namespace Lexiscope

/-- The token out of its place, and spelled as a word where it can be a sign too. -/
def Token.respelled (t : Token) : Token :=
  match t.kind with
  | .andSign => ⟨.andWord, "and", Pos.first, Pos.first⟩
  | .orSign => ⟨.orWord, "or", Pos.first, Pos.first⟩
  | _ => t.unplaced

/-- The programs differ in the places of tokens and in the spelling of logical operators only. -/
def Program.Similar (p q : Program) : Prop :=
  p.mapTokens Token.respelled = q.mapTokens Token.respelled

/-- The tokens stand at the same place of the two trees. -/
def Program.Corresponding (p q : Program) (t u : Token) : Prop := (t, u) ∈ p.tokens.zip q.tokens

namespace Lockstep

open Printing

-- ============================================================================
-- Spelling
-- ============================================================================

theorem respelled_lexeme {t : Token} (hand : t.kind ≠ .andSign) (hor : t.kind ≠ .orSign) :
    t.respelled.lexeme = t.lexeme := by
  rw [Token.respelled]
  split
  · next h => exact absurd h hand
  · next h => exact absurd h hor
  · rfl

/-- A name is spelled in one way only. -/
theorem lexeme_eq_of_isName {t u : Token} (ht : IsName t) (hu : IsName u)
    (h : t.respelled = u.respelled) : t.lexeme = u.lexeme := by
  have hlexeme := congrArg Token.lexeme h
  rwa [respelled_lexeme (by rw [ht.kind]; decide) (by rw [ht.kind]; decide),
    respelled_lexeme (by rw [hu.kind]; decide) (by rw [hu.kind]; decide)] at hlexeme

/-- So is an operator that is not a logical one. -/
theorem lexeme_eq_of_binary {t u : Token} {op : BinaryOp}
    (ht : BinaryOp.ofKind? t.kind = some op) (hu : BinaryOp.ofKind? u.kind = some op)
    (h : t.respelled = u.respelled) (hand : op ≠ .and) (hor : op ≠ .or) :
    t.lexeme = u.lexeme := by
  have hsign : ∀ {r : Token}, BinaryOp.ofKind? r.kind = some op →
      r.respelled.lexeme = r.lexeme := by
    intro r hr
    apply respelled_lexeme
    · intro hkind
      rw [hkind] at hr
      exact hand (Option.some.inj hr).symm
    · intro hkind
      rw [hkind] at hr
      exact hor (Option.some.inj hr).symm
  have hlexeme := congrArg Token.lexeme h
  rwa [hsign ht, hsign hu] at hlexeme

theorem map_lexeme_eq {ts us : List Token} (ht : ∀ t ∈ ts, IsName t) (hu : ∀ u ∈ us, IsName u)
    (h : ts.map Token.respelled = us.map Token.respelled) :
    ts.map Token.lexeme = us.map Token.lexeme := by
  induction ts generalizing us with
  | nil =>
    obtain rfl : us = [] := List.map_eq_nil_iff.mp h.symm
    rfl
  | cons t ts ih =>
    cases us with
    | nil => exact nomatch h
    | cons u us =>
      obtain ⟨hhead, htail⟩ := List.cons.inj h
      rw [List.forall_mem_cons] at ht hu
      rw [List.map_cons, List.map_cons, lexeme_eq_of_isName ht.1 hu.1 hhead,
        ih ht.2 hu.2 htail]

-- ============================================================================
-- Expressions
-- ============================================================================

/-- Tokens at the same place of the two rows are paired. -/
def Paired (T : Token → Token → Prop) (ts us : List Token) : Prop :=
  ∀ pair ∈ ts.zip us, T pair.1 pair.2

variable {T : Token → Token → Prop}

theorem paired_cons {t u : Token} {ts us : List Token} :
    Paired T (t :: ts) (u :: us) ↔ T t u ∧ Paired T ts us := by
  rw [Paired, List.zip_cons_cons, List.forall_mem_cons, Paired]

theorem paired_append {ts us ts' us' : List Token} (hlength : ts.length = us.length) :
    Paired T (ts ++ ts') (us ++ us') ↔ Paired T ts us ∧ Paired T ts' us' := by
  rw [Paired, List.zip_append hlength, List.forall_mem_append, Paired, Paired]

/-- Expressions that are read from source texts and similar, with their tokens paired. -/
structure SimilarExpr (T : Token → Token → Prop) (e e' : Expr) : Prop where
  formed : Formed e
  formed' : Formed e'
  same : e.mapTokens Token.respelled = e'.mapTokens Token.respelled
  paired : Paired T e.tokens e'.tokens

/-- Rows of such expressions. -/
structure SimilarExprs (T : Token → Token → Prop) (es es' : List Expr) : Prop where
  formed : FormedAll es
  formed' : FormedAll es'
  same : Expr.mapTokensAll Token.respelled es = Expr.mapTokensAll Token.respelled es'
  paired : Paired T (Expr.tokensAll es) (Expr.tokensAll es')

-- An expression that is similar to a given one has the same constructor, and its parts are similar.

namespace SimilarExpr

variable {t : Token} {e' : Expr}

theorem of_identifier (h : SimilarExpr T (.identifier t) e') :
    ∃ u, e' = .identifier u ∧ SameName T t u := by
  obtain ⟨hf, hf', hsame, hT⟩ := h
  cases e' with
  | identifier u =>
    obtain ⟨hpair, -⟩ := paired_cons.mp hT
    cases hf with
    | identifier hname =>
      cases hf' with
      | identifier hname' =>
        exact ⟨u, rfl, hpair, lexeme_eq_of_isName hname hname' (Expr.identifier.inj hsame)⟩
  | _ => exact nomatch hsame

theorem of_unary {op : UnaryOp} {operand : Expr} (h : SimilarExpr T (.unary op t operand) e') :
    ∃ u operand', e' = .unary op u operand' ∧ T t u ∧ SimilarExpr T operand operand' := by
  obtain ⟨hf, hf', hsame, hT⟩ := h
  cases e' with
  | unary op' u operand' =>
    obtain ⟨rfl, -, hrest⟩ := Expr.unary.inj hsame
    obtain ⟨hmark, hT⟩ := paired_cons.mp hT
    cases hf with
    | unary _ _ hoperand =>
      cases hf' with
      | unary _ _ hoperand' => exact ⟨u, operand', rfl, hmark, hoperand, hoperand', hrest, hT⟩
  | _ => exact nomatch hsame

theorem of_binary {op : BinaryOp} {l r : Expr} (h : SimilarExpr T (.binary op t l r) e') :
    ∃ u l' r', e' = .binary op u l' r' ∧ T t u ∧
      (op ≠ .and → op ≠ .or → t.lexeme = u.lexeme) ∧ SimilarExpr T l l' ∧ SimilarExpr T r r' := by
  obtain ⟨hf, hf', hsame, hT⟩ := h
  cases e' with
  | binary op' u l' r' =>
    obtain ⟨rfl, htokens, hleft, hright⟩ := Expr.binary.inj hsame
    obtain ⟨hTl, hT⟩ := (paired_append (Expr.length_tokens_eq hleft)).mp hT
    obtain ⟨hTmark, hTr⟩ := paired_cons.mp hT
    cases hf with
    | binary hmark _ hl hr =>
      cases hf' with
      | binary hmark' _ hl' hr' =>
        exact ⟨u, l', r', rfl, hTmark, lexeme_eq_of_binary hmark hmark' htokens,
          ⟨hl, hl', hleft, hTl⟩, ⟨hr, hr', hright, hTr⟩⟩
  | _ => exact nomatch hsame

theorem of_assign {v : Expr} (h : SimilarExpr T (.assign t v) e') :
    ∃ u v', e' = .assign u v' ∧ SameName T t u ∧ SimilarExpr T v v' := by
  obtain ⟨hf, hf', hsame, hT⟩ := h
  cases e' with
  | assign u v' =>
    obtain ⟨htokens, hvalue⟩ := Expr.assign.inj hsame
    obtain ⟨hpair, hT⟩ := paired_cons.mp hT
    cases hf with
    | assign hname hv =>
      cases hf' with
      | assign hname' hv' =>
        have hlexeme := lexeme_eq_of_isName hname hname' htokens
        exact ⟨u, v', rfl, ⟨hpair, hlexeme⟩, ⟨hv, hv', hvalue, hT⟩⟩
  | _ => exact nomatch hsame

theorem of_call {f : Expr} {args : List Expr} (h : SimilarExpr T (.call f t args) e') :
    ∃ f' u args', e' = .call f' u args' ∧ SimilarExpr T f f' ∧ T t u ∧
      SimilarExprs T args args' := by
  obtain ⟨hf, hf', hsame, hT⟩ := h
  cases e' with
  | call f' u args' =>
    obtain ⟨hfirst, -, hrest⟩ := Expr.call.inj hsame
    obtain ⟨hTf, hT⟩ := (paired_append (Expr.length_tokens_eq hfirst)).mp hT
    obtain ⟨hparen, hT⟩ := paired_cons.mp hT
    cases hf with
    | call _ _ hcallee hargs _ =>
      cases hf' with
      | call _ _ hcallee' hargs' _ =>
        exact ⟨f', u, args', rfl, ⟨hcallee, hcallee', hfirst, hTf⟩, hparen,
          ⟨hargs, hargs', hrest, hT⟩⟩
  | _ => exact nomatch hsame

end SimilarExpr

theorem SimilarExprs.of_cons {e : Expr} {es es' : List Expr} (h : SimilarExprs T (e :: es) es') :
    ∃ e₁ es₁, es' = e₁ :: es₁ ∧ SimilarExpr T e e₁ ∧ SimilarExprs T es es₁ := by
  obtain ⟨hf, hf', hsame, hT⟩ := h
  cases es' with
  | nil => exact nomatch hsame
  | cons e₁ es₁ =>
    obtain ⟨hhead, htail⟩ := List.cons.inj hsame
    obtain ⟨hThead, hTtail⟩ := (paired_append (Expr.length_tokens_eq hhead)).mp hT
    cases hf with
    | cons he hes =>
      cases hf' with
      | cons he' hes' =>
        exact ⟨e₁, es₁, rfl, ⟨he, he', hhead, hThead⟩, ⟨hes, hes', htail, hTtail⟩⟩

mutual

theorem exprAlike_of_similar :
    (e : Expr) → ∀ {e' : Expr}, SimilarExpr T e e' → ExprAlike T e e'
  | .number x, e', h => by
    cases e' with
    | number y =>
      obtain rfl : x = y := Expr.number.inj h.same
      exact .number x
    | _ => exact nomatch h.same
  | .string x, e', h => by
    cases e' with
    | string y =>
      obtain rfl : x = y := Expr.string.inj h.same
      exact .string x
    | _ => exact nomatch h.same
  | .boolean x, e', h => by
    cases e' with
    | boolean y =>
      obtain rfl : x = y := Expr.boolean.inj h.same
      exact .boolean x
    | _ => exact nomatch h.same
  | .nil, e', h => by
    cases e' with
    | nil => exact .nil
    | _ => exact nomatch h.same
  | .identifier _, _, h => by
    obtain ⟨u, rfl, hname⟩ := h.of_identifier
    exact .identifier hname
  | .unary _ _ operand, _, h => by
    obtain ⟨u, operand', rfl, hmark, hoperand⟩ := h.of_unary
    exact .unary hmark (exprAlike_of_similar operand hoperand)
  | .binary _ _ l r, _, h => by
    obtain ⟨u, l', r', rfl, hmark, hlexeme, hl, hr⟩ := h.of_binary
    exact .binary hmark hlexeme (exprAlike_of_similar l hl) (exprAlike_of_similar r hr)
  | .assign _ v, _, h => by
    obtain ⟨u, v', rfl, hname, hv⟩ := h.of_assign
    exact .assign hname (exprAlike_of_similar v hv)
  | .call f _ args, _, h => by
    obtain ⟨f', u, args', rfl, hf, hparen, hargs⟩ := h.of_call
    exact .call (exprAlike_of_similar f hf) hparen (exprsAlike_of_similar args hargs)

theorem exprsAlike_of_similar :
    (es : List Expr) → ∀ {es' : List Expr}, SimilarExprs T es es' →
      List.Forall₂ (ExprAlike T) es es'
  | [], es', h => by
    cases es' with
    | nil => exact .nil
    | cons _ _ => exact nomatch h.same
  | e :: es, _, h => by
    obtain ⟨e₁, es₁, rfl, he, hes⟩ := h.of_cons
    exact .cons (exprAlike_of_similar e he) (exprsAlike_of_similar es hes)

end

-- ============================================================================
-- Statements
-- ============================================================================

/-- Statements that are read from source texts and similar, with their tokens paired. -/
structure SimilarStmt (T : Token → Token → Prop) (inside : Bool) (s s' : Stmt) : Prop where
  formed : FormedStmt inside s
  formed' : FormedStmt inside s'
  same : s.mapTokens Token.respelled = s'.mapTokens Token.respelled
  paired : Paired T s.tokens s'.tokens

/-- Rows of such statements. -/
structure SimilarStmts (T : Token → Token → Prop) (inside : Bool) (ss ss' : List Stmt) : Prop where
  formed : FormedStmts inside ss
  formed' : FormedStmts inside ss'
  same : Stmt.mapTokensAll Token.respelled ss = Stmt.mapTokensAll Token.respelled ss'
  paired : Paired T (Stmt.tokensAll ss) (Stmt.tokensAll ss')

namespace SimilarStmt

variable {inside : Bool} {t : Token} {c : Expr} {s' : Stmt}

theorem of_expression {e : Expr} (h : SimilarStmt T inside (.expression e) s') :
    ∃ e', s' = .expression e' ∧ SimilarExpr T e e' := by
  obtain ⟨hf, hf', hsame, hT⟩ := h
  cases s' with
  | expression e' =>
    cases hf with
    | expression he =>
      cases hf' with
      | expression he' => exact ⟨e', rfl, he, he', Stmt.expression.inj hsame, hT⟩
  | _ => exact nomatch hsame

theorem of_letBare (h : SimilarStmt T inside (.letVar t none) s') :
    ∃ u, s' = .letVar u none ∧ t.lexeme = u.lexeme := by
  obtain ⟨hf, hf', hsame, -⟩ := h
  cases s' with
  | letVar u value' =>
    obtain ⟨htokens, hvalues⟩ := Stmt.letVar.inj hsame
    cases hf with
    | letBare hname =>
      cases hf' with
      | letBare hname' => exact ⟨u, rfl, lexeme_eq_of_isName hname hname' htokens⟩
      | letValue _ _ => exact nomatch hvalues
  | _ => exact nomatch hsame

theorem of_letValue {v : Expr} (h : SimilarStmt T inside (.letVar t (some v)) s') :
    ∃ u v', s' = .letVar u (some v') ∧ t.lexeme = u.lexeme ∧ SimilarExpr T v v' := by
  obtain ⟨hf, hf', hsame, hT⟩ := h
  cases s' with
  | letVar u value' =>
    obtain ⟨htokens, hvalues⟩ := Stmt.letVar.inj hsame
    obtain ⟨-, hT⟩ := paired_cons.mp hT
    cases hf with
    | letValue hname hv =>
      cases hf' with
      | letBare _ => exact nomatch hvalues
      | @letValue _ _ v' hname' hv' =>
        exact ⟨u, v', rfl, lexeme_eq_of_isName hname hname' htokens,
          hv, hv', Option.some.inj hvalues, hT⟩
  | _ => exact nomatch hsame

theorem of_block {body : List Stmt} (h : SimilarStmt T inside (.block t body) s') :
    ∃ u body', s' = .block u body' ∧ SimilarStmts T inside body body' := by
  obtain ⟨hf, hf', hsame, hT⟩ := h
  cases s' with
  | block u body' =>
    obtain ⟨-, hrest⟩ := Stmt.block.inj hsame
    obtain ⟨-, hT⟩ := paired_cons.mp hT
    cases hf with
    | block _ _ hbody =>
      cases hf' with
      | block _ _ hbody' => exact ⟨u, body', rfl, hbody, hbody', hrest, hT⟩
  | _ => exact nomatch hsame

theorem of_ifThen {yes : Stmt} (h : SimilarStmt T inside (.ifThen t c yes) s') :
    ∃ u c' yes', s' = .ifThen u c' yes' ∧ SimilarExpr T c c' ∧ SimilarStmt T inside yes yes' := by
  obtain ⟨hf, hf', hsame, hT⟩ := h
  cases s' with
  | ifThen u c' yes' =>
    obtain ⟨-, hcondition, hrest⟩ := Stmt.ifThen.inj hsame
    obtain ⟨-, hT⟩ := paired_cons.mp hT
    obtain ⟨hTc, hTyes⟩ := (paired_append (Expr.length_tokens_eq hcondition)).mp hT
    cases hf with
    | ifThen _ _ hc hyes =>
      cases hf' with
      | ifThen _ _ hc' hyes' =>
        exact ⟨u, c', yes', rfl, ⟨hc, hc', hcondition, hTc⟩, ⟨hyes, hyes', hrest, hTyes⟩⟩
  | _ => exact nomatch hsame

theorem of_ifThenElse {yes no : Stmt} (h : SimilarStmt T inside (.ifThenElse t c yes no) s') :
    ∃ u c' yes' no', s' = .ifThenElse u c' yes' no' ∧ SimilarExpr T c c' ∧
      SimilarStmt T inside yes yes' ∧ SimilarStmt T inside no no' := by
  obtain ⟨hf, hf', hsame, hT⟩ := h
  cases s' with
  | ifThenElse u c' yes' no' =>
    obtain ⟨-, hcondition, hfirst, hsecond⟩ := Stmt.ifThenElse.inj hsame
    obtain ⟨-, hT⟩ := paired_cons.mp hT
    obtain ⟨hTc, hT⟩ := (paired_append (Expr.length_tokens_eq hcondition)).mp hT
    obtain ⟨hTyes, hTno⟩ := (paired_append (Stmt.length_tokens_eq hfirst)).mp hT
    cases hf with
    | ifThenElse _ _ hc hyes _ hno =>
      cases hf' with
      | ifThenElse _ _ hc' hyes' _ hno' =>
        exact ⟨u, c', yes', no', rfl, ⟨hc, hc', hcondition, hTc⟩, ⟨hyes, hyes', hfirst, hTyes⟩,
          ⟨hno, hno', hsecond, hTno⟩⟩
  | _ => exact nomatch hsame

theorem of_whileLoop {body : Stmt} (h : SimilarStmt T inside (.whileLoop t c body) s') :
    ∃ u c' body', s' = .whileLoop u c' body' ∧ SimilarExpr T c c' ∧
      SimilarStmt T inside body body' := by
  obtain ⟨hf, hf', hsame, hT⟩ := h
  cases s' with
  | whileLoop u c' body' =>
    obtain ⟨-, hcondition, hrest⟩ := Stmt.whileLoop.inj hsame
    obtain ⟨-, hT⟩ := paired_cons.mp hT
    obtain ⟨hTc, hTbody⟩ := (paired_append (Expr.length_tokens_eq hcondition)).mp hT
    cases hf with
    | whileLoop _ _ hc hbody =>
      cases hf' with
      | whileLoop _ _ hc' hbody' =>
        exact ⟨u, c', body', rfl, ⟨hc, hc', hcondition, hTc⟩, ⟨hbody, hbody', hrest, hTbody⟩⟩
  | _ => exact nomatch hsame

theorem of_function {label : Nat} {params : List Token} {body : List Stmt}
    (h : SimilarStmt T inside (.function label t params body) s') :
    ∃ u params' body', s' = .function label u params' body' ∧ t.lexeme = u.lexeme ∧
      params.map Token.lexeme = params'.map Token.lexeme ∧ SimilarStmts T true body body' := by
  obtain ⟨hf, hf', hsame, hT⟩ := h
  cases s' with
  | function label' u params' body' =>
    obtain ⟨rfl, htokens, hparams, hrest⟩ := Stmt.function.inj hsame
    have hlength : params.length = params'.length := by
      have hlengths := congrArg List.length hparams
      rwa [List.length_map, List.length_map] at hlengths
    obtain ⟨-, hT⟩ := paired_cons.mp hT
    obtain ⟨-, hTbody⟩ := (paired_append hlength).mp hT
    cases hf with
    | function hname hnames _ _ hbody =>
      cases hf' with
      | function hname' hnames' _ _ hbody' =>
        exact ⟨u, params', body', rfl, lexeme_eq_of_isName hname hname' htokens,
          map_lexeme_eq hnames hnames' hparams, hbody, hbody', hrest, hTbody⟩
  | _ => exact nomatch hsame

theorem of_returnBare (h : SimilarStmt T inside (.returnStmt t none) s') :
    ∃ u, s' = .returnStmt u none := by
  obtain ⟨-, -, hsame, -⟩ := h
  cases s' with
  | returnStmt u value' =>
    cases value' with
    | none => exact ⟨u, rfl⟩
    | some v' => exact nomatch (Stmt.returnStmt.inj hsame).2
  | _ => exact nomatch hsame

theorem of_returnValue {v : Expr} (h : SimilarStmt T inside (.returnStmt t (some v)) s') :
    ∃ u v', s' = .returnStmt u (some v') ∧ SimilarExpr T v v' := by
  obtain ⟨hf, hf', hsame, hT⟩ := h
  cases s' with
  | returnStmt u value' =>
    obtain ⟨-, hvalues⟩ := Stmt.returnStmt.inj hsame
    obtain ⟨-, hT⟩ := paired_cons.mp hT
    cases hf with
    | returnValue _ _ hv =>
      cases hf' with
      | returnBare _ _ => exact nomatch hvalues
      | @returnValue _ v' _ _ hv' =>
        exact ⟨u, v', rfl, hv, hv', Option.some.inj hvalues, hT⟩
  | _ => exact nomatch hsame

end SimilarStmt

theorem SimilarStmts.of_cons {inside : Bool} {s : Stmt} {ss ss' : List Stmt}
    (h : SimilarStmts T inside (s :: ss) ss') :
    ∃ s₁ ss₁, ss' = s₁ :: ss₁ ∧ SimilarStmt T inside s s₁ ∧ SimilarStmts T inside ss ss₁ := by
  obtain ⟨hf, hf', hsame, hT⟩ := h
  cases ss' with
  | nil => exact nomatch hsame
  | cons s₁ ss₁ =>
    obtain ⟨hhead, htail⟩ := List.cons.inj hsame
    obtain ⟨hThead, hTtail⟩ := (paired_append (Stmt.length_tokens_eq hhead)).mp hT
    cases hf with
    | cons hs hss =>
      cases hf' with
      | cons hs' hss' =>
        exact ⟨s₁, ss₁, rfl, ⟨hs, hs', hhead, hThead⟩, ⟨hss, hss', htail, hTtail⟩⟩

mutual

theorem stmtAlike_of_similar {inside : Bool} :
    (s : Stmt) → ∀ {s' : Stmt}, SimilarStmt T inside s s' → StmtAlike T s s'
  | .expression e, _, h => by
    obtain ⟨e', rfl, he⟩ := h.of_expression
    exact .expression (exprAlike_of_similar e he)
  | .letVar _ none, _, h => by
    obtain ⟨u, rfl, hname⟩ := h.of_letBare
    exact .letBare hname
  | .letVar _ (some v), _, h => by
    obtain ⟨u, v', rfl, hname, hv⟩ := h.of_letValue
    exact .letValue hname (exprAlike_of_similar v hv)
  | .block _ body, _, h => by
    obtain ⟨u, body', rfl, hbody⟩ := h.of_block
    exact .block (stmtsAlike_of_similar body hbody)
  | .ifThen _ c yes, _, h => by
    obtain ⟨u, c', yes', rfl, hc, hyes⟩ := h.of_ifThen
    exact .ifThen (exprAlike_of_similar c hc) (stmtAlike_of_similar yes hyes)
  | .ifThenElse _ c yes no, _, h => by
    obtain ⟨u, c', yes', no', rfl, hc, hyes, hno⟩ := h.of_ifThenElse
    exact .ifThenElse (exprAlike_of_similar c hc) (stmtAlike_of_similar yes hyes)
      (stmtAlike_of_similar no hno)
  | .whileLoop _ c body, _, h => by
    obtain ⟨u, c', body', rfl, hc, hbody⟩ := h.of_whileLoop
    exact .whileLoop (exprAlike_of_similar c hc) (stmtAlike_of_similar body hbody)
  | .function _ _ _ body, _, h => by
    obtain ⟨u, params', body', rfl, hname, hparams, hbody⟩ := h.of_function
    exact .function hname hparams (stmtsAlike_of_similar body hbody)
  | .returnStmt _ none, _, h => by
    obtain ⟨u, rfl⟩ := h.of_returnBare
    exact .returnBare
  | .returnStmt _ (some v), _, h => by
    obtain ⟨u, v', rfl, hv⟩ := h.of_returnValue
    exact .returnValue (exprAlike_of_similar v hv)

theorem stmtsAlike_of_similar {inside : Bool} :
    (ss : List Stmt) → ∀ {ss' : List Stmt}, SimilarStmts T inside ss ss' →
      List.Forall₂ (StmtAlike T) ss ss'
  | [], ss', h => by
    cases ss' with
    | nil => exact .nil
    | cons _ _ => exact nomatch h.same
  | s :: ss, _, h => by
    obtain ⟨s₁, ss₁, rfl, hs, hss⟩ := h.of_cons
    exact .cons (stmtAlike_of_similar s hs) (stmtsAlike_of_similar ss hss)

end

-- ============================================================================
-- Programs
-- ============================================================================

/-- Programs that are read from source texts and are similar are alike, also when their functions
    are numbered from the same number on, and they take equally many numbers. -/
theorem relabel_of_similar {p q : Program} (hp : FormedStmts false p.statements)
    (hq : FormedStmts false q.statements) (hpq : p.Similar q)
    (hT : ∀ ⦃t u⦄, p.Corresponding q t u → T t u) (next : Nat) :
    List.Forall₂ (StmtAlike T) (p.relabel next).1.statements (q.relabel next).1.statements ∧
      (p.relabel next).2 = (q.relabel next).2 := by
  have hsimilar : SimilarStmts T false p.statements q.statements :=
    ⟨hp, hq, Program.mk.inj hpq, fun pair hpair => hT hpair⟩
  have halike := stmtsAlike_of_similar p.statements hsimilar
  have hnumbered := relabelAll_alike p.statements halike next
  exact ⟨hnumbered.alike, hnumbered.free⟩

end Lockstep

end Lexiscope
