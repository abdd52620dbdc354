/-
  Lexiscope.Proofs.Provenance.Parse

  Where the tokens of a parse come from.

  A parser makes up no tokens. If it fails, it does so at one of the tokens it was
  given or at the end marker, and if it succeeds, the sites of the tree are at such
  tokens, each of a kind that fits its role. Both are said by one property of
  parsers (`Parser.Yields`), which is proved along the parser.
-/
import Lexiscope.Proofs.Eval.Sites
import Lexiscope.Syntax.Parser

namespace Lexiscope

-- ============================================================================
-- Trees with tokens from a set
-- ============================================================================

variable {S : Token → Prop}

/-- The token of the site is one of these, and of a kind that fits. -/
structure Site.From (S : Token → Prop) (site : Site) : Prop where
  mem : S site.token
  fits : site.role.Fits site.token

/-- The sites of the expression are at these tokens. -/
def Expr.From (S : Token → Prop) (e : Expr) : Prop := ∀ inside, ∀ site ∈ e.sites inside, site.From S

/-- The sites of the expressions are at these tokens. -/
def Expr.AllFrom (S : Token → Prop) (es : List Expr) : Prop :=
  ∀ inside, ∀ site ∈ Expr.sitesAll inside es, site.From S

/-- The sites of the statement are at these tokens. -/
def Stmt.From (S : Token → Prop) (s : Stmt) : Prop := ∀ inside, ∀ site ∈ s.sites inside, site.From S

/-- The sites of the statements are at these tokens. -/
def Stmt.AllFrom (S : Token → Prop) (ss : List Stmt) : Prop :=
  ∀ inside, ∀ site ∈ Stmt.sitesAll inside ss, site.From S

namespace Expr.From

theorem identifier {t : Token} (ht : S t) (hkind : t.kind = .identifier) :
    (Expr.identifier t).From S := by
  intro inside site hsite
  rw [Expr.sites, List.mem_singleton] at hsite
  rw [hsite]
  exact ⟨ht, hkind⟩

theorem unary {op : UnaryOp} {t : Token} {e : Expr} (ht : S t)
    (hop : UnaryOp.ofKind? t.kind = some op) (he : e.From S) : (Expr.unary op t e).From S := by
  intro inside site hsite
  rw [Expr.sites, List.mem_cons] at hsite
  rcases hsite with rfl | hsite
  · exact ⟨ht, hop⟩
  · exact he inside site hsite

theorem binary {op : BinaryOp} {t : Token} {l r : Expr} (ht : S t)
    (hop : BinaryOp.ofKind? t.kind = some op) (hl : l.From S) (hr : r.From S) :
    (Expr.binary op t l r).From S := by
  intro inside site hsite
  rw [Expr.sites, List.mem_cons, List.mem_append] at hsite
  rcases hsite with rfl | hsite | hsite
  · exact ⟨ht, hop⟩
  · exact hl inside site hsite
  · exact hr inside site hsite

/-- The name before an equals sign was read as an expression. -/
theorem assign {t : Token} {v : Expr} (ht : (Expr.identifier t).From S) (hv : v.From S) :
    (Expr.assign t v).From S := by
  intro inside site hsite
  rw [Expr.sites, List.mem_cons] at hsite
  rcases hsite with rfl | hsite
  · exact ht inside _ (List.mem_singleton_self _)
  · exact hv inside site hsite

theorem call {f : Expr} {t : Token} {args : List Expr} (ht : S t) (hkind : t.kind = .leftParen)
    (hf : f.From S) (hargs : Expr.AllFrom S args) : (Expr.call f t args).From S := by
  intro inside site hsite
  rw [Expr.sites, List.mem_cons, List.mem_append] at hsite
  rcases hsite with rfl | hsite | hsite
  · exact ⟨ht, hkind⟩
  · exact hf inside site hsite
  · exact hargs inside site hsite

end Expr.From

theorem Expr.AllFrom.nil : Expr.AllFrom S [] := by
  intro inside site hsite
  exact nomatch hsite

theorem Expr.AllFrom.cons {e : Expr} {es : List Expr} (he : e.From S) (hes : Expr.AllFrom S es) :
    Expr.AllFrom S (e :: es) := by
  intro inside site hsite
  rw [Expr.sitesAll, List.mem_append] at hsite
  exact hsite.elim (he inside site) (hes inside site)

theorem Stmt.AllFrom.nil : Stmt.AllFrom S [] := by
  intro inside site hsite
  exact nomatch hsite

theorem Stmt.AllFrom.cons {s : Stmt} {ss : List Stmt} (hs : s.From S) (hss : Stmt.AllFrom S ss) :
    Stmt.AllFrom S (s :: ss) := by
  intro inside site hsite
  rw [Stmt.sitesAll, List.mem_append] at hsite
  exact hsite.elim (hs inside site) (hss inside site)

namespace Stmt.From

theorem ifThen {word : Token} {c : Expr} {yes : Stmt} (hc : c.From S) (hyes : yes.From S) :
    (Stmt.ifThen word c yes).From S := by
  intro inside site hsite
  rw [Stmt.sites, List.mem_append] at hsite
  exact hsite.elim (hc inside site) (hyes inside site)

theorem ifThenElse {word : Token} {c : Expr} {yes no : Stmt} (hc : c.From S) (hyes : yes.From S)
    (hno : no.From S) : (Stmt.ifThenElse word c yes no).From S := by
  intro inside site hsite
  rw [Stmt.sites, List.mem_append, List.mem_append] at hsite
  rcases hsite with hsite | hsite | hsite
  · exact hc inside site hsite
  · exact hyes inside site hsite
  · exact hno inside site hsite

theorem whileLoop {word : Token} {c : Expr} {body : Stmt} (hc : c.From S) (hbody : body.From S) :
    (Stmt.whileLoop word c body).From S := by
  intro inside site hsite
  rw [Stmt.sites, List.mem_append] at hsite
  exact hsite.elim (hc inside site) (hbody inside site)

end Stmt.From

-- ============================================================================
-- Parsers that make up no tokens
-- ============================================================================

namespace Parser

variable {α β : Type} {A : α → Prop} {B : β → Prop}

/-- The parse failed at one of these tokens, or left only such tokens and a result with the
    property. -/
def Yielded (S : Token → Prop) (A : α → Prop) : Except ParseError (α × List Token) → Prop
  | .ok (a, rest) => A a ∧ ∀ t ∈ rest, S t
  | .error e => S e.token

/-- Among these tokens the parser fails at one of them, or leaves some and gives a result with the
    property. -/
def Yields (S : Token → Prop) (A : α → Prop) (p : Parser α) : Prop :=
  ∀ ⦃ctx ts⦄, S ctx.eof → (∀ t ∈ ts, S t) → Yielded S A (p ctx ts)

namespace Yields

theorem headD {eof : Token} {ts : List Token} (heof : S eof) (hts : ∀ t ∈ ts, S t) :
    S (ts.headD eof) := by
  cases ts with
  | nil => exact heof
  | cons t rest => exact hts t List.mem_cons_self

protected theorem pure {a : α} (h : A a) : (pure a : Parser α).Yields S A :=
  fun _ _ _ hts => ⟨h, hts⟩

protected theorem bind {p : Parser α} {f : α → Parser β} (hp : p.Yields S A)
    (hf : ∀ a, A a → (f a).Yields S B) : (p >>= f).Yields S B := by
  intro ctx ts heof hts
  show Yielded S B (Parser.bind p f ctx ts)
  have hfirst := hp heof hts
  unfold Parser.bind
  generalize p ctx ts = x at hfirst ⊢
  rcases x with e | ⟨a, rest⟩
  · exact hfirst
  · exact hf a hfirst.1 heof hfirst.2

theorem ite {c : Prop} [Decidable c] {p q : Parser α} (hyes : c → p.Yields S A)
    (hno : ¬ c → q.Yields S A) : (if c then p else q).Yields S A := by
  split
  · next h => exact hyes h
  · next h => exact hno h

theorem current : Parser.current.Yields S S :=
  fun _ _ heof hts => ⟨headD heof hts, hts⟩

theorem maxNesting : Parser.maxNesting.Yields S fun _ => True :=
  fun _ _ _ hts => ⟨trivial, hts⟩

theorem remaining : Parser.remaining.Yields S fun _ => True :=
  fun _ _ _ hts => ⟨trivial, hts⟩

theorem take : Parser.take.Yields S S :=
  fun _ _ heof hts => ⟨headD heof hts, fun t ht => hts t (List.mem_of_mem_tail ht)⟩

theorem failAt {t : Token} (ht : S t) (x : Expected) : (Parser.failAt t x : Parser α).Yields S A :=
  fun _ _ _ _ => ht

theorem fail (x : Expected) : (Parser.fail x : Parser α).Yields S A :=
  fun _ _ heof hts => headD heof hts

theorem tooDeep {t : Token} (ht : S t) : (Parser.tooDeep t : Parser α).Yields S A :=
  fun _ _ _ _ => ht

theorem tooDeepHere : (Parser.tooDeepHere : Parser α).Yields S A :=
  fun _ _ heof hts => headD heof hts

theorem rejectTarget {t : Token} (ht : S t) (target : Expr) :
    (Parser.rejectTarget t target : Parser α).Yields S A :=
  fun _ _ _ _ => ht

theorem at_ (kind : Kind) : (Parser.at_ kind).Yields S fun _ => True :=
  fun _ _ _ hts => ⟨trivial, hts⟩

theorem atStatementEnd : Parser.atStatementEnd.Yields S fun _ => True :=
  fun _ _ _ hts => ⟨trivial, hts⟩

theorem skip (kind : Kind) : (Parser.skip kind).Yields S fun _ => True := by
  intro ctx ts heof hts
  unfold Parser.skip
  split
  · exact ⟨trivial, fun t ht => hts t (List.mem_of_mem_tail ht)⟩
  · exact ⟨trivial, hts⟩

theorem expect (kind : Kind) (x : Expected) : (Parser.expect kind x).Yields S S := by
  intro ctx ts heof hts
  have hhead : S (ts.headD ctx.eof) := headD heof hts
  unfold Parser.expect
  dsimp only
  split
  · exact ⟨hhead, fun t ht => hts t (List.mem_of_mem_tail ht)⟩
  · exact hhead

theorem statementEnd : Parser.statementEnd.Yields S fun _ => True := by
  refine .bind (.skip _) fun _ _ => .ite (fun _ => .pure trivial) fun _ => ?_
  exact .bind .atStatementEnd fun _ _ => .ite (fun _ => .pure trivial) fun _ => .fail _

end Yields

-- ============================================================================
-- Expressions
-- ============================================================================

variable {expr : Parser Expr}

theorem primary_yields (he : expr.Yields S (Expr.From S)) :
    (primary expr).Yields S (Expr.From S) := by
  have hconstant : ∀ e : Expr, (∀ inside, e.sites inside = []) → e.From S := by
    intro e hnone inside site hsite
    rw [hnone inside] at hsite
    exact nomatch hsite
  refine .bind .current fun t ht => ?_
  split
  · refine .bind .take fun _ _ => ?_
    split
    · exact .pure (hconstant _ fun _ => rfl)
    · exact .failAt ht _
  · refine .bind .take fun _ _ => ?_
    split
    · exact .pure (hconstant _ fun _ => rfl)
    · exact .failAt ht _
  · exact .bind .take fun _ _ => .pure (hconstant _ fun _ => rfl)
  · exact .bind .take fun _ _ => .pure (hconstant _ fun _ => rfl)
  · exact .bind .take fun _ _ => .pure (hconstant _ fun _ => rfl)
  · next hkind => exact .bind .take fun _ _ => .pure (.identifier ht hkind)
  · refine .bind .take fun _ _ => .bind he fun e hfrom => ?_
    exact .bind (.expect _ _) fun _ _ => .pure hfrom
  · exact .fail _

theorem moreArguments_yields (he : expr.Yields S (Expr.From S)) (slots : Nat) :
    (moreArguments expr slots).Yields S (Expr.AllFrom S) := by
  induction slots with
  | zero => exact .bind (.skip _) fun _ _ => .ite (fun _ => .fail _) fun _ => .pure .nil
  | succ slots ih =>
    refine .bind (.skip _) fun _ _ => .ite (fun _ => ?_) fun _ => .pure .nil
    exact .bind he fun e hfirst => .bind ih fun rest hrest => .pure (.cons hfirst hrest)

theorem arguments_yields (he : expr.Yields S (Expr.From S)) :
    (arguments expr).Yields S (Expr.AllFrom S) := by
  have hlist : (argumentList expr).Yields S (Expr.AllFrom S) := by
    refine .bind (.at_ _) fun _ _ => .ite (fun _ => .pure .nil) fun _ => ?_
    refine .bind he fun e hfirst => .bind (moreArguments_yields he _) fun rest hrest => ?_
    exact .pure (.cons hfirst hrest)
  exact .bind hlist fun args hargs => .bind (.expect _ _) fun _ _ => .pure hargs

theorem calls_yield (he : expr.Yields S (Expr.From S)) (room : Nat) {callee : Expr}
    (hcallee : callee.From S) : (calls expr room callee).Yields S (Expr.From S) := by
  induction room generalizing callee with
  | zero =>
    exact .bind .current fun t ht => .ite (fun _ => .tooDeep ht) fun _ => .pure hcallee
  | succ room ih =>
    refine .bind .current fun t ht => .ite (fun hkind => ?_) fun _ => .pure hcallee
    refine .bind .take fun _ _ => .bind (arguments_yields he) fun args hargs => ?_
    exact ih (.call ht hkind hcallee hargs)

theorem unary_yields (room : Nat) {operand : Parser Expr} (ho : operand.Yields S (Expr.From S))
    (he : expr.Yields S (Expr.From S)) : (unary room operand expr).Yields S (Expr.From S) := by
  refine .bind .current fun t ht => ?_
  split
  · next op hop => exact .bind .take fun _ _ => .bind ho fun e hfrom => .pure (.unary ht hop hfrom)
  · exact .bind (primary_yields he) fun e hfrom => calls_yield he room hfrom

theorem chain_yields (rung : List BinaryOp) {tighter : Parser Expr}
    (ht : tighter.Yields S (Expr.From S)) (room : Nat) {left : Expr} (hleft : left.From S) :
    (chain rung tighter room left).Yields S (Expr.From S) := by
  induction room generalizing left with
  | zero =>
    refine .bind .current fun t hmark => ?_
    split
    · exact .tooDeep hmark
    · exact .pure hleft
  | succ room ih =>
    refine .bind .current fun t hmark => ?_
    split
    · next op hop =>
      have hkind : BinaryOp.ofKind? t.kind = some op := (Option.filter_eq_some_iff.mp hop).1
      refine .bind .take fun _ _ => .bind ht fun right hright => ?_
      exact ih (.binary hmark hkind hleft hright)
    · exact .pure hleft

theorem binary_yields (room : Nat) {operand : Parser Expr} (ho : operand.Yields S (Expr.From S))
    (rungs : List (List BinaryOp)) : (binary room operand rungs).Yields S (Expr.From S) := by
  induction rungs with
  | nil => exact ho
  | cons rung tighter ih => exact .bind ih fun first hfirst => chain_yields rung ih room hfirst

theorem assignment_yields (room : Nat) {operand : Parser Expr}
    (ho : operand.Yields S (Expr.From S)) (he : expr.Yields S (Expr.From S)) :
    (assignment room operand expr).Yields S (Expr.From S) := by
  have htarget := binary_yields room (unary_yields room ho he) ladder
  refine .bind htarget fun target hfrom => .bind .current fun t ht => ?_
  refine .ite (fun _ => .bind .take fun _ _ => .bind he fun value hvalue => ?_) fun _ => .pure hfrom
  split
  · exact .pure (.assign hfrom hvalue)
  · exact .rejectTarget ht target

theorem operand_and_expression_yield (room : Nat) :
    (operand room).Yields S (Expr.From S) ∧ (expression room).Yields S (Expr.From S) := by
  induction room with
  | zero => exact ⟨.tooDeepHere, .tooDeepHere⟩
  | succ room ih => exact ⟨unary_yields room ih.1 ih.2, assignment_yields room ih.1 ih.2⟩

theorem expression_yields (room : Nat) : (expression room).Yields S (Expr.From S) :=
  (operand_and_expression_yield room).2

-- ============================================================================
-- Statements
-- ============================================================================

variable {stmt : Parser Stmt}

theorem letVar_yields (he : expr.Yields S (Expr.From S)) :
    (letVar expr).Yields S (Stmt.From S) := by
  refine .bind (.expect _ _) fun name _ => .bind (.skip _) fun _ _ => .ite (fun _ => ?_) fun _ => ?_
  · exact .bind he fun value hvalue => .bind .statementEnd fun _ _ => .pure hvalue
  · refine .bind .statementEnd fun _ _ => .pure ?_
    intro inside site hsite
    exact nomatch hsite

theorem parameters_yield (slots : Nat) (read : List Token) :
    (parameters slots read).Yields S fun _ => True := by
  induction slots generalizing read with
  | zero => exact .fail _
  | succ slots ih =>
    refine .bind (.expect _ _) fun param hparam => .ite (fun _ => .failAt hparam _) fun _ => ?_
    exact .bind (.skip _) fun _ _ => .ite (fun _ => ih _) fun _ => .pure trivial

theorem parameterList_yields : parameterList.Yields S fun _ => True :=
  .bind (.at_ _) fun _ _ => .ite (fun _ => .pure trivial) fun _ => parameters_yield _ _

theorem statements_yield (hs : stmt.Yields S (Stmt.From S)) (bound : Nat) :
    (statements stmt bound).Yields S (Stmt.AllFrom S) := by
  induction bound with
  | zero => exact .pure .nil
  | succ bound ih =>
    refine .bind .current fun t _ => .ite (fun _ => .pure .nil) fun _ => ?_
    exact .bind hs fun s hfirst => .bind ih fun rest hrest => .pure (.cons hfirst hrest)

theorem block_yields (hs : stmt.Yields S (Stmt.From S)) :
    (block stmt).Yields S (Stmt.AllFrom S) := by
  refine .bind .remaining fun bound _ => .bind (statements_yield hs bound) fun body hbody => ?_
  exact .bind (.expect _ _) fun _ _ => .pure hbody

theorem function_yields (hs : stmt.Yields S (Stmt.From S)) :
    (function stmt).Yields S (Stmt.From S) := by
  refine .bind (.expect _ _) fun name _ => .bind (.expect _ _) fun _ _ => ?_
  refine .bind parameterList_yields fun params _ => .bind (.expect _ _) fun _ _ => ?_
  refine .bind (.expect _ _) fun _ _ => .bind (block_yields hs) fun body hbody => ?_
  exact .pure fun _ => hbody true

theorem condition_yields (he : expr.Yields S (Expr.From S)) (opening closing : Expected) :
    (condition expr opening closing).Yields S (Expr.From S) := by
  refine .bind (.expect _ _) fun _ _ => .bind he fun e hfrom => ?_
  exact .bind (.expect _ _) fun _ _ => .pure hfrom

theorem ifStmt_yields (word : Token) (hs : stmt.Yields S (Stmt.From S))
    (he : expr.Yields S (Expr.From S)) : (ifStmt word stmt expr).Yields S (Stmt.From S) := by
  refine .bind (condition_yields he _ _) fun test htest => .bind hs fun yes hyes => ?_
  refine .bind (.skip _) fun _ _ => .ite (fun _ => ?_) fun _ => .pure (.ifThen htest hyes)
  exact .bind hs fun no hno => .pure (.ifThenElse htest hyes hno)

theorem whileLoop_yields (word : Token) (hs : stmt.Yields S (Stmt.From S))
    (he : expr.Yields S (Expr.From S)) : (whileLoop word stmt expr).Yields S (Stmt.From S) := by
  refine .bind (condition_yields he _ _) fun test htest => ?_
  exact .bind hs fun body hbody => .pure (.whileLoop htest hbody)

theorem returnStmt_yields {word : Token} (hword : S word) (inFunction : Bool)
    (he : expr.Yields S (Expr.From S)) :
    (returnStmt word inFunction expr).Yields S (Stmt.From S) := by
  refine .ite (fun _ => .failAt hword _) fun _ => ?_
  refine .bind .atStatementEnd fun _ _ => .ite (fun _ => ?_) fun _ => ?_
  · refine .bind .statementEnd fun _ _ => .pure ?_
    intro inside site hsite
    exact nomatch hsite
  · exact .bind he fun value hvalue => .bind .statementEnd fun _ _ => .pure hvalue

theorem statementBody_yields (inFunction : Bool) {statement : Bool → Parser Stmt}
    (hs : ∀ inside, (statement inside).Yields S (Stmt.From S))
    (he : expr.Yields S (Expr.From S)) :
    (statementBody inFunction statement expr).Yields S (Stmt.From S) := by
  refine .bind .current fun t ht => ?_
  split
  · exact .bind .take fun _ _ => letVar_yields he
  · exact .bind .take fun _ _ => function_yields (hs true)
  · exact .bind .take fun _ _ => ifStmt_yields t (hs inFunction) he
  · exact .bind .take fun _ _ => whileLoop_yields t (hs inFunction) he
  · exact .bind .take fun _ _ => returnStmt_yields ht inFunction he
  · exact .bind .take fun _ _ => .bind (block_yields (hs inFunction)) fun body hbody => .pure hbody
  · exact .bind he fun e hfrom => .bind .statementEnd fun _ _ => .pure hfrom

theorem statement_yields (inFunction : Bool) (room : Nat) :
    (statement inFunction room).Yields S (Stmt.From S) := by
  induction room generalizing inFunction with
  | zero => exact .tooDeepHere
  | succ room ih =>
    intro ctx ts heof hts
    rw [statement]
    exact statementBody_yields inFunction ih (expression_yields room) heof hts

theorem topLevel_yields (bound : Nat) : (topLevel bound).Yields S (Stmt.AllFrom S) := by
  induction bound with
  | zero => exact .pure .nil
  | succ bound ih =>
    refine .bind .current fun t _ => .ite (fun _ => .pure .nil) fun _ => ?_
    refine .bind .maxNesting fun room _ => .bind (statement_yields false room) fun s hfirst => ?_
    exact .bind ih fun rest hrest => .pure (.cons hfirst hrest)

end Parser

-- ============================================================================
-- Programs
-- ============================================================================

theorem eofOf_mem {tokens : List Token} (h : ∃ t ∈ tokens, t.kind = .eof) :
    eofOf tokens ∈ tokens := by
  obtain ⟨t, ht, hkind⟩ := h
  have hfound : (tokens.find? fun t => t.kind = .eof).isSome := by
    rw [List.find?_isSome]
    exact ⟨t, ht, decide_eq_true hkind⟩
  obtain ⟨eof, heof⟩ := Option.isSome_iff_exists.mp hfound
  rw [eofOf, heof]
  exact List.mem_of_find?_eq_some heof

/-- Tokens with an end marker are not read as a program because of one of them, or the sites of the
    program are at some of them. -/
theorem Program.parse_yields {tokens : List Token} (h : ∃ t ∈ tokens, t.kind = .eof)
    (maxNesting : Nat) :
    (∀ e, Program.parse tokens maxNesting = .error e → e.token ∈ tokens) ∧
      ∀ p, Program.parse tokens maxNesting = .ok p →
        ∀ site ∈ p.sites, site.From (· ∈ tokens) := by
  have hbody : ∀ t ∈ beforeEof tokens, t ∈ tokens := fun t ht =>
    (List.takeWhile_sublist _).mem ht
  have hyielded := Parser.topLevel_yields (beforeEof tokens).length
    (show (⟨eofOf tokens, maxNesting⟩ : ParseContext).eof ∈ tokens from eofOf_mem h) hbody
  unfold Program.parse
  dsimp only
  generalize Parser.topLevel _ _ _ = x at hyielded ⊢
  rcases x with e | ⟨statements, rest⟩
  · constructor
    · rintro _ ⟨⟩
      exact hyielded
    · rintro _ ⟨⟩
  · constructor
    · rintro _ ⟨⟩
    · rintro _ ⟨⟩
      exact hyielded.1 false

end Lexiscope
