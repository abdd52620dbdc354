/-
  Lexiscope.Proofs.Viable.Statement

  Where the parser breaks off within a statement.

  Two checks are made when a token has been taken, and both are about this token: the
  name of a parameter that stands there already, and the word `return` outside of a
  function. So they are errors at the current token like all others.
-/
import Lexiscope.Proofs.Viable.Expression
import Lexiscope.Proofs.Viable.Series
import Mathlib.Data.Fintype.EquivFin

namespace Lexiscope.Parser

open Grammar (Expression Terminator Names Parameters Settled Statement Statements Reads ReadsBefore
  series series_reads nodup_append_name looseToken)

variable {t : Token} {expr : Parser Expr} {stmt : Parser Stmt} {inside : Bool}

-- ============================================================================
-- Terminators and declarations
-- ============================================================================

theorem statementEnd_breaks :
    Breaks (Rows.ofBefore fun us next (_ : Unit) => Terminator us next) statementEnd := by
  have hopen : (Rows.ofBefore fun us next (_ : Unit) => Terminator us next).Begins [] :=
    ⟨[looseToken .semicolon ";"], .eof, (), .semicolon rfl⟩
  refine .skip (by decide) (fun _ _ _ => .pure ()) ?_
  exact .atStatementEnd (.pure hopen ()) (.fail hopen _)

theorem letVar_breaks (hr : Reads expr Expression) (he : Breaks (Rows.of Expression) expr)
    (ht : t.kind = .letWord) :
    Breaks ((Rows.ofBefore (Settled inside)).after [t]) (letVar expr) := by
  refine .expect (by decide) fun name hname => .skip (by decide) (fun mark hmark => Breaks.onToken ?_) ?_
  · refine he.seq hr fun us v hv =>
      statementEnd_breaks.map Grammar.statementEnd_reads fun stop next _ hstop => .of_row ?_
    refine ⟨next, .letVar name (some v), .of_closed ?_ rfl⟩
    simpa using Statement.letValue ht hname hmark hv hstop
  · refine statementEnd_breaks.map Grammar.statementEnd_reads fun stop next _ hstop => .of_row ?_
    exact ⟨next, .letVar name none, .of_closed (Statement.letBare ht hname hstop) rfl⟩

-- ============================================================================
-- Parameters
-- ============================================================================

/-- The names that can stand behind those already read. -/
def MoreNames (slots : Nat) (read : List Token) : Rows := fun us => ∃ names, Names us names
  ∧ names.length ≤ slots ∧ ((read ++ names).map Token.lexeme).Nodup

theorem moreNames_opens (slots : Nat) {read : List Token} (hread : (read.map Token.lexeme).Nodup) :
    (MoreNames (slots + 1) read).Begins [] := by
  obtain ⟨name, hnew⟩ := Infinite.exists_notMem_finset (read.map Token.lexeme).toFinset
  rw [List.mem_toFinset] at hnew
  refine ⟨[looseToken .identifier name], _, .last rfl, by simp, ?_⟩
  exact nodup_append_name hread hnew

theorem parameters_break (slots : Nat) (read : List Token)
    (hread : (read.map Token.lexeme).Nodup) (u : Token) :
    BreaksAt u (MoreNames slots read) (parameters slots read) := by
  induction slots generalizing read u with
  | zero => exact .limited fun ctx ts => ⟨_, rfl, trivial⟩
  | succ slots ih =>
    have hopen := moreNames_opens slots hread
    refine .expect hopen fun hname => ?_
    by_cases hany : (read.any fun other => other.lexeme == u.lexeme) = true
    · -- the name stands there already, so it is refused
      refine (BreaksAt.failAt hopen .uniqueParameters).congr fun ctx ts _ _ => ?_
      show (if _ then _ else _ : Parser (List Token)) ctx ts.tail = _
      rw [if_pos hany]
      rfl
    · have hdistinct := nodup_append_name hread fun hmem => hany (by simpa using hmem)
      rw [if_neg hany]
      refine .take (by rw [hname]; decide) (Breaks.onToken ?_)
      refine .skip (by decide) (fun comma hcomma v => ?_) ?_
      · refine (ih _ hdistinct v).mono fun us => ?_
        rintro ⟨names, hnames, hcount, hall⟩
        refine .of_row ⟨u :: names, .more hname hcomma hnames, Nat.succ_le_succ hcount, ?_⟩
        simpa using hall
      · exact .pure (.of_row ⟨[u], .last hname, by simp, hdistinct⟩) _

theorem parameterList_breaks : Breaks (Rows.of Parameters) parameterList := by
  have hnone : (Rows.of Parameters).Begins [] :=
    .of_row ⟨[], .inl ⟨rfl, rfl⟩, Nat.zero_le _, List.nodup_nil⟩
  refine .atKind (.pure hnone _) ⟨hnone, fun u => ?_⟩
  refine (parameters_break maxArguments [] List.nodup_nil u).mono fun us => ?_
  rintro ⟨names, hnames, hcount, hall⟩
  exact .of_row ⟨names, .inr hnames, hcount, hall⟩

-- ============================================================================
-- Blocks and functions
-- ============================================================================

theorem block_eq (stmt : Parser Stmt) :
    block stmt = (remaining >>= series (fun kind => kind = .rightBrace ∨ kind = .eof) stmt) >>=
      fun body => expect .rightBrace .blockEnd >>= fun _ => pure body := by
  have hseries : statements stmt = series (fun kind => kind = .rightBrace ∨ kind = .eof) stmt :=
    funext (Grammar.statements_eq_series stmt)
  rw [← hseries]
  rfl

/-- The statements of a block, before the brace that closes it. -/
abbrev Braced (inside : Bool) (us : List Token) (body : List Stmt) : Prop :=
  ∃ vs close, us = vs ++ [close] ∧ close.kind = .rightBrace ∧ Statements inside vs .rightBrace body

theorem block_breaks (hr : ReadsBefore stmt (Settled inside))
    (hs : Breaks (Rows.ofBefore (Settled inside)) stmt) :
    Breaks (Rows.of (Braced inside)) (block stmt) := by
  have hclosed : ∀ {us : List Token} {next : Kind} {body : List Stmt},
      Statements inside us next body →
        Rows.of (Braced inside) (us ++ [looseToken .rightBrace "\x7d"]) :=
    fun {us next body} h => ⟨body, us, _, rfl, rfl, h.before (.inl rfl)⟩
  rw [block_eq]
  refine (wholeSeries_breaks hr (.inr rfl) hs).bind
    (fun _ _ _ _ heof hread => series_reads hr _ heof hread)
    (fun us next body h => ⟨_, hclosed h⟩) fun us next body h u => ?_
  refine .expect ⟨[looseToken .rightBrace "\x7d"], fun _ => hclosed h⟩ fun hclose => ?_
  exact .take (by rw [hclose]; decide) fun _ => .pure body

theorem function_breaks (hr : ReadsBefore stmt (Settled true))
    (hs : Breaks (Rows.ofBefore (Settled true)) stmt) (ht : t.kind = .fnWord) (inside : Bool) :
    Breaks ((Rows.ofBefore (Settled inside)).after [t]) (function stmt) := by
  refine .expect (by decide) fun name hname => .expect (by decide) fun l hl => ?_
  refine parameterList_breaks.seq Grammar.parameterList_reads fun ps params hparams => ?_
  refine .expect (by decide) fun r hclose => .expect (by decide) fun brace hopen => ?_
  refine (block_breaks hr hs).seq (Grammar.block_reads hr) ?_
  rintro _ body ⟨vs, close, rfl, hend, hbody⟩
  refine .pure (.of_row ⟨.eof, .function 0 name params body, .of_closed ?_ rfl⟩) _
  simpa using Statement.function ht hname hl hparams hclose hopen hbody hend

-- ============================================================================
-- Conditions and branches
-- ============================================================================

/-- A condition in parentheses. -/
abbrev Condition (us : List Token) (c : Expr) : Prop :=
  ∃ l cs r, us = l :: cs ++ [r] ∧ l.kind = .leftParen ∧ Expression cs c ∧ r.kind = .rightParen

theorem condition_breaks (hr : Reads expr Expression) (he : Breaks (Rows.of Expression) expr)
    (opening closing : Expected) :
    Breaks (Rows.of Condition) (condition expr opening closing) := by
  refine .expect (by decide) fun l hl => he.seq hr fun cs c hc => ?_
  refine .expect (by decide) fun r hclose => .pure (.of_row ⟨c, l, cs, r, by simp, hl, hc, hclose⟩) _

theorem ifStmt_breaks (hsr : ReadsBefore stmt (Settled inside))
    (hs : Breaks (Rows.ofBefore (Settled inside)) stmt) (hr : Reads expr Expression)
    (he : Breaks (Rows.of Expression) expr) (ht : t.kind = .ifWord) :
    Breaks ((Rows.ofBefore (Settled inside)).after [t]) (ifStmt t stmt expr) := by
  refine (condition_breaks hr he _ _).seq (Grammar.condition_reads hr _ _) ?_
  rintro _ c ⟨l, cs, r, rfl, hl, hc, hclose⟩
  refine hs.bind hsr (fun us next yes hyes => .of_row ?_) fun us next yes hyes u => ?_
  · refine ⟨.eof, .ifThen t c yes, ?_, fun _ => by decide⟩
    simpa using Statement.ifThen ht hl hc hclose (hyes.derived.before (.inr rfl))
  · refine .skip (fun hmark => .take (by rw [hmark]; decide) (Breaks.onToken ?_)) fun _ => .pure _
    refine hs.map hsr fun vs next' no hno => .of_row fun hnext => ?_
    -- the `else` stands behind the first branch, so that branch could not take it
    obtain rfl : Kind.elseWord = next := hmark ▸ hnext
    have hclosed : Grammar.endsOpen yes = false := by
      cases hopen : Grammar.endsOpen yes with
      | false => rfl
      | true => exact absurd rfl (hyes.closed hopen)
    refine ⟨next', .ifThenElse t c yes no, ?_, hno.closed⟩
    simpa using Statement.ifThenElse ht hl hc hclose hyes.derived hclosed hmark hno.derived

theorem whileLoop_breaks (hsr : ReadsBefore stmt (Settled inside))
    (hs : Breaks (Rows.ofBefore (Settled inside)) stmt) (hr : Reads expr Expression)
    (he : Breaks (Rows.of Expression) expr) (ht : t.kind = .whileWord) :
    Breaks ((Rows.ofBefore (Settled inside)).after [t]) (whileLoop t stmt expr) := by
  refine (condition_breaks hr he _ _).seq (Grammar.condition_reads hr _ _) ?_
  rintro _ c ⟨l, cs, r, rfl, hl, hc, hclose⟩
  refine hs.map hsr fun us next body hbody => .of_row ?_
  refine ⟨next, .whileLoop t c body, ?_, hbody.closed⟩
  simpa using Statement.whileLoop ht hl hc hclose hbody.derived

theorem returnStmt_breaks (hr : Reads expr Expression) (he : Breaks (Rows.of Expression) expr)
    (ht : t.kind = .returnWord) :
    Breaks ((Rows.ofBefore (Settled true)).after [t]) (returnStmt t true expr) := by
  simp only [returnStmt, Bool.not_true, Bool.false_eq_true, if_false]
  refine .atStatementEnd ?_ ?_
  · refine statementEnd_breaks.map Grammar.statementEnd_reads fun stop next _ hstop => .of_row ?_
    exact ⟨next, .returnStmt t none, .of_closed (Statement.returnBare ht hstop) rfl⟩
  · refine he.seq hr fun us v hv =>
      statementEnd_breaks.map Grammar.statementEnd_reads fun stop next _ hstop => .of_row ?_
    refine ⟨next, .returnStmt t (some v), .of_closed ?_ rfl⟩
    simpa using Statement.returnValue ht hv hstop

-- ============================================================================
-- Statements
-- ============================================================================

theorem statement_opens : (Rows.ofBefore (Settled inside)).Begins [] := by
  refine expression_opens.mono fun us ⟨e, h⟩ => ⟨[looseToken .semicolon ";"], .eof, .expression e, ?_⟩
  exact .of_closed (.expression h (.semicolon rfl)) rfl

theorem statementBody_breaks {statement : Bool → Parser Stmt}
    (hsr : ∀ b, ReadsBefore (statement b) (Settled b))
    (hs : ∀ b, Breaks (Rows.ofBefore (Settled b)) (statement b)) (hr : Reads expr Expression)
    (he : Breaks (Rows.of Expression) expr) :
    Breaks (Rows.ofBefore (Settled inside)) (statementBody inside statement expr) := by
  refine .current statement_opens fun t => ?_
  split
  · next ht => exact .take (by rw [ht]; decide) (letVar_breaks hr he ht).onToken
  · next ht => exact .take (by rw [ht]; decide) (function_breaks (hsr true) (hs true) ht inside).onToken
  · next ht =>
    exact .take (by rw [ht]; decide) (ifStmt_breaks (hsr inside) (hs inside) hr he ht).onToken
  · next ht =>
    exact .take (by rw [ht]; decide) (whileLoop_breaks (hsr inside) (hs inside) hr he ht).onToken
  · next ht =>
    cases inside with
    | true => exact .take (by rw [ht]; decide) (returnStmt_breaks hr he ht).onToken
    | false =>
      exact (BreaksAt.failAt statement_opens .returnInFunction).congr fun _ _ _ _ => rfl
  · next ht =>
    refine .take (by rw [ht]; decide) (Breaks.onToken ?_)
    refine (block_breaks (hsr inside) (hs inside)).seq (Grammar.block_reads (hsr inside)) ?_
    rintro _ body ⟨vs, close, rfl, hclose, hbody⟩
    refine .pure (.of_row ⟨.eof, .block t body, .of_closed ?_ rfl⟩) _
    simpa using Statement.block ht hbody hclose
  · refine Breaks.onToken (he.seq hr fun us e h => ?_) t
    refine statementEnd_breaks.map Grammar.statementEnd_reads fun stop next _ hstop => .of_row ?_
    exact ⟨next, .expression e, .of_closed (.expression h hstop) rfl⟩

theorem statement_breaks (inside : Bool) (room : Nat) :
    Breaks (Rows.ofBefore (Settled inside)) (statement inside room) := by
  induction room generalizing inside with
  | zero => exact .limited statement_opens fun ctx ts => ⟨_, rfl, trivial⟩
  | succ room ih =>
    rw [Grammar.statement_succ_eq]
    exact statementBody_breaks (fun b => Grammar.statement_reads b room) ih
      (Grammar.expression_reads room) (expression_breaks room)

theorem statementAtTop_breaks :
    Breaks (Rows.ofBefore (Settled false)) (maxNesting >>= statement false) :=
  .maxNesting fun limit => statement_breaks false limit

/-- Programs are read with the number of tokens as the bound. -/
theorem topLevel_breaks :
    Breaks (Rows.ofBefore (Statements false)) (remaining >>= topLevel) := by
  rw [show topLevel = series (· = .eof) _ from funext Grammar.topLevel_eq_series]
  exact wholeSeries_breaks Grammar.statementAtTop_reads rfl statementAtTop_breaks

end Lexiscope.Parser
