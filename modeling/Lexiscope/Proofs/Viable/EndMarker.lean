/-
  Lexiscope.Proofs.Viable.EndMarker

  The parser ends on every list of tokens, at the first end marker at the latest.

  A parser that meets an end marker among the tokens does what it does where the tokens
  are used up: it never takes the marker, so it does not see what stands behind it
  (`Parser.Heeds`). This is proved along the parser, one rule for each way to build one.
  So reading a whole list is reading the tokens before the first end marker. The loops
  over statements end because each statement takes a token, which is no end marker; what
  they give is what a loop without any bound comes to (`Parser.Repeats`).
-/
import Lexiscope.Proofs.Viable.Program

namespace Lexiscope

namespace Parser

open Grammar (EofFree Settled ReadsBefore series series_of_stop series_succ series_stopped bind_of_ok)

variable {α β : Type} {t : Token}

-- ============================================================================
-- Parsers that heed the end marker
-- ============================================================================

/-- The result with more tokens behind what is left. -/
def behind (more : List Token) :
    Except ParseError (α × List Token) → Except ParseError (α × List Token) :=
  Except.map fun r => (r.1, r.2 ++ more)

/-- With this current token it makes no difference to the parser whether the tokens are used up or
    an end marker is the next of them. -/
def HeedsAt (t : Token) (p : Parser α) : Prop :=
  ∀ ⦃ctx ts⦄ (more : List Token), ctx.eof.kind = .eof → ts.headD ctx.eof = t →
    p ctx (ts ++ ctx.eof :: more) = behind (ctx.eof :: more) (p ctx ts)

/-- It makes none with any current token. -/
def Heeds (p : Parser α) : Prop := ∀ t, HeedsAt t p

theorem headD_append_eof (ctx : ParseContext) (ts more : List Token) :
    (ts ++ ctx.eof :: more).headD ctx.eof = ts.headD ctx.eof := by
  cases ts <;> rfl

/-- A token that is no end marker is taken from the tokens in front of it. -/
theorem tail_append_eof {ctx : ParseContext} {ts : List Token} (heof : ctx.eof.kind = .eof)
    (hhead : (ts.headD ctx.eof).kind ≠ .eof) (more : List Token) :
    (ts ++ ctx.eof :: more).tail = ts.tail ++ ctx.eof :: more := by
  cases ts with
  | nil => exact absurd heof hhead
  | cons u ts => rfl

theorem HeedsAt.ite {c : Prop} [Decidable c] {p q : Parser α} (hyes : c → HeedsAt t p)
    (hno : ¬ c → HeedsAt t q) : HeedsAt t (if c then p else q) := by
  split
  · next h => exact hyes h
  · next h => exact hno h

theorem HeedsAt.bind {p : Parser α} {f : α → Parser β} (hp : HeedsAt t p)
    (hf : ∀ a, Heeds (f a)) : HeedsAt t (p >>= f) := by
  intro ctx ts more heof hhead
  show Parser.bind p f ctx _ = behind _ (Parser.bind p f ctx ts)
  unfold Parser.bind
  rw [hp more heof hhead]
  cases p ctx ts with
  | error e => rfl
  | ok r => exact hf r.1 _ more heof rfl

/-- The current token is looked at. -/
theorem HeedsAt.current {f : Token → Parser β} (hf : HeedsAt t (f t)) :
    HeedsAt t (Parser.current >>= f) := by
  intro ctx ts more heof hhead
  show f ((ts ++ ctx.eof :: more).headD ctx.eof) ctx _ = behind _ (f (ts.headD ctx.eof) ctx ts)
  rw [headD_append_eof, hhead]
  exact hf more heof hhead

/-- The current token is taken, which is no end marker. -/
theorem HeedsAt.take (ht : t.kind ≠ .eof) : HeedsAt t Parser.take := by
  intro ctx ts more heof hhead
  subst hhead
  rw [Parser.take, Parser.take, headD_append_eof, tail_append_eof heof ht]
  rfl

namespace Heeds

/-- A parser that does not take anything, and does not look further than at the current token. -/
theorem of_look {p : Parser α} (answer : ParseContext → Token → Except ParseError α)
    (h : ∀ ctx ts, p ctx ts = (answer ctx (ts.headD ctx.eof)).map fun a => (a, ts)) : Heeds p := by
  intro t ctx ts more _ _
  rw [h, h, headD_append_eof]
  cases answer ctx (ts.headD ctx.eof) <;> rfl

protected theorem pure (a : α) : Heeds (pure a) := of_look (fun _ _ => .ok a) fun _ _ => rfl

theorem failAt (t : Token) (x : Expected) : Heeds (Parser.failAt t x : Parser α) :=
  of_look (fun _ _ => .error (.unexpected x t)) fun _ _ => rfl

theorem fail (x : Expected) : Heeds (Parser.fail x : Parser α) :=
  of_look (fun _ t => .error (.unexpected x t)) fun _ _ => rfl

theorem tooDeep (t : Token) : Heeds (Parser.tooDeep t : Parser α) :=
  of_look (fun ctx _ => .error (.unexpected (.nesting ctx.maxNesting) t)) fun _ _ => rfl

theorem tooDeepHere : Heeds (Parser.tooDeepHere : Parser α) :=
  of_look (fun ctx t => .error (.unexpected (.nesting ctx.maxNesting) t)) fun _ _ => rfl

theorem rejectTarget (t : Token) (e : Expr) : Heeds (Parser.rejectTarget t e : Parser α) :=
  of_look (fun _ _ => .error (.badTarget t e)) fun _ _ => rfl

theorem at_ (kind : Kind) : Heeds (Parser.at_ kind) :=
  of_look (fun _ t => .ok (decide (t.kind = kind))) fun _ _ => rfl

theorem atStatementEnd : Heeds Parser.atStatementEnd :=
  of_look (fun _ t => .ok (t.kind = .semicolon || t.kind = .rightBrace || t.kind = .eof))
    fun _ _ => rfl

theorem maxNesting : Heeds Parser.maxNesting :=
  of_look (fun ctx _ => .ok ctx.maxNesting) fun _ _ => rfl

theorem ite {c : Prop} [Decidable c] {p q : Parser α} (hyes : c → Heeds p) (hno : ¬ c → Heeds q) :
    Heeds (if c then p else q) := fun t => .ite (fun h => hyes h t) fun h => hno h t

theorem bind {p : Parser α} {f : α → Parser β} (hp : Heeds p) (hf : ∀ a, Heeds (f a)) :
    Heeds (p >>= f) := fun t => .bind (hp t) hf

theorem current {f : Token → Parser β} (hf : ∀ t, HeedsAt t (f t)) : Heeds (Parser.current >>= f) :=
  fun t => .current (hf t)

theorem skip {kind : Kind} (hkind : kind ≠ .eof) : Heeds (Parser.skip kind) := by
  intro t ctx ts more heof _
  rw [Parser.skip, Parser.skip, headD_append_eof]
  split
  · next ht =>
    rw [tail_append_eof heof (ht ▸ hkind)]
    rfl
  · rfl

theorem expect {kind : Kind} (hkind : kind ≠ .eof) (x : Expected) :
    Heeds (Parser.expect kind x) := by
  intro t ctx ts more heof _
  rw [Parser.expect, Parser.expect, headD_append_eof]
  split
  · next ht =>
    rw [tail_append_eof heof (ht ▸ hkind)]
    rfl
  · rfl

theorem statementEnd : Heeds Parser.statementEnd := by
  refine .bind (.skip (by decide)) fun _ => .ite (fun _ => .pure ()) fun _ => ?_
  exact .bind .atStatementEnd fun _ => .ite (fun _ => .pure ()) fun _ => .fail _

end Heeds

-- ============================================================================
-- Expressions
-- ============================================================================

section Expressions

variable {expr operand : Parser Expr} {room : Nat}

theorem primary_heeds (he : Heeds expr) : Heeds (primary expr) := by
  refine .current fun t => ?_
  split
  · next ht =>
    refine .bind (.take (by rw [ht]; decide)) fun _ => ?_
    split
    · exact .pure _
    · exact .failAt t _
  · next ht =>
    refine .bind (.take (by rw [ht]; decide)) fun _ => ?_
    split
    · exact .pure _
    · exact .failAt t _
  · next ht => exact .bind (.take (by rw [ht]; decide)) fun _ => .pure _
  · next ht => exact .bind (.take (by rw [ht]; decide)) fun _ => .pure _
  · next ht => exact .bind (.take (by rw [ht]; decide)) fun _ => .pure _
  · next ht => exact .bind (.take (by rw [ht]; decide)) fun _ => .pure _
  · next ht =>
    refine .bind (.take (by rw [ht]; decide)) fun _ => .bind he fun e => ?_
    exact .bind (.expect (by decide) _) fun _ => .pure e
  · exact Heeds.fail _ t

theorem moreArguments_heeds (he : Heeds expr) (slots : Nat) : Heeds (moreArguments expr slots) := by
  induction slots with
  | zero => exact .bind (.skip (by decide)) fun _ => .ite (fun _ => .fail _) fun _ => .pure []
  | succ slots ih =>
    refine .bind (.skip (by decide)) fun _ => .ite (fun _ => ?_) fun _ => .pure []
    exact .bind he fun e => .bind ih fun rest => .pure (e :: rest)

theorem arguments_heed (he : Heeds expr) : Heeds (arguments expr) := by
  have hlist : Heeds (argumentList expr) := by
    refine .bind (.at_ _) fun _ => .ite (fun _ => .pure []) fun _ => ?_
    exact .bind he fun e => .bind (moreArguments_heeds he _) fun rest => .pure (e :: rest)
  exact .bind hlist fun args => .bind (.expect (by decide) _) fun _ => .pure args

theorem calls_heed (he : Heeds expr) (callee : Expr) : Heeds (calls expr room callee) := by
  induction room generalizing callee with
  | zero => exact .current fun t => .ite (fun _ => Heeds.tooDeep t t) fun _ => Heeds.pure _ t
  | succ room ih =>
    refine .current fun t => .ite (fun ht => ?_) fun _ => Heeds.pure _ t
    exact .bind (.take (by rw [ht]; decide)) fun _ => .bind (arguments_heed he) fun args => ih _

theorem unary_heeds (ho : Heeds operand) (he : Heeds expr) : Heeds (unary room operand expr) := by
  refine .current fun t => ?_
  split
  · next hop =>
    exact .bind (.take (Grammar.kind_ne_eof_of_unaryOp hop)) fun _ => .bind ho fun e => .pure _
  · exact Heeds.bind (primary_heeds he) (fun e => calls_heed he e) t

theorem chain_heeds {rung : List BinaryOp} {tighter : Parser Expr} (ht : Heeds tighter)
    (left : Expr) : Heeds (chain rung tighter room left) := by
  induction room generalizing left with
  | zero =>
    refine .current fun t => ?_
    split
    · exact Heeds.tooDeep t t
    · exact Heeds.pure left t
  | succ room ih =>
    refine .current fun t => ?_
    split
    · next hop =>
      refine .bind (.take (kind_ne_eof_of_operatorAt? hop)) fun _ => ?_
      exact .bind ht fun right => ih _
    · exact Heeds.pure left t

theorem binary_heeds (ho : Heeds operand) (rungs : List (List BinaryOp)) :
    Heeds (binary room operand rungs) := by
  induction rungs with
  | nil => exact ho
  | cons rung tighter ih => exact .bind ih fun first => chain_heeds ih first

theorem assignment_heeds (ho : Heeds operand) (he : Heeds expr) :
    Heeds (assignment room operand expr) := by
  refine .bind (binary_heeds (unary_heeds ho he) ladder) fun target => ?_
  refine .current fun t => .ite (fun ht => ?_) fun _ => Heeds.pure target t
  refine .bind (.take (by rw [ht]; decide)) fun _ => .bind he fun value => ?_
  split
  · exact .pure _
  · exact .rejectTarget t target

theorem operand_and_expression_heed (room : Nat) :
    Heeds (Parser.operand room) ∧ Heeds (expression room) := by
  induction room with
  | zero => exact ⟨.tooDeepHere, .tooDeepHere⟩
  | succ room ih => exact ⟨unary_heeds ih.1 ih.2, assignment_heeds ih.1 ih.2⟩

end Expressions

-- ============================================================================
-- Statements
-- ============================================================================

section Statements

variable {expr : Parser Expr} {stmt : Parser Stmt} {inside : Bool}

theorem letVar_heeds (he : Heeds expr) : Heeds (letVar expr) := by
  refine .bind (.expect (by decide) _) fun name => .bind (.skip (by decide)) fun _ => ?_
  refine .ite (fun _ => ?_) fun _ => .bind .statementEnd fun _ => .pure (Stmt.letVar name none)
  exact .bind he fun value => .bind .statementEnd fun _ => .pure (Stmt.letVar name (some value))

theorem parameters_heed (slots : Nat) (read : List Token) : Heeds (parameters slots read) := by
  induction slots generalizing read with
  | zero => exact .fail _
  | succ slots ih =>
    refine .bind (.expect (by decide) _) fun param => .ite (fun _ => .failAt param _) fun _ => ?_
    exact .bind (.skip (by decide)) fun _ => .ite (fun _ => ih _) fun _ => .pure _

theorem parameterList_heeds : Heeds parameterList :=
  .bind (.at_ _) fun _ => .ite (fun _ => .pure []) fun _ => parameters_heed _ _

theorem series_heeds {stop : Kind → Prop} [DecidablePred stop] (hs : Heeds stmt) (bound : Nat) :
    Heeds (series stop stmt bound) := by
  induction bound with
  | zero => exact .pure []
  | succ bound ih =>
    refine .current fun t => .ite (fun _ => Heeds.pure [] t) fun _ => ?_
    exact Heeds.bind hs (fun s => .bind ih fun rest => .pure (s :: rest)) t

/-- The end marker and what stands behind it only make the bound of a block larger than need be. -/
theorem wholeSeries_heeds {stop : Kind → Prop} [DecidablePred stop]
    (hr : ReadsBefore stmt (Settled inside)) (hstop : stop .eof) (hs : Heeds stmt) :
    Heeds (remaining >>= series stop stmt) := by
  intro t ctx ts more heof hhead
  show series stop stmt (ts ++ ctx.eof :: more).length ctx (ts ++ ctx.eof :: more) =
    behind _ (series stop stmt ts.length ctx ts)
  have hbound : ts.length ≤ (ts ++ ctx.eof :: more).length := by simp
  have hstopped := series_stopped hr hstop heof (Nat.le_refl ts.length)
  rw [series_heeds hs _ t more heof hhead, series_eq hr hstop heof hbound hstopped]

theorem block_heeds (hr : ReadsBefore stmt (Settled inside)) (hs : Heeds stmt) :
    Heeds (block stmt) := by
  rw [block_eq]
  refine .bind (wholeSeries_heeds hr (.inr rfl) hs) fun body => ?_
  exact .bind (.expect (by decide) _) fun _ => .pure body

theorem function_heeds (hr : ReadsBefore stmt (Settled inside)) (hs : Heeds stmt) :
    Heeds (function stmt) := by
  refine .bind (.expect (by decide) _) fun name => .bind (.expect (by decide) _) fun _ => ?_
  refine .bind parameterList_heeds fun params => .bind (.expect (by decide) _) fun _ => ?_
  refine .bind (.expect (by decide) _) fun _ => .bind (block_heeds hr hs) fun body => ?_
  exact .pure (Stmt.function 0 name params body)

theorem condition_heeds (he : Heeds expr) (opening closing : Expected) :
    Heeds (condition expr opening closing) :=
  .bind (.expect (by decide) _) fun _ => .bind he fun e =>
    .bind (.expect (by decide) _) fun _ => .pure e

theorem ifStmt_heeds (word : Token) (hs : Heeds stmt) (he : Heeds expr) :
    Heeds (ifStmt word stmt expr) := by
  refine .bind (condition_heeds he _ _) fun test => .bind hs fun yes => ?_
  refine .bind (.skip (by decide)) fun _ => .ite (fun _ => ?_) fun _ => .pure _
  exact .bind hs fun no => .pure (Stmt.ifThenElse word test yes no)

theorem whileLoop_heeds (word : Token) (hs : Heeds stmt) (he : Heeds expr) :
    Heeds (whileLoop word stmt expr) :=
  .bind (condition_heeds he _ _) fun test => .bind hs fun body =>
    .pure (Stmt.whileLoop word test body)

theorem returnStmt_heeds (word : Token) (inFunction : Bool) (he : Heeds expr) :
    Heeds (returnStmt word inFunction expr) := by
  refine .ite (fun _ => .failAt word _) fun _ => .bind .atStatementEnd fun _ => ?_
  refine .ite (fun _ => .bind .statementEnd fun _ => .pure (Stmt.returnStmt word none)) fun _ => ?_
  exact .bind he fun value => .bind .statementEnd fun _ =>
    .pure (Stmt.returnStmt word (some value))

theorem statementBody_heeds (inFunction : Bool) {statement : Bool → Parser Stmt}
    (hr : ∀ b, ReadsBefore (statement b) (Settled b)) (hs : ∀ b, Heeds (statement b))
    (he : Heeds expr) : Heeds (statementBody inFunction statement expr) := by
  refine .current fun t => ?_
  split
  · next ht => exact .bind (.take (by rw [ht]; decide)) fun _ => letVar_heeds he
  · next ht =>
    exact .bind (.take (by rw [ht]; decide)) fun _ => function_heeds (hr true) (hs true)
  · next ht => exact .bind (.take (by rw [ht]; decide)) fun _ => ifStmt_heeds t (hs inFunction) he
  · next ht =>
    exact .bind (.take (by rw [ht]; decide)) fun _ => whileLoop_heeds t (hs inFunction) he
  · next ht => exact .bind (.take (by rw [ht]; decide)) fun _ => returnStmt_heeds t inFunction he
  · next ht =>
    refine .bind (.take (by rw [ht]; decide)) fun _ => ?_
    exact .bind (block_heeds (hr inFunction) (hs inFunction)) fun body => .pure (Stmt.block t body)
  · exact Heeds.bind he (fun e => .bind .statementEnd fun _ => .pure (Stmt.expression e)) t

theorem statement_heeds (inFunction : Bool) (room : Nat) : Heeds (statement inFunction room) := by
  induction room generalizing inFunction with
  | zero => exact .tooDeepHere
  | succ room ih =>
    rw [Grammar.statement_succ_eq]
    exact statementBody_heeds inFunction (fun b => Grammar.statement_reads b room) ih
      (operand_and_expression_heed room).2

theorem statementAtTop_heeds : Heeds (Parser.maxNesting >>= statement false) :=
  .bind .maxNesting fun limit => statement_heeds false limit

end Statements

-- ============================================================================
-- Loops without a bound
-- ============================================================================

/-- What a loop over statements comes to that goes on until a token stops it. -/
inductive Repeats (stop : Kind → Prop) (stmt : Parser Stmt) (ctx : ParseContext) :
    List Token → Except ParseError (List Stmt × List Token) → Prop where
  | stops {ts : List Token} (h : stop (ts.headD ctx.eof).kind) :
      Repeats stop stmt ctx ts (.ok ([], ts))
  | fails {ts : List Token} {e : ParseError} (h : ¬ stop (ts.headD ctx.eof).kind)
      (hfirst : stmt ctx ts = .error e) : Repeats stop stmt ctx ts (.error e)
  | goesOn {ts mid : List Token} {s : Stmt} {r : Except ParseError (List Stmt × List Token)}
      (h : ¬ stop (ts.headD ctx.eof).kind) (hfirst : stmt ctx ts = .ok (s, mid))
      (hrest : Repeats stop stmt ctx mid r) :
      Repeats stop stmt ctx ts (r.map fun more => (s :: more.1, more.2))

section Loops

variable {stop : Kind → Prop} {stmt : Parser Stmt} {inside : Bool} {ctx : ParseContext}
  {ts : List Token}

/-- The loop comes to one thing at most. -/
theorem Repeats.unique {r r' : Except ParseError (List Stmt × List Token)}
    (h : Repeats stop stmt ctx ts r) (h' : Repeats stop stmt ctx ts r') : r = r' := by
  induction h generalizing r' with
  | stops hstop =>
    cases h' with
    | stops => rfl
    | fails hgoes | goesOn hgoes => exact absurd hstop hgoes
  | fails hgoes hfirst =>
    cases h' with
    | stops hstop => exact absurd hstop hgoes
    | fails _ hfirst' => exact congrArg Except.error (Except.error.inj (hfirst.symm.trans hfirst'))
    | goesOn _ hfirst' => exact nomatch hfirst.symm.trans hfirst'
  | goesOn hgoes hfirst _ ih =>
    cases h' with
    | stops hstop => exact absurd hstop hgoes
    | fails _ hfirst' => exact nomatch hfirst.symm.trans hfirst'
    | goesOn _ hfirst' hrest' =>
      obtain ⟨rfl, rfl⟩ := Prod.mk.inj (Except.ok.inj (hfirst.symm.trans hfirst'))
      rw [ih hrest']

theorem bind_pure_apply (p : Parser α) (g : α → β) (ctx : ParseContext) (ts : List Token) :
    (p >>= fun a => pure (g a)) ctx ts = (p ctx ts).map fun r => (g r.1, r.2) := by
  show Parser.bind p _ ctx ts = _
  unfold Parser.bind
  cases p ctx ts <;> rfl

/-- The loop ends, with what a bound gives that is at least the number of tokens. -/
theorem repeats_series [DecidablePred stop] (hr : ReadsBefore stmt (Settled inside))
    (hstop : stop .eof) (heof : ctx.eof.kind = .eof) {bound : Nat} (hbound : ts.length ≤ bound) :
    Repeats stop stmt ctx ts (series stop stmt bound ctx ts) := by
  induction bound generalizing ts with
  | zero =>
    obtain rfl := List.eq_nil_of_length_eq_zero (Nat.le_zero.mp hbound)
    exact .stops (show stop ctx.eof.kind from heof ▸ hstop)
  | succ bound ih =>
    by_cases hhead : stop (ts.headD ctx.eof).kind
    · rw [series_of_stop hhead]
      exact .stops hhead
    · rw [series_succ bound hhead]
      show Repeats stop stmt ctx ts (Parser.bind stmt _ ctx ts)
      cases hfirst : stmt ctx ts with
      | error e =>
        simp only [Parser.bind, hfirst]
        exact .fails hhead hfirst
      | ok r =>
        obtain ⟨s, mid⟩ := r
        obtain ⟨us, rfl, hd⟩ := hr heof hfirst
        have hpos := hd.derived.starts.length_pos
        rw [List.length_append] at hbound
        simp only [Parser.bind, hfirst]
        rw [bind_pure_apply]
        exact .goesOn hhead hfirst (ih (by omega))

/-- So this is what the loop comes to, with any such bound. -/
theorem repeats_iff [DecidablePred stop] (hr : ReadsBefore stmt (Settled inside))
    (hstop : stop .eof) (heof : ctx.eof.kind = .eof) {bound : Nat} (hbound : ts.length ≤ bound)
    {r : Except ParseError (List Stmt × List Token)} :
    Repeats stop stmt ctx ts r ↔ r = series stop stmt bound ctx ts := by
  have hends := repeats_series hr hstop heof hbound
  exact ⟨fun h => h.unique hends, fun h => h ▸ hends⟩

end Loops

end Parser

open Grammar (EofFree)

-- ============================================================================
-- Up to the first end marker
-- ============================================================================

/-- The tokens up to and with the first end marker. -/
def upToEof (tokens : List Token) : List Token :=
  beforeEof tokens ++ (tokens.find? fun t => t.kind = .eof).toList

/-- There is a first end marker, or there is none. -/
theorem eofFree_or_first (tokens : List Token) :
    EofFree tokens ∨
      ∃ body eof more, tokens = body ++ eof :: more ∧ EofFree body ∧ eof.kind = .eof := by
  cases hfound : tokens.find? fun t => t.kind = .eof with
  | none => exact .inl fun t ht => by simpa using List.find?_eq_none.mp hfound t ht
  | some eof =>
    obtain ⟨heof, body, more, htokens, hbody⟩ := List.find?_eq_some_iff_append.mp hfound
    have hfree : EofFree body := fun t ht => by simpa using hbody t ht
    exact .inr ⟨body, eof, more, htokens, hfree, by simpa using heof⟩

section

variable {body : List Token} {eof : Token}

theorem find?_eof_of_eofFree (h : EofFree body) : body.find? (fun t => t.kind = .eof) = none :=
  List.find?_eq_none.mpr fun t ht => by simpa using h t ht

theorem beforeEof_of_eofFree (h : EofFree body) : beforeEof body = body :=
  List.takeWhile_eq_self_iff.mpr fun t ht => decide_eq_true (h t ht)

theorem beforeEof_first (hbody : EofFree body) (heof : eof.kind = .eof) (more : List Token) :
    beforeEof (body ++ eof :: more) = body := by
  rw [Program.beforeEof_append_of_eofFree hbody, beforeEof,
    List.takeWhile_cons_of_neg (by simpa using heof), List.append_nil]

theorem eofOf_first (hbody : EofFree body) (heof : eof.kind = .eof) (more : List Token) :
    eofOf (body ++ eof :: more) = eof := by
  simp [eofOf, List.find?_append, find?_eof_of_eofFree hbody, heof]

/-- What stands behind the first end marker does not matter. -/
theorem Program.parse_first (hbody : EofFree body) (heof : eof.kind = .eof) (more : List Token)
    (limit : Nat) :
    Program.parse (body ++ eof :: more) limit = Program.parse (body ++ [eof]) limit := by
  rw [Program.parse, Program.parse, beforeEof_first hbody heof, beforeEof_first hbody heof,
    eofOf_first hbody heof, eofOf_first hbody heof]

/-- Tokens are read as they are up to the first end marker. -/
theorem Program.parse_upToEof (tokens : List Token) (limit : Nat) :
    Program.parse (upToEof tokens) limit = Program.parse tokens limit := by
  obtain hfree | ⟨body, eof, more, rfl, hbody, heof⟩ := eofFree_or_first tokens
  · rw [upToEof, find?_eof_of_eofFree hfree, beforeEof_of_eofFree hfree, Option.toList_none,
      List.append_nil]
  · have hfound : (body ++ eof :: more).find? (fun t => t.kind = .eof) = some eof := by
      simp [List.find?_append, find?_eof_of_eofFree hbody, heof]
    rw [upToEof, beforeEof_first hbody heof, hfound, Option.toList_some,
      Program.parse_first hbody heof more]

/-- Where an end marker is missing, it stands behind the last token. -/
theorem Program.parse_append_eof (hbody : EofFree body) (limit : Nat) :
    Program.parse (body ++ [eofOf body]) limit = Program.parse body limit := by
  have heof := Grammar.kind_eofOf body
  rw [Program.parse, Program.parse, beforeEof_first hbody heof, eofOf_first hbody heof,
    beforeEof_of_eofFree hbody]

/-- With at least as large a bound as there are tokens, the tokens before the end marker are read as
    a program is. -/
theorem topLevel_of_eofFree (hbody : EofFree body) (heof : eof.kind = .eof) {limit bound : Nat}
    (hbound : body.length ≤ bound) :
    Parser.topLevel bound ⟨eof, limit⟩ body =
      (Program.parse (body ++ [eof]) limit).map fun p => (p.statements, []) := by
  have hsame : Parser.topLevel bound ⟨eof, limit⟩ body =
      Parser.topLevel body.length ⟨eof, limit⟩ body := by
    rw [Grammar.topLevel_eq_series, Grammar.topLevel_eq_series]
    have hstopped : Grammar.Stopped (· = .eof) ⟨eof, limit⟩
        (Grammar.series (· = .eof) _ body.length ⟨eof, limit⟩ body) :=
      Grammar.series_stopped Grammar.statementAtTop_reads (by rfl) heof (Nat.le_refl _)
    exact Parser.series_eq Grammar.statementAtTop_reads (by rfl) heof hbound hstopped
  rw [hsame, Program.parse, beforeEof_first hbody heof, eofOf_first hbody heof]
  cases hread : Parser.topLevel body.length ⟨eof, limit⟩ body with
  | error e => rfl
  | ok r =>
    obtain ⟨ss, rest⟩ := r
    obtain ⟨rfl, -⟩ := Grammar.topLevel_read heof hbody (Nat.le_refl _) hread
    rfl

/-- The whole list is read as a program is, up to the first end marker. -/
theorem topLevel_whole (tokens : List Token) {limit bound : Nat} (hbound : tokens.length ≤ bound) :
    Parser.topLevel bound ⟨eofOf tokens, limit⟩ tokens =
      (Program.parse tokens limit).map fun p =>
        (p.statements, tokens.dropWhile fun t => t.kind ≠ .eof) := by
  obtain hfree | ⟨body, eof, more, rfl, hbody, heof⟩ := eofFree_or_first tokens
  · have hdrop : tokens.dropWhile (fun t => t.kind ≠ .eof) = [] :=
      List.dropWhile_eq_nil_iff.mpr fun t ht => decide_eq_true (hfree t ht)
    rw [hdrop, topLevel_of_eofFree hfree (Grammar.kind_eofOf tokens) hbound,
      Program.parse_append_eof hfree]
  · have hdrop : (body ++ eof :: more).dropWhile (fun t => t.kind ≠ .eof) = eof :: more := by
      rw [List.dropWhile_append_of_pos fun t ht => decide_eq_true (hbody t ht),
        List.dropWhile_cons_of_neg (by simpa using heof)]
    have hle : body.length ≤ bound := by
      rw [List.length_append] at hbound
      omega
    have hheeds : Parser.Heeds (Parser.topLevel bound) := by
      rw [Grammar.topLevel_eq_series]
      exact Parser.series_heeds Parser.statementAtTop_heeds bound
    have hread : Parser.topLevel bound ⟨eof, limit⟩ (body ++ eof :: more) =
        Parser.behind (eof :: more) (Parser.topLevel bound ⟨eof, limit⟩ body) :=
      hheeds _ more heof rfl
    rw [hdrop, Program.parse_first hbody heof, eofOf_first hbody heof, hread,
      topLevel_of_eofFree hbody heof hle]
    cases Program.parse (body ++ [eof]) limit <;> rfl

end

-- ============================================================================
-- Progress
-- ============================================================================

/-- The parser takes tokens, and none of them is an end marker. -/
def Parser.Advances {α : Type} (p : Parser α) : Prop :=
  ∀ ⦃ctx ts a rest⦄, ctx.eof.kind = .eof → p ctx ts = .ok (a, rest) →
    ∃ us, ts = us ++ rest ∧ us ≠ [] ∧ EofFree us

theorem Parser.expression_advances (room : Nat) : (Parser.expression room).Advances := by
  intro ctx ts e rest heof hread
  obtain ⟨us, hts, h⟩ := Grammar.expression_reads room heof hread
  exact ⟨us, hts, List.ne_nil_of_length_pos h.starts.length_pos, h.eofFree⟩

theorem Parser.statement_advances (inside : Bool) (room : Nat) :
    (Parser.statement inside room).Advances := by
  intro ctx ts s rest heof hread
  obtain ⟨us, hts, h⟩ := Grammar.statement_reads inside room heof hread
  exact ⟨us, hts, List.ne_nil_of_length_pos h.derived.starts.length_pos, h.derived.eofFree⟩

-- ============================================================================
-- Every list of tokens
-- ============================================================================

/-- The parser ends on every list of tokens, and looks no further than at the first end marker. The
    loop over the statements of a program comes to what the program is read as, and leaves the first
    end marker and what stands behind it; the loop over those of a block comes to what is read with
    the number of tokens as the bound. Tokens without an end marker are read as if one stood behind
    the last of them. And a statement or an expression that is read takes a token, but no end
    marker. -/
theorem parse_stops_at_eof (tokens : List Token) (limit : Nat) :
    (∀ r, Parser.Repeats (· = .eof) (Parser.maxNesting >>= Parser.statement false)
        ⟨eofOf tokens, limit⟩ tokens r ↔
      r = (Program.parse tokens limit).map fun p =>
        (p.statements, tokens.dropWhile fun t => t.kind ≠ .eof)) ∧
    (∀ (inside : Bool) (room : Nat) (ctx : ParseContext) (ts : List Token) (bound : Nat),
      ctx.eof.kind = .eof → ts.length ≤ bound →
        ∀ r, Parser.Repeats (fun kind => kind = .rightBrace ∨ kind = .eof)
            (Parser.statement inside room) ctx ts r ↔
          r = Parser.statements (Parser.statement inside room) bound ctx ts) ∧
    (∀ others, upToEof others = upToEof tokens →
      Program.parse others limit = Program.parse tokens limit) ∧
    ((∀ t ∈ tokens, t.kind ≠ .eof) → ∀ p, p = (tokens.getLast?.map Token.stop).getD ⟨1, 1⟩ →
      Program.parse tokens limit = Program.parse (tokens ++ [⟨.eof, "", p, p⟩]) limit) ∧
    ∀ room, (Parser.expression room).Advances ∧ ∀ inside, (Parser.statement inside room).Advances := by
  refine ⟨?_, ?_, ?_, ?_, ?_⟩
  · intro r
    rw [← topLevel_whole tokens (Nat.le_refl _), Grammar.topLevel_eq_series]
    exact Parser.repeats_iff Grammar.statementAtTop_reads (by rfl) (Grammar.kind_eofOf tokens)
      (Nat.le_refl _)
  · intro inside room ctx ts bound heof hbound r
    rw [Grammar.statements_eq_series]
    exact Parser.repeats_iff (Grammar.statement_reads inside room) (.inr rfl) heof hbound
  · intro others hsame
    rw [← Program.parse_upToEof others, hsame, Program.parse_upToEof]
  · rintro hfree p rfl
    have heof : eofOf tokens = ⟨.eof, "", (tokens.getLast?.map Token.stop).getD ⟨1, 1⟩,
        (tokens.getLast?.map Token.stop).getD ⟨1, 1⟩⟩ := by
      rw [eofOf, find?_eof_of_eofFree hfree]
      rfl
    rw [← heof, Program.parse_append_eof hfree]
  · exact fun room => ⟨Parser.expression_advances room, fun inside =>
      Parser.statement_advances inside room⟩

/-- Behind a name an end marker hides a parenthesis that cannot stand there, and is not missed. -/
theorem parse_stops_at_eof_hidden :
    let name : Token := ⟨.identifier, "x", ⟨1, 1⟩, ⟨1, 2⟩⟩
    let eof : Token := ⟨.eof, "", ⟨1, 2⟩, ⟨1, 2⟩⟩
    Program.parse [name, eof, ⟨.rightParen, ")", ⟨1, 3⟩, ⟨1, 4⟩⟩] 20 = Program.parse [name] 20 ∧
      Program.parse [name] 20 = .ok ⟨[.expression (.identifier name)]⟩ := by
  intro name eof
  obtain ⟨-, -, hhidden, -, -⟩ := parse_stops_at_eof [name, eof] 20
  obtain ⟨-, -, -, hmissing, -⟩ := parse_stops_at_eof [name] 20
  have hfree : ∀ t ∈ [name], t.kind ≠ .eof := by decide
  exact ⟨(hhidden _ rfl).trans (hmissing hfree _ rfl).symm, rfl⟩

end Lexiscope
