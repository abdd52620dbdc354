/-
  Lexiscope.Proofs.Nesting.Filter

  The nesting limit only filters.

  How much room is left plays no part in a parse until there is none. So with more
  room a parser ends in the same way, unless it ended at the limit with less
  (`Parser.Filtered`). It then did so at a token that could still be read: at the end
  marker a parser with more room finds nothing to read either. Both are said by one
  relation between parsers (`Parser.Filters`), which is proved along the parser for two
  amounts of room.
-/
import Lexiscope.Proofs.Grammar.Completeness
import Lexiscope.Proofs.Grammar.WellFormed
import Lexiscope.Proofs.Provenance.Parse

namespace Lexiscope

namespace Parser

variable {α β : Type}

-- ============================================================================
-- Parsers that find nothing at the end
-- ============================================================================

/-- Where the current token is an end marker, the parser fails. -/
def FailsAtEnd (p : Parser α) : Prop :=
  ∀ ⦃ctx ts⦄, ctx.eof.kind = .eof → (ts.headD ctx.eof).kind = .eof → ∃ e, p ctx ts = .error e

/-- A parser that takes a token which begins statements does not take an end marker. -/
theorem FailsAtEnd.of_reads {p : Parser α} {R : List Token → Kind → α → Prop}
    (hp : Grammar.ReadsBefore p R)
    (hstarts : ∀ us next a, R us next a → Grammar.StartsWith Grammar.startsStatement us) :
    p.FailsAtEnd := by
  intro ctx ts heof hend
  cases hread : p ctx ts with
  | error e => exact ⟨e, rfl⟩
  | ok r =>
    obtain ⟨us, rfl, h⟩ := hp heof hread
    obtain ⟨t, vs, rfl, ht⟩ := hstarts _ _ _ h
    rw [List.cons_append, List.headD_cons] at hend
    rw [hend] at ht
    cases ht

theorem operand_failsAtEnd (room : Nat) : (operand room).FailsAtEnd :=
  .of_reads (Grammar.operand_and_expression_read room).1 fun _ _ _ h =>
    h.starts.mono Grammar.startsStatement_of_startsExpression

theorem expression_failsAtEnd (room : Nat) : (expression room).FailsAtEnd :=
  .of_reads (Grammar.expression_reads room) fun _ _ _ h =>
    h.starts.mono Grammar.startsStatement_of_startsExpression

theorem statement_failsAtEnd (inFunction : Bool) (room : Nat) :
    (statement inFunction room).FailsAtEnd :=
  .of_reads (Grammar.statement_reads inFunction room) fun _ _ _ h => h.derived.starts

-- ============================================================================
-- Parsers with more room
-- ============================================================================

/-- How a parse under a limit ends, beside one with more room: alike, or at the limit; and if this
    is at an end marker, the other one fails as well. -/
inductive Filtered (limit : Nat) :
    Except ParseError (α × List Token) → Except ParseError (α × List Token) → Prop where
  | same (r : Except ParseError (α × List Token)) : Filtered limit r r
  | cut {t : Token} {r : Except ParseError (α × List Token)}
      (h : t.kind = .eof → ∃ e, r = .error e) :
      Filtered limit (.error (.unexpected (.nesting limit) t)) r

/-- The first parser ends like the second under a limit that is no lower, or else at its own
    limit. -/
def Filters (p q : Parser α) : Prop :=
  ∀ ⦃eof limit limit' ts⦄, eof.kind = .eof → limit ≤ limit' →
    Filtered limit (p ⟨eof, limit⟩ ts) (q ⟨eof, limit'⟩ ts)

namespace Filters

/-- A parser that does not ask for the limit. -/
theorem of_blind {p : Parser α}
    (h : ∀ eof limit limit' ts, p ⟨eof, limit⟩ ts = p ⟨eof, limit'⟩ ts) : Filters p p := by
  intro eof limit limit' ts _ _
  rw [h eof limit limit' ts]
  exact .same _

protected theorem pure (a : α) : Filters (pure a) (pure a) := of_blind fun _ _ _ _ => rfl

protected theorem bind {p q : Parser α} {f g : α → Parser β} (hpq : Filters p q)
    (hfg : ∀ a, Filters (f a) (g a)) : Filters (p >>= f) (q >>= g) := by
  intro eof limit limit' ts heof hle
  show Filtered limit (Parser.bind p f _ ts) (Parser.bind q g _ ts)
  have hfirst : Filtered limit (p ⟨eof, limit⟩ ts) (q ⟨eof, limit'⟩ ts) := hpq heof hle
  unfold Parser.bind
  generalize p ⟨eof, limit⟩ ts = x, q ⟨eof, limit'⟩ ts = y at hfirst ⊢
  cases hfirst with
  | same =>
    cases x with
    | error e => exact .same _
    | ok r => exact hfg r.1 heof hle
  | cut h =>
    refine .cut fun hend => ?_
    obtain ⟨e, rfl⟩ := h hend
    exact ⟨e, rfl⟩

theorem ite {c : Prop} [Decidable c] {p q p' q' : Parser α} (hyes : c → Filters p q)
    (hno : ¬ c → Filters p' q') : Filters (if c then p else p') (if c then q else q') := by
  split
  · next h => exact hyes h
  · next h => exact hno h

theorem current : Filters Parser.current Parser.current := of_blind fun _ _ _ _ => rfl

theorem remaining : Filters Parser.remaining Parser.remaining := of_blind fun _ _ _ _ => rfl

theorem take : Filters Parser.take Parser.take := of_blind fun _ _ _ _ => rfl

theorem failAt (t : Token) (x : Expected) :
    Filters (Parser.failAt t x : Parser α) (Parser.failAt t x) := of_blind fun _ _ _ _ => rfl

theorem fail (x : Expected) : Filters (Parser.fail x : Parser α) (Parser.fail x) :=
  of_blind fun _ _ _ _ => rfl

theorem rejectTarget (t : Token) (e : Expr) :
    Filters (Parser.rejectTarget t e : Parser α) (Parser.rejectTarget t e) :=
  of_blind fun _ _ _ _ => rfl

theorem at_ (kind : Kind) : Filters (Parser.at_ kind) (Parser.at_ kind) :=
  of_blind fun _ _ _ _ => rfl

theorem atStatementEnd : Filters Parser.atStatementEnd Parser.atStatementEnd :=
  of_blind fun _ _ _ _ => rfl

theorem skip (kind : Kind) : Filters (Parser.skip kind) (Parser.skip kind) :=
  of_blind fun _ _ _ _ => rfl

theorem expect (kind : Kind) (x : Expected) :
    Filters (Parser.expect kind x) (Parser.expect kind x) := of_blind fun _ _ _ _ => rfl

theorem statementEnd : Filters Parser.statementEnd Parser.statementEnd := by
  refine .bind (.skip _) fun _ => .ite (fun _ => .pure ()) fun _ => ?_
  exact .bind .atStatementEnd fun _ => .ite (fun _ => .pure ()) fun _ => .fail _

/-- Too deep at a token that could be read. -/
theorem tooDeep {t : Token} (ht : t.kind ≠ .eof) (q : Parser α) :
    Filters (Parser.tooDeep t) q :=
  fun _ _ _ _ _ _ => .cut fun hend => absurd hend ht

/-- Too deep where a parser with more room would go on. -/
theorem tooDeepHere {q : Parser α} (hq : q.FailsAtEnd) : Filters Parser.tooDeepHere q :=
  fun _ _ _ _ heof _ => .cut fun hend => hq heof hend

end Filters

-- ============================================================================
-- Expressions
-- ============================================================================

section Expressions

variable {expr expr' operand operand' : Parser Expr} {room room' : Nat}

theorem primary_filters (he : Filters expr expr') : Filters (primary expr) (primary expr') := by
  refine .bind .current fun t => ?_
  split
  · refine .bind .take fun _ => ?_
    split
    · exact .pure _
    · exact .failAt t _
  · refine .bind .take fun _ => ?_
    split
    · exact .pure _
    · exact .failAt t _
  · exact .bind .take fun _ => .pure _
  · exact .bind .take fun _ => .pure _
  · exact .bind .take fun _ => .pure _
  · exact .bind .take fun _ => .pure _
  · exact .bind .take fun _ => .bind he fun e => .bind (.expect _ _) fun _ => .pure e
  · exact .fail _

theorem moreArguments_filters (he : Filters expr expr') (slots : Nat) :
    Filters (moreArguments expr slots) (moreArguments expr' slots) := by
  induction slots with
  | zero => exact .bind (.skip _) fun _ => .ite (fun _ => .fail _) fun _ => .pure []
  | succ slots ih =>
    refine .bind (.skip _) fun _ => .ite (fun _ => ?_) fun _ => .pure []
    exact .bind he fun e => .bind ih fun rest => .pure (e :: rest)

theorem arguments_filters (he : Filters expr expr') :
    Filters (arguments expr) (arguments expr') := by
  have hlist : Filters (argumentList expr) (argumentList expr') := by
    refine .bind (.at_ _) fun _ => .ite (fun _ => .pure []) fun _ => ?_
    exact .bind he fun e => .bind (moreArguments_filters he _) fun rest => .pure (e :: rest)
  exact .bind hlist fun args => .bind (.expect _ _) fun _ => .pure args

theorem calls_filter (he : Filters expr expr') (hle : room ≤ room') (callee : Expr) :
    Filters (calls expr room callee) (calls expr' room' callee) := by
  have hdeep : ∀ {t : Token}, t.kind = .leftParen → t.kind ≠ .eof := by
    intro t ht
    rw [ht]
    decide
  induction room generalizing room' callee with
  | zero =>
    cases room' with
    | zero => exact .bind .current fun t => .ite (fun ht => .tooDeep (hdeep ht) _) fun _ => .pure _
    | succ room' =>
      exact .bind .current fun t => .ite (fun ht => .tooDeep (hdeep ht) _) fun _ => .pure _
  | succ room ih =>
    obtain ⟨room', rfl⟩ : ∃ more, room' = more + 1 := ⟨room' - 1, by omega⟩
    refine .bind .current fun t => .ite (fun _ => ?_) fun _ => .pure _
    refine .bind .take fun _ => .bind (arguments_filters he) fun args => ?_
    exact ih (Nat.le_of_succ_le_succ hle) _

theorem unary_filters (ho : Filters operand operand') (he : Filters expr expr')
    (hle : room ≤ room') : Filters (unary room operand expr) (unary room' operand' expr') := by
  refine .bind .current fun t => ?_
  split
  · next op _ => exact .bind .take fun _ => .bind ho fun e => .pure (Expr.unary op t e)
  · exact .bind (primary_filters he) fun e => calls_filter he hle e

theorem kind_ne_eof_of_operatorAt? {rung : List BinaryOp} {t : Token} {op : BinaryOp}
    (h : operatorAt? rung t = some op) : t.kind ≠ .eof :=
  Grammar.kind_ne_eof_of_binaryOp (Option.filter_eq_some_iff.mp h).1

theorem chain_filters {rung : List BinaryOp} {tighter tighter' : Parser Expr}
    (ht : Filters tighter tighter') (hle : room ≤ room') (left : Expr) :
    Filters (chain rung tighter room left) (chain rung tighter' room' left) := by
  induction room generalizing room' left with
  | zero =>
    cases room' with
    | zero =>
      refine .bind .current fun t => ?_
      cases hop : operatorAt? rung t with
      | some op => exact .tooDeep (kind_ne_eof_of_operatorAt? hop) _
      | none => exact .pure left
    | succ room' =>
      refine .bind .current fun t => ?_
      cases hop : operatorAt? rung t with
      | some op => exact .tooDeep (kind_ne_eof_of_operatorAt? hop) _
      | none => exact .pure left
  | succ room ih =>
    obtain ⟨room', rfl⟩ : ∃ more, room' = more + 1 := ⟨room' - 1, by omega⟩
    refine .bind .current fun t => ?_
    split
    · exact .bind .take fun _ => .bind ht fun right => ih (Nat.le_of_succ_le_succ hle) _
    · exact .pure left

theorem binary_filters (ho : Filters operand operand') (hle : room ≤ room')
    (rungs : List (List BinaryOp)) :
    Filters (binary room operand rungs) (binary room' operand' rungs) := by
  induction rungs with
  | nil => exact ho
  | cons rung tighter ih => exact .bind ih fun first => chain_filters ih hle first

theorem assignment_filters (ho : Filters operand operand') (he : Filters expr expr')
    (hle : room ≤ room') :
    Filters (assignment room operand expr) (assignment room' operand' expr') := by
  refine .bind (binary_filters (unary_filters ho he hle) hle ladder) fun target => ?_
  refine .bind .current fun t => .ite (fun _ => ?_) fun _ => .pure target
  refine .bind .take fun _ => .bind he fun value => ?_
  split
  · next name => exact .pure (Expr.assign name value)
  · exact .rejectTarget t target

theorem operand_and_expression_filter (hle : room ≤ room') :
    Filters (Parser.operand room) (Parser.operand room') ∧
      Filters (expression room) (expression room') := by
  induction room generalizing room' with
  | zero =>
    exact ⟨.tooDeepHere (operand_failsAtEnd room'), .tooDeepHere (expression_failsAtEnd room')⟩
  | succ room ih =>
    obtain ⟨room', rfl⟩ : ∃ more, room' = more + 1 := ⟨room' - 1, by omega⟩
    have hle' := Nat.le_of_succ_le_succ hle
    obtain ⟨ho, he⟩ := ih hle'
    exact ⟨unary_filters ho he hle', assignment_filters ho he hle'⟩

theorem expression_filters (hle : room ≤ room') : Filters (expression room) (expression room') :=
  (operand_and_expression_filter hle).2

end Expressions

-- ============================================================================
-- Statements
-- ============================================================================

section Statements

variable {expr expr' : Parser Expr} {stmt stmt' : Parser Stmt} {room room' : Nat}

theorem letVar_filters (he : Filters expr expr') : Filters (letVar expr) (letVar expr') := by
  refine .bind (.expect _ _) fun name => .bind (.skip _) fun _ => .ite (fun _ => ?_) fun _ => ?_
  · exact .bind he fun value => .bind .statementEnd fun _ => .pure (Stmt.letVar name (some value))
  · exact .bind .statementEnd fun _ => .pure (Stmt.letVar name none)

theorem parameters_filter (slots : Nat) (read : List Token) :
    Filters (parameters slots read) (parameters slots read) := by
  induction slots generalizing read with
  | zero => exact .fail _
  | succ slots ih =>
    refine .bind (.expect _ _) fun param => .ite (fun _ => .failAt param _) fun _ => ?_
    exact .bind (.skip _) fun _ => .ite (fun _ => ih _) fun _ => .pure _

theorem parameterList_filters : Filters parameterList parameterList :=
  .bind (.at_ _) fun _ => .ite (fun _ => .pure []) fun _ => parameters_filter _ _

theorem statements_filter (hs : Filters stmt stmt') (bound : Nat) :
    Filters (statements stmt bound) (statements stmt' bound) := by
  induction bound with
  | zero => exact .pure []
  | succ bound ih =>
    refine .bind .current fun t => .ite (fun _ => .pure []) fun _ => ?_
    exact .bind hs fun s => .bind ih fun rest => .pure (s :: rest)

theorem block_filters (hs : Filters stmt stmt') : Filters (block stmt) (block stmt') := by
  refine .bind .remaining fun bound => .bind (statements_filter hs bound) fun body => ?_
  exact .bind (.expect _ _) fun _ => .pure body

theorem function_filters (hs : Filters stmt stmt') : Filters (function stmt) (function stmt') := by
  refine .bind (.expect _ _) fun name => .bind (.expect _ _) fun _ => ?_
  refine .bind parameterList_filters fun params => .bind (.expect _ _) fun _ => ?_
  refine .bind (.expect _ _) fun _ => .bind (block_filters hs) fun body => ?_
  exact .pure (Stmt.function 0 name params body)

theorem condition_filters (he : Filters expr expr') (opening closing : Expected) :
    Filters (condition expr opening closing) (condition expr' opening closing) :=
  .bind (.expect _ _) fun _ => .bind he fun e => .bind (.expect _ _) fun _ => .pure e

theorem ifStmt_filters (word : Token) (hs : Filters stmt stmt') (he : Filters expr expr') :
    Filters (ifStmt word stmt expr) (ifStmt word stmt' expr') := by
  refine .bind (condition_filters he _ _) fun test => .bind hs fun yes => ?_
  refine .bind (.skip _) fun _ => .ite (fun _ => ?_) fun _ => .pure (Stmt.ifThen word test yes)
  exact .bind hs fun no => .pure (Stmt.ifThenElse word test yes no)

theorem whileLoop_filters (word : Token) (hs : Filters stmt stmt') (he : Filters expr expr') :
    Filters (whileLoop word stmt expr) (whileLoop word stmt' expr') :=
  .bind (condition_filters he _ _) fun test => .bind hs fun body =>
    .pure (Stmt.whileLoop word test body)

theorem returnStmt_filters (word : Token) (inFunction : Bool) (he : Filters expr expr') :
    Filters (returnStmt word inFunction expr) (returnStmt word inFunction expr') := by
  refine .ite (fun _ => .failAt word _) fun _ => .bind .atStatementEnd fun _ => ?_
  refine .ite (fun _ => .bind .statementEnd fun _ => .pure (Stmt.returnStmt word none)) fun _ => ?_
  exact .bind he fun value => .bind .statementEnd fun _ =>
    .pure (Stmt.returnStmt word (some value))

theorem statementBody_filters (inFunction : Bool) {statement statement' : Bool → Parser Stmt}
    (hs : ∀ inside, Filters (statement inside) (statement' inside)) (he : Filters expr expr') :
    Filters (statementBody inFunction statement expr)
      (statementBody inFunction statement' expr') := by
  refine .bind .current fun t => ?_
  split
  · exact .bind .take fun _ => letVar_filters he
  · exact .bind .take fun _ => function_filters (hs true)
  · exact .bind .take fun _ => ifStmt_filters t (hs inFunction) he
  · exact .bind .take fun _ => whileLoop_filters t (hs inFunction) he
  · exact .bind .take fun _ => returnStmt_filters t inFunction he
  · refine .bind .take fun _ => .bind (block_filters (hs inFunction)) fun body => ?_
    exact .pure (Stmt.block t body)
  · exact .bind he fun e => .bind .statementEnd fun _ => .pure (Stmt.expression e)

theorem statement_filters (inFunction : Bool) (hle : room ≤ room') :
    Filters (statement inFunction room) (statement inFunction room') := by
  induction room generalizing inFunction room' with
  | zero => exact .tooDeepHere (statement_failsAtEnd inFunction room')
  | succ room ih =>
    obtain ⟨room', rfl⟩ : ∃ more, room' = more + 1 := ⟨room' - 1, by omega⟩
    have hle' := Nat.le_of_succ_le_succ hle
    rw [Grammar.statement_succ_eq, Grammar.statement_succ_eq]
    exact statementBody_filters inFunction (fun inside => ih inside hle') (expression_filters hle')

/-- At the top level the room is the limit itself. -/
theorem statementAtTop_filters :
    Filters (Parser.maxNesting >>= statement false) (Parser.maxNesting >>= statement false) :=
  fun _ _ _ _ heof hle => statement_filters false hle heof hle

theorem topLevel_filters (bound : Nat) : Filters (topLevel bound) (topLevel bound) := by
  induction bound with
  | zero => exact .pure []
  | succ bound ih =>
    refine .bind .current fun t => .ite (fun _ => .pure []) fun _ => ?_
    have hstatement : Filters
        ((Parser.maxNesting >>= statement false) >>= fun s => topLevel bound >>= fun rest =>
          pure (s :: rest))
        ((Parser.maxNesting >>= statement false) >>= fun s => topLevel bound >>= fun rest =>
          pure (s :: rest)) :=
      .bind statementAtTop_filters fun s => .bind ih fun rest => .pure (s :: rest)
    exact hstatement

end Statements

end Parser

-- ============================================================================
-- Programs
-- ============================================================================

/-- Under a lower limit tokens are read in the same way, or else the limit is met; and if it is met
    at the end marker, they are no program under the higher limit either. -/
theorem Program.parse_filtered (tokens : List Token) {limit limit' : Nat} (hle : limit ≤ limit') :
    Program.parse tokens limit = Program.parse tokens limit' ∨
      ∃ t, Program.parse tokens limit = .error (.unexpected (.nesting limit) t) ∧
        (t.kind = .eof → ∃ e, Program.parse tokens limit' = .error e) := by
  have hfiltered : Parser.Filtered limit
      (Parser.topLevel (beforeEof tokens).length ⟨eofOf tokens, limit⟩ (beforeEof tokens))
      (Parser.topLevel (beforeEof tokens).length ⟨eofOf tokens, limit'⟩ (beforeEof tokens)) :=
    Parser.topLevel_filters _ (Grammar.kind_eofOf tokens) hle
  unfold Program.parse
  dsimp only
  generalize Parser.topLevel _ ⟨eofOf tokens, limit⟩ _ = x,
    Parser.topLevel _ ⟨eofOf tokens, limit'⟩ _ = y at hfiltered ⊢
  cases hfiltered with
  | same => exact .inl rfl
  | @cut t r h =>
    refine .inr ⟨t, rfl, fun hend => ?_⟩
    obtain ⟨e, rfl⟩ := h hend
    exact ⟨e, rfl⟩

/-- What is wrong with some tokens, if it is not the nesting, stays wrong under a higher limit. -/
theorem Program.parse_error_of_le {tokens : List Token} {limit limit' : Nat} {e : ParseError}
    (hle : limit ≤ limit') (h : Program.parse tokens limit = .error e)
    (he : e.expected ≠ .nesting limit) : Program.parse tokens limit' = .error e := by
  rcases Program.parse_filtered tokens hle with hsame | ⟨t, hcut, -⟩
  · exact hsame ▸ h
  · rw [hcut, Except.error.injEq] at h
    exact absurd (h ▸ rfl) he

/-- A program stays one under a higher limit. -/
theorem Program.parse_ok_of_le {tokens : List Token} {limit limit' : Nat} {p : Program}
    (hle : limit ≤ limit') (h : Program.parse tokens limit = .ok p) :
    Program.parse tokens limit' = .ok p := by
  rcases Program.parse_filtered tokens hle with hsame | ⟨t, hcut, -⟩
  · exact hsame ▸ h
  · rw [hcut] at h
    cases h

/-- An error is at one of the tokens before the end marker, or at the end marker. -/
theorem Program.parse_error_token {tokens : List Token} {limit : Nat} {e : ParseError}
    (h : Program.parse tokens limit = .error e) :
    e.token ∈ beforeEof tokens ∨ e.token = eofOf tokens := by
  have hyielded : Parser.Yielded (fun t => t ∈ beforeEof tokens ∨ t = eofOf tokens)
      (Stmt.AllFrom _)
      (Parser.topLevel (beforeEof tokens).length ⟨eofOf tokens, limit⟩ (beforeEof tokens)) :=
    Parser.topLevel_yields _ (.inr rfl) fun _ => .inl
  unfold Program.parse at h
  dsimp only at h
  generalize Parser.topLevel _ _ _ = x at hyielded h
  cases x with
  | ok r => cases h
  | error e' =>
    cases h
    exact hyielded

/-- The nesting limit only filters. What tokens are read as under a limit, be it a program or an
    error that has nothing to do with the limit, they are read as under every higher one. A program
    under the higher limit is the same program under the lower one, or else the lower limit is met
    at one of the tokens. -/
theorem nesting_limit_only_filters (tokens : List Token) {n m : Nat} (hle : n ≤ m) :
    (∀ p, Program.parse tokens n = .ok p → Program.parse tokens m = .ok p) ∧
    (∀ e, Program.parse tokens n = .error e → e.expected ≠ .nesting n →
      Program.parse tokens m = .error e) ∧
    ∀ p, Program.parse tokens m = .ok p → Program.parse tokens n = .ok p ∨
      ∃ t ∈ tokens, Program.parse tokens n = .error (.unexpected (.nesting n) t) := by
  refine ⟨fun p => Program.parse_ok_of_le hle, fun e => Program.parse_error_of_le hle, ?_⟩
  intro p hp
  rcases Program.parse_filtered tokens hle with hsame | ⟨t, hcut, hend⟩
  · exact .inl (hsame.trans hp)
  · have hkind : t.kind ≠ .eof := by
      intro heof
      obtain ⟨e, he⟩ := hend heof
      rw [hp] at he
      cases he
    refine .inr ⟨t, ?_, hcut⟩
    rcases Program.parse_error_token hcut with hmem | heof
    · exact (List.takeWhile_sublist _).mem hmem
    · have heof : t = eofOf tokens := heof
      exact absurd (heof ▸ Grammar.kind_eofOf tokens) hkind

/-- The tokens of `if (x) if (y) -z() else x = y` nest more than three levels deep, but not more
    than twenty. -/
theorem nesting_limit_only_filters_danglingElse :
    3 ≤ 20 ∧ Program.parse Grammar.danglingElse 20 = .ok Grammar.danglingElseProgram ∧
      ∃ t ∈ Grammar.danglingElse,
        Program.parse Grammar.danglingElse 3 = .error (.unexpected (.nesting 3) t) := by
  have hle : 3 ≤ 20 := by decide
  have hread : Program.parse Grammar.danglingElse 20 = .ok Grammar.danglingElseProgram := rfl
  refine ⟨hle, hread, ?_⟩
  refine ((nesting_limit_only_filters Grammar.danglingElse hle).2.2 _ hread).resolve_left ?_
  intro hlow
  have hfails : ∃ e, Program.parse Grammar.danglingElse 3 = .error e := ⟨_, rfl⟩
  obtain ⟨e, he⟩ := hfails
  rw [he] at hlow
  cases hlow

end Lexiscope
