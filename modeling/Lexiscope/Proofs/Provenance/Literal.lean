/-
  Lexiscope.Proofs.Provenance.Literal

  Literals are never refused.

  A parser asks for a number or a string only where it has a token of this kind in its
  hands that has no value (`Parser.RefusesHollow`). This is proved along the parser; it
  is a matter of `primary` alone, and all the others hand it on. The lexer makes no such
  tokens, so no source text is refused for want of a number or string literal.
-/
import Lexiscope.Proofs.Lexical.Literal
import Lexiscope.Proofs.Provenance.Session

namespace Lexiscope

/-- Was a literal expected? -/
def Expected.IsLiteral : Expected → Prop
  | numberLiteral | stringLiteral => True
  | _ => False

/-- The token is a number or a string without a value. -/
inductive Token.Hollow (t : Token) : Prop where
  | number (hkind : t.kind = .number) (h : Number.ofText? t.lexeme = none)
  | string (hkind : t.kind = .string) (h : t.stringValue? = none)

namespace Parser

variable {α β : Type}

/-- Where the parser expects a literal, it fails at a token of this kind that has no value. -/
def RefusesHollow (p : Parser α) : Prop :=
  ∀ ⦃ctx ts e⦄, p ctx ts = .error e → e.expected.IsLiteral → e.token.Hollow

namespace RefusesHollow

protected theorem pure (a : α) : (pure a : Parser α).RefusesHollow :=
  fun _ _ _ h => nomatch h

protected theorem bind {p : Parser α} {f : α → Parser β} (hp : p.RefusesHollow)
    (hf : ∀ a, (f a).RefusesHollow) : (p >>= f).RefusesHollow := by
  intro ctx ts e herror
  have hbind : Parser.bind p f ctx ts = .error e := herror
  unfold Parser.bind at hbind
  cases hfirst : p ctx ts with
  | error e' =>
    rw [hfirst] at hbind
    obtain rfl := Except.error.inj hbind
    exact hp hfirst
  | ok r =>
    rw [hfirst] at hbind
    exact hf r.1 hbind

theorem ite {c : Prop} [Decidable c] {p q : Parser α} (hyes : p.RefusesHollow)
    (hno : q.RefusesHollow) : (if c then p else q).RefusesHollow := by
  split
  · exact hyes
  · exact hno

theorem current : Parser.current.RefusesHollow := fun _ _ _ h => nomatch h

theorem maxNesting : Parser.maxNesting.RefusesHollow := fun _ _ _ h => nomatch h

theorem remaining : Parser.remaining.RefusesHollow := fun _ _ _ h => nomatch h

theorem take : Parser.take.RefusesHollow := fun _ _ _ h => nomatch h

theorem at_ (kind : Kind) : (Parser.at_ kind).RefusesHollow := fun _ _ _ h => nomatch h

theorem atStatementEnd : Parser.atStatementEnd.RefusesHollow := fun _ _ _ h => nomatch h

theorem skip (kind : Kind) : (Parser.skip kind).RefusesHollow := by
  intro ctx ts e herror
  unfold Parser.skip at herror
  split at herror
  · cases herror
  · cases herror

/-- Something else is expected. -/
theorem failAt (t : Token) {x : Expected} (hx : ¬ x.IsLiteral) :
    (Parser.failAt t x : Parser α).RefusesHollow := by
  rintro ctx ts e ⟨⟩ hliteral
  exact absurd hliteral hx

theorem fail {x : Expected} (hx : ¬ x.IsLiteral) : (Parser.fail x : Parser α).RefusesHollow := by
  rintro ctx ts e ⟨⟩ hliteral
  exact absurd hliteral hx

/-- A literal is expected, and the token has no value. -/
theorem failAt_hollow {t : Token} (ht : t.Hollow) (x : Expected) :
    (Parser.failAt t x : Parser α).RefusesHollow := by
  rintro ctx ts e ⟨⟩ -
  exact ht

theorem tooDeep (t : Token) : (Parser.tooDeep t : Parser α).RefusesHollow := by
  rintro ctx ts e ⟨⟩ ⟨⟩

theorem tooDeepHere : (Parser.tooDeepHere : Parser α).RefusesHollow := by
  rintro ctx ts e ⟨⟩ ⟨⟩

theorem rejectTarget (t : Token) (target : Expr) :
    (Parser.rejectTarget t target : Parser α).RefusesHollow := by
  rintro ctx ts e ⟨⟩ ⟨⟩

theorem expect (kind : Kind) {x : Expected} (hx : ¬ x.IsLiteral) :
    (Parser.expect kind x).RefusesHollow := by
  intro ctx ts e herror hliteral
  unfold Parser.expect at herror
  dsimp only at herror
  split at herror
  · cases herror
  · cases herror
    exact absurd hliteral hx

theorem statementEnd : Parser.statementEnd.RefusesHollow := by
  refine .bind (.skip _) fun _ => .ite (.pure _) ?_
  exact .bind .atStatementEnd fun _ => .ite (.pure _) (.fail id)

end RefusesHollow

-- ============================================================================
-- Expressions
-- ============================================================================

variable {expr : Parser Expr}

/-- A literal that is refused is the current token, and was looked at before. -/
theorem primary_refusesHollow (he : expr.RefusesHollow) : (primary expr).RefusesHollow := by
  refine .bind .current fun t => ?_
  split
  · next hkind =>
    refine .bind .take fun _ => ?_
    split
    · exact .pure _
    · next hnone => exact .failAt_hollow (.number hkind hnone) _
  · next hkind =>
    refine .bind .take fun _ => ?_
    split
    · exact .pure _
    · next hnone => exact .failAt_hollow (.string hkind hnone) _
  · exact .bind .take fun _ => .pure _
  · exact .bind .take fun _ => .pure _
  · exact .bind .take fun _ => .pure _
  · exact .bind .take fun _ => .pure _
  · exact .bind .take fun _ => .bind he fun e => .bind (.expect _ id) fun _ => .pure e
  · exact .fail id

theorem moreArguments_refusesHollow (he : expr.RefusesHollow) (slots : Nat) :
    (moreArguments expr slots).RefusesHollow := by
  induction slots with
  | zero => exact .bind (.skip _) fun _ => .ite (.fail id) (.pure [])
  | succ slots ih =>
    refine .bind (.skip _) fun _ => .ite ?_ (.pure [])
    exact .bind he fun e => .bind ih fun rest => .pure (e :: rest)

theorem arguments_refusesHollow (he : expr.RefusesHollow) : (arguments expr).RefusesHollow := by
  have hlist : (argumentList expr).RefusesHollow := by
    refine .bind (.at_ _) fun _ => .ite (.pure []) ?_
    exact .bind he fun e => .bind (moreArguments_refusesHollow he _) fun rest => .pure (e :: rest)
  exact .bind hlist fun args => .bind (.expect _ id) fun _ => .pure args

theorem calls_refuseHollow (he : expr.RefusesHollow) (room : Nat) (callee : Expr) :
    (calls expr room callee).RefusesHollow := by
  induction room generalizing callee with
  | zero => exact .bind .current fun t => .ite (.tooDeep t) (.pure callee)
  | succ room ih =>
    refine .bind .current fun t => .ite ?_ (.pure callee)
    exact .bind .take fun _ => .bind (arguments_refusesHollow he) fun args => ih _

theorem unary_refusesHollow (room : Nat) {operand : Parser Expr} (ho : operand.RefusesHollow)
    (he : expr.RefusesHollow) : (unary room operand expr).RefusesHollow := by
  refine .bind .current fun t => ?_
  split
  · exact .bind .take fun _ => .bind ho fun e => .pure _
  · exact .bind (primary_refusesHollow he) fun e => calls_refuseHollow he room e

theorem chain_refusesHollow (rung : List BinaryOp) {tighter : Parser Expr}
    (ht : tighter.RefusesHollow) (room : Nat) (left : Expr) :
    (chain rung tighter room left).RefusesHollow := by
  induction room generalizing left with
  | zero =>
    refine .bind .current fun t => ?_
    split
    · exact .tooDeep t
    · exact .pure left
  | succ room ih =>
    refine .bind .current fun t => ?_
    split
    · exact .bind .take fun _ => .bind ht fun right => ih _
    · exact .pure left

theorem binary_refusesHollow (room : Nat) {operand : Parser Expr} (ho : operand.RefusesHollow)
    (rungs : List (List BinaryOp)) : (binary room operand rungs).RefusesHollow := by
  induction rungs with
  | nil => exact ho
  | cons rung tighter ih => exact .bind ih fun first => chain_refusesHollow rung ih room first

theorem assignment_refusesHollow (room : Nat) {operand : Parser Expr}
    (ho : operand.RefusesHollow) (he : expr.RefusesHollow) :
    (assignment room operand expr).RefusesHollow := by
  refine .bind (binary_refusesHollow room (unary_refusesHollow room ho he) ladder) fun target => ?_
  refine .bind .current fun t => .ite (.bind .take fun _ => .bind he fun value => ?_) (.pure target)
  split
  · exact .pure _
  · exact .rejectTarget t target

theorem operand_and_expression_refuseHollow (room : Nat) :
    (operand room).RefusesHollow ∧ (expression room).RefusesHollow := by
  induction room with
  | zero => exact ⟨.tooDeepHere, .tooDeepHere⟩
  | succ room ih =>
    exact ⟨unary_refusesHollow room ih.1 ih.2, assignment_refusesHollow room ih.1 ih.2⟩

theorem expression_refusesHollow (room : Nat) : (expression room).RefusesHollow :=
  (operand_and_expression_refuseHollow room).2

-- ============================================================================
-- Statements
-- ============================================================================

variable {stmt : Parser Stmt}

theorem letVar_refusesHollow (he : expr.RefusesHollow) : (letVar expr).RefusesHollow := by
  refine .bind (.expect _ id) fun name => .bind (.skip _) fun _ => .ite ?_ ?_
  · exact .bind he fun value => .bind .statementEnd fun _ => .pure _
  · exact .bind .statementEnd fun _ => .pure _

theorem parameters_refuseHollow (slots : Nat) (read : List Token) :
    (parameters slots read).RefusesHollow := by
  induction slots generalizing read with
  | zero => exact .fail id
  | succ slots ih =>
    refine .bind (.expect _ id) fun param => .ite (.failAt param id) ?_
    exact .bind (.skip _) fun _ => .ite (ih _) (.pure _)

theorem parameterList_refusesHollow : parameterList.RefusesHollow :=
  .bind (.at_ _) fun _ => .ite (.pure _) (parameters_refuseHollow _ _)

theorem statements_refuseHollow (hs : stmt.RefusesHollow) (bound : Nat) :
    (statements stmt bound).RefusesHollow := by
  induction bound with
  | zero => exact .pure []
  | succ bound ih =>
    refine .bind .current fun t => .ite (.pure []) ?_
    exact .bind hs fun s => .bind ih fun rest => .pure (s :: rest)

theorem block_refusesHollow (hs : stmt.RefusesHollow) : (block stmt).RefusesHollow := by
  refine .bind .remaining fun bound => .bind (statements_refuseHollow hs bound) fun body => ?_
  exact .bind (.expect _ id) fun _ => .pure body

theorem function_refusesHollow (hs : stmt.RefusesHollow) : (function stmt).RefusesHollow := by
  refine .bind (.expect _ id) fun name => .bind (.expect _ id) fun _ => ?_
  refine .bind parameterList_refusesHollow fun params => .bind (.expect _ id) fun _ => ?_
  exact .bind (.expect _ id) fun _ => .bind (block_refusesHollow hs) fun body => .pure _

theorem condition_refusesHollow (he : expr.RefusesHollow) {opening closing : Expected}
    (hopening : ¬ opening.IsLiteral) (hclosing : ¬ closing.IsLiteral) :
    (condition expr opening closing).RefusesHollow :=
  .bind (.expect _ hopening) fun _ => .bind he fun e =>
    .bind (.expect _ hclosing) fun _ => .pure e

theorem ifStmt_refusesHollow (word : Token) (hs : stmt.RefusesHollow) (he : expr.RefusesHollow) :
    (ifStmt word stmt expr).RefusesHollow := by
  refine .bind (condition_refusesHollow he id id) fun test => .bind hs fun yes => ?_
  exact .bind (.skip _) fun _ => .ite (.bind hs fun no => .pure _) (.pure _)

theorem whileLoop_refusesHollow (word : Token) (hs : stmt.RefusesHollow)
    (he : expr.RefusesHollow) : (whileLoop word stmt expr).RefusesHollow :=
  .bind (condition_refusesHollow he id id) fun _ => .bind hs fun _ => .pure _

theorem returnStmt_refusesHollow (word : Token) (inFunction : Bool) (he : expr.RefusesHollow) :
    (returnStmt word inFunction expr).RefusesHollow := by
  refine .ite (.failAt word id) (.bind .atStatementEnd fun _ => .ite ?_ ?_)
  · exact .bind .statementEnd fun _ => .pure _
  · exact .bind he fun value => .bind .statementEnd fun _ => .pure _

theorem statementBody_refusesHollow (inFunction : Bool) {statement : Bool → Parser Stmt}
    (hs : ∀ inside, (statement inside).RefusesHollow) (he : expr.RefusesHollow) :
    (statementBody inFunction statement expr).RefusesHollow := by
  refine .bind .current fun t => ?_
  split
  · exact .bind .take fun _ => letVar_refusesHollow he
  · exact .bind .take fun _ => function_refusesHollow (hs true)
  · exact .bind .take fun _ => ifStmt_refusesHollow t (hs inFunction) he
  · exact .bind .take fun _ => whileLoop_refusesHollow t (hs inFunction) he
  · exact .bind .take fun _ => returnStmt_refusesHollow t inFunction he
  · exact .bind .take fun _ => .bind (block_refusesHollow (hs inFunction)) fun body => .pure _
  · exact .bind he fun e => .bind .statementEnd fun _ => .pure _

theorem statement_refusesHollow (inFunction : Bool) (room : Nat) :
    (statement inFunction room).RefusesHollow := by
  induction room generalizing inFunction with
  | zero => exact .tooDeepHere
  | succ room ih =>
    intro ctx ts e herror
    rw [statement] at herror
    exact statementBody_refusesHollow inFunction ih (expression_refusesHollow room) herror

theorem topLevel_refusesHollow (bound : Nat) : (topLevel bound).RefusesHollow := by
  induction bound with
  | zero => exact .pure []
  | succ bound ih =>
    refine .bind .current fun t => .ite (.pure []) (.bind .maxNesting fun room => ?_)
    exact .bind (statement_refusesHollow false room) fun s => .bind ih fun rest => .pure _

end Parser

-- ============================================================================
-- Source texts
-- ============================================================================

open Lexical

/-- Where a program should have gone on with a literal, there is one that has no value. -/
theorem Program.hollow_of_parse {tokens : List Token} {limit : Nat} {e : ParseError}
    (h : Program.parse tokens limit = .error e) (hliteral : e.expected.IsLiteral) :
    e.token.Hollow := by
  unfold Program.parse at h
  dsimp only at h
  cases hbody : Parser.topLevel (beforeEof tokens).length ⟨eofOf tokens, limit⟩
      (beforeEof tokens) with
  | error e' =>
    rw [hbody] at h
    obtain rfl := Except.error.inj h
    exact Parser.topLevel_refusesHollow _ hbody hliteral
  | ok r =>
    rw [hbody] at h
    cases h

/-- A token that is spelled as its kind is has a value, if tokens of this kind have values. -/
theorem Token.not_hollow_of_lexeme {t : Token} (h : Lexeme t.kind t.lexeme.toList) :
    ¬ t.Hollow := by
  rintro (⟨hkind, hnone⟩ | ⟨hkind, hnone⟩)
  · rw [hkind] at h
    obtain ⟨x, hx⟩ := h.isNumeral.exists_value
    rw [String.ofList_toList, hnone] at hx
    cases hx
  · rw [hkind] at h
    obtain ⟨body, hbody, -⟩ := h.stringBody
    rw [stringValue?_of_stringBody hkind hbody] at hnone
    cases hnone

theorem not_hollow_of_tokenize {source : String} {ts : List Token}
    (h : Token.tokenize source = .ok ts) : ∀ t ∈ ts, ¬ t.Hollow := by
  obtain ⟨-, -, body, eof, -, rfl, heof, -, hspelled, -⟩ := Printing.tokens_of_tokenize h
  intro t ht
  rcases List.mem_append.mp ht with hbody | hlast
  · exact Token.not_hollow_of_lexeme (hspelled t hbody)
  · rw [List.mem_singleton.mp hlast]
    rintro (⟨hkind, -⟩ | ⟨hkind, -⟩)
    · exact absurd (heof.symm.trans hkind) (by decide)
    · exact absurd (heof.symm.trans hkind) (by decide)

/-- Every string has a literal, and this is one token that stands for it. Every string token that is
    scanned stands for a string, and so does the literal for this; every number token that is
    scanned is made of digits, perhaps with a point between them. So no tokens of a source text are
    refused for want of a literal. -/
theorem literals_keep_values :
    (∀ v, IsLiteralOf (stringLiteral v) v) ∧
      (∀ c t next, Token.scan c = (.ok t, next) →
        (t.kind = .string → ∃ w, t.stringValue? = some w ∧ IsLiteralOf (stringLiteral w) w) ∧
        (t.kind = .number → IsNumeral t.lexeme.toList)) ∧
      ∀ source ts limit e, Token.tokenize source = .ok ts → Program.parse ts limit = .error e →
        e.expected ≠ .stringLiteral ∧ e.expected ≠ .numberLiteral := by
  refine ⟨isLiteralOf_stringLiteral, fun c t next hscan => ⟨fun hkind => ?_, fun hkind => ?_⟩, ?_⟩
  · obtain heof | hspelled := spelled_of_scan hscan
    · exact absurd (heof.symm.trans hkind) (by decide)
    · rw [hkind] at hspelled
      obtain ⟨body, hbody, -⟩ := hspelled.stringBody
      exact ⟨_, stringValue?_of_stringBody hkind hbody, isLiteralOf_stringLiteral _⟩
  · obtain heof | hspelled := spelled_of_scan hscan
    · exact absurd (heof.symm.trans hkind) (by decide)
    · rw [hkind] at hspelled
      exact hspelled.isNumeral
  · intro source ts limit e htokens herror
    have hmem := (Program.parse_yields (exists_eof_of_tokenize htokens) limit).1 e herror
    have hnone : ¬ e.expected.IsLiteral := fun hliteral =>
      not_hollow_of_tokenize htokens _ hmem (Program.hollow_of_parse herror hliteral)
    exact ⟨fun hx => hnone (by rw [hx]; trivial), fun hx => hnone (by rw [hx]; trivial)⟩

end Lexiscope
