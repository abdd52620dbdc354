/-
  Lexiscope.Proofs.Grammar.Moved

  What is read from some tokens is read from the same tokens elsewhere.

  A parser looks at the kinds and lexemes of tokens, never at their places, and no
  further ahead than the current token. So a parser that leaves something to read
  does the same with tokens that were moved, whatever stands behind them; and one that
  leaves nothing does the same if nothing stands behind them. Both are said by one
  property of parsers (`Parser.Follows`), which is proved along the parser. The limit
  of nesting plays no part in it, and the same room is used up on both sides.
-/
import Lexiscope.Proofs.Grammar.Soundness
import Lexiscope.Proofs.Syntax.Tokens

namespace Lexiscope

/-- The function gives tokens another place at most. -/
structure Token.Moves (f : Token → Token) : Prop where
  kind : ∀ t, (f t).kind = t.kind
  lexeme : ∀ t, (f t).lexeme = t.lexeme

theorem Token.Moves.id : Token.Moves id := ⟨fun _ => rfl, fun _ => rfl⟩

theorem Token.Moves.stringValue? {f : Token → Token} (hf : Token.Moves f) (t : Token) :
    (f t).stringValue? = t.stringValue? := by
  rw [Token.stringValue?, Token.stringValue?, hf.kind, hf.lexeme]

namespace Parser

open Grammar (bind_eq_ok pure_eq_ok)

variable {f : Token → Token} {α β γ δ : Type}

-- ============================================================================
-- Parsers that go on alike
-- ============================================================================

/-- What is left to read is not empty; or it is, and so is the text behind it, and the end markers
    correspond. Then the current tokens do. -/
def Onward (f : Token → Token) (ctx ctx' : ParseContext) (rest extra : List Token) : Prop :=
  rest ≠ [] ∨ extra = [] ∧ ctx'.eof = f ctx.eof

theorem Onward.of_nil {ctx ctx' : ParseContext} {extra : List Token}
    (h : Onward f ctx ctx' [] extra) : extra = [] ∧ ctx'.eof = f ctx.eof :=
  h.resolve_left fun hne => hne rfl

theorem Onward.headD {ctx ctx' : ParseContext} {ts extra : List Token}
    (h : Onward f ctx ctx' ts extra) :
    (ts.map f ++ extra).headD ctx'.eof = f (ts.headD ctx.eof) := by
  cases ts with
  | nil =>
    obtain ⟨rfl, heof⟩ := h.of_nil
    exact heof
  | cons t ts => rfl

/-- The same where the first token has been taken. -/
theorem Onward.taken {ctx ctx' : ParseContext} {ts extra : List Token}
    (h : Onward f ctx ctx' ts.tail extra) :
    (ts.map f ++ extra).headD ctx'.eof = f (ts.headD ctx.eof) ∧
      (ts.map f ++ extra).tail = ts.tail.map f ++ extra := by
  cases ts with
  | nil =>
    obtain ⟨rfl, heof⟩ := h.of_nil
    exact ⟨heof, rfl⟩
  | cons t ts => exact ⟨rfl, rfl⟩

/-- Where the first parser goes on, the second one does with moved tokens, whatever stands behind
    them. -/
structure Follows (f : Token → Token) (g : α → β) (p : Parser α) (q : Parser β) : Prop where
  nil : ∀ ⦃ctx a rest⦄, p ctx [] = .ok (a, rest) → rest = []
  read : ∀ ⦃ctx ctx' ts rest extra a⦄, ctx'.maxNesting = ctx.maxNesting →
    p ctx ts = .ok (a, rest) → Onward f ctx ctx' rest extra →
    q ctx' (ts.map f ++ extra) = .ok (g a, rest.map f ++ extra)

namespace Follows

variable {g : α → β} {g' : γ → δ}

protected theorem pure {a : α} {b : β} (h : g a = b) : Follows f g (pure a) (pure b) where
  nil ctx a rest h := (pure_eq_ok.mp h).2.symm
  read ctx ctx' ts rest extra a' _ hread _ := by
    obtain ⟨rfl, rfl⟩ := pure_eq_ok.mp hread
    rw [h]
    rfl

protected theorem bind {p : Parser α} {q : Parser β} {h : α → Parser γ} {k : β → Parser δ}
    (hp : Follows f g p q) (hh : ∀ a, Follows f g' (h a) (k (g a))) :
    Follows f g' (p >>= h) (q >>= k) where
  nil ctx c rest hread := by
    obtain ⟨a, mid, hfirst, hsecond⟩ := bind_eq_ok.mp hread
    rw [hp.nil hfirst] at hsecond
    exact (hh a).nil hsecond
  read ctx ctx' ts rest extra c hlimit hread honward := by
    obtain ⟨a, mid, hfirst, hsecond⟩ := bind_eq_ok.mp hread
    have hmid : Onward f ctx ctx' mid extra := by
      refine honward.imp_left fun hne hnil => hne ?_
      rw [hnil] at hsecond
      exact (hh a).nil hsecond
    exact bind_eq_ok.mpr ⟨g a, _, hp.read hlimit hfirst hmid, (hh a).read hlimit hsecond honward⟩

theorem ite {c : Prop} [Decidable c] {p p' : Parser α} {q q' : Parser β}
    (hyes : c → Follows f g p q) (hno : ¬ c → Follows f g p' q') :
    Follows f g (if c then p else p') (if c then q else q') := by
  split
  · next h => exact hyes h
  · next h => exact hno h

/-- A parser that always fails is followed by any. -/
theorem of_fails {p : Parser α} {q : Parser β} (h : ∀ ctx ts r, p ctx ts ≠ .ok r) :
    Follows f g p q where
  nil _ _ _ hread := absurd hread (h _ _ _)
  read _ _ _ _ _ _ _ hread _ := absurd hread (h _ _ _)

theorem failAt {t : Token} {x : Expected} {q : Parser β} :
    Follows f g (Parser.failAt t x : Parser α) q := of_fails fun _ _ _ => nofun

theorem fail {x : Expected} {q : Parser β} : Follows f g (Parser.fail x : Parser α) q :=
  of_fails fun _ _ _ => nofun

theorem tooDeep {t : Token} {q : Parser β} : Follows f g (Parser.tooDeep t : Parser α) q :=
  of_fails fun _ _ _ => nofun

theorem tooDeepHere {q : Parser β} : Follows f g (Parser.tooDeepHere : Parser α) q :=
  of_fails fun _ _ _ => nofun

theorem rejectTarget {t : Token} {e : Expr} {q : Parser β} :
    Follows f g (Parser.rejectTarget t e : Parser α) q := of_fails fun _ _ _ => nofun

theorem current : Follows f f Parser.current Parser.current where
  nil ctx a rest h := (Grammar.current_eq_ok.mp h).2.symm
  read ctx ctx' ts rest extra t _ hread honward := by
    obtain ⟨rfl, rfl⟩ := Grammar.current_eq_ok.mp hread
    exact Grammar.current_eq_ok.mpr ⟨honward.headD, rfl⟩

theorem maxNesting : Follows f (fun n => n) Parser.maxNesting Parser.maxNesting where
  nil ctx a rest h := by
    cases h
    rfl
  read ctx ctx' ts rest extra n hlimit hread _ := by
    cases hread
    rw [Parser.maxNesting, hlimit]

theorem take : Follows f f Parser.take Parser.take where
  nil ctx a rest h := by
    cases h
    rfl
  read ctx ctx' ts rest extra t _ hread honward := by
    cases hread
    obtain ⟨hhead, htail⟩ := honward.taken
    rw [Parser.take, hhead, htail]

variable (hf : Token.Moves f)
include hf

theorem at_ (kind : Kind) : Follows f (fun b => b) (Parser.at_ kind) (Parser.at_ kind) where
  nil ctx a rest h := (Grammar.at_eq_ok.mp h).2.symm
  read ctx ctx' ts rest extra b _ hread honward := by
    obtain ⟨rfl, rfl⟩ := Grammar.at_eq_ok.mp hread
    rw [Parser.at_, honward.headD, hf.kind]

theorem atStatementEnd :
    Follows f (fun b => b) Parser.atStatementEnd Parser.atStatementEnd where
  nil ctx a rest h := by
    cases h
    rfl
  read ctx ctx' ts rest extra b _ hread honward := by
    cases hread
    rw [Parser.atStatementEnd, honward.headD, hf.kind]

theorem skip (kind : Kind) : Follows f (fun b => b) (Parser.skip kind) (Parser.skip kind) where
  nil ctx a rest h := by
    unfold Parser.skip at h
    split at h
    · cases h
      rfl
    · cases h
      rfl
  read ctx ctx' ts rest extra b _ hread honward := by
    unfold Parser.skip at hread
    split at hread
    · next hkind =>
      cases hread
      obtain ⟨hhead, htail⟩ := honward.taken
      rw [Parser.skip, hhead, hf.kind, if_pos hkind, htail]
    · next hkind =>
      cases hread
      rw [Parser.skip, honward.headD, hf.kind, if_neg hkind]

theorem expect (kind : Kind) (x : Expected) :
    Follows f f (Parser.expect kind x) (Parser.expect kind x) where
  nil ctx a rest h := by
    unfold Parser.expect at h
    dsimp only at h
    split at h
    · cases h
      rfl
    · cases h
  read ctx ctx' ts rest extra b _ hread honward := by
    unfold Parser.expect at hread
    dsimp only at hread
    split at hread
    · next hkind =>
      cases hread
      obtain ⟨hhead, htail⟩ := honward.taken
      unfold Parser.expect
      dsimp only
      rw [hhead, hf.kind, if_pos hkind, htail]
    · cases hread

theorem statementEnd : Follows f (fun u => u) Parser.statementEnd Parser.statementEnd := by
  refine .bind (.skip hf _) fun _ => .ite (fun _ => .pure rfl) fun _ => ?_
  exact .bind (.atStatementEnd hf) fun _ => .ite (fun _ => .pure rfl) fun _ => .fail

end Follows

-- ============================================================================
-- Expressions
-- ============================================================================

section Expressions

variable (hf : Token.Moves f) {expr : Parser Expr}

/-- A parser for expressions that gives the same ones elsewhere, but for their places. -/
abbrev FollowsExpr (f : Token → Token) (p : Parser Expr) : Prop := Follows f (Expr.mapTokens f) p p

include hf

theorem primary_follows (he : FollowsExpr f expr) : FollowsExpr f (primary expr) := by
  refine .bind .current fun t => ?_
  rw [hf.kind]
  split
  · rw [hf.lexeme]
    refine .bind .take fun _ => ?_
    split
    · exact .pure rfl
    · exact .failAt
  · rw [hf.stringValue?]
    refine .bind .take fun _ => ?_
    split
    · exact .pure rfl
    · exact .failAt
  · exact .bind .take fun _ => .pure rfl
  · exact .bind .take fun _ => .pure rfl
  · exact .bind .take fun _ => .pure rfl
  · exact .bind .take fun _ => .pure rfl
  · refine .bind .take fun _ => .bind he fun e => ?_
    exact .bind (.expect hf _ _) fun _ => .pure rfl
  · exact .fail

theorem moreArguments_follows (he : FollowsExpr f expr) (slots : Nat) :
    Follows f (Expr.mapTokensAll f) (moreArguments expr slots) (moreArguments expr slots) := by
  induction slots with
  | zero => exact .bind (.skip hf _) fun _ => .ite (fun _ => .fail) fun _ => .pure rfl
  | succ slots ih =>
    refine .bind (.skip hf _) fun _ => .ite (fun _ => ?_) fun _ => .pure rfl
    exact .bind he fun e => .bind ih fun rest => .pure rfl

theorem arguments_follows (he : FollowsExpr f expr) :
    Follows f (Expr.mapTokensAll f) (arguments expr) (arguments expr) := by
  have hlist : Follows f (Expr.mapTokensAll f) (argumentList expr) (argumentList expr) := by
    refine .bind (.at_ hf _) fun _ => .ite (fun _ => .pure rfl) fun _ => ?_
    exact .bind he fun e => .bind (moreArguments_follows hf he _) fun rest => .pure rfl
  exact .bind hlist fun args => .bind (.expect hf _ _) fun _ => .pure rfl

theorem calls_follow (he : FollowsExpr f expr) (room : Nat) (callee : Expr) :
    Follows f (Expr.mapTokens f) (calls expr room callee)
      (calls expr room (callee.mapTokens f)) := by
  induction room generalizing callee with
  | zero =>
    refine .bind .current fun t => ?_
    rw [hf.kind]
    exact .ite (fun _ => .tooDeep) fun _ => .pure rfl
  | succ room ih =>
    refine .bind .current fun t => ?_
    rw [hf.kind]
    refine .ite (fun _ => ?_) fun _ => .pure rfl
    exact .bind .take fun _ => .bind (arguments_follows hf he) fun args => ih _

theorem unary_follows {room : Nat} {operand : Parser Expr} (ho : FollowsExpr f operand)
    (he : FollowsExpr f expr) : FollowsExpr f (unary room operand expr) := by
  refine .bind .current fun t => ?_
  rw [hf.kind]
  split
  · exact .bind .take fun _ => .bind ho fun e => .pure rfl
  · exact .bind (primary_follows hf he) fun e => calls_follow hf he room e

theorem chain_follows (rung : List BinaryOp) {tighter : Parser Expr} (ht : FollowsExpr f tighter)
    (room : Nat) (left : Expr) :
    Follows f (Expr.mapTokens f) (chain rung tighter room left)
      (chain rung tighter room (left.mapTokens f)) := by
  have hoperator : ∀ t, operatorAt? rung (f t) = operatorAt? rung t := by
    intro t
    rw [operatorAt?, operatorAt?, hf.kind]
  induction room generalizing left with
  | zero =>
    refine .bind .current fun t => ?_
    rw [hoperator]
    split
    · exact .tooDeep
    · exact .pure rfl
  | succ room ih =>
    refine .bind .current fun t => ?_
    rw [hoperator]
    split
    · exact .bind .take fun _ => .bind ht fun right => ih _
    · exact .pure rfl

theorem binary_follows (room : Nat) {operand : Parser Expr} (ho : FollowsExpr f operand)
    (rungs : List (List BinaryOp)) : FollowsExpr f (binary room operand rungs) := by
  induction rungs with
  | nil => exact ho
  | cons rung tighter ih => exact .bind ih fun first => chain_follows hf rung ih room first

theorem assignment_follows {room : Nat} {operand : Parser Expr} (ho : FollowsExpr f operand)
    (he : FollowsExpr f expr) : FollowsExpr f (assignment room operand expr) := by
  refine .bind (binary_follows hf room (unary_follows hf ho he) ladder) fun target => ?_
  refine .bind .current fun t => ?_
  rw [hf.kind]
  refine .ite (fun _ => .bind .take fun _ => .bind he fun value => ?_) fun _ => .pure rfl
  cases target with
  | identifier name => exact .pure rfl
  | _ => exact .rejectTarget

theorem operand_and_expression_follow (room : Nat) :
    FollowsExpr f (operand room) ∧ FollowsExpr f (expression room) := by
  induction room with
  | zero => exact ⟨.tooDeepHere, .tooDeepHere⟩
  | succ room ih => exact ⟨unary_follows hf ih.1 ih.2, assignment_follows hf ih.1 ih.2⟩

theorem expression_follows (room : Nat) : FollowsExpr f (expression room) :=
  (operand_and_expression_follow hf room).2

end Expressions

-- ============================================================================
-- Statements
-- ============================================================================

section Statements

variable (hf : Token.Moves f) {expr : Parser Expr} {stmt : Parser Stmt}

/-- A parser for statements that gives the same ones elsewhere, but for their places. -/
abbrev FollowsStmt (f : Token → Token) (p : Parser Stmt) : Prop := Follows f (Stmt.mapTokens f) p p

include hf

theorem letVar_follows (he : FollowsExpr f expr) : FollowsStmt f (letVar expr) := by
  refine .bind (.expect hf _ _) fun name => .bind (.skip hf _) fun _ => ?_
  refine .ite (fun _ => ?_) fun _ => .bind (.statementEnd hf) fun _ => .pure rfl
  exact .bind he fun value => .bind (.statementEnd hf) fun _ => .pure rfl

theorem parameters_follow (slots : Nat) (read : List Token) :
    Follows f (List.map f) (parameters slots read) (parameters slots (read.map f)) := by
  induction slots generalizing read with
  | zero => exact .fail
  | succ slots ih =>
    refine .bind (.expect hf _ _) fun param => ?_
    have hsame : (read.map f).any (fun other => other.lexeme == (f param).lexeme) =
        read.any fun other => other.lexeme == param.lexeme := by
      simp only [List.any_map, Function.comp_def, hf.lexeme]
    have hmore : (read ++ [param]).map f = read.map f ++ [f param] := List.map_append
    rw [hsame]
    refine .ite (fun _ => .failAt) fun _ => .bind (.skip hf _) fun _ => ?_
    rw [← hmore]
    exact .ite (fun _ => ih _) fun _ => .pure rfl

theorem parameterList_follows : Follows f (List.map f) parameterList parameterList := by
  refine .bind (.at_ hf _) fun _ => .ite (fun _ => .pure rfl) fun _ => ?_
  exact parameters_follow hf maxArguments []

theorem statements_follow (hs : FollowsStmt f stmt) (bound : Nat) :
    Follows f (Stmt.mapTokensAll f) (statements stmt bound) (statements stmt bound) := by
  induction bound with
  | zero => exact .pure rfl
  | succ bound ih =>
    refine .bind .current fun t => ?_
    rw [hf.kind]
    refine .ite (fun _ => .pure rfl) fun _ => ?_
    exact .bind hs fun s => .bind ih fun rest => .pure rfl

omit hf in
/-- A larger bound does not lead past a closing brace. -/
theorem statements_of_le {bound more : Nat} (hle : bound ≤ more) {ctx : ParseContext}
    {ts rest : List Token} {ss : List Stmt} (hread : statements stmt bound ctx ts = .ok (ss, rest))
    (hend : (rest.headD ctx.eof).kind = .rightBrace) :
    statements stmt more ctx ts = .ok (ss, rest) := by
  induction bound generalizing more ts ss with
  | zero =>
    obtain ⟨rfl, rfl⟩ := pure_eq_ok.mp hread
    cases more with
    | zero => rfl
    | succ more =>
      rw [statements]
      exact bind_eq_ok.mpr ⟨_, _, rfl, by rw [if_pos (.inl hend)]; rfl⟩
  | succ bound ih =>
    obtain ⟨more, rfl⟩ : ∃ left, more = left + 1 := ⟨more - 1, by omega⟩
    rw [statements] at hread ⊢
    obtain ⟨t, mid, hcurrent, hread⟩ := bind_eq_ok.mp hread
    refine bind_eq_ok.mpr ⟨t, mid, hcurrent, ?_⟩
    split at hread
    · next h => rwa [if_pos h]
    · next h =>
      rw [if_neg h]
      obtain ⟨s, mid', hfirst, hread⟩ := bind_eq_ok.mp hread
      obtain ⟨more', mid'', hmore, hread⟩ := bind_eq_ok.mp hread
      obtain ⟨rfl, rfl⟩ := pure_eq_ok.mp hread
      have hmore' := ih (Nat.le_of_succ_le_succ hle) hmore
      exact bind_eq_ok.mpr ⟨s, mid', hfirst, bind_eq_ok.mpr ⟨more', _, hmore', rfl⟩⟩

omit hf in
theorem block_eq_ok {ctx : ParseContext} {ts rest : List Token} {body : List Stmt} :
    block stmt ctx ts = .ok (body, rest) ↔
      ∃ mid, statements stmt ts.length ctx ts = .ok (body, mid) ∧
        (mid.headD ctx.eof).kind = .rightBrace ∧ mid.tail = rest := by
  have hblock : block stmt ctx ts = (statements stmt ts.length >>= fun body =>
      Parser.expect .rightBrace .blockEnd >>= fun _ => pure body) ctx ts := rfl
  rw [hblock, bind_eq_ok]
  constructor
  · rintro ⟨body, mid, hstatements, hread⟩
    obtain ⟨t, mid', hexpect, hread⟩ := bind_eq_ok.mp hread
    obtain ⟨rfl, rfl⟩ := pure_eq_ok.mp hread
    unfold Parser.expect at hexpect
    dsimp only at hexpect
    split at hexpect
    · next hkind =>
      cases hexpect
      exact ⟨mid, hstatements, hkind, rfl⟩
    · cases hexpect
  · rintro ⟨mid, hstatements, hkind, rfl⟩
    exact ⟨body, mid, hstatements, bind_eq_ok.mpr ⟨_, _, if_pos hkind, rfl⟩⟩

/-- A block counts the tokens that are left, and more of them make no difference. -/
theorem block_moved (hs : FollowsStmt f stmt) {ctx ctx' : ParseContext}
    (hlimit : ctx'.maxNesting = ctx.maxNesting) {ts mid extra : List Token} {body : List Stmt}
    (hread : statements stmt ts.length ctx ts = .ok (body, mid))
    (hclose : (mid.headD ctx.eof).kind = .rightBrace) (hmid : Onward f ctx ctx' mid extra) :
    block stmt ctx' (ts.map f ++ extra) =
      .ok (Stmt.mapTokensAll f body, (mid.map f ++ extra).tail) := by
  have hmoved := (statements_follow hf hs ts.length).read hlimit hread hmid
  have hend : ((mid.map f ++ extra).headD ctx'.eof).kind = .rightBrace := by
    rw [hmid.headD, hf.kind, hclose]
  have hle : ts.length ≤ (ts.map f ++ extra).length := by
    rw [List.length_append, List.length_map]
    exact Nat.le_add_right _ _
  exact block_eq_ok.mpr ⟨_, statements_of_le hle hmoved hend, hend, rfl⟩

theorem block_follows (hs : FollowsStmt f stmt) :
    Follows f (Stmt.mapTokensAll f) (block stmt) (block stmt) where
  nil ctx body rest hread := by
    obtain ⟨mid, hstatements, -, rfl⟩ := block_eq_ok.mp hread
    obtain rfl : mid = [] := (statements_follow hf hs _).nil hstatements
    rfl
  read ctx ctx' ts rest extra body hlimit hread honward := by
    obtain ⟨mid, hstatements, hclose, rfl⟩ := block_eq_ok.mp hread
    have hmid : Onward f ctx ctx' mid extra := by
      refine honward.imp_left fun hne hnil => hne ?_
      rw [hnil, List.tail_nil]
    rw [block_moved hf hs hlimit hstatements hclose hmid, honward.taken.2]

theorem function_follows (hs : FollowsStmt f stmt) : FollowsStmt f (function stmt) := by
  refine .bind (.expect hf _ _) fun name => .bind (.expect hf _ _) fun _ => ?_
  refine .bind (parameterList_follows hf) fun params => .bind (.expect hf _ _) fun _ => ?_
  refine .bind (.expect hf _ _) fun _ => .bind (block_follows hf hs) fun body => .pure rfl

theorem condition_follows (he : FollowsExpr f expr) (opening closing : Expected) :
    FollowsExpr f (condition expr opening closing) :=
  .bind (.expect hf _ _) fun _ => .bind he fun _ => .bind (.expect hf _ _) fun _ => .pure rfl

theorem ifStmt_follows (word : Token) (hs : FollowsStmt f stmt) (he : FollowsExpr f expr) :
    Follows f (Stmt.mapTokens f) (ifStmt word stmt expr) (ifStmt (f word) stmt expr) := by
  refine .bind (condition_follows hf he _ _) fun test => .bind hs fun yes => ?_
  refine .bind (.skip hf _) fun _ => .ite (fun _ => .bind hs fun no => .pure rfl) fun _ => ?_
  exact .pure rfl

theorem whileLoop_follows (word : Token) (hs : FollowsStmt f stmt) (he : FollowsExpr f expr) :
    Follows f (Stmt.mapTokens f) (whileLoop word stmt expr) (whileLoop (f word) stmt expr) :=
  .bind (condition_follows hf he _ _) fun _ => .bind hs fun _ => .pure rfl

theorem returnStmt_follows (word : Token) (inFunction : Bool) (he : FollowsExpr f expr) :
    Follows f (Stmt.mapTokens f) (returnStmt word inFunction expr)
      (returnStmt (f word) inFunction expr) := by
  refine .ite (fun _ => .failAt) fun _ => .bind (.atStatementEnd hf) fun _ => ?_
  refine .ite (fun _ => .bind (.statementEnd hf) fun _ => .pure rfl) fun _ => ?_
  exact .bind he fun value => .bind (.statementEnd hf) fun _ => .pure rfl

theorem statementBody_follows (inFunction : Bool) {statement : Bool → Parser Stmt}
    (hs : ∀ inside, FollowsStmt f (statement inside)) (he : FollowsExpr f expr) :
    FollowsStmt f (statementBody inFunction statement expr) := by
  refine .bind .current fun t => ?_
  rw [hf.kind]
  split
  · exact .bind .take fun _ => letVar_follows hf he
  · exact .bind .take fun _ => function_follows hf (hs true)
  · exact .bind .take fun _ => ifStmt_follows hf t (hs inFunction) he
  · exact .bind .take fun _ => whileLoop_follows hf t (hs inFunction) he
  · exact .bind .take fun _ => returnStmt_follows hf t inFunction he
  · exact .bind .take fun _ => .bind (block_follows hf (hs inFunction)) fun body => .pure rfl
  · exact .bind he fun e => .bind (.statementEnd hf) fun _ => .pure rfl

theorem statement_follows (inFunction : Bool) (room : Nat) :
    FollowsStmt f (statement inFunction room) := by
  induction room generalizing inFunction with
  | zero => exact .tooDeepHere
  | succ room ih =>
    rw [Grammar.statement_succ_eq]
    exact statementBody_follows hf inFunction ih (expression_follows hf room)

theorem topLevel_follows (bound : Nat) :
    Follows f (Stmt.mapTokensAll f) (topLevel bound) (topLevel bound) := by
  induction bound with
  | zero => exact .pure rfl
  | succ bound ih =>
    refine .bind .current fun t => ?_
    rw [hf.kind]
    refine .ite (fun _ => .pure rfl) fun _ => .bind .maxNesting fun room => ?_
    exact .bind (statement_follows hf false room) fun s => .bind ih fun rest => .pure rfl

end Statements

end Parser

end Lexiscope
