/-
  Lexiscope.Proofs.Grammar.Seam

  Programs in a row are read as one program.

  The only place where more tokens behind a program could matter is the seam. A program
  that ends with a semicolon or a closing brace (`Closed`) has nothing open there:
  expressions never take such a token, so what takes it is the statement itself
  (`Parser.Closes`). An `else` could still go on behind a brace, but no program begins
  with one.
-/
import Lexiscope.Proofs.Grammar.Completeness
import Lexiscope.Proofs.Grammar.Moved

namespace Lexiscope

open Grammar (headKind headKind_nil headKind_cons bind_eq_ok pure_eq_ok bind_of_ok skip_bind_of_ne)

-- ============================================================================
-- Closed texts
-- ============================================================================

/-- Is a token of this kind a semicolon or a closing brace? -/
def isClosing : Kind → Bool
  | .semicolon | .rightBrace => true
  | _ => false

/-- The tokens end with a semicolon or a closing brace. -/
def Closed (ts : List Token) : Prop := ∃ t ∈ ts.getLast?, isClosing t.kind = true

theorem not_closed_nil : ¬ Closed [] := by
  rintro ⟨t, ht, -⟩
  cases ht

theorem Closed.ne_nil {ts : List Token} (h : Closed ts) : ts ≠ [] := by
  rintro rfl
  exact not_closed_nil h

theorem Closed.of_append {us ts : List Token} (h : Closed (us ++ ts)) (hne : ts ≠ []) :
    Closed ts := by
  obtain ⟨t, ht, hkind⟩ := h
  have hlast := List.getLast?_eq_some_getLast hne
  rw [List.getLast?_append, hlast, Option.some_or] at ht
  exact ⟨t, hlast ▸ ht, hkind⟩

theorem Closed.of_cons {t : Token} {ts : List Token} (h : Closed (t :: ts))
    (ht : isClosing t.kind = false) : Closed ts := by
  cases ts with
  | nil =>
    obtain ⟨u, hu, hkind⟩ := h
    obtain rfl : t = u := Option.some.inj hu
    rw [ht] at hkind
    cases hkind
  | cons u ts =>
    rw [← List.singleton_append] at h
    exact h.of_append (List.cons_ne_nil u ts)

theorem not_closed_snoc {ts : List Token} {t : Token} (ht : isClosing t.kind = false) :
    ¬ Closed (ts ++ [t]) := fun h =>
  not_closed_nil ((h.of_append (List.cons_ne_nil t [])).of_cons ht)

theorem not_closed_append {us ts : List Token} (hne : ts ≠ []) (h : ¬ Closed ts) :
    ¬ Closed (us ++ ts) := fun h' => h (h'.of_append hne)

theorem not_closed_behind {us ts : List Token} {mark : Token} (hne : ts ≠ []) (h : ¬ Closed ts) :
    ¬ Closed (us ++ mark :: ts) := by
  rw [List.append_cons]
  exact not_closed_append hne h

namespace Grammar

theorem StartsWith.ne_nil {property : Kind → Bool} {ts : List Token} (h : StartsWith property ts) :
    ts ≠ [] := List.ne_nil_of_length_pos h.length_pos

mutual

/-- No expression ends with a semicolon or a closing brace. -/
theorem Expression.not_closed {ts : List Token} {e : Expr} : Expression ts e → ¬ Closed ts
  | .operators h => h.not_closed
  | .assign _ _ hvalue => not_closed_behind hvalue.starts.ne_nil hvalue.not_closed

theorem Binary.not_closed {n : Nat} {ts : List Token} {e : Expr} : Binary n ts e → ¬ Closed ts
  | .operand h => h.not_closed
  | .tighter h => h.not_closed
  | .join _ _ _ hright => not_closed_behind hright.starts.ne_nil hright.not_closed

theorem Unary.not_closed {ts : List Token} {e : Expr} : Unary ts e → ¬ Closed ts
  | .call h => h.not_closed
  | @Unary.mark mark ts _ _ _ h => @not_closed_append [mark] ts h.starts.ne_nil h.not_closed

theorem Call.not_closed {ts : List Token} {e : Expr} : Call ts e → ¬ Closed ts
  | .primary h => h.not_closed
  | .apply _ _ _ _ hr => not_closed_snoc (by rw [hr]; rfl)

theorem Primary.not_closed {ts : List Token} {e : Expr} : Primary ts e → ¬ Closed ts
  | .number hkind _ | .string hkind _ | .yes hkind | .no hkind | .nil hkind | .name hkind =>
    @not_closed_snoc [] _ (by rw [hkind]; rfl)
  | .group _ _ hr => not_closed_snoc (by rw [hr]; rfl)

end

end Grammar

namespace Parser

variable {f : Token → Token} {α β γ δ : Type} {g : α → β} {g' : γ → δ}

-- ============================================================================
-- Parsers that do not close a text
-- ============================================================================

/-- Of a closed text the parser leaves a closed text. -/
def Leaves (p : Parser α) : Prop :=
  ∀ ⦃ctx ts a rest⦄, ctx.eof.kind = .eof → p ctx ts = .ok (a, rest) → Closed ts → Closed rest

namespace Leaves

protected theorem pure (a : α) : Leaves (pure a) := by
  intro ctx ts b rest _ hread hclosed
  obtain ⟨rfl, rfl⟩ := pure_eq_ok.mp hread
  exact hclosed

protected theorem bind {p : Parser α} {h : α → Parser γ} (hp : Leaves p)
    (hh : ∀ a, Leaves (h a)) : Leaves (p >>= h) := by
  intro ctx ts c rest heof hread hclosed
  obtain ⟨a, mid, hfirst, hsecond⟩ := bind_eq_ok.mp hread
  exact hh a heof hsecond (hp heof hfirst hclosed)

theorem ite {c : Prop} [Decidable c] {p q : Parser α} (hyes : c → Leaves p) (hno : ¬ c → Leaves q) :
    Leaves (if c then p else q) := by
  split
  · next h => exact hyes h
  · next h => exact hno h

theorem of_fails {p : Parser α} (h : ∀ ctx ts r, p ctx ts ≠ .ok r) : Leaves p :=
  fun _ _ _ _ _ hread _ => absurd hread (h _ _ _)

theorem at_ (kind : Kind) : Leaves (Parser.at_ kind) := by
  intro ctx ts b rest _ hread hclosed
  exact (Grammar.at_eq_ok.mp hread).2 ▸ hclosed

theorem atStatementEnd : Leaves Parser.atStatementEnd := by
  intro ctx ts b rest _ hread hclosed
  cases hread
  exact hclosed

theorem skip {kind : Kind} (hkind : isClosing kind = false) (hne : kind ≠ .eof) :
    Leaves (Parser.skip kind) := by
  intro ctx ts b rest heof hread hclosed
  cases b with
  | true =>
    obtain ⟨t, rfl, rfl⟩ := (Grammar.skip_eq_ok_true heof hne).mp hread
    exact hclosed.of_cons hkind
  | false =>
    obtain ⟨-, rfl⟩ := (Grammar.skip_eq_ok_false heof hne).mp hread
    exact hclosed

theorem expect {kind : Kind} (hkind : isClosing kind = false) (hne : kind ≠ .eof) (x : Expected) :
    Leaves (Parser.expect kind x) := by
  intro ctx ts t rest heof hread hclosed
  obtain ⟨rfl, rfl⟩ := (Grammar.expect_eq_ok heof hne).mp hread
  exact hclosed.of_cons hkind

end Leaves

theorem expression_leaves (room : Nat) : Leaves (expression room) := by
  intro ctx ts e rest heof hread hclosed
  obtain ⟨us, rfl, hexpression⟩ := Grammar.expression_reads room heof hread
  cases rest with
  | nil =>
    rw [List.append_nil] at hclosed
    exact absurd hclosed hexpression.not_closed
  | cons t rest => exact hclosed.of_append (List.cons_ne_nil t rest)

theorem parameters_leave (slots : Nat) (read : List Token) : Leaves (parameters slots read) := by
  induction slots generalizing read with
  | zero => exact .of_fails fun _ _ _ => nofun
  | succ slots ih =>
    refine .bind (.expect rfl (by decide) _) fun param => ?_
    refine .ite (fun _ => .of_fails fun _ _ _ => nofun) fun _ => ?_
    exact .bind (.skip rfl (by decide)) fun _ => .ite (fun _ => ih _) fun _ => .pure _

theorem parameterList_leaves : Leaves parameterList :=
  .bind (.at_ _) fun _ => .ite (fun _ => .pure _) fun _ => parameters_leave _ _

theorem condition_leaves {expr : Parser Expr} (he : Leaves expr) (opening closing : Expected) :
    Leaves (condition expr opening closing) := by
  refine .bind (.expect rfl (by decide) _) fun _ => .bind he fun e => ?_
  exact .bind (.expect rfl (by decide) _) fun _ => .pure e

-- ============================================================================
-- Parsers that can end a text
-- ============================================================================

/-- Of a closed text that it reads to the end the parser reads as much if more stands behind it,
    unless this begins with an `else`. -/
def ReadsUp (f : Token → Token) (g : α → β) (p : Parser α) (q : Parser β) (ts : List Token) :
    Prop :=
  ∀ ⦃ctx ctx' extra a⦄, ctx.eof.kind = .eof → ctx'.eof.kind = .eof →
    ctx'.maxNesting = ctx.maxNesting → headKind extra .eof ≠ .elseWord → Closed ts →
    p ctx ts = .ok (a, []) → q ctx' (ts.map f ++ extra) = .ok (g a, extra)

/-- The second parser follows the first, also where a closed text ends. -/
structure Closes (f : Token → Token) (g : α → β) (p : Parser α) (q : Parser β) : Prop where
  follows : Follows f g p q
  close : ∀ ts, ReadsUp f g p q ts

namespace Closes

/-- A closed text is read alike with more behind it, to the end or not. -/
theorem read {p : Parser α} {q : Parser β} (hp : Closes f g p q) {ctx ctx' : ParseContext}
    {ts rest extra : List Token} {a : α} (heof : ctx.eof.kind = .eof) (heof' : ctx'.eof.kind = .eof)
    (hlimit : ctx'.maxNesting = ctx.maxNesting) (hextra : headKind extra .eof ≠ .elseWord)
    (hclosed : Closed ts) (hread : p ctx ts = .ok (a, rest)) :
    q ctx' (ts.map f ++ extra) = .ok (g a, rest.map f ++ extra) := by
  cases rest with
  | nil => exact hp.close ts heof heof' hlimit hextra hclosed hread
  | cons t rest => exact hp.follows.read hlimit hread (.inl (List.cons_ne_nil t rest))

protected theorem pure {a : α} {b : β} (h : g a = b) : Closes f g (pure a) (pure b) where
  follows := .pure h
  close ts ctx ctx' extra a' _ _ _ _ hclosed hread := by
    obtain ⟨-, rfl⟩ := pure_eq_ok.mp hread
    exact absurd hclosed not_closed_nil

/-- What leaves a closed text may stand in front. -/
protected theorem bind {p : Parser α} {q : Parser β} {h : α → Parser γ} {k : β → Parser δ}
    (hp : Follows f g p q) (hl : Leaves p) (hh : ∀ a, Closes f g' (h a) (k (g a))) :
    Closes f g' (p >>= h) (q >>= k) where
  follows := .bind hp fun a => (hh a).follows
  close ts ctx ctx' extra c heof heof' hlimit hextra hclosed hread := by
    obtain ⟨a, mid, hfirst, hsecond⟩ := bind_eq_ok.mp hread
    have hmid := hl heof hfirst hclosed
    have honward : Onward f ctx ctx' mid extra := .inl hmid.ne_nil
    exact bind_eq_ok.mpr ⟨g a, _, hp.read hlimit hfirst honward,
      (hh a).close mid heof heof' hlimit hextra hmid hsecond⟩

/-- What ends a closed text itself may stand in front as well, if the rest can read nothing
    there. -/
theorem seq {p : Parser α} {q : Parser β} {h : α → Parser γ} {k : β → Parser δ}
    (hp : Closes f g p q) {R : List Token → Kind → α → Prop} (hreads : Grammar.ReadsBefore p R)
    (hh : ∀ a, Closes f g' (h a) (k (g a)))
    (hnothing : ∀ a ⦃ctx ctx' extra c⦄, ctx.eof.kind = .eof → ctx'.eof.kind = .eof →
      headKind extra .eof ≠ .elseWord → h a ctx [] = .ok (c, []) →
      k (g a) ctx' extra = .ok (g' c, extra)) :
    Closes f g' (p >>= h) (q >>= k) where
  follows := .bind hp.follows fun a => (hh a).follows
  close ts ctx ctx' extra c heof heof' hlimit hextra hclosed hread := by
    obtain ⟨a, mid, hfirst, hsecond⟩ := bind_eq_ok.mp hread
    refine bind_eq_ok.mpr ⟨g a, _, hp.read heof heof' hlimit hextra hclosed hfirst, ?_⟩
    cases mid with
    | nil => exact hnothing a heof heof' hextra hsecond
    | cons t mid =>
      obtain ⟨us, rfl, -⟩ := hreads heof hfirst
      have hmid := hclosed.of_append (List.cons_ne_nil t mid)
      exact (hh a).close _ heof heof' hlimit hextra hmid hsecond

/-- What only makes a result of what was read may stand behind. -/
theorem map {p : Parser α} {q : Parser β} {h : α → γ} {k : β → δ} (hp : Closes f g p q)
    (hh : ∀ a, g' (h a) = k (g a)) :
    Closes f g' (p >>= fun a => pure (h a)) (q >>= fun b => pure (k b)) where
  follows := .bind hp.follows fun a => .pure (hh a)
  close ts ctx ctx' extra c heof heof' hlimit hextra hclosed hread := by
    obtain ⟨a, mid, hfirst, hsecond⟩ := bind_eq_ok.mp hread
    obtain ⟨rfl, rfl⟩ := pure_eq_ok.mp hsecond
    have hmoved := hp.close ts heof heof' hlimit hextra hclosed hfirst
    exact bind_eq_ok.mpr ⟨g a, extra, hmoved, pure_eq_ok.mpr ⟨(hh a).symm, rfl⟩⟩

theorem ite {c : Prop} [Decidable c] {p p' : Parser α} {q q' : Parser β}
    (hyes : c → Closes f g p q) (hno : ¬ c → Closes f g p' q') :
    Closes f g (if c then p else p') (if c then q else q') := by
  split
  · next h => exact hyes h
  · next h => exact hno h

theorem failAt {t : Token} {x : Expected} {q : Parser β} :
    Closes f g (Parser.failAt t x : Parser α) q where
  follows := .failAt
  close _ _ _ _ _ _ _ _ _ _ hread := nomatch hread

theorem tooDeepHere {q : Parser β} : Closes f g (Parser.tooDeepHere : Parser α) q where
  follows := .tooDeepHere
  close _ _ _ _ _ _ _ _ _ _ hread := nomatch hread

/-- The first token may decide how to read on. -/
theorem of_current {h : Token → Parser α} {k : Token → Parser β}
    (hfollows : Follows f g (Parser.current >>= h) (Parser.current >>= k))
    (hh : ∀ t ts, ReadsUp f g (h t) (k (f t)) (t :: ts)) :
    Closes f g (Parser.current >>= h) (Parser.current >>= k) where
  follows := hfollows
  close ts ctx ctx' extra a heof heof' hlimit hextra hclosed hread := by
    cases ts with
    | nil => exact absurd hclosed not_closed_nil
    | cons t ts => exact hh t ts heof heof' hlimit hextra hclosed hread

/-- A token that does not close a text is taken, and then the rest is read. -/
theorem take {p : Parser α} {q : Parser β} (hp : Closes f g p q) {t : Token} (ts : List Token)
    (ht : isClosing t.kind = false) :
    ReadsUp f g (Parser.take >>= fun _ => p) (Parser.take >>= fun _ => q) (t :: ts) :=
  fun _ _ _ _ heof heof' hlimit hextra hclosed hread =>
    hp.close ts heof heof' hlimit hextra (hclosed.of_cons ht) hread

end Closes

-- ============================================================================
-- Statements
-- ============================================================================

section Statements

variable (hf : Token.Moves f) {expr : Parser Expr} {stmt : Parser Stmt}
include hf

theorem statementEnd_closes : Closes f (fun u => u) statementEnd statementEnd where
  follows := .statementEnd hf
  close ts ctx ctx' extra u heof heof' hlimit hextra hclosed hread := by
    obtain ⟨us, rfl, hstop⟩ := Grammar.statementEnd_reads heof hread
    rw [List.append_nil] at hclosed ⊢
    cases hstop with
    | missing _ => exact absurd hclosed not_closed_nil
    | @semicolon t _ hkind =>
      have hstop : Grammar.Terminator [f t] (headKind extra .eof) :=
        .semicolon ((hf.kind t).trans hkind)
      exact hstop.read heof' rfl

theorem block_closes (hs : FollowsStmt f stmt) :
    Closes f (Stmt.mapTokensAll f) (block stmt) (block stmt) where
  follows := block_follows hf hs
  close ts ctx ctx' extra body heof heof' hlimit _ _ hread := by
    obtain ⟨mid, hstatements, hclose, htail⟩ := block_eq_ok.mp hread
    cases mid with
    | nil =>
      rw [List.headD_nil, heof] at hclose
      cases hclose
    | cons t mid =>
      obtain rfl : mid = [] := htail
      exact block_moved hf hs hlimit hstatements hclose (.inl (List.cons_ne_nil t []))

theorem letVar_closes (he : FollowsExpr f expr) (hl : Leaves expr) :
    Closes f (Stmt.mapTokens f) (letVar expr) (letVar expr) := by
  refine .bind (.expect hf _ _) (.expect rfl (by decide) _) fun name => ?_
  refine .bind (.skip hf _) (.skip rfl (by decide)) fun _ => .ite (fun _ => ?_) fun _ => ?_
  · exact .bind he hl fun value => .map (statementEnd_closes hf) fun _ => rfl
  · exact .map (statementEnd_closes hf) fun _ => rfl

theorem function_closes (hs : FollowsStmt f stmt) :
    Closes f (Stmt.mapTokens f) (function stmt) (function stmt) := by
  refine .bind (.expect hf _ _) (.expect rfl (by decide) _) fun name => ?_
  refine .bind (.expect hf _ _) (.expect rfl (by decide) _) fun _ => ?_
  refine .bind (parameterList_follows hf) parameterList_leaves fun params => ?_
  refine .bind (.expect hf _ _) (.expect rfl (by decide) _) fun _ => ?_
  refine .bind (.expect hf _ _) (.expect rfl (by decide) _) fun _ => ?_
  exact .map (block_closes hf hs) fun _ => rfl

theorem whileLoop_closes (word : Token) (hs : Closes f (Stmt.mapTokens f) stmt stmt)
    (he : FollowsExpr f expr) (hl : Leaves expr) :
    Closes f (Stmt.mapTokens f) (whileLoop word stmt expr) (whileLoop (f word) stmt expr) :=
  .bind (condition_follows hf he _ _) (condition_leaves hl _ _) fun _ => .map hs fun _ => rfl

/-- Behind the statement of an `if` there may be an `else`, but not where nothing is left. -/
theorem ifStmt_closes (word : Token) {inside : Bool} (hs : Closes f (Stmt.mapTokens f) stmt stmt)
    (hreads : Grammar.ReadsBefore stmt (Grammar.Settled inside)) (he : FollowsExpr f expr)
    (hl : Leaves expr) :
    Closes f (Stmt.mapTokens f) (ifStmt word stmt expr) (ifStmt (f word) stmt expr) := by
  refine .bind (condition_follows hf he _ _) (condition_leaves hl _ _) fun test => ?_
  refine .seq hs hreads (fun yes => ?_) fun yes ctx ctx' extra s heof heof' hextra hread => ?_
  · refine .bind (.skip hf _) (.skip rfl (by decide)) fun _ => .ite (fun _ => ?_) fun _ => .pure rfl
    exact .map hs fun _ => rfl
  · rw [skip_bind_of_ne heof (by decide) (by decide)] at hread
    rw [skip_bind_of_ne heof' (by decide) hextra]
    obtain ⟨rfl, -⟩ := pure_eq_ok.mp hread
    rfl

theorem returnStmt_closes (word : Token) (inFunction : Bool) (he : FollowsExpr f expr)
    (hl : Leaves expr) :
    Closes f (Stmt.mapTokens f) (returnStmt word inFunction expr)
      (returnStmt (f word) inFunction expr) := by
  refine .ite (fun _ => .failAt) fun _ => .bind (.atStatementEnd hf) .atStatementEnd fun _ => ?_
  refine .ite (fun _ => .map (statementEnd_closes hf) fun _ => rfl) fun _ => ?_
  exact .bind he hl fun value => .map (statementEnd_closes hf) fun _ => rfl

theorem statementBody_closes (inFunction : Bool) {statement : Bool → Parser Stmt}
    (hs : ∀ inside, Closes f (Stmt.mapTokens f) (statement inside) (statement inside))
    (hreads : ∀ inside, Grammar.ReadsBefore (statement inside) (Grammar.Settled inside))
    (he : FollowsExpr f expr) (hl : Leaves expr) :
    Closes f (Stmt.mapTokens f) (statementBody inFunction statement expr)
      (statementBody inFunction statement expr) := by
  have hfollows := statementBody_follows hf inFunction (fun inside => (hs inside).follows) he
  refine .of_current hfollows fun t ts => ?_
  rw [hf.kind]
  split
  · next hkind => exact (letVar_closes hf he hl).take ts (by rw [hkind]; rfl)
  · next hkind => exact (function_closes hf (hs true).follows).take ts (by rw [hkind]; rfl)
  · next hkind =>
    have hif := ifStmt_closes hf t (hs inFunction) (hreads inFunction) he hl
    exact hif.take ts (by rw [hkind]; rfl)
  · next hkind => exact (whileLoop_closes hf t (hs inFunction) he hl).take ts (by rw [hkind]; rfl)
  · next hkind => exact (returnStmt_closes hf t inFunction he hl).take ts (by rw [hkind]; rfl)
  · next hkind =>
    have hblock : Closes f (Stmt.mapTokens f) (block (statement inFunction) >>= fun body =>
        pure (.block t body)) (block (statement inFunction) >>= fun body =>
        pure (.block (f t) body)) := .map (block_closes hf (hs inFunction).follows) fun _ => rfl
    exact hblock.take ts (by rw [hkind]; rfl)
  · have hexpression : Closes f (Stmt.mapTokens f) (expr >>= fun e => statementEnd >>= fun _ =>
        pure (.expression e)) (expr >>= fun e => statementEnd >>= fun _ =>
        pure (.expression e)) := .bind he hl fun e => .map (statementEnd_closes hf) fun _ => rfl
    exact hexpression.close (t :: ts)

theorem statement_closes (inFunction : Bool) (room : Nat) :
    Closes f (Stmt.mapTokens f) (statement inFunction room) (statement inFunction room) := by
  induction room generalizing inFunction with
  | zero => exact .tooDeepHere
  | succ room ih =>
    rw [Grammar.statement_succ_eq]
    exact statementBody_closes hf inFunction ih (Grammar.statement_reads · room)
      (expression_follows hf room) (expression_leaves room)

end Statements

-- ============================================================================
-- Programs
-- ============================================================================

theorem topLevel_done {bound : Nat} {ctx : ParseContext} {ts rest : List Token} {ss : List Stmt}
    (heof : (ts.headD ctx.eof).kind = .eof) :
    topLevel (bound + 1) ctx ts = .ok (ss, rest) ↔ [] = ss ∧ ts = rest := by
  rw [topLevel, Grammar.current_bind, if_pos heof, pure_eq_ok]

theorem topLevel_more {bound : Nat} {ctx : ParseContext} {ts rest : List Token} {ss : List Stmt}
    (hne : ¬ (ts.headD ctx.eof).kind = .eof) :
    topLevel (bound + 1) ctx ts = .ok (ss, rest) ↔
      ∃ s mid ss', statement false ctx.maxNesting ctx ts = .ok (s, mid) ∧
        topLevel bound ctx mid = .ok (ss', rest) ∧ s :: ss' = ss := by
  have hroom : maxNesting ctx ts = .ok (ctx.maxNesting, ts) := rfl
  rw [topLevel, Grammar.current_bind, if_neg hne, bind_of_ok hroom, bind_eq_ok]
  constructor
  · rintro ⟨s, mid, hfirst, hread⟩
    obtain ⟨ss', left, hrest, hread⟩ := bind_eq_ok.mp hread
    obtain ⟨rfl, rfl⟩ := pure_eq_ok.mp hread
    exact ⟨s, mid, ss', hfirst, hrest, rfl⟩
  · rintro ⟨s, mid, ss', hfirst, hrest, rfl⟩
    exact ⟨s, mid, hfirst, bind_eq_ok.mpr ⟨ss', rest, hrest, rfl⟩⟩

/-- What was read to the end is read with a larger bound as well. -/
theorem topLevel_of_le {bound more : Nat} (hle : bound ≤ more) {ctx : ParseContext}
    (heof : ctx.eof.kind = .eof) {ts : List Token} {ss : List Stmt}
    (hread : topLevel bound ctx ts = .ok (ss, [])) : topLevel more ctx ts = .ok (ss, []) := by
  induction bound generalizing more ts ss with
  | zero =>
    obtain ⟨rfl, rfl⟩ := pure_eq_ok.mp hread
    cases more with
    | zero => rfl
    | succ more =>
      have hend : (([] : List Token).headD ctx.eof).kind = .eof := heof
      exact (topLevel_done hend).mpr ⟨rfl, rfl⟩
  | succ bound ih =>
    obtain ⟨more, rfl⟩ : ∃ left, more = left + 1 := ⟨more - 1, by omega⟩
    by_cases hend : (ts.headD ctx.eof).kind = .eof
    · exact (topLevel_done hend).mpr ((topLevel_done hend).mp hread)
    · obtain ⟨s, mid, ss', hfirst, hrest, rfl⟩ := (topLevel_more hend).mp hread
      have hmore := ih (Nat.le_of_succ_le_succ hle) hrest
      exact (topLevel_more hend).mpr ⟨s, mid, ss', hfirst, hmore, rfl⟩

/-- Behind the statements of a closed text more statements are read. -/
theorem topLevel_append {ctx ctx' : ParseContext} (heof : ctx.eof.kind = .eof)
    (heof' : ctx'.eof.kind = .eof) (hlimit : ctx'.maxNesting = ctx.maxNesting) {extra : List Token}
    (hextra : headKind extra .eof ≠ .elseWord) {more : Nat} {rest : List Stmt}
    (hmore : topLevel more ctx' extra = .ok (rest, [])) {bound total : Nat} {ts : List Token}
    {ss : List Stmt} (hread : topLevel bound ctx ts = .ok (ss, [])) (hclosed : ts = [] ∨ Closed ts)
    (htotal : ts.length + more ≤ total) :
    topLevel total ctx' (ts ++ extra) = .ok (ss ++ rest, []) := by
  -- statement by statement: only the last one stands at the seam
  induction bound generalizing total ts ss with
  | zero =>
    obtain ⟨rfl, rfl⟩ := pure_eq_ok.mp hread
    exact topLevel_of_le (by omega) heof' hmore
  | succ bound ih =>
    by_cases hend : (ts.headD ctx.eof).kind = .eof
    · obtain ⟨rfl, rfl⟩ := (topLevel_done hend).mp hread
      exact topLevel_of_le (by omega) heof' hmore
    · obtain ⟨s, left, ss', hfirst, hss, rfl⟩ := (topLevel_more hend).mp hread
      have hclosed : Closed ts := by
        refine hclosed.resolve_left ?_
        rintro rfl
        exact hend heof
      obtain ⟨us, hts, hs⟩ := Grammar.statement_reads false _ heof hfirst
      have hpos := hs.derived.starts.length_pos
      have hlength : ts.length = us.length + left.length := by rw [hts, List.length_append]
      have hleft : left = [] ∨ Closed left :=
        Classical.or_iff_not_imp_left.mpr (hts ▸ hclosed).of_append
      obtain ⟨total, rfl⟩ : ∃ n, total = n + 1 := ⟨total - 1, by omega⟩
      have hrest := ih hss hleft (by omega : left.length + more ≤ total)
      have hfirst' := (statement_closes .id false _).read heof heof' hlimit hextra hclosed hfirst
      rw [List.map_id, List.map_id, Stmt.mapTokens_id, ← hlimit] at hfirst'
      have hhead : ¬ ((ts ++ extra).headD ctx'.eof).kind = .eof := by
        obtain ⟨t, ts, rfl⟩ := List.exists_cons_of_ne_nil hclosed.ne_nil
        exact hend
      exact (topLevel_more hhead).mpr ⟨s, _, _, hfirst', hrest, rfl⟩

end Parser

-- ============================================================================
-- Programs in a row
-- ============================================================================

theorem parse_eq_ok {body : List Token} {eof : Token} {limit : Nat} {p : Program}
    (heof : eof.kind = .eof) (hbody : ∀ t ∈ body, t.kind ≠ .eof) :
    Program.parse (body ++ [eof]) limit = .ok p ↔
      Parser.topLevel body.length ⟨eof, limit⟩ body = .ok (p.statements, []) := by
  rw [Program.parse, Grammar.beforeEof_append heof hbody, Grammar.eofOf_append heof hbody]
  constructor
  · intro h
    cases hread : Parser.topLevel body.length ⟨eof, limit⟩ body with
    | error e => simp [hread, Except.map] at h
    | ok r =>
      simp only [hread, Except.map, Except.ok.injEq] at h
      have hrest := (Grammar.topLevel_read heof hbody (Nat.le_refl _) hread).1
      rw [← h, ← hrest]
  · intro h
    simp only [h, Except.map]

/-- Tokens that are read as programs, of which the first end with a semicolon or a closing brace,
    are read as one program. -/
theorem parse_append {f : Token → Token} (hf : Token.Moves f) {before body : List Token}
    {eof eof' : Token} {limit : Nat} {p q : Program} (heof : eof.kind = .eof)
    (heof' : eof'.kind = .eof) (hbefore : ∀ t ∈ before, t.kind ≠ .eof)
    (hbody : ∀ t ∈ body, t.kind ≠ .eof) (hp : Program.parse (before ++ [eof]) limit = .ok p)
    (hq : Program.parse (body ++ [eof']) limit = .ok q) (hclosed : before = [] ∨ Closed before) :
    Program.parse ((before ++ body.map f) ++ [f eof']) limit =
      .ok ⟨p.statements ++ (q.mapTokens f).statements⟩ := by
  have hmoved : (f eof').kind = .eof := (hf.kind eof').trans heof'
  have hkinds : ∀ t ∈ before ++ body.map f, t.kind ≠ .eof := by
    intro t ht
    obtain ht | ht := List.mem_append.mp ht
    · exact hbefore t ht
    · obtain ⟨u, hu, rfl⟩ := List.mem_map.mp ht
      rw [hf.kind]
      exact hbody u hu
  rw [parse_eq_ok heof hbefore] at hp
  rw [parse_eq_ok heof' hbody] at hq
  rw [parse_eq_ok hmoved hkinds]
  have hstatements := (Grammar.topLevel_read heof' hbody (Nat.le_refl _) hq).2
  have honward : Parser.Onward f ⟨eof', limit⟩ ⟨f eof', limit⟩ [] [] := .inr ⟨rfl, rfl⟩
  have hmore : Parser.topLevel body.length ⟨f eof', limit⟩ (body.map f) =
      .ok ((q.mapTokens f).statements, []) := by
    rw [← List.append_nil (body.map f)]
    exact (Parser.topLevel_follows hf body.length).read (by rfl) hq honward
  have hhead : headKind (body.map f) .eof ≠ .elseWord := by
    have hne := hstatements.headKind_ne_else (.inr rfl)
    cases body with
    | nil => exact hne
    | cons t body => rwa [List.map_cons, headKind_cons, hf.kind]
  have htotal : before.length + body.length = (before ++ body.map f).length := by
    rw [List.length_append, List.length_map]
  exact Parser.topLevel_append heof hmoved (by rfl) hhead hmore hp hclosed (Nat.le_of_eq htotal)

end Lexiscope
