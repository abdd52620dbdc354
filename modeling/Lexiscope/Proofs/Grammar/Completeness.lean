/-
  Lexiscope.Proofs.Grammar.Completeness

  Whatever the grammar derives, the parser reads; with soundness, the parser
  accepts exactly the grammar, and a row of tokens is at most one program.

  A derivation is followed from the leaves up. Its tokens stand in front of a
  rest that cannot prolong them (`Stops`), and the parser then leaves exactly
  that rest. The two loops of the parser, over the operators of one level and
  over the calls behind a callee, run from left to right while the derivation
  has the last operator or call on top; so the induction says which call of the
  loop is still to run when the tokens of a derivation are used up, and with how
  much room. Every level of nesting takes a token, so room for all tokens is
  room enough.
-/
import Lexiscope.Proofs.Grammar.Soundness

namespace Lexiscope.Grammar

open Lexiscope.Parser

-- ============================================================================
-- What the steps of a parser do
-- ============================================================================

section Steps

variable {α β : Type} {ctx : ParseContext} {t : Token} {ts mid : List Token}

theorem bind_of_ok {p : Parser α} {f : α → Parser β} {a : α} (h : p ctx ts = .ok (a, mid)) :
    (p >>= f) ctx ts = f a ctx mid := by
  show Parser.bind p f ctx ts = f a ctx mid
  rw [Parser.bind, h]

theorem pure_apply (a : α) : (pure a : Parser α) ctx ts = .ok (a, ts) := rfl

theorem current_bind (f : Token → Parser β) :
    (current >>= f) ctx ts = f (ts.headD ctx.eof) ctx ts := rfl

theorem take_bind (f : Token → Parser β) : (take >>= f) ctx (t :: ts) = f t ctx ts := rfl

theorem at_bind {kind : Kind} (f : Bool → Parser β) :
    (at_ kind >>= f) ctx ts = f (decide ((ts.headD ctx.eof).kind = kind)) ctx ts := rfl

theorem expect_bind {kind : Kind} {x : Expected} (h : t.kind = kind) (f : Token → Parser β) :
    (expect kind x >>= f) ctx (t :: ts) = f t ctx ts :=
  bind_of_ok (by simp [expect, h])

theorem skip_bind {kind : Kind} (h : t.kind = kind) (f : Bool → Parser β) :
    (skip kind >>= f) ctx (t :: ts) = f true ctx ts :=
  bind_of_ok (by simp [skip, h])

theorem skip_bind_of_ne {kind : Kind} (heof : ctx.eof.kind = .eof) (hkind : kind ≠ .eof)
    (h : headKind ts .eof ≠ kind) (f : Bool → Parser β) :
    (skip kind >>= f) ctx ts = f false ctx ts :=
  bind_of_ok ((skip_eq_ok_false heof hkind).mpr ⟨h, rfl⟩)

theorem headD_kind (heof : ctx.eof.kind = .eof) : (ts.headD ctx.eof).kind = headKind ts .eof := by
  cases ts with
  | nil => exact heof
  | cons t ts => rfl

end Steps

-- ============================================================================
-- What cannot prolong an expression
-- ============================================================================

/-- Before a token of this kind, operands joined by operators of at least level `n` end. -/
structure Stops (n : Nat) (kind : Kind) : Prop where
  no_call : kind ≠ .leftParen
  no_operator : ∀ op, BinaryOp.ofKind? kind = some op → level op < n

theorem Stops.mono {n m : Nat} {kind : Kind} (h : Stops n kind) (hle : n ≤ m) : Stops m kind :=
  ⟨h.no_call, fun op hop => Nat.lt_of_lt_of_le (h.no_operator op hop) hle⟩

/-- May a token of this kind stand behind an expression? -/
def endsExpression : Kind → Bool
  | .rightParen | .comma | .semicolon | .rightBrace | .eof => true
  | _ => false

theorem stops_zero_of_operator_free {kind : Kind} (hcall : kind ≠ .leftParen)
    (hop : BinaryOp.ofKind? kind = none) : Stops 0 kind :=
  ⟨hcall, fun op h => by simp [hop] at h⟩

theorem stops_zero_of_endsExpression {kind : Kind} (h : endsExpression kind = true) :
    Stops 0 kind := by
  cases kind with
  | rightParen | comma | semicolon | rightBrace | eof =>
    exact stops_zero_of_operator_free (by decide) rfl
  | _ => simp [endsExpression] at h

theorem ofKind?_of_startsPrimary {kind : Kind} (h : startsPrimary kind = true) :
    UnaryOp.ofKind? kind = none := by
  revert h
  cases kind <;> decide

-- ============================================================================
-- Operators and calls
-- ============================================================================

section Loops

variable {ctx : ParseContext} {room : Nat} {ts us rest : List Token}

theorem unary_of_primary {operand expression : Parser Expr} (hstart : StartsWith startsPrimary ts) :
    unary room operand expression ctx ts =
      (primary expression >>= fun e => calls expression room e) ctx ts := by
  obtain ⟨t, vs, rfl, ht⟩ := hstart
  rw [unary, current_bind, List.headD_cons, ofKind?_of_startsPrimary ht]

/-- No call behind a callee. -/
theorem calls_done {expression : Parser Expr} (heof : ctx.eof.kind = .eof)
    (hrest : headKind rest .eof ≠ .leftParen) (m : Nat) (e : Expr) :
    calls expression m e ctx rest = .ok (e, rest) := by
  have hne : ¬ (rest.headD ctx.eof).kind = .leftParen := by rwa [headD_kind heof]
  cases m with
  | zero => rw [calls, current_bind, if_neg hne, pure_apply]
  | succ m => rw [calls, current_bind, if_neg hne, pure_apply]

/-- One more call behind a callee. -/
theorem calls_step {expression : Parser Expr} {l r : Token} {m : Nat} {f : Expr}
    {args : List Expr} (hl : l.kind = .leftParen) (hr : r.kind = .rightParen)
    (hargs : argumentList expression ctx (us ++ r :: rest) = .ok (args, r :: rest)) :
    calls expression (m + 1) f ctx (l :: us ++ r :: rest)
      = calls expression m (.call f l args) ctx rest := by
  have harguments : arguments expression ctx (us ++ r :: rest) = .ok (args, rest) := by
    rw [arguments, bind_of_ok hargs, expect_bind hr, pure_apply]
  rw [List.cons_append, calls, current_bind, List.headD_cons, if_pos hl, take_bind,
    bind_of_ok harguments]

/-- The loop over the operators of a level; there is none above the highest level. -/
def levelLoop (room : Nat) (operand : Parser Expr) (n m : Nat) (e : Expr) : Parser Expr :=
  match ladder[n]? with
  | some rung => chain rung (binary room operand (ladder.drop (n + 1))) m e
  | none => pure e

/-- No operator of the level behind an operand. -/
theorem levelLoop_done {operand : Parser Expr} (heof : ctx.eof.kind = .eof) {n : Nat}
    (hrest : Stops n (headKind rest .eof)) (m : Nat) (e : Expr) :
    levelLoop room operand n m e ctx rest = .ok (e, rest) := by
  rw [levelLoop]
  cases hrung : ladder[n]? with
  | none => rfl
  | some rung =>
    have hnone : operatorAt? rung (rest.headD ctx.eof) = none := by
      rw [Option.eq_none_iff_forall_ne_some]
      intro op hop
      obtain ⟨hkind, hlevel⟩ := (operatorAt?_eq_some_iff hrung).mp hop
      rw [headD_kind heof] at hkind
      have hlt := hrest.no_operator op hkind
      omega
    cases m with
    | zero => simp only [chain, current_bind, hnone, pure_apply]
    | succ m => simp only [chain, current_bind, hnone, pure_apply]

/-- One more operator of the level behind an operand. -/
theorem levelLoop_step {operand : Parser Expr} {n m : Nat} {op : BinaryOp} {mark : Token}
    {l r : Expr} (hmark : BinaryOp.ofKind? mark.kind = some op) (hlevel : level op = n)
    (hright : binary room operand (ladder.drop (n + 1)) ctx (us ++ rest) = .ok (r, rest)) :
    levelLoop room operand n (m + 1) l ctx (mark :: us ++ rest)
      = levelLoop room operand n m (.binary op mark l r) ctx rest := by
  have hn : n < ladder.length := by
    rw [← hlevel]
    cases op <;> decide
  have hrung := List.getElem?_eq_getElem hn
  have hop := (operatorAt?_eq_some_iff hrung).mpr ⟨hmark, hlevel⟩
  simp only [levelLoop, hrung, chain, List.cons_append, current_bind, List.headD_cons, hop,
    take_bind]
  rw [bind_of_ok hright]

/-- A level begins with an operand of the next one. -/
theorem binary_drop {operand : Parser Expr} {n : Nat} (hn : n < operandLevel) {e : Expr}
    (h : binary room operand (ladder.drop (n + 1)) ctx (ts ++ rest) = .ok (e, rest)) :
    binary room operand (ladder.drop n) ctx (ts ++ rest)
      = levelLoop room operand n room e ctx rest := by
  have hlen : n < ladder.length := hn
  rw [List.drop_eq_getElem_cons hlen, binary, bind_of_ok h, levelLoop,
    List.getElem?_eq_getElem hlen]

/-- An operand alone, at any level. -/
theorem binary_of_operand {operand : Parser Expr} (heof : ctx.eof.kind = .eof) {n : Nat}
    (hn : n ≤ operandLevel) {e : Expr} (hrest : Stops n (headKind rest .eof))
    (h : operand ctx (ts ++ rest) = .ok (e, rest)) :
    binary room operand (ladder.drop n) ctx (ts ++ rest) = .ok (e, rest) := by
  induction hn using Nat.decreasingInduction with
  | self => exact h
  | of_succ n hlt ih =>
    rw [binary_drop hlt (ih (hrest.mono (Nat.le_succ n))), levelLoop_done heof hrest]

end Loops

-- ============================================================================
-- Expressions
-- ============================================================================

section Expressions

variable {ctx : ParseContext} {room : Nat} {ts us rest : List Token}

/-- The parser for the operands of an expression that may nest `room` levels deep. -/
abbrev operandOf (room : Nat) : Parser Expr := unary room (operand room) (expression room)

theorem primary_of_name {p : Parser Expr} {t : Token} (hkind : t.kind = .identifier) :
    primary p ctx (t :: rest) = .ok (.identifier t, rest) := by
  simp only [primary, current_bind, List.headD_cons, hkind, take_bind, pure_apply]

theorem primary_of_group {p : Parser Expr} {l r : Token} {e : Expr} (hl : l.kind = .leftParen)
    (hr : r.kind = .rightParen) (h : p ctx (ts ++ r :: rest) = .ok (e, r :: rest)) :
    primary p ctx (l :: ts ++ [r] ++ rest) = .ok (e, rest) := by
  rw [List.append_assoc, List.singleton_append, List.cons_append, primary, current_bind,
    List.headD_cons]
  simp only [hl, take_bind]
  rw [bind_of_ok h, expect_bind hr, pure_apply]

theorem operandOf_of_primary (heof : ctx.eof.kind = .eof) {e : Expr}
    (hstart : StartsWith startsPrimary ts) (hrest : headKind rest .eof ≠ .leftParen)
    (h : primary (expression room) ctx (ts ++ rest) = .ok (e, rest)) :
    operandOf room ctx (ts ++ rest) = .ok (e, rest) := by
  rw [operandOf, unary_of_primary (hstart.append rest), bind_of_ok h, calls_done heof hrest]

theorem expression_of_operators (heof : ctx.eof.kind = .eof) {e : Expr}
    (hrest : headKind rest .eof ≠ .assign)
    (h : binary room (operandOf room) ladder ctx (ts ++ rest) = .ok (e, rest)) :
    expression (room + 1) ctx (ts ++ rest) = .ok (e, rest) := by
  have hne : ¬ (rest.headD ctx.eof).kind = .assign := by rwa [headD_kind heof]
  rw [expression, assignment, bind_of_ok h, current_bind, if_neg hne, pure_apply]

theorem expression_of_assign {mark t : Token} {v : Expr} (hmark : mark.kind = .assign)
    (htarget : binary room (operandOf room) ladder ctx (ts ++ (mark :: us ++ rest))
      = .ok (.identifier t, mark :: us ++ rest))
    (hvalue : expression room ctx (us ++ rest) = .ok (v, rest)) :
    expression (room + 1) ctx (ts ++ (mark :: us ++ rest)) = .ok (.assign t v, rest) := by
  rw [expression, assignment, bind_of_ok htarget, current_bind, List.cons_append,
    List.headD_cons, if_pos hmark, take_bind, bind_of_ok hvalue]
  rfl

/-- The target of an assignment reads as a name. -/
theorem Target.read {t : Token} (heof : ctx.eof.kind = .eof) (h : Target ts t)
    (hroom : ts.length ≤ room + 1) (hrest : Stops 0 (headKind rest .eof)) :
    binary room (operandOf room) ladder ctx (ts ++ rest) = .ok (.identifier t, rest) := by
  induction h generalizing room rest with
  | name hname =>
    exact binary_of_operand heof (Nat.zero_le _) hrest
      (operandOf_of_primary heof (Target.name hname).starts hrest.no_call
        (primary_of_name hname))
  | @group l r t ts hl h hr ih =>
    simp only [List.length_append, List.length_cons, List.length_nil] at hroom
    obtain ⟨inner, rfl⟩ : ∃ inner, room = inner + 1 := ⟨room - 1, by omega⟩
    have hstop : Stops 0 (headKind (r :: rest) .eof) := by
      rw [headKind_cons, hr]
      exact stops_zero_of_endsExpression rfl
    have hname : binary inner (operandOf inner) ladder ctx (ts ++ r :: rest)
        = .ok (.identifier t, r :: rest) := ih (by omega) hstop
    have hinside := expression_of_operators heof (by simp [hr]) hname
    exact binary_of_operand heof (Nat.zero_le _) hrest
      (operandOf_of_primary heof (Target.group hl h hr).starts hrest.no_call
        (primary_of_group hl hr hinside))

mutual

/-- An expression is read up to a token that may stand behind it. -/
theorem Expression.read {ts : List Token} {e : Expr} : Expression ts e →
    ∀ (room : Nat) ⦃ctx : ParseContext⦄ ⦃rest : List Token⦄, ctx.eof.kind = .eof →
      ts.length ≤ room → endsExpression (headKind rest .eof) = true →
      expression room ctx (ts ++ rest) = .ok (e, rest)
  | .operators h => by
    intro room ctx rest heof hroom hrest
    have hpos := h.starts.length_pos
    obtain ⟨inner, rfl⟩ : ∃ inner, room = inner + 1 := ⟨room - 1, by omega⟩
    have hstop := stops_zero_of_endsExpression hrest
    obtain ⟨m, -, hread⟩ := h.read inner heof (by omega) (hstop.mono (Nat.zero_le 1))
    refine expression_of_operators heof ?_ (hread.trans (levelLoop_done heof hstop m e))
    intro hassign
    simp [hassign, endsExpression] at hrest
  | @Expression.assign ts us t mark v htarget hmark hvalue => by
    intro room ctx rest heof hroom hrest
    rw [List.length_append, List.length_cons] at hroom
    have hpos := htarget.starts.length_pos
    obtain ⟨inner, rfl⟩ : ∃ inner, room = inner + 1 := ⟨room - 1, by omega⟩
    have hstop : Stops 0 (headKind (mark :: us ++ rest) .eof) := by
      rw [List.cons_append, headKind_cons, hmark]
      exact stops_zero_of_operator_free (by decide) rfl
    rw [List.append_assoc]
    exact expression_of_assign hmark (htarget.read heof (by omega) hstop)
      (hvalue.read inner heof (by omega) hrest)

/-- Operands are read up to the loop over the operators of their level. -/
theorem Binary.read {n : Nat} {ts : List Token} {e : Expr} : Binary n ts e →
    ∀ (room : Nat) ⦃ctx : ParseContext⦄ ⦃rest : List Token⦄, ctx.eof.kind = .eof →
      ts.length ≤ room + 1 → Stops (n + 1) (headKind rest .eof) →
      ∃ m, room + 1 ≤ m + ts.length ∧
        binary room (operandOf room) (ladder.drop n) ctx (ts ++ rest)
          = levelLoop room (operandOf room) n m e ctx rest
  | .operand h => by
    intro room ctx rest heof hroom hrest
    have hpos := h.starts.length_pos
    exact ⟨room, by omega, h.read room heof hroom hrest.no_call⟩
  | @Binary.tighter n ts e h => by
    intro room ctx rest heof hroom hrest
    have hpos := h.starts.length_pos
    obtain ⟨m, -, hread⟩ := h.read room heof hroom (hrest.mono (Nat.le_succ _))
    exact ⟨room, by omega, binary_drop h.level_le (hread.trans (levelLoop_done heof hrest m e))⟩
  | @Binary.join n ts us op mark l r hleft hmark hlevel hright => by
    intro room ctx rest heof hroom hrest
    rw [List.length_append, List.length_cons] at hroom
    have hpos := hright.starts.length_pos
    have hstop : Stops (n + 1) (headKind (mark :: us ++ rest) .eof) := by
      rw [List.cons_append, headKind_cons]
      refine ⟨?_, ?_⟩
      · intro hparen
        simp [hparen, BinaryOp.ofKind?] at hmark
      · intro op' hop'
        rw [hmark, Option.some.injEq] at hop'
        rw [← hop']
        omega
    obtain ⟨m, hm, hread⟩ := hleft.read room heof (by omega) hstop
    obtain ⟨k, -, hread'⟩ := hright.read room heof (by omega) (hrest.mono (Nat.le_succ _))
    obtain ⟨m', rfl⟩ : ∃ m', m = m' + 1 := ⟨m - 1, by omega⟩
    refine ⟨m', by rw [List.length_append, List.length_cons]; omega, ?_⟩
    rw [List.append_assoc, hread]
    exact levelLoop_step hmark hlevel (hread'.trans (levelLoop_done heof hrest k r))

/-- An operand is read up to a token that is no parenthesis of a call. -/
theorem Unary.read {ts : List Token} {e : Expr} : Unary ts e →
    ∀ (room : Nat) ⦃ctx : ParseContext⦄ ⦃rest : List Token⦄, ctx.eof.kind = .eof →
      ts.length ≤ room + 1 → headKind rest .eof ≠ .leftParen →
      operandOf room ctx (ts ++ rest) = .ok (e, rest)
  | .call h => by
    intro room ctx rest heof hroom hrest
    obtain ⟨m, -, hread⟩ := h.read room heof hroom
    rw [operandOf, unary_of_primary (h.starts.append rest), hread, calls_done heof hrest]
  | @Unary.mark mark ts op e hmark h => by
    intro room ctx rest heof hroom hrest
    rw [List.length_cons] at hroom
    have hpos := h.starts.length_pos
    obtain ⟨inner, rfl⟩ : ∃ inner, room = inner + 1 := ⟨room - 1, by omega⟩
    have hread : operand (inner + 1) ctx (ts ++ rest) = .ok (e, rest) :=
      h.read inner heof (by omega) hrest
    simp only [operandOf, unary, List.cons_append, current_bind, List.headD_cons, hmark, take_bind]
    rw [bind_of_ok hread, pure_apply]

/-- A callee is read up to the loop over the calls behind it. -/
theorem Call.read {ts : List Token} {e : Expr} : Call ts e →
    ∀ (room : Nat) ⦃ctx : ParseContext⦄ ⦃rest : List Token⦄, ctx.eof.kind = .eof →
      ts.length ≤ room + 1 →
      ∃ m, room + 1 ≤ m + ts.length ∧
        (primary (expression room) >>= fun e => calls (expression room) room e) ctx (ts ++ rest)
          = calls (expression room) m e ctx rest
  | .primary h => by
    intro room ctx rest heof hroom
    have hpos := h.starts.length_pos
    exact ⟨room, by omega, bind_of_ok (h.read room heof hroom)⟩
  | @Call.apply ts us l r f args hcallee hl hargs hcount hr => by
    intro room ctx rest heof hroom
    simp only [List.length_append, List.length_cons, List.length_nil] at hroom ⊢
    have hpos := hcallee.starts.length_pos
    obtain ⟨m, hm, hread⟩ := hcallee.read room heof (by omega)
    obtain ⟨m', rfl⟩ : ∃ m', m = m' + 1 := ⟨m - 1, by omega⟩
    refine ⟨m', by omega, ?_⟩
    rw [List.append_assoc, List.append_assoc, List.singleton_append, hread]
    exact calls_step hl hr (hargs.read room heof (by omega) hcount hr)

/-- A primary expression is read whatever stands behind it. -/
theorem Primary.read {ts : List Token} {e : Expr} : Primary ts e →
    ∀ (room : Nat) ⦃ctx : ParseContext⦄ ⦃rest : List Token⦄, ctx.eof.kind = .eof →
      ts.length ≤ room + 1 → primary (expression room) ctx (ts ++ rest) = .ok (e, rest)
  | .number hkind hvalue => by
    intro room ctx rest _ _
    simp only [primary, List.singleton_append, current_bind, List.headD_cons, hkind, take_bind,
      hvalue, pure_apply]
  | .string hkind hvalue => by
    intro room ctx rest _ _
    simp only [primary, List.singleton_append, current_bind, List.headD_cons, hkind, take_bind,
      hvalue, pure_apply]
  | .yes hkind => by
    intro room ctx rest _ _
    simp only [primary, List.singleton_append, current_bind, List.headD_cons, hkind, take_bind,
      pure_apply]
  | .no hkind => by
    intro room ctx rest _ _
    simp only [primary, List.singleton_append, current_bind, List.headD_cons, hkind, take_bind,
      pure_apply]
  | .nil hkind => by
    intro room ctx rest _ _
    simp only [primary, List.singleton_append, current_bind, List.headD_cons, hkind, take_bind,
      pure_apply]
  | .name hkind => by
    intro room ctx rest _ _
    exact primary_of_name hkind
  | @Primary.group l r ts e hl h hr => by
    intro room ctx rest heof hroom
    simp only [List.length_append, List.length_cons, List.length_nil] at hroom
    exact primary_of_group hl hr (h.read room heof (by omega) (by rw [headKind_cons, hr]; rfl))

/-- Arguments are read up to the parenthesis behind them. -/
theorem Arguments.read {ts : List Token} {es : List Expr} : Arguments ts es →
    ∀ (room : Nat) ⦃ctx : ParseContext⦄ ⦃r : Token⦄ ⦃rest : List Token⦄, ctx.eof.kind = .eof →
      ts.length ≤ room → es.length ≤ mostArguments → r.kind = .rightParen →
      argumentList (expression room) ctx (ts ++ r :: rest) = .ok (es, r :: rest)
  | .none => by
    intro room ctx r rest _ _ _ hr
    simp [argumentList, at_bind, hr, pure_apply]
  | @Arguments.row ts es h => by
    intro room ctx r rest heof hroom hcount hr
    obtain ⟨e, es', mid, rfl, hfirst, hmore⟩ := h.read room (maxArguments - 1) heof hroom hcount hr
    obtain ⟨t, us, rfl, ht⟩ := h.starts
    have hne : ¬ t.kind = .rightParen := by
      intro hparen
      simp [hparen, startsExpression, startsPrimary] at ht
    rw [argumentList, at_bind, List.cons_append, List.headD_cons, decide_eq_false hne]
    simp only [Bool.false_eq_true, if_false]
    rw [← List.cons_append, bind_of_ok hfirst, bind_of_ok hmore, pure_apply]

/-- The first expression of a row is read, and then those behind it. -/
theorem Row.read {ts : List Token} {es : List Expr} : Row ts es →
    ∀ (room slots : Nat) ⦃ctx : ParseContext⦄ ⦃r : Token⦄ ⦃rest : List Token⦄,
      ctx.eof.kind = .eof → ts.length ≤ room → es.length ≤ slots + 1 → r.kind = .rightParen →
      ∃ e es' mid, es = e :: es' ∧ expression room ctx (ts ++ r :: rest) = .ok (e, mid)
        ∧ moreArguments (expression room) slots ctx mid = .ok (es', r :: rest)
  | @Row.last ts e h => by
    intro room slots ctx r rest heof hroom _ hr
    have hends : endsExpression (headKind (r :: rest) .eof) = true := by rw [headKind_cons, hr]; rfl
    have hcomma : headKind (r :: rest) .eof ≠ .comma := by simp [hr]
    refine ⟨e, [], r :: rest, rfl, h.read room heof hroom hends, ?_⟩
    cases slots with
    | zero =>
      rw [moreArguments, skip_bind_of_ne heof (by decide) hcomma]
      rfl
    | succ slots =>
      rw [moreArguments, skip_bind_of_ne heof (by decide) hcomma]
      rfl
  | @Row.more ts us comma e es h hcomma hrest => by
    intro room slots ctx r rest heof hroom hcount hr
    rw [List.length_append, List.length_cons] at hroom
    rw [List.length_cons] at hcount
    have hpos := hrest.length_pos
    obtain ⟨slots', rfl⟩ : ∃ slots', slots = slots' + 1 := ⟨slots - 1, by omega⟩
    obtain ⟨e', es', mid, rfl, hfirst, hmore⟩ :=
      hrest.read room slots' heof (by omega) (by omega) hr
    have hends : endsExpression (headKind (comma :: us ++ r :: rest) .eof) = true := by
      rw [List.cons_append, headKind_cons, hcomma]
      rfl
    refine ⟨e, e' :: es', comma :: us ++ r :: rest, rfl, ?_, ?_⟩
    · rw [List.append_assoc]
      exact h.read room heof (by omega) hends
    · rw [moreArguments, List.cons_append, skip_bind hcomma]
      simp only [if_true]
      rw [bind_of_ok hfirst, bind_of_ok hmore, pure_apply]

end

end Expressions

-- ============================================================================
-- Statements
-- ============================================================================

section Statements

variable {ctx : ParseContext} {ts us rest : List Token} {next : Kind}

theorem Terminator.ends {stop : List Token} (h : Terminator stop next) :
    endsExpression (headKind stop next) = true := by
  cases h with
  | semicolon hkind => rw [headKind_cons, hkind]; rfl
  | missing hnext =>
    obtain rfl | rfl := hnext
    · rfl
    · rfl

theorem Terminator.read (heof : ctx.eof.kind = .eof) {stop : List Token}
    (h : Terminator stop next) (hnext : headKind rest .eof = next) :
    statementEnd ctx (stop ++ rest) = .ok ((), rest) := by
  cases h with
  | semicolon hkind =>
    rw [statementEnd, List.singleton_append, skip_bind hkind]
    rfl
  | missing hmissing =>
    have hne : headKind rest .eof ≠ .semicolon := by
      rw [hnext]
      rintro rfl
      simp at hmissing
    have hends : atStatementEnd ctx rest = .ok (true, rest) := by
      rw [atStatementEnd_eq_ok_true heof, hnext]
      refine ⟨?_, rfl⟩
      obtain h | h := hmissing
      · exact .inl (.inr h)
      · exact .inr h
    rw [statementEnd, List.nil_append, skip_bind_of_ne heof (by decide) hne]
    simp only [Bool.false_eq_true, if_false]
    rw [bind_of_ok hends]
    rfl

/-- An expression is read up to the terminator behind it. -/
theorem Expression.read_before_terminator {e : Expr} {stop : List Token} {room : Nat}
    (heof : ctx.eof.kind = .eof) (h : Expression ts e) (hroom : ts.length ≤ room)
    (hstop : Terminator stop next) (hnext : headKind rest .eof = next) :
    expression room ctx (ts ++ (stop ++ rest)) = .ok (e, stop ++ rest) := by
  refine h.read room heof hroom ?_
  rw [headKind_append, hnext]
  exact hstop.ends

theorem condition_of_expression {p : Parser Expr} {opening closing : Expected} {l r : Token}
    {c : Expr} (hl : l.kind = .leftParen) (hr : r.kind = .rightParen)
    (h : p ctx (ts ++ r :: rest) = .ok (c, r :: rest)) :
    condition p opening closing ctx (l :: ts ++ r :: rest) = .ok (c, rest) := by
  rw [condition, List.cons_append, expect_bind hl, bind_of_ok h, expect_bind hr, pure_apply]

/-- Among different names, none stands before itself. -/
theorem any_lexeme_eq_false {before : List Token} {t : Token}
    (hdistinct : ((before ++ t :: ts).map Token.lexeme).Nodup) :
    ¬ (before.any fun other => other.lexeme == t.lexeme) = true := by
  intro hany
  obtain ⟨u, hu, hsame⟩ := List.any_eq_true.mp hany
  rw [List.map_append, List.nodup_append] at hdistinct
  exact hdistinct.2.2 u.lexeme (List.mem_map_of_mem hu) t.lexeme (by simp) (by simpa using hsame)

/-- Names are added to those read before, from which they differ. -/
theorem Names.read {names : List Token} (heof : ctx.eof.kind = .eof) (h : Names us names)
    {r : Token} (hr : r.kind = .rightParen) {slots : Nat} {before : List Token}
    (hcount : names.length ≤ slots) (hdistinct : ((before ++ names).map Token.lexeme).Nodup) :
    parameters slots before ctx (us ++ r :: rest) = .ok (before ++ names, r :: rest) := by
  induction h generalizing slots before with
  | @last t hname =>
    obtain ⟨slots', rfl⟩ : ∃ slots', slots = slots' + 1 := ⟨slots - 1, by simp at hcount; omega⟩
    have hcomma : headKind (r :: rest) .eof ≠ .comma := by simp [hr]
    rw [parameters, List.singleton_append, expect_bind hname,
      if_neg (any_lexeme_eq_false hdistinct), skip_bind_of_ne heof (by decide) hcomma]
    rfl
  | @more t comma us names hname hcomma h ih =>
    rw [List.length_cons] at hcount
    obtain ⟨slots', rfl⟩ : ∃ slots', slots = slots' + 1 := ⟨slots - 1, by omega⟩
    rw [parameters, List.cons_append, expect_bind hname, if_neg (any_lexeme_eq_false hdistinct),
      List.cons_append, skip_bind hcomma]
    simp only [if_true]
    rw [List.append_cons] at hdistinct
    rw [ih (Nat.le_of_succ_le_succ hcount) hdistinct, List.append_assoc, List.singleton_append]

theorem Parameters.read {params : List Token} (heof : ctx.eof.kind = .eof)
    (h : Parameters ts params) {r : Token} (hr : r.kind = .rightParen) :
    parameterList ctx (ts ++ r :: rest) = .ok (params, r :: rest) := by
  obtain ⟨rfl, rfl⟩ | hnames := h.row
  · simp [parameterList, at_bind, hr, pure_apply]
  · have hne : ¬ ((ts ++ r :: rest).headD ctx.eof).kind = .rightParen := by
      cases hnames with
      | last hname => simp [hname]
      | more hname _ _ => simp [hname]
    rw [parameterList, at_bind, decide_eq_false hne]
    simp only [Bool.false_eq_true, if_false]
    exact hnames.read heof hr h.few (by simpa using h.distinct)

theorem Statements.headKind_ne_else {inside : Bool} {ss : List Stmt}
    (h : Statements inside ts next ss) (hnext : next = .rightBrace ∨ next = .eof) :
    headKind ts next ≠ .elseWord := by
  cases h with
  | nil =>
    rw [headKind_nil]
    rintro rfl
    simp at hnext
  | cons h _ =>
    obtain ⟨t, vs, rfl, ht⟩ := h.starts
    rw [List.cons_append, headKind_cons]
    intro helse
    simp [helse, startsStatement, startsExpression, startsPrimary] at ht

/-- The statements of a block are read up to the brace behind them. -/
theorem block_of_statements {p : Parser Stmt} {close : Token} {body : List Stmt}
    (hclose : close.kind = .rightBrace)
    (h : statements p (ts ++ close :: rest).length ctx (ts ++ close :: rest)
      = .ok (body, close :: rest)) :
    block p ctx (ts ++ close :: rest) = .ok (body, rest) := by
  rw [block, bind_of_ok (show remaining ctx (ts ++ close :: rest) = .ok (_, _) from rfl),
    bind_of_ok h, expect_bind hclose, pure_apply]

theorem Terminator.kind {stop : List Token} (h : Terminator stop next) :
    (headKind stop next = .semicolon ∨ headKind stop next = .rightBrace)
      ∨ headKind stop next = .eof := by
  cases h with
  | semicolon hkind => exact .inl (.inl hkind)
  | missing hnext =>
    obtain h | h := hnext
    · exact .inl (.inr h)
    · exact .inr h

theorem StartsWith.not_ends (h : StartsWith startsStatement ts) (us : List Token) :
    ¬ (headKind (ts ++ us) .eof = .rightBrace ∨ headKind (ts ++ us) .eof = .eof) := by
  obtain ⟨t, vs, rfl, ht⟩ := h
  rw [List.cons_append, headKind_cons]
  rintro (hkind | hkind) <;> simp [hkind, startsStatement, startsExpression, startsPrimary] at ht

/-- The first token of a statement says how to read on. -/
theorem statement_succ (inside : Bool) (room : Nat) (t : Token) :
    statement inside (room + 1) ctx (t :: ts) =
      (match t.kind with
        | .letWord => letVar (expression room) ctx ts
        | .fnWord => function (statement true room) ctx ts
        | .ifWord => ifStmt t (statement inside room) (expression room) ctx ts
        | .whileWord => whileLoop t (statement inside room) (expression room) ctx ts
        | .returnWord => returnStmt t inside (expression room) ctx ts
        | .leftBrace =>
          (block (statement inside room) >>= fun body => pure (.block t body)) ctx ts
        | _ =>
          (expression room >>= fun e => statementEnd >>= fun _ => pure (.expression e))
            ctx (t :: ts)) := by
  rw [statement, statementBody, current_bind, List.headD_cons]
  cases t.kind <;> rfl

theorem statement_of_startsExpression (inside : Bool) (room : Nat)
    (hstart : StartsWith startsExpression ts) :
    statement inside (room + 1) ctx ts =
      (expression room >>= fun e => statementEnd >>= fun _ => pure (.expression e)) ctx ts := by
  obtain ⟨t, vs, rfl, ht⟩ := hstart
  rw [statement_succ]
  cases hkind : t.kind <;> first | rfl | simp [hkind, startsExpression, startsPrimary] at ht

-- One lemma for each kind of statement: what the steps of the parser come to where its parts are
-- read.

section Kinds

variable {inside : Bool} {room : Nat} {word name l r mark : Token} {cs ps stop : List Token}
  {c v : Expr}

theorem statement_of_letBare (heof : ctx.eof.kind = .eof) (hword : word.kind = .letWord)
    (hname : name.kind = .identifier) (hstop : Terminator stop next)
    (hnext : headKind rest .eof = next) :
    statement inside (room + 1) ctx (word :: name :: (stop ++ rest))
      = .ok (.letVar name none, rest) := by
  have hassign : headKind (stop ++ rest) .eof ≠ .assign := by
    rw [headKind_append, hnext]
    intro hassign
    simpa [hassign, endsExpression] using hstop.ends
  simp only [statement_succ, hword]
  rw [letVar, expect_bind hname, skip_bind_of_ne heof (by decide) hassign]
  simp only [Bool.false_eq_true, if_false]
  rw [bind_of_ok (hstop.read heof hnext), pure_apply]

theorem statement_of_letValue (hword : word.kind = .letWord) (hname : name.kind = .identifier)
    (hmark : mark.kind = .assign) (hvalue : expression room ctx ts = .ok (v, us))
    (hend : statementEnd ctx us = .ok ((), rest)) :
    statement inside (room + 1) ctx (word :: name :: mark :: ts)
      = .ok (.letVar name (some v), rest) := by
  simp only [statement_succ, hword]
  rw [letVar, expect_bind hname, skip_bind hmark]
  simp only [if_true]
  rw [bind_of_ok hvalue, bind_of_ok hend, pure_apply]

theorem statement_of_function {open_ : Token} {params : List Token} {body : List Stmt}
    (hword : word.kind = .fnWord) (hname : name.kind = .identifier) (hl : l.kind = .leftParen)
    (hparams : parameterList ctx (ps ++ r :: open_ :: ts) = .ok (params, r :: open_ :: ts))
    (hr : r.kind = .rightParen) (hopen : open_.kind = .leftBrace)
    (hbody : block (statement true room) ctx ts = .ok (body, rest)) :
    statement inside (room + 1) ctx (word :: name :: l :: (ps ++ r :: open_ :: ts))
      = .ok (.function 0 name params body, rest) := by
  simp only [statement_succ, hword]
  rw [function, expect_bind hname, expect_bind hl, bind_of_ok hparams, expect_bind hr,
    expect_bind hopen, bind_of_ok hbody, pure_apply]

theorem statement_of_ifThen {yes : Stmt} (heof : ctx.eof.kind = .eof) (hword : word.kind = .ifWord)
    (hl : l.kind = .leftParen) (hr : r.kind = .rightParen)
    (hcondition : expression room ctx (cs ++ r :: ts) = .ok (c, r :: ts))
    (hyes : statement inside room ctx ts = .ok (yes, rest))
    (helse : headKind rest .eof ≠ .elseWord) :
    statement inside (room + 1) ctx (word :: l :: (cs ++ r :: ts))
      = .ok (.ifThen word c yes, rest) := by
  simp only [statement_succ, hword]
  rw [ifStmt, ← List.cons_append, bind_of_ok (condition_of_expression hl hr hcondition),
    bind_of_ok hyes, skip_bind_of_ne heof (by decide) helse]
  rfl

theorem statement_of_ifThenElse {yes no : Stmt} (hword : word.kind = .ifWord)
    (hl : l.kind = .leftParen) (hr : r.kind = .rightParen)
    (hcondition : expression room ctx (cs ++ r :: ts) = .ok (c, r :: ts))
    (hyes : statement inside room ctx ts = .ok (yes, mark :: us)) (hmark : mark.kind = .elseWord)
    (hno : statement inside room ctx us = .ok (no, rest)) :
    statement inside (room + 1) ctx (word :: l :: (cs ++ r :: ts))
      = .ok (.ifThenElse word c yes no, rest) := by
  simp only [statement_succ, hword]
  rw [ifStmt, ← List.cons_append, bind_of_ok (condition_of_expression hl hr hcondition),
    bind_of_ok hyes, skip_bind hmark]
  simp only [if_true]
  rw [bind_of_ok hno, pure_apply]

theorem statement_of_whileLoop {body : Stmt} (hword : word.kind = .whileWord)
    (hl : l.kind = .leftParen) (hr : r.kind = .rightParen)
    (hcondition : expression room ctx (cs ++ r :: ts) = .ok (c, r :: ts))
    (hbody : statement inside room ctx ts = .ok (body, rest)) :
    statement inside (room + 1) ctx (word :: l :: (cs ++ r :: ts))
      = .ok (.whileLoop word c body, rest) := by
  simp only [statement_succ, hword]
  rw [whileLoop, ← List.cons_append, bind_of_ok (condition_of_expression hl hr hcondition),
    bind_of_ok hbody, pure_apply]

theorem statement_of_returnBare (heof : ctx.eof.kind = .eof) (hword : word.kind = .returnWord)
    (hstop : Terminator stop next) (hnext : headKind rest .eof = next) :
    statement true (room + 1) ctx (word :: (stop ++ rest)) = .ok (.returnStmt word none, rest) := by
  have hends : atStatementEnd ctx (stop ++ rest) = .ok (true, stop ++ rest) := by
    rw [atStatementEnd_eq_ok_true heof, headKind_append, hnext]
    exact ⟨hstop.kind, rfl⟩
  simp only [statement_succ, hword]
  rw [returnStmt]
  simp only [Bool.not_true, Bool.false_eq_true, if_false]
  rw [bind_of_ok hends]
  simp only [if_true]
  rw [bind_of_ok (hstop.read heof hnext), pure_apply]

theorem statement_of_returnValue (hword : word.kind = .returnWord)
    (hstart : StartsWith startsExpression ts) (hvalue : expression room ctx ts = .ok (v, us))
    (hend : statementEnd ctx us = .ok ((), rest)) :
    statement true (room + 1) ctx (word :: ts) = .ok (.returnStmt word (some v), rest) := by
  have hgoes : atStatementEnd ctx ts = .ok (false, ts) := by
    obtain ⟨t, vs, rfl, ht⟩ := hstart
    rw [atStatementEnd, List.headD_cons]
    cases hkind : t.kind <;> simp_all [startsExpression, startsPrimary]
  simp only [statement_succ, hword]
  rw [returnStmt]
  simp only [Bool.not_true, Bool.false_eq_true, if_false]
  rw [bind_of_ok hgoes]
  simp only [Bool.false_eq_true, if_false]
  rw [bind_of_ok hvalue, bind_of_ok hend, pure_apply]

theorem statement_of_block {brace : Token} {body : List Stmt} (hbrace : brace.kind = .leftBrace)
    (hbody : block (statement inside room) ctx ts = .ok (body, rest)) :
    statement inside (room + 1) ctx (brace :: ts) = .ok (.block brace body, rest) := by
  simp only [statement_succ, hbrace]
  rw [bind_of_ok hbody, pure_apply]

theorem statement_of_expression {e : Expr} (hstart : StartsWith startsExpression ts)
    (h : expression room ctx ts = .ok (e, us)) (hend : statementEnd ctx us = .ok ((), rest)) :
    statement inside (room + 1) ctx ts = .ok (.expression e, rest) := by
  rw [statement_of_startsExpression inside room hstart, bind_of_ok h, bind_of_ok hend, pure_apply]

end Kinds

mutual

/-- A statement is read up to the token behind it, unless that is an `else` it would take. -/
theorem Statement.read {inside : Bool} {ts : List Token} {next : Kind} {s : Stmt} :
    Statement inside ts next s →
    ∀ (room : Nat) ⦃ctx : ParseContext⦄ ⦃rest : List Token⦄, ctx.eof.kind = .eof →
      ts.length ≤ room → headKind rest .eof = next → (endsOpen s = true → next ≠ .elseWord) →
      statement inside (room + 1) ctx (ts ++ rest) = .ok (s, rest)
  | .letBare hword hname hstop => by
    intro room ctx rest heof _ hnext _
    exact statement_of_letBare heof hword hname hstop hnext
  | .letValue hword hname hmark hvalue hstop => by
    intro room ctx rest heof hroom hnext _
    simp only [List.length_append, List.length_cons] at hroom
    simp only [List.cons_append, List.append_assoc]
    exact statement_of_letValue hword hname hmark
      (hvalue.read_before_terminator heof (by omega) hstop hnext) (hstop.read heof hnext)
  | .function hword hname hl hparams hr hopen hbody hclose => by
    intro room ctx rest heof hroom hnext _
    simp only [List.length_append, List.length_cons] at hroom
    obtain ⟨inner, rfl⟩ : ∃ inner, room = inner + 1 := ⟨room - 1, by omega⟩
    simp only [List.cons_append, List.append_assoc, List.nil_append]
    refine statement_of_function hword hname hl (hparams.read heof hr) hr hopen
      (block_of_statements hclose ?_)
    exact hbody.read inner _ heof (by omega) (by simp) (by rw [headKind_cons, hclose]) (.inl rfl)
  | .ifThen hword hl hcondition hr hyes => by
    intro room ctx rest heof hroom hnext hclosed
    simp only [List.length_append, List.length_cons] at hroom
    obtain ⟨inner, rfl⟩ : ∃ inner, room = inner + 1 := ⟨room - 1, by omega⟩
    simp only [List.cons_append, List.append_assoc]
    exact statement_of_ifThen heof hword hl hr
      (hcondition.read _ heof (by omega) (by rw [headKind_cons, hr]; rfl))
      (hyes.read inner heof (by omega) hnext fun _ => hclosed rfl) (hnext ▸ hclosed rfl)
  | .ifThenElse hword hl hcondition hr hyes hclosed hmark hno => by
    intro room ctx rest heof hroom hnext hopen
    simp only [List.length_append, List.length_cons] at hroom
    obtain ⟨inner, rfl⟩ : ∃ inner, room = inner + 1 := ⟨room - 1, by omega⟩
    simp only [List.cons_append, List.append_assoc]
    exact statement_of_ifThenElse hword hl hr
      (hcondition.read _ heof (by omega) (by rw [headKind_cons, hr]; rfl))
      (hyes.read inner heof (by omega) (by rw [headKind_cons, hmark]) (by simp [hclosed])) hmark
      (hno.read inner heof (by omega) hnext hopen)
  | .whileLoop hword hl hcondition hr hbody => by
    intro room ctx rest heof hroom hnext hopen
    simp only [List.length_append, List.length_cons] at hroom
    obtain ⟨inner, rfl⟩ : ∃ inner, room = inner + 1 := ⟨room - 1, by omega⟩
    simp only [List.cons_append, List.append_assoc]
    exact statement_of_whileLoop hword hl hr
      (hcondition.read _ heof (by omega) (by rw [headKind_cons, hr]; rfl))
      (hbody.read inner heof (by omega) hnext hopen)
  | .returnBare hword hstop => by
    intro room ctx rest heof _ hnext _
    exact statement_of_returnBare heof hword hstop hnext
  | .returnValue hword hvalue hstop => by
    intro room ctx rest heof hroom hnext _
    simp only [List.length_append, List.length_cons] at hroom
    simp only [List.cons_append, List.append_assoc]
    exact statement_of_returnValue hword (hvalue.starts.append _)
      (hvalue.read_before_terminator heof (by omega) hstop hnext) (hstop.read heof hnext)
  | .block hopen hbody hclose => by
    intro room ctx rest heof hroom hnext _
    simp only [List.length_append, List.length_cons] at hroom
    obtain ⟨inner, rfl⟩ : ∃ inner, room = inner + 1 := ⟨room - 1, by omega⟩
    simp only [List.cons_append, List.append_assoc, List.nil_append]
    refine statement_of_block hopen (block_of_statements hclose ?_)
    exact hbody.read inner _ heof (by omega) (by simp) (by rw [headKind_cons, hclose]) (.inl rfl)
  | .expression h hstop => by
    intro room ctx rest heof hroom hnext _
    rw [List.length_append] at hroom
    rw [List.append_assoc]
    exact statement_of_expression (h.starts.append _)
      (h.read_before_terminator heof (by omega) hstop hnext) (hstop.read heof hnext)

/-- Statements are read up to a closing brace or the end. -/
theorem Statements.read {inside : Bool} {ts : List Token} {next : Kind} {ss : List Stmt} :
    Statements inside ts next ss →
    ∀ (room bound : Nat) ⦃ctx : ParseContext⦄ ⦃rest : List Token⦄, ctx.eof.kind = .eof →
      ts.length ≤ room → ts.length ≤ bound → headKind rest .eof = next →
      next = .rightBrace ∨ next = .eof →
      statements (statement inside (room + 1)) bound ctx (ts ++ rest) = .ok (ss, rest)
  | .nil => by
    intro room bound ctx rest heof _ _ hnext hend
    cases bound with
    | zero => rfl
    | succ bound =>
      rw [List.nil_append, statements, current_bind, headD_kind heof, hnext, if_pos hend]
      rfl
  | @Statements.cons inside ts us next s ss h hrest => by
    intro room bound ctx rest heof hroom hbound hnext hend
    rw [List.length_append] at hroom hbound
    have hpos := h.starts.length_pos
    obtain ⟨bound', rfl⟩ : ∃ bound', bound = bound' + 1 := ⟨bound - 1, by omega⟩
    have hfirst : statement inside (room + 1) ctx (ts ++ (us ++ rest)) = .ok (s, us ++ rest) :=
      h.read room heof (by omega) (by rw [headKind_append, hnext])
        (fun _ => hrest.headKind_ne_else hend)
    have hmore := hrest.read room bound' heof (by omega) (by omega) hnext hend
    rw [List.append_assoc, statements, current_bind, headD_kind heof,
      if_neg (h.starts.not_ends _), bind_of_ok hfirst, bind_of_ok hmore, pure_apply]

end

end Statements

-- ============================================================================
-- Programs
-- ============================================================================

/-- The statements of a program are read to the end. -/
theorem Statements.read_topLevel {ts : List Token} {ss : List Stmt}
    (h : Statements false ts .eof ss) {ctx : ParseContext} (heof : ctx.eof.kind = .eof)
    {bound : Nat} (hlimit : ts.length < ctx.maxNesting) (hbound : ts.length ≤ bound) :
    topLevel bound ctx ts = .ok (ss, []) := by
  obtain ⟨room, hroom⟩ : ∃ room, ctx.maxNesting = room + 1 := ⟨ctx.maxNesting - 1, by omega⟩
  induction ss generalizing ts bound with
  | nil =>
    cases h
    cases bound with
    | zero => rfl
    | succ bound => rw [topLevel, current_bind, List.headD_nil, if_pos heof, pure_apply]
  | cons s ss ih =>
    cases h with
    | @cons _ ts us _ _ _ h hrest =>
      rw [List.length_append] at hlimit hbound
      have hpos := h.starts.length_pos
      obtain ⟨bound', rfl⟩ : ∃ bound', bound = bound' + 1 := ⟨bound - 1, by omega⟩
      have hne : ¬ ((ts ++ us).headD ctx.eof).kind = .eof := by
        rw [headD_kind heof]
        exact fun heq => h.starts.not_ends us (.inr heq)
      have hlast : headKind us .eof ≠ .elseWord := hrest.headKind_ne_else (.inr rfl)
      have hfirst : statement false ctx.maxNesting ctx (ts ++ us) = .ok (s, us) := by
        rw [hroom]
        exact h.read room heof (by omega) rfl fun _ => hlast
      have hmore := ih hrest (by omega) (by omega : us.length ≤ bound')
      rw [topLevel, current_bind, if_neg hne,
        bind_of_ok (show maxNesting ctx (ts ++ us) = .ok (ctx.maxNesting, ts ++ us) from rfl),
        bind_of_ok hfirst, bind_of_ok hmore, pure_apply]

/-- A program that is derived is read, if it may nest one level deeper than it has tokens. -/
theorem parse_of_derives {body : List Token} {eof : Token} {limit : Nat} {p : Program}
    (heof : eof.kind = .eof) (hbody : ∀ t ∈ body, t.kind ≠ .eof) (hlimit : body.length < limit)
    (h : Derives body p) : Program.parse (body ++ [eof]) limit = .ok p := by
  have hread : topLevel body.length ⟨eof, limit⟩ body = .ok (p.statements, []) :=
    Statements.read_topLevel h heof hlimit (Nat.le_refl _)
  rw [Program.parse, beforeEof_append heof hbody, eofOf_append heof hbody]
  simp only [hread, Except.map]

/-- Tokens are at most one program. -/
theorem Derives.unique {body : List Token} {p q : Program} (hbody : ∀ t ∈ body, t.kind ≠ .eof)
    (hp : Derives body p) (hq : Derives body q) : p = q := by
  have heof : (⟨.eof, "", Pos.first, Pos.first⟩ : Token).kind = .eof := rfl
  have hp' := parse_of_derives heof hbody (Nat.lt_succ_self _) hp
  have hq' := parse_of_derives heof hbody (Nat.lt_succ_self _) hq
  exact Except.ok.inj (hp'.symm.trans hq')

/-- **The parser accepts exactly the grammar.** Tokens before an end marker are read as a program
    if and only if the grammar derives it from them, as long as things may nest deep enough; and
    the grammar derives at most one program from them. -/
theorem parse_iff_derives {body : List Token} {eof : Token} {limit : Nat}
    (heof : eof.kind = .eof) (hbody : ∀ t ∈ body, t.kind ≠ .eof)
    (hlimit : (body ++ [eof]).length + 2 ≤ limit) :
    (∀ p, Program.parse (body ++ [eof]) limit = .ok p ↔ Derives body p) ∧
      ∀ p q, Derives body p → Derives body q → p = q := by
  have hroom : body.length < limit := by
    rw [List.length_append, List.length_singleton] at hlimit
    omega
  refine ⟨fun p => ⟨derives_of_parse heof hbody, parse_of_derives heof hbody hroom⟩, ?_⟩
  intro p q hp hq
  exact hp.unique hbody hq

/-- A token of which only kind and lexeme matter. -/
def looseToken (kind : Kind) (lexeme : String) : Token := ⟨kind, lexeme, Pos.first, Pos.first⟩

/-- The tokens of `if (x) if (y) -z() else x = y`. -/
def danglingElse : List Token :=
  [looseToken .ifWord "if", looseToken .leftParen "(", looseToken .identifier "x",
   looseToken .rightParen ")", looseToken .ifWord "if", looseToken .leftParen "(",
   looseToken .identifier "y", looseToken .rightParen ")", looseToken .minus "-",
   looseToken .identifier "z", looseToken .leftParen "(", looseToken .rightParen ")",
   looseToken .semicolon ";", looseToken .elseWord "else", looseToken .identifier "x",
   looseToken .assign "=", looseToken .identifier "y"]

/-- The program of `danglingElse`: the `else` belongs to the inner `if`. -/
def danglingElseProgram : Program :=
  ⟨[.ifThen (looseToken .ifWord "if") (.identifier (looseToken .identifier "x"))
    (.ifThenElse (looseToken .ifWord "if") (.identifier (looseToken .identifier "y"))
      (.expression (.unary .negate (looseToken .minus "-")
        (.call (.identifier (looseToken .identifier "z")) (looseToken .leftParen "(") [])))
      (.expression (.assign (looseToken .identifier "x")
        (.identifier (looseToken .identifier "y")))))]⟩

theorem derives_danglingElse :
    Derives danglingElse danglingElseProgram ∧
      ∀ q, Derives danglingElse q → q = danglingElseProgram := by
  have hexact := parse_iff_derives (show (looseToken .eof "").kind = .eof from rfl)
    (show ∀ t ∈ danglingElse, t.kind ≠ .eof by decide)
    (show (danglingElse ++ [looseToken .eof ""]).length + 2 ≤ 20 by decide)
  have hd : Derives danglingElse danglingElseProgram := (hexact.1 _).mp rfl
  exact ⟨hd, fun q hq => hexact.2 q _ hq hd⟩

end Lexiscope.Grammar
