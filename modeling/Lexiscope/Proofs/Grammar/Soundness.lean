/-
  Lexiscope.Proofs.Grammar.Soundness

  Whatever a parser reads, the grammar derives.

  `Reads p R` says that the tokens which the parser `p` takes off the front of
  its input stand in the relation `R` to its result. Each parser takes the
  parsers for what stands inside it as arguments, so each has one lemma, from
  `Reads` for those to `Reads` for itself; only `expression`, `operand` and
  `statement` need an induction, on the room that is left. How much room there
  is does not matter here: too little of it only makes parsers fail.
-/
import Lexiscope.Proofs.Grammar.Basic
import Mathlib.Data.Nat.Init

namespace Lexiscope.Grammar

open Lexiscope.Parser

-- ============================================================================
-- What the steps of a parser read
-- ============================================================================

section Steps

variable {α β : Type} {ctx : ParseContext} {ts rest : List Token}

/-- A sequence succeeds when both of its parts do, one behind the other. -/
theorem bind_eq_ok {p : Parser α} {f : α → Parser β} {b : β} :
    (p >>= f) ctx ts = .ok (b, rest) ↔
      ∃ a mid, p ctx ts = .ok (a, mid) ∧ f a ctx mid = .ok (b, rest) := by
  show Parser.bind p f ctx ts = .ok (b, rest) ↔ _
  unfold Parser.bind
  cases p ctx ts with
  | error e => simp
  | ok r =>
    constructor
    · intro h
      exact ⟨r.1, r.2, rfl, h⟩
    · rintro ⟨a, mid, hr, h⟩
      cases hr
      exact h

theorem pure_eq_ok {a b : α} :
    (pure a : Parser α) ctx ts = .ok (b, rest) ↔ a = b ∧ ts = rest := by
  show Except.ok (a, ts) = .ok (b, rest) ↔ _
  simp

theorem current_eq_ok {t : Token} :
    current ctx ts = .ok (t, rest) ↔ ts.headD ctx.eof = t ∧ ts = rest := by
  simp [current]

theorem take_eq_ok {t : Token} :
    take ctx ts = .ok (t, rest) ↔ ts.headD ctx.eof = t ∧ ts.tail = rest := by
  simp [take]

theorem at_eq_ok {kind : Kind} {b : Bool} :
    at_ kind ctx ts = .ok (b, rest) ↔
      decide ((ts.headD ctx.eof).kind = kind) = b ∧ ts = rest := by
  simp [at_]

theorem atStatementEnd_eq_ok_true (heof : ctx.eof.kind = .eof) :
    atStatementEnd ctx ts = .ok (true, rest) ↔
      ((headKind ts .eof = .semicolon ∨ headKind ts .eof = .rightBrace)
        ∨ headKind ts .eof = .eof) ∧ ts = rest := by
  cases ts with
  | nil => simp [atStatementEnd, heof]
  | cons t ts => simp [atStatementEnd]

theorem atStatementEnd_eq_ok_false (heof : ctx.eof.kind = .eof)
    (h : atStatementEnd ctx ts = .ok (false, rest)) : ts = rest := by
  cases ts with
  | nil => simp [atStatementEnd, heof] at h
  | cons t ts =>
    simp only [atStatementEnd, Except.ok.injEq, Prod.mk.injEq] at h
    exact h.2

/-- A token that may be missing was there. -/
theorem skip_eq_ok_true {kind : Kind} (heof : ctx.eof.kind = .eof) (hkind : kind ≠ .eof) :
    skip kind ctx ts = .ok (true, rest) ↔ ∃ t, t.kind = kind ∧ ts = t :: rest := by
  cases ts with
  | nil => simp [skip, heof, hkind.symm]
  | cons t ts =>
    by_cases h : t.kind = kind
    · simp only [skip, List.headD_cons, h, if_true, List.tail_cons, Except.ok.injEq,
        Prod.mk.injEq, true_and, List.cons.injEq]
      constructor
      · rintro rfl
        exact ⟨t, h, rfl, rfl⟩
      · rintro ⟨u, -, -, rfl⟩
        rfl
    · simp only [skip, List.headD_cons, h, if_false, Except.ok.injEq, Prod.mk.injEq,
        Bool.false_eq_true, false_and, List.cons.injEq, false_iff, not_exists]
      rintro u ⟨hu, rfl, -⟩
      exact h hu

/-- A token that may be missing was not there. -/
theorem skip_eq_ok_false {kind : Kind} (heof : ctx.eof.kind = .eof) (hkind : kind ≠ .eof) :
    skip kind ctx ts = .ok (false, rest) ↔ headKind ts .eof ≠ kind ∧ ts = rest := by
  cases ts with
  | nil => simp [skip, heof, hkind.symm]
  | cons t ts =>
    by_cases h : t.kind = kind
    · simp [skip, h]
    · simp [skip, h]

/-- A token that has to be there was there. -/
theorem expect_eq_ok {kind : Kind} {x : Expected} {t : Token} (heof : ctx.eof.kind = .eof)
    (hkind : kind ≠ .eof) :
    expect kind x ctx ts = .ok (t, rest) ↔ t.kind = kind ∧ ts = t :: rest := by
  cases ts with
  | nil => simp [expect, heof, hkind.symm]
  | cons u ts =>
    by_cases h : u.kind = kind
    · simp only [expect, List.headD_cons, h, if_true, List.tail_cons, Except.ok.injEq,
        Prod.mk.injEq, List.cons.injEq]
      constructor
      · rintro ⟨rfl, rfl⟩
        exact ⟨h, rfl, rfl⟩
      · rintro ⟨-, rfl, rfl⟩
        exact ⟨rfl, rfl⟩
    · simp only [expect, List.headD_cons, h, if_false, reduceCtorEq, List.cons.injEq, false_iff]
      rintro ⟨hk, rfl, rfl⟩
      exact h hk

/-- A token that is not the end marker is taken before the parser behind it begins. -/
theorem take_bind_eq_ok {p : Parser β} {b : β} (heof : ctx.eof.kind = .eof)
    (hkind : (ts.headD ctx.eof).kind ≠ .eof)
    (h : (take >>= fun _ => p) ctx ts = .ok (b, rest)) :
    ∃ us, ts = ts.headD ctx.eof :: us ∧ p ctx us = .ok (b, rest) := by
  obtain ⟨_, _, htake, h⟩ := bind_eq_ok.mp h
  obtain ⟨-, rfl⟩ := take_eq_ok.mp htake
  cases ts with
  | nil => exact absurd heof hkind
  | cons t ts => exact ⟨ts, rfl, h⟩

end Steps

-- ============================================================================
-- Expressions
-- ============================================================================

/-- The tokens that the parser reads, before a token of the kind that it leaves in front, stand in
    the relation to its result. -/
def ReadsBefore {α : Type} (p : Parser α) (R : List Token → Kind → α → Prop) : Prop :=
  ∀ ⦃ctx : ParseContext⦄ ⦃ts rest : List Token⦄ ⦃a : α⦄, ctx.eof.kind = .eof →
    p ctx ts = .ok (a, rest) → ∃ us, ts = us ++ rest ∧ R us (headKind rest .eof) a

/-- The tokens that the parser reads stand in the relation to its result. -/
def Reads {α : Type} (p : Parser α) (R : List Token → α → Prop) : Prop :=
  ReadsBefore p fun us _ a => R us a

theorem primary_reads {expression : Parser Expr} (he : Reads expression Expression) :
    Reads (primary expression) Primary := by
  intro ctx ts rest e heof h
  simp only [primary, bind_eq_ok, current_eq_ok] at h
  obtain ⟨t, mid, ⟨rfl, rfl⟩, h⟩ := h
  cases ts with
  | nil => simp [heof, fail] at h
  | cons t ts =>
    rw [List.headD_cons] at h
    cases hkind : t.kind with
    | number =>
      simp only [hkind, bind_eq_ok, take_eq_ok] at h
      obtain ⟨_, _, ⟨-, rfl⟩, h⟩ := h
      cases hx : Number.ofText? t.lexeme with
      | none => simp [hx, failAt] at h
      | some x =>
        simp only [hx, pure_eq_ok] at h
        obtain ⟨rfl, rfl⟩ := h
        exact ⟨[t], rfl, .number hkind hx⟩
    | string =>
      simp only [hkind, bind_eq_ok, take_eq_ok] at h
      obtain ⟨_, _, ⟨-, rfl⟩, h⟩ := h
      cases hs : t.stringValue? with
      | none => simp [hs, failAt] at h
      | some s =>
        simp only [hs, pure_eq_ok] at h
        obtain ⟨rfl, rfl⟩ := h
        exact ⟨[t], rfl, .string hkind hs⟩
    | trueWord =>
      simp only [hkind, bind_eq_ok, take_eq_ok, pure_eq_ok] at h
      obtain ⟨_, _, ⟨-, rfl⟩, rfl, rfl⟩ := h
      exact ⟨[t], rfl, .yes hkind⟩
    | falseWord =>
      simp only [hkind, bind_eq_ok, take_eq_ok, pure_eq_ok] at h
      obtain ⟨_, _, ⟨-, rfl⟩, rfl, rfl⟩ := h
      exact ⟨[t], rfl, .no hkind⟩
    | nilWord =>
      simp only [hkind, bind_eq_ok, take_eq_ok, pure_eq_ok] at h
      obtain ⟨_, _, ⟨-, rfl⟩, rfl, rfl⟩ := h
      exact ⟨[t], rfl, .nil hkind⟩
    | identifier =>
      simp only [hkind, bind_eq_ok, take_eq_ok, pure_eq_ok] at h
      obtain ⟨_, _, ⟨-, rfl⟩, rfl, rfl⟩ := h
      exact ⟨[t], rfl, .name hkind⟩
    | leftParen =>
      simp only [hkind, bind_eq_ok, take_eq_ok, pure_eq_ok,
        expect_eq_ok heof (by decide : Kind.rightParen ≠ .eof)] at h
      obtain ⟨_, _, ⟨-, rfl⟩, e', mid, hread, r, _, ⟨hr, rfl⟩, rfl, rfl⟩ := h
      obtain ⟨us, hus, hd⟩ := he heof hread
      refine ⟨t :: us ++ [r], ?_, .group hkind hd hr⟩
      simpa using hus
    | _ => simp [hkind, fail] at h

/-- What stands in a row behind its first member. -/
def Behind (ts : List Token) (es : List Expr) : Prop :=
  ts = [] ∧ es = [] ∨ ∃ comma us, comma.kind = .comma ∧ ts = comma :: us ∧ Row us es

theorem Row.of_behind {ts us : List Token} {e : Expr} {es : List Expr} (h : Expression ts e)
    (hbehind : Behind us es) : Row (ts ++ us) (e :: es) := by
  obtain ⟨rfl, rfl⟩ | ⟨comma, vs, hcomma, rfl, hrow⟩ := hbehind
  · rw [List.append_nil]
    exact .last h
  · exact .more h hcomma hrow

theorem moreArguments_reads {expression : Parser Expr} (he : Reads expression Expression)
    (slots : Nat) :
    Reads (moreArguments expression slots) fun us es => Behind us es ∧ es.length ≤ slots := by
  induction slots with
  | zero =>
    intro ctx ts rest es heof h
    simp only [moreArguments, bind_eq_ok] at h
    obtain ⟨there, mid, hskip, h⟩ := h
    cases there with
    | true => simp [fail] at h
    | false =>
      obtain ⟨-, rfl⟩ := (skip_eq_ok_false heof (by decide)).mp hskip
      obtain ⟨rfl, rfl⟩ := pure_eq_ok.mp h
      exact ⟨[], rfl, .inl ⟨rfl, rfl⟩, Nat.le_refl 0⟩
  | succ slots ih =>
    intro ctx ts rest es heof h
    simp only [moreArguments, bind_eq_ok] at h
    obtain ⟨there, mid, hskip, h⟩ := h
    cases there with
    | true =>
      obtain ⟨comma, hcomma, rfl⟩ := (skip_eq_ok_true heof (by decide)).mp hskip
      simp only [if_true, bind_eq_ok, pure_eq_ok] at h
      obtain ⟨e, mid, hfirst, es', _, hmore, rfl, rfl⟩ := h
      obtain ⟨us, rfl, hd⟩ := he heof hfirst
      obtain ⟨vs, rfl, hbehind, hcount⟩ := ih heof hmore
      refine ⟨comma :: (us ++ vs), by simp, .inr ⟨comma, us ++ vs, hcomma, rfl, ?_⟩, ?_⟩
      · exact .of_behind hd hbehind
      · exact Nat.succ_le_succ hcount
    | false =>
      obtain ⟨-, rfl⟩ := (skip_eq_ok_false heof (by decide)).mp hskip
      obtain ⟨rfl, rfl⟩ := pure_eq_ok.mp h
      exact ⟨[], rfl, .inl ⟨rfl, rfl⟩, Nat.zero_le _⟩

theorem argumentList_reads {expression : Parser Expr} (he : Reads expression Expression) :
    Reads (argumentList expression) fun us es =>
      Arguments us es ∧ es.length ≤ mostArguments := by
  intro ctx ts rest es heof h
  simp only [argumentList, bind_eq_ok, at_eq_ok] at h
  obtain ⟨none, _, ⟨-, rfl⟩, h⟩ := h
  cases none with
  | true =>
    obtain ⟨rfl, rfl⟩ := pure_eq_ok.mp h
    exact ⟨[], rfl, .none, Nat.zero_le _⟩
  | false =>
    simp only [Bool.false_eq_true, if_false, bind_eq_ok, pure_eq_ok] at h
    obtain ⟨e, mid, hfirst, es', _, hmore, rfl, rfl⟩ := h
    obtain ⟨us, rfl, hd⟩ := he heof hfirst
    obtain ⟨vs, rfl, hbehind, hcount⟩ := moreArguments_reads he _ heof hmore
    refine ⟨us ++ vs, by simp, .row (.of_behind hd hbehind), ?_⟩
    exact Nat.succ_le_succ hcount

/-- The arguments of a call stand before the parenthesis that ends them. -/
theorem arguments_reads {expression : Parser Expr} (he : Reads expression Expression) :
    Reads (arguments expression) fun us args => ∃ as r, us = as ++ [r] ∧ Arguments as args
      ∧ args.length ≤ mostArguments ∧ r.kind = .rightParen := by
  intro ctx ts rest args heof h
  simp only [arguments, bind_eq_ok, pure_eq_ok,
    expect_eq_ok heof (by decide : Kind.rightParen ≠ .eof)] at h
  obtain ⟨args', _, hlist, r, _, ⟨hr, rfl⟩, rfl, rfl⟩ := h
  obtain ⟨as, rfl, hargs, hcount⟩ := argumentList_reads he heof hlist
  exact ⟨as ++ [r], by simp, as, r, rfl, hargs, hcount, hr⟩

/-- Calls behind a callee that was read already make a longer call. -/
theorem calls_read {expression : Parser Expr} (he : Reads expression Expression)
    {ctx : ParseContext} (heof : ctx.eof.kind = .eof) {room : Nat} {f e : Expr}
    {us ts rest : List Token} (hf : Call us f)
    (h : calls expression room f ctx ts = .ok (e, rest)) :
    ∃ vs, ts = vs ++ rest ∧ Call (us ++ vs) e := by
  have hdone : ∀ {f : Expr} {us ts : List Token}, Call us f →
      (pure f : Parser Expr) ctx ts = .ok (e, rest) → ∃ vs, ts = vs ++ rest ∧ Call (us ++ vs) e := by
    intro f us ts hf h
    obtain ⟨rfl, rfl⟩ := pure_eq_ok.mp h
    exact ⟨[], rfl, by simpa using hf⟩
  induction room generalizing f us ts with
  | zero =>
    simp only [calls, bind_eq_ok, current_eq_ok] at h
    obtain ⟨t, _, ⟨rfl, rfl⟩, h⟩ := h
    split at h
    · simp [tooDeep] at h
    · exact hdone hf h
  | succ room ih =>
    simp only [calls, bind_eq_ok, current_eq_ok] at h
    obtain ⟨t, _, ⟨rfl, rfl⟩, h⟩ := h
    cases ts with
    | nil =>
      rw [if_neg (by simp [heof])] at h
      exact hdone hf h
    | cons t ts =>
      rw [List.headD_cons] at h
      split at h
      · next hl =>
        simp only [bind_eq_ok, take_eq_ok] at h
        obtain ⟨_, _, ⟨-, rfl⟩, args, _, hread, h⟩ := h
        obtain ⟨_, has, as, r, rfl, hargs, hcount, hr⟩ := arguments_reads he heof hread
        obtain ⟨vs, rfl, hcall⟩ := ih (.apply hf hl hargs hcount hr) h
        refine ⟨t :: as ++ r :: vs, ?_, by simpa using hcall⟩
        simpa using has
      · exact hdone hf h

theorem unary_reads {room : Nat} {operand expression : Parser Expr}
    (ho : Reads operand Unary) (he : Reads expression Expression) :
    Reads (unary room operand expression) Unary := by
  intro ctx ts rest e heof h
  simp only [unary, bind_eq_ok, current_eq_ok] at h
  obtain ⟨t, _, ⟨rfl, rfl⟩, h⟩ := h
  cases hop : UnaryOp.ofKind? (ts.headD ctx.eof).kind with
  | some op =>
    cases ts with
    | nil => simp [heof, UnaryOp.ofKind?] at hop
    | cons t ts =>
      rw [List.headD_cons] at hop h
      simp only [hop, bind_eq_ok, take_eq_ok, pure_eq_ok] at h
      obtain ⟨_, _, ⟨-, rfl⟩, e', _, hread, rfl, rfl⟩ := h
      obtain ⟨us, hus, hd⟩ := ho heof hread
      exact ⟨t :: us, by simpa using hus, .mark hop hd⟩
  | none =>
    simp only [hop, bind_eq_ok] at h
    obtain ⟨e', mid, hprimary, hcalls⟩ := h
    obtain ⟨us, rfl, hd⟩ := primary_reads he heof hprimary
    obtain ⟨vs, rfl, hcall⟩ := calls_read he heof (.primary hd) hcalls
    exact ⟨us ++ vs, by simp, .call hcall⟩

theorem kind_ne_eof_of_unaryOp {kind : Kind} {op : UnaryOp} (h : UnaryOp.ofKind? kind = some op) :
    kind ≠ .eof := by
  rintro rfl
  cases h

theorem kind_ne_eof_of_binaryOp {kind : Kind} {op : BinaryOp}
    (h : BinaryOp.ofKind? kind = some op) : kind ≠ .eof := by
  rintro rfl
  cases h

/-- The operators of a rung of the ladder are those of the level with its number. -/
theorem mem_ladder_iff {n : Nat} {rung : List BinaryOp} (hrung : ladder[n]? = some rung)
    (op : BinaryOp) : op ∈ rung ↔ level op = n := by
  have hn : n < 6 := (List.getElem?_eq_some_iff.mp hrung).1
  match n, hn with
  | 0, _ | 1, _ | 2, _ | 3, _ | 4, _ | 5, _ =>
    cases hrung
    cases op <;> decide

theorem operatorAt?_eq_some_iff {n : Nat} {rung : List BinaryOp} (hrung : ladder[n]? = some rung)
    {t : Token} {op : BinaryOp} :
    operatorAt? rung t = some op ↔ BinaryOp.ofKind? t.kind = some op ∧ level op = n := by
  rw [operatorAt?, Option.filter_eq_some_iff, List.contains_iff_mem, mem_ladder_iff hrung]

/-- Operators of one level behind operands that were read already make a longer row of operands. -/
theorem chain_read {n : Nat} {rung : List BinaryOp} (hrung : ladder[n]? = some rung)
    {tighter : Parser Expr} (ht : Reads tighter (Binary (n + 1)))
    {ctx : ParseContext} (heof : ctx.eof.kind = .eof) {room : Nat} {l e : Expr}
    {us ts rest : List Token} (hl : Binary n us l)
    (h : chain rung tighter room l ctx ts = .ok (e, rest)) :
    ∃ vs, ts = vs ++ rest ∧ Binary n (us ++ vs) e := by
  induction room generalizing l us ts with
  | zero =>
    simp only [chain, bind_eq_ok, current_eq_ok] at h
    obtain ⟨t, _, ⟨rfl, rfl⟩, h⟩ := h
    cases hop : operatorAt? rung (ts.headD ctx.eof) with
    | some op =>
      simp only [hop] at h
      simp [tooDeep] at h
    | none =>
      simp only [hop, pure_eq_ok] at h
      obtain ⟨rfl, rfl⟩ := h
      exact ⟨[], rfl, by simpa using hl⟩
  | succ room ih =>
    simp only [chain, bind_eq_ok, current_eq_ok] at h
    obtain ⟨t, _, ⟨rfl, rfl⟩, h⟩ := h
    cases hop : operatorAt? rung (ts.headD ctx.eof) with
    | some op =>
      simp only [hop, bind_eq_ok, take_eq_ok] at h
      obtain ⟨_, _, ⟨-, rfl⟩, r, mid, hright, h⟩ := h
      obtain ⟨hmark, hlevel⟩ := (operatorAt?_eq_some_iff hrung).mp hop
      cases ts with
      | nil => simp [heof, BinaryOp.ofKind?] at hmark
      | cons t ts =>
        obtain ⟨vs, hvs, hd⟩ := ht heof hright
        obtain ⟨ws, rfl, hjoined⟩ := ih (.join hl hmark hlevel hd) h
        refine ⟨t :: vs ++ ws, ?_, by simpa using hjoined⟩
        simpa using hvs
    | none =>
      simp only [hop, pure_eq_ok] at h
      obtain ⟨rfl, rfl⟩ := h
      exact ⟨[], rfl, by simpa using hl⟩

theorem binary_reads {room : Nat} {operand : Parser Expr} (ho : Reads operand Unary) (n : Nat)
    (hn : n ≤ operandLevel) : Reads (binary room operand (ladder.drop n)) (Binary n) := by
  -- from the operands, which stand on the highest level, down to the level asked for
  induction hn using Nat.decreasingInduction with
  | self =>
    intro ctx ts rest e heof h
    obtain ⟨us, hus, hd⟩ := ho heof h
    exact ⟨us, hus, .operand hd⟩
  | of_succ n hlt ih =>
    intro ctx ts rest e heof h
    have hlen : n < ladder.length := hlt
    rw [List.drop_eq_getElem_cons hlen] at h
    simp only [binary, bind_eq_ok] at h
    obtain ⟨first, mid, hfirst, hchain⟩ := h
    obtain ⟨us, rfl, hd⟩ := ih heof hfirst
    obtain ⟨vs, rfl, hall⟩ := chain_read (List.getElem?_eq_getElem hlen) ih heof (.tighter hd) hchain
    exact ⟨us ++ vs, by simp, hall⟩

mutual

/-- What reads as a name is a name in parentheses. -/
theorem Expression.target {ts : List Token} {e : Expr} {t : Token} :
    Expression ts e → e = .identifier t → Target ts t
  | .operators h, he => h.target he
  | .assign .., he => nomatch he

theorem Binary.target {n : Nat} {ts : List Token} {e : Expr} {t : Token} :
    Binary n ts e → e = .identifier t → Target ts t
  | .operand h, he => h.target he
  | .tighter h, he => h.target he
  | .join .., he => nomatch he

theorem Unary.target {ts : List Token} {e : Expr} {t : Token} :
    Unary ts e → e = .identifier t → Target ts t
  | .call h, he => h.target he
  | .mark .., he => nomatch he

theorem Call.target {ts : List Token} {e : Expr} {t : Token} :
    Call ts e → e = .identifier t → Target ts t
  | .primary h, he => h.target he
  | .apply .., he => nomatch he

theorem Primary.target {ts : List Token} {e : Expr} {t : Token} :
    Primary ts e → e = .identifier t → Target ts t
  | .name hname, he => by
    cases he
    exact .name hname
  | .group hl h hr, he => .group hl (h.target he) hr
  | .number .., he => nomatch he
  | .string .., he => nomatch he
  | .yes _, he => nomatch he
  | .no _, he => nomatch he
  | .nil _, he => nomatch he

end

theorem assignment_reads {room : Nat} {operand expression : Parser Expr}
    (ho : Reads operand Unary) (he : Reads expression Expression) :
    Reads (assignment room operand expression) Expression := by
  intro ctx ts rest e heof h
  simp only [assignment, bind_eq_ok, current_eq_ok] at h
  obtain ⟨target, mid, hleft, t, _, ⟨rfl, rfl⟩, h⟩ := h
  obtain ⟨us, rfl, hd⟩ := binary_reads (unary_reads ho he) 0 (Nat.zero_le _) heof hleft
  split at h
  · next hmark =>
    simp only [bind_eq_ok, take_eq_ok] at h
    obtain ⟨_, _, ⟨-, rfl⟩, v, _, hvalue, h⟩ := h
    obtain ⟨vs, hvs, hv⟩ := he heof hvalue
    cases mid with
    | nil => simp [heof] at hmark
    | cons t mid =>
      cases target with
      | identifier name =>
        obtain ⟨rfl, rfl⟩ := pure_eq_ok.mp h
        refine ⟨us ++ t :: vs, ?_, .assign (hd.target rfl) hmark hv⟩
        simpa using hvs
      | _ => simp [rejectTarget] at h
  · obtain ⟨rfl, rfl⟩ := pure_eq_ok.mp h
    exact ⟨us, rfl, .operators hd⟩

theorem operand_and_expression_read (room : Nat) :
    Reads (operand room) Unary ∧ Reads (expression room) Expression := by
  induction room with
  | zero =>
    constructor
    · intro ctx ts rest e heof h
      simp [operand, tooDeepHere] at h
    · intro ctx ts rest e heof h
      simp [expression, tooDeepHere] at h
  | succ room ih =>
    obtain ⟨ho, he⟩ := ih
    constructor
    · intro ctx ts rest e heof h
      exact unary_reads ho he heof h
    · intro ctx ts rest e heof h
      exact assignment_reads ho he heof h

theorem expression_reads (room : Nat) : Reads (expression room) Expression :=
  (operand_and_expression_read room).2

-- ============================================================================
-- Statements
-- ============================================================================

/-- A statement to which an `else` behind it does not belong. -/
structure Settled (inside : Bool) (ts : List Token) (next : Kind) (s : Stmt) : Prop where
  derived : Statement inside ts next s
  closed : endsOpen s = true → next ≠ .elseWord

/-- A statement that does not end in an `if` is settled. -/
theorem Settled.of_closed {inside : Bool} {ts : List Token} {next : Kind} {s : Stmt}
    (h : Statement inside ts next s) (hs : endsOpen s = false) : Settled inside ts next s :=
  ⟨h, fun hopen => absurd hopen (by simp [hs])⟩

theorem statementEnd_reads : ReadsBefore statementEnd fun us next _ => Terminator us next := by
  intro ctx ts rest a heof h
  simp only [statementEnd, bind_eq_ok] at h
  obtain ⟨there, mid, hskip, h⟩ := h
  cases there with
  | true =>
    obtain ⟨t, ht, rfl⟩ := (skip_eq_ok_true heof (by decide)).mp hskip
    obtain ⟨-, rfl⟩ := pure_eq_ok.mp h
    exact ⟨[t], rfl, .semicolon ht⟩
  | false =>
    obtain ⟨hkind, rfl⟩ := (skip_eq_ok_false heof (by decide)).mp hskip
    simp only [Bool.false_eq_true, if_false, bind_eq_ok] at h
    obtain ⟨ends, mid, hends, h⟩ := h
    cases ends with
    | true =>
      obtain ⟨hnext, rfl⟩ := (atStatementEnd_eq_ok_true heof).mp hends
      obtain ⟨-, rfl⟩ := pure_eq_ok.mp h
      refine ⟨[], rfl, .missing ?_⟩
      obtain (h | h) | h := hnext
      · exact absurd h hkind
      · exact .inl h
      · exact .inr h
    | false => simp [fail] at h

theorem letVar_reads {expression : Parser Expr} (he : Reads expression Expression) {word : Token}
    (hword : word.kind = .letWord) (inside : Bool) :
    ReadsBefore (letVar expression) fun us next s => Settled inside (word :: us) next s := by
  intro ctx ts rest s heof h
  simp only [letVar, bind_eq_ok, expect_eq_ok heof (by decide : Kind.identifier ≠ .eof)] at h
  obtain ⟨name, _, ⟨hname, rfl⟩, there, mid, hskip, h⟩ := h
  cases there with
  | true =>
    obtain ⟨mark, hmark, rfl⟩ := (skip_eq_ok_true heof (by decide)).mp hskip
    simp only [if_true, bind_eq_ok, pure_eq_ok] at h
    obtain ⟨v, _, hvalue, _, _, hend, rfl, rfl⟩ := h
    obtain ⟨us, rfl, hv⟩ := he heof hvalue
    obtain ⟨stop, rfl, hstop⟩ := statementEnd_reads heof hend
    refine ⟨name :: mark :: us ++ stop, by simp, .of_closed ?_ rfl⟩
    exact .letValue hword hname hmark hv hstop
  | false =>
    obtain ⟨-, rfl⟩ := (skip_eq_ok_false heof (by decide)).mp hskip
    simp only [Bool.false_eq_true, if_false, bind_eq_ok, pure_eq_ok] at h
    obtain ⟨_, _, hend, rfl, rfl⟩ := h
    obtain ⟨stop, rfl, hstop⟩ := statementEnd_reads heof hend
    exact ⟨name :: stop, rfl, .of_closed (.letBare hword hname hstop) rfl⟩

theorem nodup_append_name {read : List Token} {t : Token}
    (hread : (read.map Token.lexeme).Nodup) (hnew : t.lexeme ∉ read.map Token.lexeme) :
    ((read ++ [t]).map Token.lexeme).Nodup := by
  rw [List.map_append, List.map_singleton, List.nodup_append]
  refine ⟨hread, by simp, fun a ha b hb hab => hnew ?_⟩
  rw [List.mem_singleton] at hb
  exact hb ▸ hab ▸ ha

/-- Parameters are added to those read before, from which they differ. -/
theorem parameters_read {ctx : ParseContext} (heof : ctx.eof.kind = .eof) {slots : Nat}
    {read params ts rest : List Token} (h : parameters slots read ctx ts = .ok (params, rest))
    (hread : (read.map Token.lexeme).Nodup) :
    ∃ us names, ts = us ++ rest ∧ Names us names ∧ params = read ++ names
      ∧ names.length ≤ slots ∧ (params.map Token.lexeme).Nodup := by
  induction slots generalizing read ts with
  | zero => simp [parameters, fail] at h
  | succ slots ih =>
    simp only [parameters, bind_eq_ok, expect_eq_ok heof (by decide : Kind.identifier ≠ .eof)] at h
    obtain ⟨t, _, ⟨hname, rfl⟩, h⟩ := h
    split at h
    · simp [failAt] at h
    · next hnew =>
      have hdistinct := nodup_append_name hread fun hmem => hnew (by simpa using hmem)
      simp only [bind_eq_ok] at h
      obtain ⟨there, mid, hskip, h⟩ := h
      cases there with
      | true =>
        obtain ⟨comma, hcomma, rfl⟩ := (skip_eq_ok_true heof (by decide)).mp hskip
        obtain ⟨us, names, rfl, hnames, rfl, hcount, hall⟩ := ih h hdistinct
        refine ⟨t :: comma :: us, t :: names, rfl, .more hname hcomma hnames, by simp, ?_, hall⟩
        exact Nat.succ_le_succ hcount
      | false =>
        obtain ⟨-, rfl⟩ := (skip_eq_ok_false heof (by decide)).mp hskip
        obtain ⟨rfl, rfl⟩ := pure_eq_ok.mp h
        exact ⟨[t], [t], rfl, .last hname, rfl, by simp, hdistinct⟩

theorem parameterList_reads : Reads parameterList Parameters := by
  intro ctx ts rest params heof h
  simp only [parameterList, bind_eq_ok, at_eq_ok] at h
  obtain ⟨none, _, ⟨-, rfl⟩, h⟩ := h
  cases none with
  | true =>
    obtain ⟨rfl, rfl⟩ := pure_eq_ok.mp h
    exact ⟨[], rfl, .inl ⟨rfl, rfl⟩, Nat.zero_le _, List.nodup_nil⟩
  | false =>
    obtain ⟨us, names, rfl, hnames, rfl, hcount, hall⟩ :=
      parameters_read heof h List.nodup_nil
    exact ⟨us, rfl, .inr hnames, hcount, hall⟩

section Series

variable {stop : Kind → Prop} [DecidablePred stop] {stmt : Parser Stmt} {inside : Bool}
  {ctx : ParseContext} {ts : List Token}

/-- Statements up to a token of a kind that stops them, at most `bound` of them. -/
def series (stop : Kind → Prop) [DecidablePred stop] (stmt : Parser Stmt) :
    Nat → Parser (List Stmt)
  | 0 => pure []
  | bound + 1 => do
    let t ← current
    if stop t.kind then pure []
    else
      let s ← stmt
      let rest ← series stop stmt bound
      pure (s :: rest)

theorem series_of_stop {bound : Nat} (h : stop (ts.headD ctx.eof).kind) :
    series stop stmt bound ctx ts = .ok ([], ts) := by
  cases bound with
  | zero => rfl
  | succ bound =>
    show (if stop (ts.headD ctx.eof).kind then _ else _ : Parser (List Stmt)) ctx ts = _
    rw [if_pos h]
    rfl

theorem series_succ (bound : Nat) (h : ¬ stop (ts.headD ctx.eof).kind) :
    series stop stmt (bound + 1) ctx ts =
      (stmt >>= fun s => series stop stmt bound >>= fun rest => pure (s :: rest)) ctx ts := by
  show (if stop (ts.headD ctx.eof).kind then _ else _ : Parser (List Stmt)) ctx ts = _
  rw [if_neg h]

theorem series_reads (hs : ReadsBefore stmt (Settled inside)) (bound : Nat) :
    ReadsBefore (series stop stmt bound) (Statements inside) := by
  induction bound with
  | zero =>
    intro ctx ts rest ss heof h
    obtain ⟨rfl, rfl⟩ := pure_eq_ok.mp h
    exact ⟨[], rfl, .nil⟩
  | succ bound ih =>
    intro ctx ts rest ss heof h
    by_cases hstop : stop (ts.headD ctx.eof).kind
    · rw [series_of_stop hstop] at h
      cases h
      exact ⟨[], rfl, .nil⟩
    · simp only [series_succ bound hstop, bind_eq_ok, pure_eq_ok] at h
      obtain ⟨s, mid, hfirst, ss', _, hmore, rfl, rfl⟩ := h
      obtain ⟨us, rfl, hd⟩ := hs heof hfirst
      obtain ⟨vs, rfl, hrest⟩ := ih heof hmore
      refine ⟨us ++ vs, by simp, .cons ?_ hrest⟩
      rw [← headKind_append]
      exact hd.derived

/-- The series fails, or it ends before a token that stops it. -/
def Stopped (stop : Kind → Prop) (ctx : ParseContext)
    (r : Except ParseError (List Stmt × List Token)) : Prop :=
  ∀ ss rest, r = .ok (ss, rest) → stop (rest.headD ctx.eof).kind

/-- Each statement takes a token, so the number of tokens is bound enough. -/
theorem series_stopped (hs : ReadsBefore stmt (Settled inside)) (hstop : stop .eof)
    (heof : ctx.eof.kind = .eof) {bound : Nat} (hbound : ts.length ≤ bound) :
    Stopped stop ctx (series stop stmt bound ctx ts) := by
  intro ss rest hread
  induction bound generalizing ts ss with
  | zero =>
    obtain rfl := List.eq_nil_of_length_eq_zero (Nat.le_zero.mp hbound)
    cases hread
    exact (show ctx.eof.kind = .eof from heof) ▸ hstop
  | succ bound ih =>
    by_cases hhead : stop (ts.headD ctx.eof).kind
    · rw [series_of_stop hhead] at hread
      cases hread
      exact hhead
    · simp only [series_succ bound hhead, bind_eq_ok, pure_eq_ok] at hread
      obtain ⟨s, mid, hfirst, ss', _, hmore, rfl, rfl⟩ := hread
      obtain ⟨us, rfl, hd⟩ := hs heof hfirst
      have hpos := hd.derived.starts.length_pos
      rw [List.length_append] at hbound
      exact ih (by omega) _ hmore

end Series

theorem statements_eq_series (stmt : Parser Stmt) (bound : Nat) :
    statements stmt bound = series (fun kind => kind = .rightBrace ∨ kind = .eof) stmt bound := by
  induction bound with
  | zero => rfl
  | succ bound ih =>
    rw [statements, ih]
    rfl

theorem topLevel_eq_series (bound : Nat) :
    topLevel bound = series (· = .eof) (maxNesting >>= statement false) bound := by
  induction bound with
  | zero => rfl
  | succ bound ih =>
    rw [topLevel, ih]
    rfl

theorem statements_reads {inside : Bool} {statement : Parser Stmt}
    (hs : ReadsBefore statement (Settled inside)) (bound : Nat) :
    ReadsBefore (statements statement bound) (Statements inside) := by
  rw [statements_eq_series]
  exact series_reads hs bound

/-- The statements of a block stand before the brace that closes it. -/
theorem block_reads {inside : Bool} {statement : Parser Stmt}
    (hs : ReadsBefore statement (Settled inside)) :
    Reads (block statement) fun us body => ∃ vs close, us = vs ++ [close]
      ∧ close.kind = .rightBrace ∧ Statements inside vs .rightBrace body := by
  intro ctx ts rest body heof h
  simp only [block, bind_eq_ok, pure_eq_ok,
    expect_eq_ok heof (by decide : Kind.rightBrace ≠ .eof)] at h
  obtain ⟨bound, _, hbound, body', _, hread, close, _, ⟨hclose, rfl⟩, rfl, rfl⟩ := h
  simp only [remaining, Except.ok.injEq, Prod.mk.injEq] at hbound
  obtain ⟨-, rfl⟩ := hbound
  obtain ⟨us, rfl, hbody⟩ := statements_reads hs bound heof hread
  rw [headKind_cons, hclose] at hbody
  exact ⟨us ++ [close], by simp, us, close, rfl, hclose, hbody⟩

theorem function_reads {statement : Parser Stmt} (hs : ReadsBefore statement (Settled true))
    {word : Token} (hword : word.kind = .fnWord) (inside : Bool) :
    ReadsBefore (function statement) fun us next s => Settled inside (word :: us) next s := by
  intro ctx ts rest s heof h
  simp only [function, bind_eq_ok, pure_eq_ok,
    expect_eq_ok heof (by decide : Kind.identifier ≠ .eof),
    expect_eq_ok heof (by decide : Kind.leftParen ≠ .eof),
    expect_eq_ok heof (by decide : Kind.rightParen ≠ .eof),
    expect_eq_ok heof (by decide : Kind.leftBrace ≠ .eof)] at h
  obtain ⟨name, _, ⟨hname, rfl⟩, l, mid, ⟨hl, rfl⟩, params, _, hparams, r, _, ⟨hr, rfl⟩,
    open_, _, ⟨hopen, rfl⟩, body, _, hbody, rfl, rfl⟩ := h
  obtain ⟨ps, rfl, hps⟩ := parameterList_reads heof hparams
  obtain ⟨_, rfl, ts, close, rfl, hclose, hts⟩ := block_reads hs heof hbody
  refine ⟨name :: l :: ps ++ r :: open_ :: ts ++ [close], by simp, .of_closed ?_ rfl⟩
  exact .function hword hname hl hps hr hopen hts hclose

theorem condition_reads {expression : Parser Expr} (he : Reads expression Expression)
    (opening closing : Expected) :
    Reads (condition expression opening closing) fun us c => ∃ l cs r, us = l :: cs ++ [r]
      ∧ l.kind = .leftParen ∧ Expression cs c ∧ r.kind = .rightParen := by
  intro ctx ts rest c heof h
  simp only [condition, bind_eq_ok, pure_eq_ok,
    expect_eq_ok heof (by decide : Kind.leftParen ≠ .eof),
    expect_eq_ok heof (by decide : Kind.rightParen ≠ .eof)] at h
  obtain ⟨l, mid, ⟨hl, rfl⟩, c', _, hread, r, _, ⟨hr, rfl⟩, rfl, rfl⟩ := h
  obtain ⟨cs, rfl, hc⟩ := he heof hread
  exact ⟨l :: cs ++ [r], by simp, l, cs, r, rfl, hl, hc, hr⟩

theorem ifStmt_reads {inside : Bool} {statement : Parser Stmt} {expression : Parser Expr}
    (hs : ReadsBefore statement (Settled inside)) (he : Reads expression Expression)
    {word : Token} (hword : word.kind = .ifWord) :
    ReadsBefore (ifStmt word statement expression) fun us next s =>
      Settled inside (word :: us) next s := by
  intro ctx ts rest s heof h
  simp only [ifStmt, bind_eq_ok] at h
  obtain ⟨c, _, hcond, yes, mid, hyes, there, _, hskip, h⟩ := h
  obtain ⟨_, rfl, l, cs, r, rfl, hl, hc, hr⟩ := condition_reads he _ _ heof hcond
  obtain ⟨us, rfl, hus⟩ := hs heof hyes
  cases there with
  | true =>
    obtain ⟨mark, hmark, rfl⟩ := (skip_eq_ok_true heof (by decide)).mp hskip
    simp only [if_true, bind_eq_ok, pure_eq_ok] at h
    obtain ⟨no, _, hno, rfl, rfl⟩ := h
    obtain ⟨vs, rfl, hvs⟩ := hs heof hno
    -- the `else` was left behind the first branch, so that branch could not take it
    rw [headKind_cons, hmark] at hus
    have hclosed : endsOpen yes = false := by
      cases hopen : endsOpen yes with
      | false => rfl
      | true => exact absurd rfl (hus.closed hopen)
    refine ⟨l :: cs ++ r :: us ++ mark :: vs, by simp, ?_, hvs.closed⟩
    exact .ifThenElse hword hl hc hr hus.derived hclosed hmark hvs.derived
  | false =>
    obtain ⟨hkind, rfl⟩ := (skip_eq_ok_false heof (by decide)).mp hskip
    obtain ⟨rfl, rfl⟩ := pure_eq_ok.mp h
    refine ⟨l :: cs ++ r :: us, by simp, ?_, fun _ => hkind⟩
    exact .ifThen hword hl hc hr hus.derived

theorem whileLoop_reads {inside : Bool} {statement : Parser Stmt} {expression : Parser Expr}
    (hs : ReadsBefore statement (Settled inside)) (he : Reads expression Expression)
    {word : Token} (hword : word.kind = .whileWord) :
    ReadsBefore (whileLoop word statement expression) fun us next s =>
      Settled inside (word :: us) next s := by
  intro ctx ts rest s heof h
  simp only [whileLoop, bind_eq_ok, pure_eq_ok] at h
  obtain ⟨c, _, hcond, body, _, hbody, rfl, rfl⟩ := h
  obtain ⟨_, rfl, l, cs, r, rfl, hl, hc, hr⟩ := condition_reads he _ _ heof hcond
  obtain ⟨us, rfl, hus⟩ := hs heof hbody
  refine ⟨l :: cs ++ r :: us, by simp, ?_, hus.closed⟩
  exact .whileLoop hword hl hc hr hus.derived

theorem returnStmt_reads {expression : Parser Expr} (he : Reads expression Expression)
    {word : Token} (hword : word.kind = .returnWord) (inside : Bool) :
    ReadsBefore (returnStmt word inside expression) fun us next s =>
      Settled inside (word :: us) next s := by
  intro ctx ts rest s heof h
  cases inside with
  | false => simp [returnStmt, failAt] at h
  | true =>
    simp only [returnStmt, Bool.not_true, Bool.false_eq_true, if_false, bind_eq_ok] at h
    obtain ⟨ends, _, hends, h⟩ := h
    cases ends with
    | true =>
      obtain ⟨-, rfl⟩ := (atStatementEnd_eq_ok_true heof).mp hends
      simp only [if_true, bind_eq_ok, pure_eq_ok] at h
      obtain ⟨_, _, hend, rfl, rfl⟩ := h
      obtain ⟨stop, rfl, hstop⟩ := statementEnd_reads heof hend
      exact ⟨stop, rfl, .of_closed (.returnBare hword hstop) rfl⟩
    | false =>
      obtain rfl := atStatementEnd_eq_ok_false heof hends
      simp only [Bool.false_eq_true, if_false, bind_eq_ok, pure_eq_ok] at h
      obtain ⟨v, _, hvalue, _, _, hend, rfl, rfl⟩ := h
      obtain ⟨us, rfl, hv⟩ := he heof hvalue
      obtain ⟨stop, rfl, hstop⟩ := statementEnd_reads heof hend
      exact ⟨us ++ stop, by simp, .of_closed (.returnValue hword hv hstop) rfl⟩

theorem statementBody_reads {inside : Bool} {statement : Bool → Parser Stmt}
    {expression : Parser Expr} (hs : ∀ b, ReadsBefore (statement b) (Settled b))
    (he : Reads expression Expression) :
    ReadsBefore (statementBody inside statement expression) (Settled inside) := by
  intro ctx ts rest s heof h
  simp only [statementBody, bind_eq_ok, current_eq_ok] at h
  obtain ⟨t, _, ⟨rfl, rfl⟩, h⟩ := h
  cases hkind : (ts.headD ctx.eof).kind with
  | letWord =>
    simp only [hkind] at h
    obtain ⟨us, hts, h⟩ := take_bind_eq_ok heof (by rw [hkind]; decide) h
    obtain ⟨vs, rfl, hd⟩ := letVar_reads he hkind inside heof h
    exact ⟨_ :: vs, hts, hd⟩
  | fnWord =>
    simp only [hkind] at h
    obtain ⟨us, hts, h⟩ := take_bind_eq_ok heof (by rw [hkind]; decide) h
    obtain ⟨vs, rfl, hd⟩ := function_reads (hs true) hkind inside heof h
    exact ⟨_ :: vs, hts, hd⟩
  | ifWord =>
    simp only [hkind] at h
    obtain ⟨us, hts, h⟩ := take_bind_eq_ok heof (by rw [hkind]; decide) h
    obtain ⟨vs, rfl, hd⟩ := ifStmt_reads (hs inside) he hkind heof h
    exact ⟨_ :: vs, hts, hd⟩
  | whileWord =>
    simp only [hkind] at h
    obtain ⟨us, hts, h⟩ := take_bind_eq_ok heof (by rw [hkind]; decide) h
    obtain ⟨vs, rfl, hd⟩ := whileLoop_reads (hs inside) he hkind heof h
    exact ⟨_ :: vs, hts, hd⟩
  | returnWord =>
    simp only [hkind] at h
    obtain ⟨us, hts, h⟩ := take_bind_eq_ok heof (by rw [hkind]; decide) h
    obtain ⟨vs, rfl, hd⟩ := returnStmt_reads he hkind inside heof h
    exact ⟨_ :: vs, hts, hd⟩
  | leftBrace =>
    simp only [hkind] at h
    obtain ⟨us, hts, h⟩ := take_bind_eq_ok heof (by rw [hkind]; decide) h
    simp only [bind_eq_ok, pure_eq_ok] at h
    obtain ⟨body, _, hbody, rfl, rfl⟩ := h
    obtain ⟨_, rfl, vs, close, rfl, hclose, hd⟩ := block_reads (hs inside) heof hbody
    exact ⟨_ :: vs ++ [close], hts, .of_closed (.block hkind hd hclose) rfl⟩
  | _ =>
    simp only [hkind, bind_eq_ok, pure_eq_ok] at h
    obtain ⟨e, _, hexpr, _, _, hend, rfl, rfl⟩ := h
    obtain ⟨us, rfl, hd⟩ := he heof hexpr
    obtain ⟨stop, rfl, hstop⟩ := statementEnd_reads heof hend
    exact ⟨us ++ stop, by simp, .of_closed (.expression hd hstop) rfl⟩

theorem statement_succ_eq (inside : Bool) (room : Nat) :
    statement inside (room + 1) =
      statementBody inside (fun inner => statement inner room) (expression room) := by
  funext ctx ts
  rw [statement]

theorem statement_reads (inside : Bool) (room : Nat) :
    ReadsBefore (statement inside room) (Settled inside) := by
  induction room generalizing inside with
  | zero =>
    intro ctx ts rest s heof h
    simp [statement, tooDeepHere] at h
  | succ room ih =>
    intro ctx ts rest s heof h
    exact statementBody_reads ih (expression_reads room) heof h

-- ============================================================================
-- Programs
-- ============================================================================

/-- At the top level the room is the limit itself. -/
theorem statementAtTop_reads : ReadsBefore (maxNesting >>= statement false) (Settled false) :=
  fun ctx _ _ _ heof h => statement_reads false ctx.maxNesting heof h

/-- With at least as large a bound as there are tokens, the top level is read to the end. -/
theorem topLevel_read {ctx : ParseContext} (heof : ctx.eof.kind = .eof) {bound : Nat}
    {ts rest : List Token} {ss : List Stmt} (hbody : ∀ t ∈ ts, t.kind ≠ .eof)
    (hbound : ts.length ≤ bound) (h : topLevel bound ctx ts = .ok (ss, rest)) :
    rest = [] ∧ Statements false ts .eof ss := by
  rw [topLevel_eq_series] at h
  obtain ⟨us, rfl, hd⟩ := series_reads statementAtTop_reads bound heof h
  cases rest with
  | nil =>
    rw [List.append_nil]
    exact ⟨rfl, hd⟩
  | cons t rest =>
    have hstopped : Stopped (· = .eof) ctx (series (· = .eof) _ bound ctx _) :=
      series_stopped statementAtTop_reads (by rfl) heof hbound
    exact absurd (hstopped ss _ h) (hbody t (by simp))

theorem beforeEof_append {body : List Token} {eof : Token} (heof : eof.kind = .eof)
    (hbody : ∀ t ∈ body, t.kind ≠ .eof) : beforeEof (body ++ [eof]) = body := by
  induction body with
  | nil => simp [beforeEof, heof]
  | cons t body ih =>
    rw [beforeEof, List.cons_append, List.takeWhile_cons_of_pos (by simp [hbody t (by simp)])]
    exact congrArg (t :: ·) (ih fun u hu => hbody u (by simp [hu]))

theorem eofOf_append {body : List Token} {eof : Token} (heof : eof.kind = .eof)
    (hbody : ∀ t ∈ body, t.kind ≠ .eof) : eofOf (body ++ [eof]) = eof := by
  have hnone : body.find? (fun t => t.kind = .eof) = none := by
    rw [List.find?_eq_none]
    intro t ht
    simpa using hbody t ht
  simp [eofOf, List.find?_append, hnone, heof]

/-- A program that is read is derived, whatever the nesting limit. -/
theorem derives_of_parse {body : List Token} {eof : Token} {limit : Nat} {p : Program}
    (heof : eof.kind = .eof) (hbody : ∀ t ∈ body, t.kind ≠ .eof)
    (h : Program.parse (body ++ [eof]) limit = .ok p) : Derives body p := by
  rw [Program.parse, beforeEof_append heof hbody, eofOf_append heof hbody] at h
  cases hread : topLevel body.length ⟨eof, limit⟩ body with
  | error e => simp [hread, Except.map] at h
  | ok r =>
    simp only [hread, Except.map, Except.ok.injEq] at h
    obtain ⟨-, hd⟩ := topLevel_read heof hbody (Nat.le_refl _) hread
    rw [← h]
    exact hd

end Lexiscope.Grammar
