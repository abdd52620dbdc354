/-
  Lexiscope.Proofs.Viable.Expression

  Where the parser breaks off within an expression.

  Each parser breaks off behind the beginning of a row of the nonterminal that it
  reads. The calls and operators of a chain are read behind an expression that is
  complete already, so what is missing there may be nothing. The one parser that does
  not follow from its parts is that of an assignment to something that is no name:
  the equals sign cannot be read, but is (`BreaksAt.rejectTarget`).
-/
import Lexiscope.Proofs.Viable.Steps

namespace Lexiscope.Parser

open Grammar (Expression Binary Unary Call Primary Arguments Row Behind Reads looseToken)

variable {t : Token} {L : Rows} {operand expr : Parser Expr} {room : Nat}

-- ============================================================================
-- Targets that are no names
-- ============================================================================

/-- The error is at one of the tokens that there are. -/
theorem Blames.mem {ctx : ParseContext} {us rest : List Token} {e : ParseError}
    (h : Blames ctx rest e) : e.token ∈ us ++ rest ∨ e.token = ctx.eof := by
  have htail : e.token ∈ rest.tail → e.token ∈ us ++ rest := fun hmem =>
    List.mem_append_right us (List.mem_of_mem_tail hmem)
  obtain hhead | ⟨-, hmem | heof⟩ := h
  · cases rest with
    | nil => exact .inr hhead
    | cons t rest => exact .inl (hhead ▸ List.mem_append_right us List.mem_cons_self)
  · exact .inl (htail hmem)
  · exact .inr heof

/-- An equals sign is refused behind something that is no name, at the latest when the value has
    been read. -/
theorem BreaksAt.rejectTarget (ht : t.kind = .assign) (hopen : L.Begins []) {L' : Rows}
    (he : Breaks L' expr) (target : Expr) :
    BreaksAt t L (Parser.take >>= fun _ => expr >>= fun _ =>
      (Parser.rejectTarget t target : Parser Expr)) := by
  -- whatever the value is, there is an error
  have hfails : ∀ ctx ts, ∃ e, (Parser.take >>= fun _ => expr >>= fun _ =>
      (Parser.rejectTarget t target : Parser Expr)) ctx ts = .error e := by
    intro ctx ts
    show ∃ e, Parser.bind expr _ ctx ts.tail = .error e
    unfold Parser.bind
    cases expr ctx ts.tail with
    | error e => exact ⟨e, rfl⟩
    | ok r => exact ⟨_, rfl⟩
  constructor
  · intro ctx ts a rest _ _ hread
    obtain ⟨e, he⟩ := hfails ctx ts
    rw [he] at hread
    cases hread
  · intro ctx ts e heof hhead hread hlimit
    refine ⟨[], ts, rfl, hopen, ?_, fun ctx' other _ => hfails ctx' other⟩
    have hvalue : Parser.bind expr (fun _ => Parser.rejectTarget t target) ctx ts.tail = .error e :=
      hread
    unfold Parser.bind at hvalue
    cases hexpr : expr ctx ts.tail with
    | ok r =>
      simp only [hexpr, Parser.rejectTarget, Except.error.injEq] at hvalue
      exact .inl (hvalue ▸ hhead.symm)
    | error e' =>
      simp only [hexpr, Except.error.injEq] at hvalue
      subst hvalue
      obtain ⟨us, rest, htail, -, hblames, -⟩ := (he.onToken _).stuck heof rfl hexpr hlimit
      exact .inr ⟨hhead ▸ ht, htail ▸ hblames.mem⟩

-- ============================================================================
-- Expressions
-- ============================================================================

theorem primary_opens : (Rows.of Primary).Begins [] :=
  ⟨[looseToken .nilWord "nil"], .nil, .nil rfl⟩

theorem unary_opens : (Rows.of Unary).Begins [] :=
  primary_opens.mono fun _ ⟨e, h⟩ => .of_row ⟨e, .call (.primary h)⟩

theorem expression_opens : (Rows.of Expression).Begins [] :=
  unary_opens.mono fun _ ⟨e, h⟩ => .of_row ⟨e, .operators (.lower (.operand h) (Nat.zero_le _))⟩

theorem primary_breaks (hr : Reads expr Expression) (he : Breaks (Rows.of Expression) expr) :
    Breaks (Rows.of Primary) (primary expr) := by
  refine .current primary_opens fun t => ?_
  have htake : ∀ {kind : Kind} {e : Expr}, t.kind = kind → kind ≠ .eof → Primary [t] e →
      BreaksAt t (Rows.of Primary) (take >>= fun _ => pure e) :=
    fun hkind hne _ => .take (hkind ▸ hne) fun _ => .pure _
  split
  · next hkind =>
    cases hx : Number.ofText? t.lexeme with
    | some x => exact htake hkind (by decide) (.number hkind hx)
    | none => exact (BreaksAt.failAt primary_opens .numberLiteral).congr fun _ _ _ _ => rfl
  · next hkind =>
    cases hs : t.stringValue? with
    | some s => exact htake hkind (by decide) (.string hkind hs)
    | none => exact (BreaksAt.failAt primary_opens .stringLiteral).congr fun _ _ _ _ => rfl
  · next hkind => exact htake hkind (by decide) (.yes hkind)
  · next hkind => exact htake hkind (by decide) (.no hkind)
  · next hkind => exact htake hkind (by decide) (.nil hkind)
  · next hkind => exact htake hkind (by decide) (.name hkind)
  · next hkind =>
    refine .take (by rw [hkind]; decide) (he.seq hr fun us e h => ?_).onToken
    refine .expect (by decide) fun r hclose => .pure (.of_row ⟨e, ?_⟩) e
    simpa using Primary.group hkind h hclose
  · exact .fail primary_opens _

theorem moreArguments_breaks (hr : Reads expr Expression) (he : Breaks (Rows.of Expression) expr)
    (slots : Nat) :
    Breaks (Rows.of fun us es => Behind us es ∧ es.length ≤ slots)
      (moreArguments expr slots) := by
  have hdone : Behind [] [] := .inl ⟨rfl, rfl⟩
  induction slots with
  | zero =>
    refine .skip (by decide) (fun _ _ _ => .limited fun ctx ts => ⟨_, rfl, trivial⟩) ?_
    exact .pure (.of_row ⟨[], hdone, Nat.le_refl 0⟩) _
  | succ slots ih =>
    refine .skip (by decide) (fun comma hcomma => Breaks.onToken ?_) ?_
    · refine he.seq hr fun us e h => ih.seq (Grammar.moreArguments_reads hr slots) fun vs es hmore => ?_
      refine .pure (.of_row ⟨e :: es, .inr ⟨comma, us ++ vs, hcomma, by simp, ?_⟩, ?_⟩) _
      · exact .of_behind h hmore.1
      · exact Nat.succ_le_succ hmore.2
    · exact .pure (.of_row ⟨[], hdone, Nat.zero_le _⟩) _

theorem argumentList_breaks (hr : Reads expr Expression) (he : Breaks (Rows.of Expression) expr) :
    Breaks (Rows.of fun us es => Arguments us es ∧ es.length ≤ Grammar.mostArguments)
      (argumentList expr) := by
  refine .atKind ?_ ?_
  · exact .pure (.of_row ⟨[], .none, Nat.zero_le _⟩) _
  · refine he.seq hr fun us e h =>
      (moreArguments_breaks hr he _).seq (Grammar.moreArguments_reads hr _) fun vs es hmore => ?_
    refine .pure (.of_row ⟨e :: es, ?_, Nat.succ_le_succ hmore.2⟩) _
    simpa using Arguments.row (.of_behind h hmore.1)

theorem arguments_breaks (hr : Reads expr Expression) (he : Breaks (Rows.of Expression) expr) :
    Breaks (Rows.of fun us args => ∃ as r, us = as ++ [r] ∧ Arguments as args
      ∧ args.length ≤ Grammar.mostArguments ∧ r.kind = .rightParen) (arguments expr) := by
  refine (argumentList_breaks hr he).seq (Grammar.argumentList_reads hr) fun as args hargs => ?_
  refine .expect (by decide) fun r hclose => .pure (.of_row ?_) _
  exact ⟨args, as, r, by simp, hargs.1, hargs.2, hclose⟩

/-- Behind a callee that was read more calls may stand. -/
theorem calls_break (hr : Reads expr Expression) (he : Breaks (Rows.of Expression) expr)
    (room : Nat) {us : List Token} {f : Expr} (hf : Call us f) :
    Breaks ((Rows.of Call).after us) (calls expr room f) := by
  have hopen : ∀ {us : List Token} {f : Expr}, Call us f → ((Rows.of Call).after us).Begins [] :=
    fun {us f} hf => .of_row ⟨f, by rwa [List.append_nil]⟩
  induction room generalizing us f with
  | zero =>
    refine .current (hopen hf) fun t => ?_
    split
    · exact .limited fun ctx ts => ⟨_, rfl, trivial⟩
    · exact .pure f
  | succ room ih =>
    refine .current (hopen hf) fun t => ?_
    split
    · next hl =>
      refine .take (by rw [hl]; decide) (Breaks.onToken ?_)
      refine (arguments_breaks hr he).seq (Grammar.arguments_reads hr) ?_
      rintro _ args ⟨as, r, rfl, hargs, hcount, hclose⟩
      refine (ih (.apply hf hl hargs hcount hclose)).mono fun vs ⟨e, h⟩ => .of_row ⟨e, ?_⟩
      simpa using h
    · exact .pure f

theorem unary_breaks (hor : Reads operand Unary) (ho : Breaks (Rows.of Unary) operand)
    (hr : Reads expr Expression) (he : Breaks (Rows.of Expression) expr) :
    Breaks (Rows.of Unary) (unary room operand expr) := by
  refine .current unary_opens fun t => ?_
  split
  · next op hop =>
    refine .take (Grammar.kind_ne_eof_of_unaryOp hop) (ho.seq hor fun us e h => ?_).onToken
    exact .pure (.of_row ⟨.unary op t e, by simpa using Unary.mark hop h⟩) _
  · refine Breaks.onToken ((primary_breaks hr he).seq (Grammar.primary_reads hr) fun us e h => ?_) t
    refine (calls_break hr he room (.primary h)).mono ?_
    rintro vs ⟨f, h⟩
    exact .of_row ⟨f, .call h⟩

/-- Behind operands of a level that were read more operators of this level may stand. -/
theorem chain_breaks {n : Nat} {rung : List BinaryOp} (hrung : ladder[n]? = some rung)
    {tighter : Parser Expr} (hr : Reads tighter (Binary (n + 1)))
    (ht : Breaks (Rows.of (Binary (n + 1))) tighter) (room : Nat) {us : List Token} {l : Expr}
    (hl : Binary n us l) :
    Breaks ((Rows.of (Binary n)).after us) (chain rung tighter room l) := by
  have hopen : ∀ {us : List Token} {l : Expr}, Binary n us l →
      ((Rows.of (Binary n)).after us).Begins [] :=
    fun {us l} hl => .of_row ⟨l, by rwa [List.append_nil]⟩
  induction room generalizing us l with
  | zero =>
    refine .current (hopen hl) fun t => ?_
    split
    · exact .limited fun ctx ts => ⟨_, rfl, trivial⟩
    · exact .pure l
  | succ room ih =>
    refine .current (hopen hl) fun t => ?_
    split
    · next op hop =>
      obtain ⟨hmark, hlevel⟩ := (Grammar.operatorAt?_eq_some_iff hrung).mp hop
      refine .take (Grammar.kind_ne_eof_of_binaryOp hmark) (ht.seq hr fun vs r h => ?_).onToken
      refine (ih (.join hl hmark hlevel h)).mono fun ws ⟨e, h⟩ => .of_row ⟨e, ?_⟩
      simpa using h
    · exact .pure l

theorem binary_breaks (hr : Reads operand Unary) (ho : Breaks (Rows.of Unary) operand) (n : Nat)
    (hn : n ≤ Grammar.operandLevel) :
    Breaks (Rows.of (Binary n)) (binary room operand (ladder.drop n)) := by
  -- from the operands, which stand on the highest level, down to the level asked for
  induction hn using Nat.decreasingInduction with
  | self => exact ho.mono fun us ⟨e, h⟩ => .of_row ⟨e, .operand h⟩
  | of_succ n hlt ih =>
    have hlen : n < ladder.length := hlt
    have htighter : Reads (binary room operand (ladder.drop (n + 1))) (Binary (n + 1)) :=
      Grammar.binary_reads hr (n + 1) hlt
    rw [List.drop_eq_getElem_cons hlen]
    refine ih.seq htighter fun us e h => ?_
    exact chain_breaks (List.getElem?_eq_getElem hlen) htighter ih room (.tighter h)

theorem assignment_breaks (hor : Reads operand Unary) (ho : Breaks (Rows.of Unary) operand)
    (hr : Reads expr Expression) (he : Breaks (Rows.of Expression) expr) :
    Breaks (Rows.of Expression) (assignment room operand expr) := by
  have hunary : Reads (unary room operand expr) Unary := Grammar.unary_reads hor hr
  refine Breaks.seq (binary_breaks hunary (unary_breaks hor ho hr he) 0 (Nat.zero_le _))
    (Grammar.binary_reads hunary 0 (Nat.zero_le _)) fun us target h => ?_
  have hopen : ((Rows.of Expression).after us).Begins [] :=
    .of_row ⟨target, by rw [List.append_nil]; exact .operators h⟩
  refine .current hopen fun t => ?_
  split
  · next ht =>
    cases target with
    | identifier name =>
      refine .take (by rw [ht]; decide) (he.seq hr fun vs v hv => .pure (.of_row ?_) _).onToken
      exact ⟨.assign name v, by simpa using Expression.assign (h.target rfl) ht hv⟩
    | _ => exact .rejectTarget ht hopen he _
  · exact .pure target

theorem operand_and_expression_break (room : Nat) :
    Breaks (Rows.of Unary) (Parser.operand room) ∧
      Breaks (Rows.of Expression) (expression room) := by
  induction room with
  | zero =>
    have hlimited : ∀ ctx ts, ∃ e, (tooDeepHere : Parser Expr) ctx ts = .error e ∧
        e.expected.IsLimit := fun ctx ts => ⟨_, rfl, trivial⟩
    exact ⟨.limited unary_opens hlimited, .limited expression_opens hlimited⟩
  | succ room ih =>
    obtain ⟨hor, hr⟩ := Grammar.operand_and_expression_read room
    obtain ⟨ho, he⟩ := ih
    exact ⟨unary_breaks hor ho hr he, assignment_breaks hor ho hr he⟩

theorem expression_breaks (room : Nat) : Breaks (Rows.of Expression) (expression room) :=
  (operand_and_expression_break room).2

end Lexiscope.Parser
