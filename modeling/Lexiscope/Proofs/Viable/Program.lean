/-
  Lexiscope.Proofs.Viable.Program

  A parse error is reported where the text stops being the beginning of a program.

  The parser breaks off behind tokens that some program begins with, and it does so on
  every list of tokens that is the same up to and with the next one
  (`Program.parse_stuck`). The error is at that next token, but for one case: behind an
  expression that is no name the parser reads on at an equals sign, and reports what is
  wrong with the value before it reports the equals sign (`late_equals_sign`). A limit
  may hide the error, so what is viable is asked under any limit, and a parser with
  enough room for both lists compares them.
-/
import Lexiscope.Proofs.Viable.Statement
import Lexiscope.Proofs.Nesting.Filter
import Lexiscope.Proofs.Lexical.Places

namespace Lexiscope

-- ============================================================================
-- Rows without an end marker
-- ============================================================================

namespace Grammar

/-- None of the tokens is an end marker. -/
def EofFree (ts : List Token) : Prop := ∀ t ∈ ts, t.kind ≠ .eof

@[simp] theorem eofFree_nil : EofFree [] := List.forall_mem_nil _

@[simp] theorem eofFree_cons (t : Token) (ts : List Token) :
    EofFree (t :: ts) ↔ t.kind ≠ .eof ∧ EofFree ts := List.forall_mem_cons

@[simp] theorem eofFree_append (ts us : List Token) : EofFree (ts ++ us) ↔ EofFree ts ∧ EofFree us :=
  List.forall_mem_append

theorem Target.eofFree {ts : List Token} {t : Token} : Target ts t → EofFree ts
  | .name hname => by simp [hname]
  | .group hl h hr => by simp [hl, h.eofFree, hr]

mutual

theorem Expression.eofFree {ts : List Token} {e : Expr} : Expression ts e → EofFree ts
  | .operators h => h.eofFree
  | .assign htarget hmark hvalue => by simp [htarget.eofFree, hmark, hvalue.eofFree]

theorem Binary.eofFree {n : Nat} {ts : List Token} {e : Expr} : Binary n ts e → EofFree ts
  | .operand h => h.eofFree
  | .tighter h => h.eofFree
  | .join hleft hmark _ hright => by
    simp [hleft.eofFree, kind_ne_eof_of_binaryOp hmark, hright.eofFree]

theorem Unary.eofFree {ts : List Token} {e : Expr} : Unary ts e → EofFree ts
  | .call h => h.eofFree
  | .mark hmark h => by simp [kind_ne_eof_of_unaryOp hmark, h.eofFree]

theorem Call.eofFree {ts : List Token} {e : Expr} : Call ts e → EofFree ts
  | .primary h => h.eofFree
  | .apply hcallee hl hargs _ hr => by simp [hcallee.eofFree, hl, hargs.eofFree, hr]

theorem Primary.eofFree {ts : List Token} {e : Expr} : Primary ts e → EofFree ts
  | .number hkind _ | .string hkind _ | .yes hkind | .no hkind | .nil hkind | .name hkind => by
    simp [hkind]
  | .group hl h hr => by simp [hl, h.eofFree, hr]

theorem Arguments.eofFree {ts : List Token} {es : List Expr} : Arguments ts es → EofFree ts
  | .none => eofFree_nil
  | .row h => h.eofFree

theorem Row.eofFree {ts : List Token} {es : List Expr} : Row ts es → EofFree ts
  | .last h => h.eofFree
  | .more h hcomma hrest => by simp [h.eofFree, hcomma, hrest.eofFree]

end

theorem Terminator.eofFree {stop : List Token} {next : Kind} : Terminator stop next → EofFree stop
  | .semicolon hkind => by simp [hkind]
  | .missing _ => eofFree_nil

theorem Names.eofFree {ts names : List Token} : Names ts names → EofFree ts
  | .last hname => by simp [hname]
  | .more hname hcomma hrest => by simp [hname, hcomma, hrest.eofFree]

theorem Parameters.eofFree {ts params : List Token} (h : Parameters ts params) : EofFree ts := by
  obtain ⟨rfl, -⟩ | hnames := h.row
  · exact eofFree_nil
  · exact hnames.eofFree

mutual

theorem Statement.eofFree {inside : Bool} {ts : List Token} {next : Kind} {s : Stmt} :
    Statement inside ts next s → EofFree ts
  | .letBare hword hname hstop => by simp [hword, hname, hstop.eofFree]
  | .letValue hword hname hmark hvalue hstop => by
    simp [hword, hname, hmark, hvalue.eofFree, hstop.eofFree]
  | .function hword hname hl hparams hr hopen hbody hclose => by
    simp [hword, hname, hl, hparams.eofFree, hr, hopen, hbody.eofFree, hclose]
  | .ifThen hword hl hcondition hr hyes => by
    simp [hword, hl, hcondition.eofFree, hr, hyes.eofFree]
  | .ifThenElse hword hl hcondition hr hyes _ hmark hno => by
    simp [hword, hl, hcondition.eofFree, hr, hyes.eofFree, hmark, hno.eofFree]
  | .whileLoop hword hl hcondition hr hbody => by
    simp [hword, hl, hcondition.eofFree, hr, hbody.eofFree]
  | .returnBare hword hstop => by simp [hword, hstop.eofFree]
  | .returnValue hword hvalue hstop => by simp [hword, hvalue.eofFree, hstop.eofFree]
  | .block hopen hbody hclose => by simp [hopen, hbody.eofFree, hclose]
  | .expression h hstop => by simp [h.eofFree, hstop.eofFree]

theorem Statements.eofFree {inside : Bool} {ts : List Token} {next : Kind} {ss : List Stmt} :
    Statements inside ts next ss → EofFree ts
  | .nil => eofFree_nil
  | .cons h hrest => by simp [h.eofFree, hrest.eofFree]

end

end Grammar

open Grammar (EofFree looseToken)

-- ============================================================================
-- Beginnings of programs
-- ============================================================================

/-- The tokens are the beginning of a list that is read as a program, if things may nest deep
    enough. -/
def Program.Viable (ts : List Token) : Prop :=
  ∃ more limit p, Program.parse (ts ++ more) limit = .ok p

namespace Program

theorem Viable.of_append {ts us : List Token} (h : Viable (ts ++ us)) : Viable ts := by
  obtain ⟨more, limit, p, h⟩ := h
  exact ⟨us ++ more, limit, p, by rwa [← List.append_assoc]⟩

theorem Viable.take {ts : List Token} {n m : Nat} (h : Viable (ts.take m)) (hle : n ≤ m) :
    Viable (ts.take n) := by
  obtain ⟨us, hus⟩ := List.take_prefix_take_left hle (l := ts)
  rw [← hus] at h
  exact h.of_append

/-- The beginning of a row of statements is that of a program. -/
theorem viable_of_begins {ts : List Token}
    (h : (Rows.ofBefore (Grammar.Statements false)).Begins ts) : Viable ts := by
  obtain ⟨more, next, ss, hrow⟩ := h
  have hderives : Grammar.Derives (ts ++ more) ⟨ss⟩ := hrow.before (.inr rfl)
  have hread := Grammar.parse_of_derives (show (looseToken .eof "").kind = .eof from rfl)
    hrow.eofFree (Nat.lt_succ_self _) hderives
  exact ⟨more ++ [looseToken .eof ""], _, _, by rwa [← List.append_assoc]⟩

-- ============================================================================
-- Where a parse breaks off
-- ============================================================================

theorem beforeEof_append_of_eofFree {us : List Token} (h : EofFree us) (ts : List Token) :
    beforeEof (us ++ ts) = us ++ beforeEof ts :=
  List.takeWhile_append_of_pos fun t ht => decide_eq_true (h t ht)

/-- The first token that is left, be it an end marker or not, is the current one. -/
theorem headD_beforeEof {us : List Token} (h : EofFree us) (t : Token) (ts : List Token) :
    (beforeEof (t :: ts)).headD (eofOf (us ++ t :: ts)) = t := by
  by_cases ht : t.kind = .eof
  · have hnone : us.find? (fun u => u.kind = .eof) = none := by
      rw [List.find?_eq_none]
      intro u hu
      simpa using h u hu
    simp [beforeEof, eofOf, List.find?_append, hnone, ht]
  · simp [beforeEof, ht]

theorem parse_eq_error_iff {tokens : List Token} {limit : Nat} {e : ParseError} :
    Program.parse tokens limit = .error e ↔
      (Parser.remaining >>= Parser.topLevel) ⟨eofOf tokens, limit⟩ (beforeEof tokens) =
        .error e := by
  show Except.map _ (Parser.topLevel (beforeEof tokens).length _ (beforeEof tokens)) = _ ↔
    Parser.topLevel (beforeEof tokens).length _ (beforeEof tokens) = _
  cases Parser.topLevel _ _ (beforeEof tokens) with
  | error e' => simp [Except.map]
  | ok r => simp [Except.map]

section Reported

variable {body : List Token} {eof : Token} {limit i : Nat} {e : ParseError}

/-- The parser breaks off behind tokens that a program begins with, and at the next token whatever
    stands behind it. It reports this token, or another one behind an equals sign. -/
theorem parse_stuck (heof : eof.kind = .eof) (hbody : EofFree body)
    (h : Program.parse (body ++ [eof]) limit = .error e) (he : ¬ e.expected.IsLimit) :
    ∃ us next more, body ++ [eof] = us ++ next :: more ∧ Viable us ∧
      (e.token = next ∨ next.kind = .assign ∧ e.token ∈ more) ∧
      ∀ other, ∃ e', Program.parse (us ++ next :: other) limit = .error e' := by
  have hread := parse_eq_error_iff.mp h
  rw [Grammar.beforeEof_append heof hbody, Grammar.eofOf_append heof hbody] at hread
  obtain ⟨us, rest, rfl, hbegins, hblames, hstuck⟩ :=
    (Parser.topLevel_breaks.onToken _).stuck heof rfl hread he
  have hus : EofFree us := ((Grammar.eofFree_append us rest).mp hbody).1
  have hfails : ∀ other, ∃ e', Program.parse (us ++ rest.headD eof :: other) limit = .error e' := by
    intro other
    have halike : Parser.Alike ⟨eof, limit⟩ ⟨eofOf (us ++ rest.headD eof :: other), limit⟩ rest
        (beforeEof (rest.headD eof :: other)) :=
      ⟨Grammar.kind_eofOf _, rfl, headD_beforeEof hus _ other⟩
    obtain ⟨e', he'⟩ := hstuck halike
    exact ⟨e', parse_eq_error_iff.mpr (by rwa [beforeEof_append_of_eofFree hus])⟩
  cases rest with
  | nil =>
    refine ⟨us, eof, [], by simp, viable_of_begins hbegins, .inl ?_, hfails⟩
    exact hblames.resolve_right fun hassign => nomatch heof.symm.trans hassign.1
  | cons next rest =>
    refine ⟨us, next, rest ++ [eof], by simp, viable_of_begins hbegins, ?_, hfails⟩
    exact hblames.imp_right fun hassign => ⟨hassign.1, by simpa using hassign.2⟩

/-- The parser breaks off at a token no later than the one it reports, and if it is an earlier one,
    it is an equals sign. -/
theorem parse_stuck_at (heof : eof.kind = .eof) (hbody : EofFree body)
    (h : Program.parse (body ++ [eof]) limit = .error e) (he : ¬ e.expected.IsLimit)
    (hplace : ∀ j, (body ++ [eof])[j]? = some e.token → j = i) :
    ∃ n ≤ i, Viable ((body ++ [eof]).take n) ∧
      (n < i → ∃ mark, (body ++ [eof])[n]? = some mark ∧ mark.kind = .assign) ∧
      ∀ other, ∃ e', Program.parse ((body ++ [eof]).take (n + 1) ++ other) limit = .error e' := by
  obtain ⟨us, next, more, hts, hviable, hblames, hfails⟩ := parse_stuck heof hbody h he
  rw [hts] at hplace ⊢
  have hnext : (us ++ next :: more)[us.length]? = some next := by simp
  have htake : (us ++ next :: more).take (us.length + 1) = us ++ [next] := by
    rw [List.take_append, List.take_of_length_le (Nat.le_succ _)]
    simp
  have hle : us.length ≤ i ∧ (us.length < i → next.kind = .assign) := by
    obtain hhead | ⟨hassign, hmore⟩ := hblames
    · have hi := hplace us.length (hhead ▸ hnext)
      omega
    · obtain ⟨k, hk⟩ := List.getElem?_of_mem hmore
      have hi := hplace (us.length + (k + 1)) (by simpa [List.getElem?_append_right] using hk)
      exact ⟨by omega, fun _ => hassign⟩
  refine ⟨us.length, hle.1, by simpa using hviable, fun hlt => ⟨next, hnext, hle.2 hlt⟩, ?_⟩
  intro other
  rw [htake, List.append_assoc]
  exact hfails other

/-- The parser reports the first token that no program has behind the tokens before it, or else one
    behind that token, which is an equals sign then. -/
theorem reported_token (heof : eof.kind = .eof) (hbody : EofFree body)
    (h : Program.parse (body ++ [eof]) limit = .error e) (he : ¬ e.expected.IsLimit)
    (hplace : ∀ j, (body ++ [eof])[j]? = some e.token → j = i) :
    ¬ Viable ((body ++ [eof]).take (i + 1)) ∧
      (Viable ((body ++ [eof]).take i) ∨
        ∃ j < i, (∃ mark, (body ++ [eof])[j]? = some mark ∧ mark.kind = .assign) ∧
          Viable ((body ++ [eof]).take j) ∧ ¬ Viable ((body ++ [eof]).take (j + 1))) := by
  -- what is wrong stays wrong with more room, so a list that is read under another limit can be
  -- compared with these tokens under a limit that is large enough for both
  have hcompare : ∀ {n}, Viable ((body ++ [eof]).take n) → ∃ m ≤ i, n ≤ m ∧
      Viable ((body ++ [eof]).take m) ∧
      (m < i → ∃ mark, (body ++ [eof])[m]? = some mark ∧ mark.kind = .assign) := by
    rintro n ⟨more, limit', p, hp⟩
    have hne : e.expected ≠ .nesting limit := fun heq => he (heq ▸ trivial)
    have hwrong := Program.parse_error_of_le (Nat.le_max_left limit limit') h hne
    have hright := Program.parse_ok_of_le (Nat.le_max_right limit limit') hp
    obtain ⟨m, hmi, hviable, hassign, hfails⟩ := parse_stuck_at heof hbody hwrong he hplace
    refine ⟨m, hmi, Nat.le_of_not_lt fun hlt => ?_, hviable, hassign⟩
    obtain ⟨us, hus⟩ := List.take_prefix_take_left hlt (l := body ++ [eof])
    obtain ⟨e', he'⟩ := hfails (us ++ more)
    rw [← List.append_assoc, hus, hright] at he'
    cases he'
  refine ⟨fun hviable => ?_, or_iff_not_imp_left.mpr fun hnot => ?_⟩
  · obtain ⟨m, hmi, him, -⟩ := hcompare hviable
    omega
  · -- the last of these tokens up to which they are the beginning of a program
    have hnone : Viable ((body ++ [eof]).take 0) := by
      obtain ⟨n, -, hviable, -⟩ := parse_stuck_at heof hbody h he hplace
      exact hviable.take (Nat.zero_le n)
    have hlast : ∃ j < i, Viable ((body ++ [eof]).take j) ∧
        ¬ Viable ((body ++ [eof]).take (j + 1)) := by
      by_contra hall
      have hevery : ∀ j ≤ i, Viable ((body ++ [eof]).take j) := by
        intro j hj
        induction j with
        | zero => exact hnone
        | succ j ih => exact of_not_not fun hbreak => hall ⟨j, hj, ih (Nat.le_of_succ_le hj), hbreak⟩
      exact hnot (hevery i (Nat.le_refl i))
    obtain ⟨j, hji, hviable, hbreak⟩ := hlast
    obtain ⟨m, hmi, hjm, hm, hassign⟩ := hcompare hviable
    obtain rfl : m = j := by
      by_contra hne
      exact hbreak (hm.take (by omega))
    exact ⟨m, hji, hassign hji, hviable, hbreak⟩

end Reported

end Program

/-- A parse error of a source text that is not about a limit is reported at a token which the text
    could not go on with up to there: no list that is read as a program begins with the tokens up to
    and with the reported one. It is the first such token, or else the first one stands before it
    and is an equals sign behind something that cannot be assigned to, for the value behind an
    equals sign is read before its target is looked at. -/
theorem error_at_last_viable_token {source : String} {ts : List Token} {limit i : Nat}
    {e : ParseError} {t : Token} (htokens : Token.tokenize source = .ok ts)
    (hparse : Program.parse ts limit = .error e) (hkind : ¬ e.expected.IsLimit)
    (ht : ts[i]? = some t) (hpos : t.start = e.pos) :
    ¬ Program.Viable (ts.take (i + 1)) ∧
      (Program.Viable (ts.take i) ∨
        ∃ j < i, (∃ mark, ts[j]? = some mark ∧ mark.kind = .assign) ∧
          Program.Viable (ts.take j) ∧ ¬ Program.Viable (ts.take (j + 1))) := by
  have hplace : ∀ j, ts[j]? = some e.token → j = i := fun j hj =>
    Lexical.index_eq_of_start (Lexical.tokenize_starts_nodup htokens) hj ht hpos.symm
  obtain ⟨body, eof, rfl, heof, hbody⟩ := Lexical.tokenize_ends htokens
  exact Program.reported_token heof hbody hparse hkind hplace

/-- The tokens of `nil = )`. -/
def nilAssigned : List Token :=
  [⟨.nilWord, "nil", ⟨1, 1⟩, ⟨1, 4⟩⟩, ⟨.assign, "=", ⟨1, 5⟩, ⟨1, 6⟩⟩,
   ⟨.rightParen, ")", ⟨1, 7⟩, ⟨1, 8⟩⟩, ⟨.eof, "", ⟨1, 8⟩, ⟨1, 8⟩⟩]

/-- In `nil = )` the parenthesis is reported. -/
theorem error_at_last_viable_token_nilAssigned :
    Token.tokenize "nil = )" = .ok nilAssigned ∧
      Program.parse nilAssigned 20 =
        .error (.unexpected .expression ⟨.rightParen, ")", ⟨1, 7⟩, ⟨1, 8⟩⟩) ∧
      ¬ Program.Viable (nilAssigned.take 3) := by
  have htokens : Token.tokenize "nil = )" = .ok nilAssigned := by decide
  have hparse : Program.parse nilAssigned 20 =
      .error (.unexpected .expression ⟨.rightParen, ")", ⟨1, 7⟩, ⟨1, 8⟩⟩) := rfl
  exact ⟨htokens, hparse, (error_at_last_viable_token htokens hparse id rfl rfl).1⟩

/-- The tokens before the reported one need not be the beginning of a program: `nil = )` is wrong
    from the equals sign on. -/
theorem reported_behind_equals_sign :
    ¬ ∀ (source : String) (ts : List Token) (limit i : Nat) (e : ParseError) (t : Token),
      Token.tokenize source = .ok ts → Program.parse ts limit = .error e →
      ¬ e.expected.IsLimit → ts[i]? = some t → t.start = e.pos →
      Program.Viable (ts.take i) ∧ ¬ Program.Viable (ts.take (i + 1)) := by
  intro hall
  have hviable := (hall "nil = )" nilAssigned 20 2 _ _ (by decide) rfl id rfl rfl).1
  -- behind the equals sign a value can stand, and then the equals sign is reported
  have hbody : EofFree (nilAssigned.take 2 ++ [looseToken .nilWord "nil"]) := by
    simp [nilAssigned, looseToken]
  have hplace : ∀ j, (nilAssigned.take 2 ++ [looseToken .nilWord "nil"] ++ [looseToken .eof ""])[j]?
      = some ⟨.assign, "=", ⟨1, 5⟩, ⟨1, 6⟩⟩ → j = 1 := by
    rintro (_ | _ | _ | _ | j) hj <;> simp_all [nilAssigned, looseToken]
  have hreported := Program.reported_token (show (looseToken .eof "").kind = .eof from rfl) hbody
    (show Program.parse _ 20 = .error (.badTarget ⟨.assign, "=", ⟨1, 5⟩, ⟨1, 6⟩⟩ .nil) from rfl) id
    hplace
  exact hreported.1 hviable

end Lexiscope
