/-
  Lexiscope.Proofs.Lexical.Halt

  Source texts that are not tokenized.

  Such a text is made of pieces up to a fault (`Halts`), in the same way as a text that is
  tokenized is made of pieces up to its last gap, and tokenizing gives the error of the
  fault (`tokensFrom_eq_error_iff`). Two things follow. The text in front of the fault
  is tokenized, for a piece still fits when what follows it is cut off. And a text that
  halts does so below any text that splits, with the fault so many lines further down:
  what is left of the line above only makes its first gap longer.
-/
import Lexiscope.Proofs.Lexical.Fault
import Lexiscope.Proofs.Lexical.Lines

namespace Lexiscope

/-- The error so many lines further down. -/
def LexError.down (lines : Nat) : LexError → LexError
  | unexpectedCharacter p c => unexpectedCharacter (p.down lines) c
  | unterminatedString p => unterminatedString (p.down lines)
  | unterminatedComment p => unterminatedComment (p.down lines)
  | invalidEscape p c => invalidEscape (p.down lines) c

namespace Lexical

/-- The text is made of pieces, one behind the other, up to a fault behind a gap. -/
inductive Halts : Pos → List Char → LexError → Prop where
  | fault {p : Pos} {gap taken after : List Char} {e : LexError} (hgap : Gap false gap)
      (h : Fault (p.after gap) taken after e) : Halts p (gap ++ (taken ++ after)) e
  | piece {p : Pos} {q : Piece} {after : List Char} {e : LexError} (hq : q.Fits after)
      (h : Halts ((p.after q.gap).after q.lexeme) after e) : Halts p (q.gap ++ (q.lexeme ++ after)) e

-- ============================================================================
-- Tokenizing
-- ============================================================================

/-- The error of the fault is what tokenizing gives. -/
theorem Halts.tokensFrom {p : Pos} {text : List Char} {e : LexError} (h : Halts p text e)
    {bound : Nat} (hbound : text.length ≤ bound) :
    Token.tokensFrom bound ⟨text, p⟩ = .error e := by
  induction h generalizing bound with
  | fault hgap hfault =>
    have hpos := List.length_pos_iff.mpr hfault.ne_nil
    simp only [List.length_append] at hbound
    cases bound with
    | zero => omega
    | succ bound => rw [Token.tokensFrom, hfault.scan hgap]
  | @piece p q after e hq _ ih =>
    have hpos : 0 < q.lexeme.length := List.length_pos_iff.mpr hq.lexeme.ne_nil
    simp only [List.length_append] at hbound
    cases bound with
    | zero => omega
    | succ bound =>
      have htoken : (q.token p).kind ≠ .eof := hq.lexeme.kind_ne_eof
      rw [Token.tokensFrom, hq.scan]
      simp only
      rw [if_neg htoken, ih (by omega)]
      rfl

/-- A text for which tokenizing gives an error halts with it. -/
theorem halts_of_tokensFrom {bound : Nat} {text : List Char} {p : Pos} {e : LexError}
    (h : Token.tokensFrom bound ⟨text, p⟩ = .error e) : Halts p text e := by
  induction bound generalizing text p with
  | zero => cases h
  | succ bound ih =>
    rw [Token.tokensFrom] at h
    split at h
    · next e' next hscan =>
      obtain rfl := Except.error.inj h
      obtain ⟨gap, taken, after, rfl, hgap, hfault, -⟩ := fault_of_scan hscan
      exact .fault hgap hfault
    · next t next hscan =>
      obtain ⟨-, rfl⟩ | ⟨q, after, rfl, hq, rfl, rfl⟩ := scan_cases hscan
      · rw [if_pos rfl] at h
        cases h
      · have htoken : (q.token p).kind ≠ .eof := hq.lexeme.kind_ne_eof
        rw [if_neg htoken] at h
        cases htail : Token.tokensFrom bound ⟨after, (p.after q.gap).after q.lexeme⟩ with
        | ok ts =>
          rw [htail] at h
          cases h
        | error e' =>
          rw [htail] at h
          obtain rfl := Except.error.inj h
          exact .piece hq (ih htail)

theorem tokenize_eq_error_iff {source : String} {e : LexError} :
    Token.tokenize source = .error e ↔ Halts Pos.first source.toList e :=
  ⟨halts_of_tokensFrom, fun h => h.tokensFrom (Nat.le_refl _)⟩

-- ============================================================================
-- In front of the fault
-- ============================================================================

/-- A piece fits if less follows. -/
theorem Piece.Fits.cut {p : Piece} {after more : List Char} (h : p.Fits (after ++ more)) :
    p.Fits after where
  gap := h.gap
  lexeme := h.lexeme
  longest := by
    intro kind text htext hpre
    refine h.longest kind text htext (hpre.trans ?_)
    rw [← List.append_assoc]
    exact List.prefix_append _ _
  no_comment hslash := by
    cases after with
    | nil => exact ⟨nofun, nofun⟩
    | cons c after => exact h.no_comment hslash

theorem Gap.last {gap : List Char} (h : Gap false gap) : Gap true gap := by
  have hgap : Gap true (gap ++ []) := h.append .nil
  rw [List.append_nil] at hgap
  exact hgap

/-- What stands in front of the fault splits. -/
theorem Halts.cause {p : Pos} {text : List Char} {e : LexError} (h : Halts p text e) :
    ∃ before taken after, text = before ++ (taken ++ after) ∧ (∃ ps gap, Splits before ps gap) ∧
      Fault (p.after before) taken after e := by
  induction h with
  | @fault p gap taken after e hgap hfault =>
    exact ⟨gap, taken, after, rfl, ⟨[], gap, .last hgap.last⟩, hfault⟩
  | @piece p q _ e hq _ ih =>
    obtain ⟨before, taken, after, rfl, ⟨ps, gap, hsplits⟩, hfault⟩ := ih
    refine ⟨q.gap ++ (q.lexeme ++ before), taken, after, by simp only [List.append_assoc],
      ⟨q :: ps, gap, .piece hq.cut hsplits⟩, ?_⟩
    rw [Pos.after_append, Pos.after_append]
    exact hfault

theorem tokenize_of_splits {source : List Char} {ps : List Piece} {gap : List Char}
    (h : Splits source ps gap) :
    Token.tokenize (String.ofList source) = .ok (tokens [] ps gap) := by
  rw [← String.toList_ofList (l := source)] at h
  exact h.tokensFrom (Nat.le_refl _) []

/-- The place of a backslash is one column to the left of the place behind it. -/
theorem reached_backslash (text : List Char) :
    reached (text ++ ['\\']) = ⟨(reached text).line, (reached text).column + 1⟩ := by
  rw [reached_snoc]
  rfl

/-- Each error of the lexer stands at what caused it. In front of that the source text is
    tokenized. Of a wrong escape the backslash is reported, as the place one column to the left of
    where the lexer has come to behind it; that column is none before the first. -/
theorem lex_errors_stand_at_faults {source : String} {e : LexError}
    (h : Token.tokenize source = .error e) :
    ∃ before taken after, source.toList = before ++ (taken ++ after) ∧
      (∃ ts, Token.tokenize (String.ofList before) = .ok ts) ∧
      Fault (reached before) taken after e ∧
      ∀ p c, e = .invalidEscape p c → ∃ body, taken = '\'' :: body ++ ['\\', c] ∧
        p = reached (before ++ '\'' :: body) ∧ 1 ≤ p.column ∧
        reached (before ++ '\'' :: body ++ ['\\']) = ⟨p.line, p.column + 1⟩ := by
  obtain ⟨before, taken, after, htext, ⟨ps, gap, hsplits⟩, hfault⟩ :=
    (tokenize_eq_error_iff.mp h).cause
  have hplace : Pos.first.after before = reached before := (reached_append [] before).symm
  rw [hplace] at hfault
  refine ⟨before, taken, after, htext, ⟨_, tokenize_of_splits hsplits⟩, hfault, ?_⟩
  rintro p c rfl
  cases hfault with
  | @badEscape body _ _ _ _ =>
    rw [← reached_append]
    exact ⟨body, rfl, rfl, Nat.le_add_right 1 _, reached_backslash _⟩

/-- The string begins in the first line and the wrong escape stands in the second. -/
theorem lex_errors_stand_at_faults_escape :
    Token.tokenize "f('a\nb\\q')" = .error (.invalidEscape ⟨2, 2⟩ 'q') ∧
    ∃ before taken after, "f('a\nb\\q')".toList = before ++ (taken ++ after) ∧
      (∃ ts, Token.tokenize (String.ofList before) = .ok ts) ∧
      Fault (reached before) taken after (.invalidEscape ⟨2, 2⟩ 'q') ∧
      ∃ body, taken = '\'' :: body ++ ['\\', 'q'] ∧ ⟨2, 2⟩ = reached (before ++ '\'' :: body) ∧
        reached (before ++ '\'' :: body ++ ['\\']) = ⟨2, 3⟩ := by
  have herror : Token.tokenize "f('a\nb\\q')" = .error (.invalidEscape ⟨2, 2⟩ 'q') := rfl
  obtain ⟨before, taken, after, htext, hbefore, hfault, hescape⟩ := lex_errors_stand_at_faults herror
  obtain ⟨body, htaken, hplace, -, hbehind⟩ := hescape _ _ rfl
  exact ⟨herror, before, taken, after, htext, hbefore, hfault, body, htaken, hplace, hbehind⟩

-- ============================================================================
-- Below another text
-- ============================================================================

theorem Fault.down {p : Pos} {taken after : List Char} {e : LexError} (h : Fault p taken after e)
    (lines : Nat) : Fault (p.down lines) taken after (e.down lines) := by
  cases h with
  | stray hquote hsolid hnone => exact .stray hquote hsolid hnone
  | openString hbody htail => exact .openString hbody htail
  | openComment hopen => exact .openComment hopen
  | badEscape hbody hc =>
    rw [LexError.down, ← after_down]
    exact .badEscape hbody hc

theorem Halts.down {p : Pos} {text : List Char} {e : LexError} (h : Halts p text e) (lines : Nat) :
    Halts (p.down lines) text (e.down lines) := by
  induction h with
  | fault hgap hfault =>
    refine .fault hgap ?_
    rw [after_down]
    exact hfault.down lines
  | piece hq _ ih =>
    refine .piece hq ?_
    rw [after_down, after_down]
    exact ih

/-- What makes every gap behind it a longer one may stand in front of a text that halts. -/
theorem Halts.behind {lead text : List Char} {p : Pos} {e : LexError}
    (hlead : ∀ {gap : List Char}, Gap false gap → Gap false (lead ++ gap))
    (h : Halts (p.after lead) text e) : Halts p (lead ++ text) e := by
  cases h with
  | fault hgap hfault =>
    rw [← List.append_assoc]
    refine .fault (hlead hgap) ?_
    rw [Pos.after_append]
    exact hfault
  | piece hq hrest =>
    rw [← List.append_assoc]
    refine .piece (hq.behind (hlead hq.gap)) ?_
    rw [Pos.after_append]
    exact hrest

/-- A text that halts does so below a text that splits. -/
theorem Splits.halts_below {above gap text : List Char} {ps : List Piece} {p : Pos} {e : LexError}
    (habove : Splits above ps gap) (htext : Halts (p.after (above ++ ['\n'])) text e) :
    Halts p (above ++ '\n' :: text) e := by
  induction habove generalizing p with
  | last hgap =>
    rw [List.append_cons]
    refine htext.behind fun hrest => ?_
    rw [← List.append_cons]
    exact hgap.newline hrest
  | piece hq _ ih =>
    rw [List.append_assoc, List.append_assoc]
    refine .piece (hq.before_newline text) (ih ?_)
    rw [← Pos.after_append, ← Pos.after_append]
    simpa only [List.append_assoc] using htext

/-- Where the text below halts, both together do, so many lines further down. -/
theorem tokenize_stacked_error {a b : String} {ts : List Token} {e : LexError}
    (ha : Token.tokenize a = .ok ts) (hb : Token.tokenize b = .error e) :
    Token.tokenize (a ++ "\n" ++ b) = .error (e.down (1 + a.toList.count '\n')) := by
  obtain ⟨ps, gap, hps, -⟩ := splits_of_tokenize ha
  have htext : (a ++ "\n" ++ b).toList = a.toList ++ '\n' :: b.toList := by simp
  rw [tokenize_eq_error_iff, htext]
  refine hps.halts_below ?_
  have hplace : Pos.first.after (a.toList ++ ['\n']) = Pos.first.down (1 + a.toList.count '\n') :=
    (reached_append [] _).symm.trans (reached_below a.toList [])
  rw [hplace]
  exact (tokenize_eq_error_iff.mp hb).down _

/-- A newline keeps two source texts apart: if the one above is tokenized, both together have its
    tokens and those of the one below, so many lines further down, or the error of the one below
    is given, as far down. -/
theorem newline_keeps_apart {a b : String} {ts : List Token} (ha : Token.tokenize a = .ok ts) :
    ∃ body eof, ts = body ++ [eof] ∧ eof.kind = .eof ∧ (∀ t ∈ body, t.kind ≠ .eof) ∧
      (∀ us, Token.tokenize b = .ok us → Token.tokenize (a ++ "\n" ++ b) =
        .ok (body ++ us.map (Token.down (1 + a.toList.count '\n')))) ∧
      ∀ e, Token.tokenize b = .error e → Token.tokenize (a ++ "\n" ++ b) =
        .error (e.down (1 + a.toList.count '\n')) := by
  obtain ⟨body, eof, hts, heof, hbody⟩ := tokenize_ends ha
  refine ⟨body, eof, hts, heof, hbody, fun us hus => ?_, fun e he => tokenize_stacked_error ha he⟩
  obtain ⟨body', eof', hts', -, -, hstacked⟩ := tokenize_stacked ha hus
  obtain ⟨rfl, -⟩ := List.append_inj' (hts.symm.trans hts') rfl
  exact hstacked

/-- A string with a newline in it. -/
def brokenString : Token := ⟨.string, "'u\nv'", ⟨1, 1⟩, ⟨2, 3⟩⟩

/-- The text above holds a newline in a string and ends inside of a comment. -/
theorem newline_keeps_apart_comment :
    Token.tokenize "'u\nv' // w" = .ok [brokenString, ⟨.eof, "", ⟨2, 8⟩, ⟨2, 8⟩⟩] ∧
    Token.tokenize ("'u\nv' // w" ++ "\n" ++ "x") =
      .ok [brokenString, ⟨.identifier, "x", ⟨3, 1⟩, ⟨3, 2⟩⟩, ⟨.eof, "", ⟨3, 2⟩, ⟨3, 2⟩⟩] ∧
    Token.tokenize ("'u\nv' // w" ++ "\n" ++ "x ?") = .error (.unexpectedCharacter ⟨3, 3⟩ '?') := by
  have habove : Token.tokenize "'u\nv' // w" =
      .ok ([brokenString] ++ [⟨.eof, "", ⟨2, 8⟩, ⟨2, 8⟩⟩]) := rfl
  obtain ⟨body, eof, hbody, -, -, hok, -⟩ := newline_keeps_apart (b := "x") habove
  obtain ⟨-, -, -, -, -, -, herror⟩ := newline_keeps_apart (b := "x ?") habove
  obtain ⟨rfl, -⟩ := List.append_inj' hbody rfl
  exact ⟨habove, hok _ rfl, herror _ rfl⟩

end Lexical

end Lexiscope
