/-
  Lexiscope.Proofs.Viable.Series

  Where the parser breaks off between statements.

  A statement is read before a token of some kind, and whether it is one may depend on
  this kind. Where the parser breaks off right behind it nothing need follow, for any
  statement can stand before the end (`Statement.before`). A series of statements is
  read up to a token that stops it, and no bound on their number that is at least the
  number of tokens makes a difference (`series_eq`); so it breaks off like a series
  with a bound of its own.
-/
import Lexiscope.Proofs.Viable.Steps

namespace Lexiscope

-- ============================================================================
-- Statements before the end
-- ============================================================================

namespace Grammar

variable {last : Kind}

theorem Terminator.before {ts : List Token} {next : Kind} (hlast : last = .rightBrace ∨ last = .eof)
    (h : Terminator ts next) : Terminator ts last := by
  cases h with
  | semicolon hkind => exact .semicolon hkind
  | missing _ => exact .missing hlast

/-- Any statement can stand before a closing brace and before the end. -/
theorem Statement.before {inside : Bool} {ts : List Token} {next : Kind} {s : Stmt} :
    last = .rightBrace ∨ last = .eof → Statement inside ts next s → Statement inside ts last s
  | hlast, .letBare hword hname hstop => .letBare hword hname (hstop.before hlast)
  | hlast, .letValue hword hname hmark hvalue hstop =>
    .letValue hword hname hmark hvalue (hstop.before hlast)
  | _, .function hword hname hl hparams hr hopen hbody hclose =>
    .function hword hname hl hparams hr hopen hbody hclose
  | hlast, .ifThen hword hl hcondition hr hyes =>
    .ifThen hword hl hcondition hr (hyes.before hlast)
  | hlast, .ifThenElse hword hl hcondition hr hyes hclosed hmark hno =>
    .ifThenElse hword hl hcondition hr hyes hclosed hmark (hno.before hlast)
  | hlast, .whileLoop hword hl hcondition hr hbody =>
    .whileLoop hword hl hcondition hr (hbody.before hlast)
  | hlast, .returnBare hword hstop => .returnBare hword (hstop.before hlast)
  | hlast, .returnValue hword hvalue hstop => .returnValue hword hvalue (hstop.before hlast)
  | _, .block hopen hbody hclose => .block hopen hbody hclose
  | hlast, .expression h hstop => .expression h (hstop.before hlast)

theorem Statements.before {inside : Bool} {ts : List Token} {next : Kind} {ss : List Stmt} :
    last = .rightBrace ∨ last = .eof → Statements inside ts next ss → Statements inside ts last ss
  | _, .nil => .nil
  | hlast, @Statements.cons _ _ us _ _ _ h hrest => by
    refine .cons ?_ (hrest.before hlast)
    cases us with
    | nil => exact h.before hlast
    | cons u us => exact h

end Grammar

namespace Parser

open Grammar (Settled Statements ReadsBefore series series_of_stop series_succ series_reads
  series_stopped Stopped headKind_cons bind_eq_ok bind_of_ok)

-- ============================================================================
-- Series of statements
-- ============================================================================

variable {stop : Kind → Prop} [DecidablePred stop] {stmt : Parser Stmt} {inside : Bool}
  {ctx : ParseContext} {ts : List Token}

/-- What is read without meeting a bound is read alike with every bound that is large enough. -/
theorem series_eq (hs : ReadsBefore stmt (Settled inside)) (hstop : stop .eof)
    (heof : ctx.eof.kind = .eof) {bound bound' : Nat} (hbound : ts.length ≤ bound')
    (h : Stopped stop ctx (series stop stmt bound ctx ts)) :
    series stop stmt bound' ctx ts = series stop stmt bound ctx ts := by
  induction bound generalizing bound' ts with
  | zero =>
    have hhead : stop (ts.headD ctx.eof).kind := h [] ts rfl
    rw [series_of_stop hhead, series_of_stop hhead]
  | succ bound ih =>
    by_cases hhead : stop (ts.headD ctx.eof).kind
    · rw [series_of_stop hhead, series_of_stop hhead]
    · cases bound' with
      | zero =>
        obtain rfl := List.eq_nil_of_length_eq_zero (Nat.le_zero.mp hbound)
        exact absurd ((show ctx.eof.kind = .eof from heof) ▸ hstop) hhead
      | succ bound' =>
        rw [series_succ bound hhead] at h ⊢
        rw [series_succ bound' hhead]
        cases hfirst : stmt ctx ts with
        | error e =>
          show Parser.bind _ _ ctx ts = Parser.bind _ _ ctx ts
          simp only [Parser.bind, hfirst]
        | ok r =>
          obtain ⟨s, mid⟩ := r
          obtain ⟨us, rfl, hd⟩ := hs heof hfirst
          have hpos := hd.derived.starts.length_pos
          rw [List.length_append] at hbound
          rw [bind_of_ok hfirst] at h ⊢
          rw [bind_of_ok hfirst]
          have hmore : series stop stmt bound' ctx mid = series stop stmt bound ctx mid :=
            ih (by omega) fun ss rest hread =>
              h (s :: ss) rest (bind_eq_ok.mpr ⟨ss, rest, hread, rfl⟩)
          show Parser.bind _ _ ctx mid = Parser.bind _ _ ctx mid
          simp only [Parser.bind, hmore]

theorem series_breaks (hr : ReadsBefore stmt (Settled inside))
    (hs : Breaks (Rows.ofBefore (Settled inside)) stmt) (bound : Nat) :
    Breaks (Rows.ofBefore (Statements inside)) (series stop stmt bound) := by
  have hopen : (Rows.ofBefore (Statements inside)).Begins [] := .of_row ⟨.eof, [], .nil⟩
  have hsingle : ∀ {us : List Token} {next : Kind} {s : Stmt}, Settled inside us next s →
      Rows.ofBefore (Statements inside) us := fun {us next s} h =>
    ⟨.eof, [s], by simpa using Statements.cons (h.derived.before (.inr rfl)) .nil⟩
  induction bound with
  | zero => exact .pure hopen []
  | succ bound ih =>
    refine .current hopen fun t => ?_
    split
    · exact .pure []
    · refine (hs.bind hr (fun us next s h => .of_row (hsingle h)) fun us next s h => ?_).onToken t
      refine (ih.map (series_reads hr bound) fun vs next' ss hrest => .of_row fun hnext => ?_).onToken
      cases vs with
      | nil => simpa using hsingle h
      | cons v vs =>
        refine ⟨next', s :: ss, .cons ?_ hrest⟩
        rw [headKind_cons] at hnext ⊢
        exact hnext ▸ h.derived

/-- A series breaks off alike if it is bound by the number of tokens. -/
theorem wholeSeries_breaks (hr : ReadsBefore stmt (Settled inside)) (hstop : stop .eof)
    (hs : Breaks (Rows.ofBefore (Settled inside)) stmt) :
    Breaks (Rows.ofBefore (Statements inside)) (remaining >>= series stop stmt) := by
  have hseries : ∀ bound, Breaks (Rows.ofBefore (Statements inside)) (series stop stmt bound) :=
    series_breaks hr hs
  refine ⟨(hseries 0).opens, fun t => ⟨?_, ?_⟩⟩
  · intro ctx ts ss rest heof hhead hread
    have hread : series stop stmt ts.length ctx ts = .ok (ss, rest) := hread
    have hends := series_stopped hr hstop heof (Nat.le_refl _) ss rest hread
    obtain ⟨us, rfl, hagain⟩ := ((hseries _).onToken t).again heof hhead hread
    refine ⟨us, rfl, fun ctx' other halike => ?_⟩
    show series stop stmt (us ++ other).length ctx' (us ++ other) = _
    rw [series_eq hr hstop halike.eof (Nat.le_refl _) ?_, hagain halike]
    rw [hagain halike]
    rintro _ _ ⟨⟩
    exact halike.head ▸ hends
  · intro ctx ts e heof hhead hread hlimit
    have hread : series stop stmt ts.length ctx ts = .error e := hread
    obtain ⟨us, rest, rfl, hbegins, hblames, hstuck⟩ :=
      ((hseries _).onToken t).stuck heof hhead hread hlimit
    refine ⟨us, rest, rfl, hbegins, hblames, fun ctx' other halike => ?_⟩
    obtain ⟨e', he'⟩ := hstuck halike
    refine ⟨e', ?_⟩
    show series stop stmt (us ++ other).length ctx' (us ++ other) = _
    rw [series_eq hr hstop halike.eof (Nat.le_refl _) ?_, he']
    rw [he']
    exact nofun

end Parser

end Lexiscope
