/-
  Lexiscope.Proofs.Lexical.Split

  A source text is tokenized exactly as it splits into gaps and lexemes.

  One scan takes one piece (`Piece.Fits.scan`), and takes nothing else
  (`scan_cases`). A run of scans follows the split from piece to piece, in both
  directions; the places of the tokens come out as those that counting gives
  because every step adds what it has passed over to the text before. A text
  has one split only: the first piece is what the scanner takes.
-/
import Lexiscope.Proofs.Lexical.Gap
import Lexiscope.Proofs.Lexical.Munch

namespace Lexiscope.Lexical

-- ============================================================================
-- No gap begins with a lexeme
-- ============================================================================

theorem isBlank_eq_false_of_visible {c : Char} (hlow : 33 ≤ c.toNat) (hhigh : c.toNat ≤ 126) :
    Text.isBlank c = false := by
  simp only [Text.isBlank, Bool.or_eq_false_iff, Bool.and_eq_false_iff, decide_eq_false_iff_not,
    beq_eq_false_iff_ne]
  omega

theorem isBlank_of_isLetter {c : Char} (h : isLetter c = true) : Text.isBlank c = false := by
  obtain (h | h) | rfl := isLetter_iff.mp h
  · exact isBlank_eq_false_of_visible (by omega) (by omega)
  · exact isBlank_eq_false_of_visible (by omega) (by omega)
  · decide

theorem isBlank_of_isDigit {c : Char} (h : isDigit c = true) : Text.isBlank c = false := by
  have := isDigit_iff.mp h
  exact isBlank_eq_false_of_visible (by omega) (by omega)

/-- A lexeme begins with a character that is no blank, and with a slash only if that is all. -/
theorem Lexeme.first {kind : Kind} {text : List Char} (h : Lexeme kind text) :
    ∃ c rest, text = c :: rest ∧ Text.isBlank c = false ∧ (c = '/' → rest = [] ∧ kind = .slash) := by
  have hsigns : ∀ entry ∈ signs, entry.1.head?.any Text.isBlank = false
      ∧ (entry.1.head? = some '/' → entry.1 = ['/'] ∧ entry.2 = .slash) := by decide
  have hdigit : ∀ {c : Char}, isDigit c = true → c ≠ '/' := by
    rintro c hc rfl
    exact absurd hc (by decide)
  have hletter : ∀ {c : Char}, isLetter c = true → c ≠ '/' := by
    rintro c hc rfl
    exact absurd hc (by decide)
  have hword : IsWord text → ∃ c rest, text = c :: rest ∧ Text.isBlank c = false
      ∧ (c = '/' → rest = [] ∧ kind = .slash) := by
    intro hw
    cases text with
    | nil => exact hw.elim
    | cons c rest => exact ⟨c, rest, rfl, isBlank_of_isLetter hw.1, fun hc => absurd hc (hletter hw.1)⟩
  cases h with
  | sign hmem =>
    obtain ⟨c, rest, rfl⟩ := List.exists_cons_of_ne_nil (Lexeme.sign hmem).ne_nil
    obtain ⟨hblank, hslash⟩ := hsigns _ hmem
    refine ⟨c, rest, rfl, hblank, fun hc => ?_⟩
    obtain ⟨htext, hkind⟩ := hslash (congrArg some hc)
    exact ⟨(List.cons.inj htext).2, hkind⟩
  | word hmem => exact hword (isWord_of_mem_words _ hmem)
  | identifier hw _ => exact hword hw
  | whole h =>
    obtain ⟨c, rest, heq, hc⟩ := h.first []
    rw [List.append_nil] at heq
    exact ⟨c, rest, heq, isBlank_of_isDigit hc, fun h => absurd h (hdigit hc)⟩
  | fraction hwhole _ =>
    obtain ⟨c, rest, heq, hc⟩ := hwhole.first _
    exact ⟨c, rest, heq, isBlank_of_isDigit hc, fun h => absurd h (hdigit hc)⟩
  | @string body _ => exact ⟨'\'', body ++ ['\''], rfl, by decide, fun h => absurd h (by decide)⟩

theorem Piece.Fits.solid {p : Piece} {after : List Char} (h : p.Fits after) :
    Solid (p.lexeme ++ after) := by
  obtain ⟨c, rest, hcons, hblank, hslash⟩ := h.lexeme.first
  rw [hcons, List.cons_append]
  refine ⟨hblank, fun hc => ?_⟩
  obtain ⟨rfl, hkind⟩ := hslash hc
  exact h.no_comment hkind

-- ============================================================================
-- One scan
-- ============================================================================

/-- The token of a piece that stands at a place. -/
def Piece.token (p : Piece) (pos : Pos) : Token :=
  ⟨p.kind, String.ofList p.lexeme, pos.after p.gap, (pos.after p.gap).after p.lexeme⟩

/-- A piece that fits is scanned. -/
theorem Piece.Fits.scan {p : Piece} {after : List Char} (h : p.Fits after) (pos : Pos) :
    Token.scan ⟨p.gap ++ (p.lexeme ++ after), pos⟩ =
      (.ok (p.token pos), ⟨after, (pos.after p.gap).after p.lexeme⟩) := by
  have hskip := h.gap.skip (fun hlast => nomatch hlast) h.solid pos
  have hmunch := ofText_of_longest h.lexeme h.longest
  rw [Token.scan]
  simp only [hskip, Token.scanLexeme, hmunch, Cursor.advance, List.take_left, List.drop_left]
  rfl

/-- A last gap is scanned as the end marker. -/
theorem Gap.scan {gap : List Char} (h : Gap true gap) (pos : Pos) :
    Token.scan ⟨gap, pos⟩ =
      (.ok ⟨.eof, "", pos.after gap, pos.after gap⟩, ⟨[], pos.after gap⟩) := by
  have hskip : skipGap .blank (gap ++ []) pos = (none, ⟨[], pos.after gap⟩) :=
    h.skip (fun _ => rfl) trivial pos
  rw [List.append_nil] at hskip
  rw [Token.scan]
  simp only [hskip]
  rfl

/-- What is scanned is a last gap or a piece that fits. -/
theorem scan_cases {text : List Char} {pos : Pos} {t : Token} {next : Cursor}
    (h : Token.scan ⟨text, pos⟩ = (.ok t, next)) :
    (Gap true text ∧ t = ⟨.eof, "", pos.after text, pos.after text⟩)
      ∨ ∃ (p : Piece) (after : List Char), text = p.gap ++ (p.lexeme ++ after) ∧ p.Fits after
        ∧ t = p.token pos ∧ next = ⟨after, (pos.after p.gap).after p.lexeme⟩ := by
  rw [Token.scan] at h
  split at h
  · exact nomatch h
  · next cursor hskip =>
    obtain ⟨gap, rfl, hpos, hsolid, hgap⟩ := gap_of_skipGap hskip
    obtain ⟨rest, place⟩ := cursor
    obtain rfl : place = pos.after gap := hpos
    cases rest with
    | nil =>
      left
      obtain ⟨hok, -⟩ := Prod.mk.inj h
      rw [List.append_nil]
      exact ⟨hgap, (Except.ok.inj hok).symm⟩
    | cons c rest =>
      right
      rw [Token.scanLexeme] at h
      split at h
      · next kind n hmunch =>
        obtain ⟨lexeme, after, hsplit, hlexeme, rfl⟩ := lexeme_of_ofText hmunch
        simp only at hsplit hsolid hmunch h
        rw [hsplit] at hsolid hmunch h ⊢
        simp only [Cursor.advance, List.take_left, List.drop_left] at h
        obtain ⟨hok, hnext⟩ := Prod.mk.inj h
        refine ⟨⟨gap, kind, lexeme⟩, after, rfl, ⟨hgap, hlexeme, longest_of_ofText hmunch, ?_⟩,
          (Except.ok.inj hok).symm, hnext.symm⟩
        rintro rfl
        obtain rfl : lexeme = ['/'] := hlexeme.eq_fixed (by decide)
        exact hsolid.2 rfl
      · exact nomatch h
      · exact nomatch h
      · exact nomatch h

-- ============================================================================
-- All scans
-- ============================================================================

theorem Piece.token_reached (p : Piece) (before : List Char) :
    p.token (reached before) = ⟨p.kind, String.ofList p.lexeme, reached (before ++ p.gap),
      reached (before ++ p.gap ++ p.lexeme)⟩ := by
  simp only [reached_append, Piece.token]

/-- A text that splits is tokenized into the tokens of its pieces. -/
theorem Splits.tokensFrom {text gap : List Char} {pieces : List Piece}
    (h : Splits text pieces gap) {bound : Nat} (hbound : text.length ≤ bound)
    (before : List Char) :
    Token.tokensFrom bound ⟨text, reached before⟩ = .ok (tokens before pieces gap) := by
  induction h generalizing bound before with
  | @last gap hgap =>
    cases bound with
    | zero =>
      obtain rfl : gap = [] := List.eq_nil_of_length_eq_zero (by omega)
      rw [Token.tokensFrom, tokens, List.append_nil]
    | succ bound =>
      rw [Token.tokensFrom, hgap.scan, tokens, reached_append]
      rfl
  | @piece p after gap ps hp _ ih =>
    have hpos : 0 < p.lexeme.length := List.length_pos_iff.mpr hp.lexeme.ne_nil
    simp only [List.length_append] at hbound
    cases bound with
    | zero => omega
    | succ bound =>
      have htoken : (p.token (reached before)).kind ≠ .eof := hp.lexeme.kind_ne_eof
      rw [Token.tokensFrom, hp.scan]
      simp only
      rw [if_neg htoken, ← reached_append, ← reached_append, ih (by omega), Except.map,
        Piece.token_reached, tokens]

/-- A text that is tokenized splits, and its tokens are those of the pieces. -/
theorem splits_of_tokensFrom {bound : Nat} {text : List Char} {before : List Char}
    {ts : List Token} (hbound : text.length ≤ bound)
    (h : Token.tokensFrom bound ⟨text, reached before⟩ = .ok ts) :
    ∃ pieces gap, Splits text pieces gap ∧ ts = tokens before pieces gap := by
  induction bound generalizing text before ts with
  | zero =>
    obtain rfl : text = [] := List.eq_nil_of_length_eq_zero (by omega)
    refine ⟨[], [], .last .nil, ?_⟩
    rw [Token.tokensFrom] at h
    rw [tokens, List.append_nil, ← Except.ok.inj h]
  | succ bound ih =>
    rw [Token.tokensFrom] at h
    split at h
    · exact nomatch h
    · next t next hscan =>
      obtain ⟨hgap, rfl⟩ | ⟨p, after, rfl, hp, rfl, rfl⟩ := scan_cases hscan
      · rw [if_pos rfl] at h
        exact ⟨[], text, .last hgap, by rw [tokens, reached_append, ← Except.ok.inj h]⟩
      · have hpos : 0 < p.lexeme.length := List.length_pos_iff.mpr hp.lexeme.ne_nil
        have htoken : (p.token (reached before)).kind ≠ .eof := hp.lexeme.kind_ne_eof
        simp only [List.length_append] at hbound
        rw [if_neg htoken, ← reached_append, ← reached_append] at h
        cases htail : Token.tokensFrom bound ⟨after, reached (before ++ p.gap ++ p.lexeme)⟩ with
        | error e =>
          rw [htail] at h
          exact nomatch h
        | ok rest =>
          rw [htail] at h
          obtain ⟨pieces, gap, hsplits, rfl⟩ := ih (by omega) htail
          refine ⟨p :: pieces, gap, .piece hp hsplits, ?_⟩
          rw [← Except.ok.inj h, Piece.token_reached, tokens]

-- ============================================================================
-- One split
-- ============================================================================

/-- The gap before a text in which no gap begins can be told apart from it. -/
theorem Gap.unique {gap gap' text text' : List Char} (hgap : Gap false gap) (htext : Solid text)
    (hgap' : Gap false gap') (htext' : Solid text') (h : gap ++ text = gap' ++ text') :
    gap = gap' ∧ text = text' := by
  have hskip := hgap.skip (fun hlast => nomatch hlast) htext Pos.first
  rw [h, hgap'.skip (fun hlast => nomatch hlast) htext'] at hskip
  obtain rfl : text' = text := (Cursor.mk.inj (Prod.mk.inj hskip).2).1
  exact ⟨List.append_cancel_right h, rfl⟩

/-- A text with something in it that is no gap is no last gap. -/
theorem Gap.not_last {gap text : List Char} (hgap : Gap false gap) (htext : Solid text)
    (hne : text ≠ []) : ¬ Gap true (gap ++ text) := by
  intro hlast
  have hskip := hlast.skip (fun _ => rfl) (show Solid [] from trivial) Pos.first
  rw [List.append_nil, hgap.skip (fun hlast => nomatch hlast) htext] at hskip
  exact hne (Cursor.mk.inj (Prod.mk.inj hskip).2).1

/-- No text begins with two pieces. -/
theorem Piece.Fits.unique {p q : Piece} {after after' : List Char} (hp : p.Fits after)
    (hq : q.Fits after') (h : p.gap ++ (p.lexeme ++ after) = q.gap ++ (q.lexeme ++ after')) :
    p = q ∧ after = after' := by
  obtain ⟨hgap, htext⟩ := hp.gap.unique hp.solid hq.gap hq.solid h
  have hmunch := ofText_of_longest hp.lexeme hp.longest
  rw [htext, ofText_of_longest hq.lexeme hq.longest] at hmunch
  obtain ⟨hkind, hlength⟩ := Munch.token.inj hmunch
  obtain ⟨hlexeme, hafter⟩ := List.append_inj htext hlength.symm
  refine ⟨?_, hafter⟩
  obtain ⟨gap, kind, lexeme⟩ := p
  obtain ⟨gap', kind', lexeme'⟩ := q
  obtain rfl : kind' = kind := hkind
  obtain rfl : lexeme = lexeme' := hlexeme
  obtain rfl : gap = gap' := hgap
  rfl

/-- No last gap begins with a piece. -/
theorem Piece.Fits.not_gap {p : Piece} {after : List Char} (h : p.Fits after) :
    ¬ Gap true (p.gap ++ (p.lexeme ++ after)) :=
  h.gap.not_last h.solid (by simp [h.lexeme.ne_nil])

/-- A text splits in one way only. -/
theorem Splits.unique {text gap gap' : List Char} {pieces pieces' : List Piece}
    (h : Splits text pieces gap) (h' : Splits text pieces' gap') :
    pieces = pieces' ∧ gap = gap' := by
  induction h generalizing pieces' gap' with
  | last hgap =>
    cases h' with
    | last _ => exact ⟨rfl, rfl⟩
    | piece hp _ => exact absurd hgap hp.not_gap
  | @piece p after gap ps hp _ ih =>
    generalize htext : p.gap ++ (p.lexeme ++ after) = text at h'
    cases h' with
    | last hgap => exact absurd (htext ▸ hgap) hp.not_gap
    | piece hq hrest =>
      obtain ⟨rfl, rfl⟩ := hp.unique hq htext
      obtain ⟨rfl, rfl⟩ := ih hrest
      exact ⟨rfl, rfl⟩

/-- A source text has tokens exactly if it splits into gaps and longest lexemes; the tokens are
    then the lexemes at the places where counting finds them, and the end marker. There is no
    second split. -/
theorem tokenize_iff_splits (source : String) :
    (∀ ts, Token.tokenize source = .ok ts ↔
      ∃ pieces gap, Splits source.toList pieces gap ∧ ts = tokens [] pieces gap)
    ∧ ∀ pieces pieces' gap gap', Splits source.toList pieces gap →
      Splits source.toList pieces' gap' → pieces = pieces' ∧ gap = gap' := by
  refine ⟨fun ts => ⟨?_, ?_⟩, fun _ _ _ _ h h' => h.unique h'⟩
  · intro h
    exact splits_of_tokensFrom (Nat.le_refl _) h
  · rintro ⟨pieces, gap, hsplits, rfl⟩
    exact hsplits.tokensFrom (Nat.le_refl _) []

end Lexiscope.Lexical
