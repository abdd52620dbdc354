/-
  Lexiscope.Proofs.Lexical.Lines

  One source text below another.

  A newline ends whatever could go on: outside of strings no lexeme holds one, a
  comment up to the end of the line ends with it, and block comments and strings were
  closed if the text before the newline splits. So the text below splits as it does
  alone, with what is left of the line above as part of its first gap, and its tokens
  stand in the same columns, further down.
-/
import Lexiscope.Proofs.Lexical.Split

namespace Lexiscope

/-- The place so many lines further down. -/
def Pos.down (lines : Nat) (p : Pos) : Pos := ⟨p.line + lines, p.column⟩

/-- The token so many lines further down. -/
def Token.down (lines : Nat) (t : Token) : Token :=
  ⟨t.kind, t.lexeme, t.start.down lines, t.stop.down lines⟩

namespace Lexical

-- ============================================================================
-- Places
-- ============================================================================

theorem step_down (lines : Nat) (p : Pos) (c : Char) :
    (p.down lines).step c = (p.step c).down lines := by
  by_cases hc : c = '\n'
  · simp only [Pos.step, Pos.down, hc, if_true, Nat.add_right_comm]
  · simp only [Pos.step, Pos.down, hc, if_false]

theorem after_down (lines : Nat) (p : Pos) (text : List Char) :
    (p.down lines).after text = (p.after text).down lines := by
  induction text generalizing p with
  | nil => rfl
  | cons c text ih => rw [Pos.after_cons, step_down, ih, Pos.after_cons]

/-- Behind a newline, columns are counted from the beginning again. -/
theorem reached_below (above text : List Char) :
    reached (above ++ '\n' :: text) = (reached text).down (1 + above.count '\n') := by
  have hline : reached (above ++ ['\n']) = Pos.first.down (1 + above.count '\n') := by
    rw [reached_snoc, reached, Pos.step, if_pos rfl, Pos.down, Pos.first, Nat.add_comm]
  have htext : reached text = Pos.first.after text := reached_append [] text
  rw [List.append_cons, reached_append, hline, after_down, htext]

/-- Pieces below a text have the tokens that they have alone, further down. -/
theorem tokens_below (above before : List Char) (ps : List Piece) (gap : List Char) :
    tokens (above ++ '\n' :: before) ps gap =
      (tokens before ps gap).map (Token.down (1 + above.count '\n')) := by
  induction ps generalizing before with
  | nil =>
    simp only [tokens, List.append_assoc, List.cons_append, reached_below, List.map_cons,
      List.map_nil]
    rfl
  | cons p ps ih =>
    simp only [tokens, List.append_assoc, List.cons_append, reached_below, List.map_cons, ih]
    rfl

-- ============================================================================
-- Gaps and lexemes before a newline
-- ============================================================================

/-- A newline ends every gap that ends with its text. -/
theorem Gap.newline {last last' : Bool} {gap rest : List Char} (h : Gap last gap)
    (hrest : Gap last' rest) : Gap last' (gap ++ '\n' :: rest) := by
  induction h with
  | nil => exact .blank (by decide) hrest
  | blank hblank _ ih => exact .blank hblank ih
  | @line body rest' hbody _ ih =>
    rw [List.append_assoc, List.cons_append]
    exact .line hbody ih
  | lastLine _ hbody => exact .line hbody hrest
  | block hcomment _ ih =>
    rw [List.append_assoc]
    exact .block hcomment ih

/-- Only strings hold newlines. -/
theorem Lexeme.no_newline {kind : Kind} {text : List Char} (h : Lexeme kind text)
    (hkind : kind ≠ .string) : '\n' ∉ text := by
  have hsigns : ∀ entry ∈ signs, '\n' ∉ entry.1 := by decide
  have hwords : ∀ text, IsWord text → '\n' ∉ text := fun text hword hmem =>
    absurd (hword.all _ hmem) (by decide)
  have hdigits : ∀ text, IsDigits text → '\n' ∉ text := fun text hdigits hmem =>
    absurd (hdigits.2 _ hmem) (by decide)
  cases h with
  | sign h => exact hsigns _ h
  | word h => exact hwords _ (isWord_of_mem_words _ h)
  | identifier hword _ => exact hwords _ hword
  | whole h => exact hdigits _ h
  | fraction hwhole hplaces =>
    intro hmem
    rcases List.mem_append.mp hmem with hmem | hmem
    · exact hdigits _ hwhole hmem
    · rcases List.mem_cons.mp hmem with hdot | hmem
      · exact absurd hdot (by decide)
      · exact hdigits _ hplaces hmem
  | string _ => exact absurd rfl hkind

theorem Lexeme.string_first {text : List Char} (h : Lexeme .string text) :
    ∃ rest, text = '\'' :: rest := by
  have hsigns : ∀ entry ∈ signs, entry.2 ≠ .string := by decide
  have hwords : ∀ entry ∈ words, entry.2 ≠ .string := by decide
  cases h with
  | sign h => exact absurd rfl (hsigns _ h)
  | word h => exact absurd rfl (hwords _ h)
  | string _ => exact ⟨_, rfl⟩

/-- A text without the character begins what stands before it, or nothing of this. -/
theorem prefix_before {text before after : List Char} {c : Char} (hc : c ∉ text)
    (h : text <+: before ++ c :: after) : text <+: before := by
  rcases List.prefix_or_prefix_of_prefix h (List.prefix_append before (c :: after)) with h' | h'
  · exact h'
  · obtain ⟨more, rfl⟩ := h'
    rw [List.prefix_append_right_inj] at h
    cases more with
    | nil => simp
    | cons d more =>
      obtain ⟨rfl, -⟩ := List.cons_prefix_cons.mp h
      exact absurd (by simp) hc

/-- A piece that fits at the end of a text fits there if a newline follows. -/
theorem Piece.Fits.before_newline {p : Piece} {after : List Char} (h : p.Fits after)
    (more : List Char) : p.Fits (after ++ '\n' :: more) where
  gap := h.gap
  lexeme := h.lexeme
  longest := by
    obtain ⟨c, tail, hfirst⟩ := List.exists_cons_of_ne_nil h.lexeme.ne_nil
    have hlexeme := h.lexeme
    rw [hfirst] at hlexeme ⊢
    by_cases hc : c = '\''
    · subst hc
      obtain ⟨-, body, rfl, hbody⟩ := hlexeme.of_quote
      exact longest_of_ofText (ofText_of_stringBody hbody _)
    · intro kind text htext hprefix
      have hkind : kind ≠ .string := by
        rintro rfl
        obtain ⟨rest, rfl⟩ := htext.string_first
        exact hc (List.cons_prefix_cons.mp hprefix).1.symm
      rw [← List.append_assoc, ← hfirst] at hprefix
      rw [← hfirst]
      exact h.longest kind text htext (prefix_before (htext.no_newline hkind) hprefix)
  no_comment hslash := by
    have hold := h.no_comment hslash
    cases after with
    | nil => exact ⟨nofun, nofun⟩
    | cons c after => exact hold

-- ============================================================================
-- Splits
-- ============================================================================

/-- What a text splits into before a newline stays, and its last gap goes on behind it. -/
theorem Splits.before_newline {text gap more last : List Char} {ps qs : List Piece}
    (h : Splits text ps gap) (hrest : Splits (gap ++ '\n' :: more) qs last) :
    Splits (text ++ '\n' :: more) (ps ++ qs) last := by
  induction h with
  | last _ => exact hrest
  | piece hp _ ih =>
    rw [List.append_assoc, List.append_assoc]
    exact .piece (hp.before_newline more) (ih hrest)

/-- A piece fits behind a longer gap. -/
theorem Piece.Fits.behind {p : Piece} {lead after : List Char} (h : p.Fits after)
    (hgap : Gap false (lead ++ p.gap)) : (⟨lead ++ p.gap, p.kind, p.lexeme⟩ : Piece).Fits after :=
  ⟨hgap, h.lexeme, h.longest, h.no_comment⟩

/-- What makes every gap behind it a longer one leaves the tokens of a text where they are. -/
theorem Splits.behind {lead text last : List Char} {ps : List Piece}
    (hlead : ∀ {last : Bool} {gap : List Char}, Gap last gap → Gap last (lead ++ gap))
    (h : Splits text ps last) :
    ∃ ps' last', Splits (lead ++ text) ps' last' ∧
      ∀ before, tokens before ps' last' = tokens (before ++ lead) ps last := by
  cases h with
  | last hgap =>
    refine ⟨[], lead ++ text, .last (hlead hgap), fun before => ?_⟩
    simp only [tokens, List.append_assoc]
  | @piece p after _ ps hp hrest =>
    refine ⟨⟨lead ++ p.gap, p.kind, p.lexeme⟩ :: ps, last, ?_, fun before => ?_⟩
    · rw [← List.append_assoc]
      exact .piece (hp.behind (hlead hp.gap)) hrest
    · simp only [tokens, List.append_assoc]

/-- The tokens of pieces do not depend on what is behind them. -/
theorem Splits.tokens_append {text gap : List Char} {ps : List Piece} (h : Splits text ps gap)
    (before : List Char) :
    ∃ taken body, text = taken ++ gap ∧ (∀ t ∈ body, t.kind ≠ .eof) ∧
      ∀ qs last, tokens before (ps ++ qs) last = body ++ tokens (before ++ taken) qs last := by
  induction h generalizing before with
  | last _ => exact ⟨[], [], rfl, List.forall_mem_nil _, fun qs last => by simp⟩
  | @piece p after gap ps hp _ ih =>
    obtain ⟨taken, body, rfl, hbody, htokens⟩ := ih (before ++ p.gap ++ p.lexeme)
    have htoken : (p.token (reached before)).kind ≠ .eof := hp.lexeme.kind_ne_eof
    refine ⟨p.gap ++ (p.lexeme ++ taken), p.token (reached before) :: body,
      by simp only [List.append_assoc], List.forall_mem_cons.mpr ⟨htoken, hbody⟩, fun qs last => ?_⟩
    rw [List.cons_append, tokens, htokens, List.cons_append, Piece.token_reached]
    simp only [List.append_assoc]

theorem Splits.lexeme_of_mem {text gap : List Char} {ps : List Piece} (h : Splits text ps gap) :
    ∀ p ∈ ps, Lexeme p.kind p.lexeme := by
  induction h with
  | last _ => exact List.forall_mem_nil _
  | piece hp _ ih => exact List.forall_mem_cons.mpr ⟨hp.lexeme, ih⟩

/-- The end marker of a text stands at its end. -/
theorem Splits.getLast?_tokens {text gap : List Char} {ps : List Piece} (h : Splits text ps gap)
    (before : List Char) : (tokens before ps gap).getLast? =
      some ⟨.eof, "", reached (before ++ text), reached (before ++ text)⟩ := by
  induction h generalizing before with
  | last _ => rfl
  | @piece p after gap ps _ _ ih =>
    have hne : tokens (before ++ p.gap ++ p.lexeme) ps gap ≠ [] := by
      cases ps <;> exact List.cons_ne_nil _ _
    rw [tokens, List.getLast?_cons_of_ne_nil hne, ih]
    simp only [List.append_assoc]

theorem Splits.last_gap {text gap : List Char} {ps : List Piece} (h : Splits text ps gap) :
    Gap true gap := by
  induction h with
  | last hgap => exact hgap
  | piece _ _ ih => exact ih

-- ============================================================================
-- Source texts
-- ============================================================================

/-- A text below another one splits, and its tokens are those that it has alone, further down. -/
theorem Splits.stacked {above text gap last : List Char} {ps qs : List Piece}
    (habove : Splits above ps gap) (htext : Splits text qs last) :
    ∃ rs last' body eof, Splits (above ++ '\n' :: text) rs last' ∧
      tokens [] ps gap = body ++ [eof] ∧ eof.kind = .eof ∧ (∀ t ∈ body, t.kind ≠ .eof) ∧
      tokens [] rs last' =
        body ++ (tokens [] qs last).map (Token.down (1 + above.count '\n')) := by
  have hlead : ∀ {last : Bool} {rest : List Char}, Gap last rest →
      Gap last (gap ++ ['\n'] ++ rest) := by
    intro last rest hrest
    rw [← List.append_cons]
    exact habove.last_gap.newline hrest
  obtain ⟨qs', last', hrest, hbehind⟩ := htext.behind hlead
  rw [← List.append_cons] at hrest
  obtain ⟨taken, body, rfl, hbody, hfront⟩ := habove.tokens_append []
  have halone := hfront [] gap
  rw [List.append_nil, tokens] at halone
  refine ⟨ps ++ qs', last', body, _, habove.before_newline hrest, halone, rfl, hbody, ?_⟩
  rw [hfront, hbehind, List.nil_append, ← List.append_assoc, tokens_below]

theorem splits_of_tokenize {source : String} {ts : List Token}
    (h : Token.tokenize source = .ok ts) :
    ∃ ps gap, Splits source.toList ps gap ∧ ts = tokens [] ps gap := by
  have hfrom : Token.tokensFrom source.toList.length ⟨source.toList, reached []⟩ = .ok ts := h
  exact splits_of_tokensFrom (Nat.le_refl _) hfrom

/-- The end marker is the last token, and there is no other. -/
theorem tokenize_ends {source : String} {ts : List Token} (h : Token.tokenize source = .ok ts) :
    ∃ body eof, ts = body ++ [eof] ∧ eof.kind = .eof ∧ ∀ t ∈ body, t.kind ≠ .eof := by
  obtain ⟨ps, gap, hps, rfl⟩ := splits_of_tokenize h
  obtain ⟨taken, body, -, hbody, htokens⟩ := hps.tokens_append []
  have halone := htokens [] gap
  rw [List.append_nil, tokens] at halone
  exact ⟨body, _, halone, rfl, hbody⟩

/-- The tokens of one source text below another. The end marker of the upper one is left out. -/
theorem tokenize_stacked {a b : String} {ts us : List Token} (ha : Token.tokenize a = .ok ts)
    (hb : Token.tokenize b = .ok us) :
    ∃ body eof, ts = body ++ [eof] ∧ eof.kind = .eof ∧ (∀ t ∈ body, t.kind ≠ .eof) ∧
      Token.tokenize (a ++ "\n" ++ b) =
        .ok (body ++ us.map (Token.down (1 + a.toList.count '\n'))) := by
  obtain ⟨ps, gap, hps, rfl⟩ := splits_of_tokenize ha
  obtain ⟨qs, last, hqs, rfl⟩ := splits_of_tokenize hb
  obtain ⟨rs, last', body, eof, hrs, htokens, heof, hbody, hstacked⟩ := hps.stacked hqs
  refine ⟨body, eof, htokens, heof, hbody, ?_⟩
  have htext : (a ++ "\n" ++ b).toList = a.toList ++ '\n' :: b.toList := by simp
  rw [← hstacked]
  rw [← htext] at hrs
  exact hrs.tokensFrom (Nat.le_refl _) []

end Lexical

end Lexiscope
