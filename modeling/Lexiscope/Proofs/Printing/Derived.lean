/-
  Lexiscope.Proofs.Printing.Derived

  The pieces of a printed program are that program again.

  Wherever the pieces stand, their tokens derive a tree that differs from the
  printed one in the places of its tokens only. Every expression is printed as
  a primary expression and every statement has its terminator, so no token ahead
  is ever looked at; the one thing that printing does not make safe by itself,
  the statement before an `else`, is as it was when it was read.
-/
import Lexiscope.Proofs.Printing.Formed
import Lexiscope.Proofs.Printing.Pieces
import Lexiscope.Proofs.Printing.Quote

namespace Lexiscope

/-- Is the constant one that printing keeps? -/
def Constant.Survives : Constant → Prop
  | .number value => value.isFinite = true
  | .string value => '\'' ∉ value.toList ∧ '\\' ∉ value.toList

end Lexiscope

namespace Lexiscope.Printing

open Grammar Lexical

-- ============================================================================
-- Tokens of pieces
-- ============================================================================

/-- The token is the lexeme of the piece, in some place. -/
structure Shows (p : Piece) (t : Token) : Prop where
  kind : t.kind = p.kind
  lexeme : t.lexeme = String.ofList p.lexeme

/-- The tokens are the lexemes of the pieces, in some places. -/
inductive Shown : List Piece → List Token → Prop where
  | nil : Shown [] []
  | cons {p : Piece} {ps : List Piece} {t : Token} {ts : List Token} (ht : Shows p t)
      (h : Shown ps ts) : Shown (p :: ps) (t :: ts)

theorem Shown.cut {ps qs : List Piece} {ts : List Token} (h : Shown (ps ++ qs) ts) :
    ∃ us vs, ts = us ++ vs ∧ Shown ps us ∧ Shown qs vs := by
  induction ps generalizing ts with
  | nil => exact ⟨[], ts, rfl, .nil, h⟩
  | cons p ps ih =>
    cases h with
    | cons ht h =>
      obtain ⟨us, vs, rfl, hus, hvs⟩ := ih h
      exact ⟨_ :: us, vs, rfl, .cons ht hus, hvs⟩

theorem Shown.single {p : Piece} {ts : List Token} (h : Shown [p] ts) : ∃ t, ts = [t] ∧ Shows p t := by
  cases h with
  | @cons _ _ t _ ht h =>
    cases h
    exact ⟨t, rfl, ht⟩

theorem Shows.unplaced_piece {t u : Token} {gap : List Char} (h : Shows (t.piece gap) u) :
    u.unplaced = t.unplaced := by
  rw [Token.unplaced, Token.unplaced, h.kind, h.lexeme]
  simp [Token.piece]

theorem Shows.unplaced_fixed {t u : Token} {gap lexeme : List Char} {kind : Kind}
    (h : Shows ⟨gap, kind, lexeme⟩ u) (hspelled : Spelled t) (hkind : t.kind = kind)
    (hfixed : (lexeme, kind) ∈ signs ++ words) : u.unplaced = t.unplaced := by
  have htext : t.lexeme.toList = lexeme := Lexeme.eq_fixed hspelled (hkind ▸ hfixed)
  rw [Token.unplaced, Token.unplaced, h.kind, h.lexeme, hkind, ← htext, String.ofList_toList]

-- ============================================================================
-- Expressions
-- ============================================================================

theorem binary_of_primary {n : Nat} {ts : List Token} {e : Expr} (h : Primary ts e)
    (hn : n ≤ operandLevel) : Binary n ts e :=
  Binary.lower (.operand (.call (.primary h))) hn

theorem expression_of_primary {ts : List Token} {e : Expr} (h : Primary ts e) : Expression ts e :=
  .operators (binary_of_primary h (Nat.zero_le _))

theorem level_lt_operandLevel (op : BinaryOp) : level op < operandLevel := by
  cases op <;> decide

theorem Shows.stringValue? {s : String} {gap : List Char} {t : Token}
    (h : Shows (stringPiece gap s) t) (hs : Plain s.toList) : t.stringValue? = some s := by
  simp [Token.stringValue?, h.kind, h.lexeme, stringPiece, Token.unquote?, hs.unescape]

/-- An expression whose pieces stand in parentheses is derived if what stands inside is. -/
theorem derived_group {e : Expr} {gap : List Char} {ts : List Token} (ps : List Piece)
    (hpieces : e.pieces gap = opening gap :: (ps ++ [closing])) (hts : Shown (e.pieces gap) ts)
    (h : ∀ us, Shown ps us → ∃ e', Expression us e'
      ∧ e'.mapTokens Token.unplaced = e.mapTokens Token.unplaced) :
    ∃ e', Primary ts e' ∧ e'.mapTokens Token.unplaced = e.mapTokens Token.unplaced := by
  rw [hpieces] at hts
  cases hts with
  | cons hopen hts =>
    obtain ⟨us, vs, rfl, hus, hvs⟩ := hts.cut
    obtain ⟨t, rfl, hclose⟩ := hvs.single
    obtain ⟨e', he', hsame⟩ := h us hus
    exact ⟨e', .group hopen.kind he' hclose.kind, hsame⟩

theorem length_eq_of_mapTokensAll {f : Token → Token} {es es' : List Expr}
    (h : Expr.mapTokensAll f es' = Expr.mapTokensAll f es) : es'.length = es.length := by
  have hlength := congrArg List.length h
  rwa [Expr.mapTokensAll_eq_map, Expr.mapTokensAll_eq_map, List.length_map, List.length_map]
    at hlength

mutual

/-- A printed expression is derived again. -/
theorem derived_expr {e : Expr} (h : Formed e) (hc : ∀ c ∈ e.constants, c.Survives)
    ⦃gap : List Char⦄ ⦃ts : List Token⦄ (hts : Shown (e.pieces gap) ts) :
    ∃ e', Primary ts e' ∧ e'.mapTokens Token.unplaced = e.mapTokens Token.unplaced := by
  cases h with
  | number d =>
    have hfinite : d.toFloat.isFinite = true := hc (.number d.toFloat) (by simp [Expr.constants])
    obtain ⟨t, rfl, ht⟩ := hts.single
    refine ⟨.number d.toFloat, .number ?_ ?_, rfl⟩
    · rw [ht.kind, numberPiece, if_pos hfinite]
    · rw [ht.lexeme, numberPiece, String.ofList_toList]
      exact (Number.text_finite hfinite).2
  | @string s =>
    have hplain : Plain s.toList := hc (.string s) (by simp [Expr.constants])
    obtain ⟨t, rfl, ht⟩ := hts.single
    exact ⟨.string s, .string ht.kind (ht.stringValue? hplain), rfl⟩
  | @boolean b =>
    obtain ⟨t, rfl, ht⟩ := hts.single
    cases b with
    | true => exact ⟨.boolean true, .yes ht.kind, rfl⟩
    | false => exact ⟨.boolean false, .no ht.kind, rfl⟩
  | nil =>
    obtain ⟨t, rfl, ht⟩ := hts.single
    exact ⟨.nil, .nil ht.kind, rfl⟩
  | @identifier name hname =>
    obtain ⟨t, rfl, ht⟩ := hts.single
    refine ⟨.identifier t, .name (ht.kind.trans hname.kind), ?_⟩
    rw [Expr.mapTokens, Expr.mapTokens, ht.unplaced_piece]
  | @unary op mark operand hmark _ h =>
    refine derived_group (mark.piece [] :: operand.pieces []) (by simp [Expr.pieces]) hts ?_
    rintro _ (_ | ⟨ht, hus⟩)
    obtain ⟨e', he', hsame⟩ := derived_expr h hc hus
    have hmarked := Unary.mark ((congrArg UnaryOp.ofKind? ht.kind).trans hmark) (.call (.primary he'))
    refine ⟨_, .operators (Binary.lower (.operand hmarked) (Nat.zero_le _)), ?_⟩
    rw [Expr.mapTokens, Expr.mapTokens, hsame, ht.unplaced_piece]
  | @binary op mark l r hmark _ hleft hright =>
    refine derived_group (l.pieces [] ++ mark.piece [' '] :: r.pieces [' ']) (by simp [Expr.pieces])
      hts ?_
    intro inner hinner
    obtain ⟨us, _, rfl, hus, _ | ⟨ht, hvs⟩⟩ := hinner.cut
    have hcl : ∀ c ∈ l.constants, c.Survives := fun c h => hc c (by simp [Expr.constants, h])
    have hcr : ∀ c ∈ r.constants, c.Survives := fun c h => hc c (by simp [Expr.constants, h])
    obtain ⟨l', hl', hsamel⟩ := derived_expr hleft hcl hus
    obtain ⟨r', hr', hsamer⟩ := derived_expr hright hcr hvs
    have hlt := level_lt_operandLevel op
    have hjoin := Binary.join (binary_of_primary hl' (Nat.le_of_lt hlt))
      ((congrArg BinaryOp.ofKind? ht.kind).trans hmark) rfl (binary_of_primary hr' hlt)
    refine ⟨_, .operators (hjoin.lower (Nat.zero_le _)), ?_⟩
    rw [Expr.mapTokens, Expr.mapTokens, hsamel, hsamer, ht.unplaced_piece]
  | @assign t v hname h =>
    refine derived_group (t.piece [] :: equals :: v.pieces [' ']) (by simp [Expr.pieces]) hts ?_
    rintro _ (_ | ⟨ht, _ | ⟨hmark, hus⟩⟩)
    obtain ⟨v', hv', hsame⟩ := derived_expr h hc hus
    refine ⟨_, .assign (.name (ht.kind.trans hname.kind)) hmark.kind (expression_of_primary hv'), ?_⟩
    rw [Expr.mapTokens, Expr.mapTokens, hsame, ht.unplaced_piece]
  | @call f paren args hparen hspelled hcallee hargs hcount =>
    refine derived_group (f.pieces [] ++ opening [] :: (Expr.rowPieces args ++ [closing]))
      (by simp [Expr.pieces]) hts ?_
    intro inner hinner
    obtain ⟨us, _, rfl, hus, _ | ⟨ht, hrest⟩⟩ := hinner.cut
    obtain ⟨vs, ws, rfl, hvs, hws⟩ := hrest.cut
    obtain ⟨close, rfl, hclose⟩ := hws.single
    have hcf : ∀ c ∈ f.constants, c.Survives := fun c h => hc c (by simp [Expr.constants, h])
    have hca : ∀ c ∈ Expr.constantsAll args, c.Survives :=
      fun c h => hc c (by simp [Expr.constants, h])
    obtain ⟨f', hf', hsamef⟩ := derived_expr hcallee hcf hus
    obtain ⟨args', hargs', hsame⟩ := derived_arguments hargs hca hvs
    have hcount' : args'.length ≤ mostArguments := by
      rw [length_eq_of_mapTokensAll hsame]
      exact hcount
    have happly := Call.apply (.primary hf') ht.kind hargs' hcount' hclose.kind
    rw [List.append_assoc, List.cons_append] at happly
    refine ⟨_, .operators (Binary.lower (.operand (.call happly)) (Nat.zero_le _)), ?_⟩
    rw [Expr.mapTokens, Expr.mapTokens, hsamef, hsame, ht.unplaced_fixed hspelled hparen (by decide)]

theorem derived_arguments {es : List Expr} (h : FormedAll es)
    (hc : ∀ c ∈ Expr.constantsAll es, c.Survives) ⦃ts : List Token⦄
    (hts : Shown (Expr.rowPieces es) ts) :
    ∃ es', Arguments ts es'
      ∧ Expr.mapTokensAll Token.unplaced es' = Expr.mapTokensAll Token.unplaced es := by
  cases h with
  | nil =>
    cases hts
    exact ⟨[], .none, rfl⟩
  | @cons e es h hmore =>
    have hce : ∀ c ∈ e.constants, c.Survives := fun c h => hc c (by simp [Expr.constantsAll, h])
    have hcm : ∀ c ∈ Expr.constantsAll es, c.Survives :=
      fun c h => hc c (by simp [Expr.constantsAll, h])
    obtain ⟨us, vs, rfl, hus, hvs⟩ := Shown.cut hts
    obtain ⟨e', he', hsame⟩ := derived_expr h hce hus
    obtain ⟨es', hrow, hsames⟩ := derived_moreRow hmore hcm (expression_of_primary he') hvs
    refine ⟨e' :: es', .row hrow, ?_⟩
    rw [Expr.mapTokensAll, Expr.mapTokensAll, hsame, hsames]

theorem derived_moreRow {es : List Expr} (h : FormedAll es)
    (hc : ∀ c ∈ Expr.constantsAll es, c.Survives) ⦃us : List Token⦄ ⦃first : Expr⦄
    (hfirst : Expression us first) ⦃vs : List Token⦄ (hvs : Shown (Expr.moreRowPieces es) vs) :
    ∃ es', Row (us ++ vs) (first :: es')
      ∧ Expr.mapTokensAll Token.unplaced es' = Expr.mapTokensAll Token.unplaced es := by
  cases h with
  | nil =>
    cases hvs
    rw [List.append_nil]
    exact ⟨[], .last hfirst, rfl⟩
  | @cons e es h hmore =>
    have hce : ∀ c ∈ e.constants, c.Survives := fun c h => hc c (by simp [Expr.constantsAll, h])
    have hcm : ∀ c ∈ Expr.constantsAll es, c.Survives :=
      fun c h => hc c (by simp [Expr.constantsAll, h])
    cases hvs with
    | cons hcomma hrest =>
      obtain ⟨vs, ws, rfl, hvs, hws⟩ := hrest.cut
      obtain ⟨e', he', hsame⟩ := derived_expr h hce hvs
      obtain ⟨es', hrow, hsames⟩ := derived_moreRow hmore hcm (expression_of_primary he') hws
      refine ⟨e' :: es', .more hfirst hcomma.kind hrow, ?_⟩
      rw [Expr.mapTokensAll, Expr.mapTokensAll, hsame, hsames]

end

-- ============================================================================
-- Statements
-- ============================================================================

theorem endsOpen_mapTokens (f : Token → Token) : (s : Stmt) → endsOpen (s.mapTokens f) = endsOpen s
  | .expression _ | .letVar _ _ | .block _ _ | .ifThen _ _ _ | .function _ _ _ _
  | .returnStmt _ _ => rfl
  | .ifThenElse _ _ _ no => endsOpen_mapTokens f no
  | .whileLoop _ _ body => endsOpen_mapTokens f body

theorem endsOpen_eq_of_mapTokens {f : Token → Token} {s s' : Stmt}
    (h : s'.mapTokens f = s.mapTokens f) : endsOpen s' = endsOpen s := by
  rw [← endsOpen_mapTokens f s', h, endsOpen_mapTokens]

theorem derived_moreNames {ts : List Token} (h : ∀ t ∈ ts, IsName t) {first : Token}
    (hfirst : first.kind = .identifier) {us : List Token} (hus : Shown (moreNames ts) us) :
    ∃ ts', Names (first :: us) (first :: ts')
      ∧ ts'.map Token.unplaced = ts.map Token.unplaced := by
  induction ts generalizing first us with
  | nil =>
    cases hus
    exact ⟨[], .last hfirst, rfl⟩
  | cons t ts ih =>
    obtain _ | ⟨hcomma, _ | ⟨ht, hrest⟩⟩ := hus
    have hkind := ht.kind.trans (h t (by simp)).kind
    obtain ⟨ts', hnames, hsame⟩ := ih (fun u hu => h u (by simp [hu])) hkind hrest
    refine ⟨_, .more hfirst hcomma.kind hnames, ?_⟩
    rw [List.map_cons, List.map_cons, hsame, ht.unplaced_piece]

/-- Printed parameters are derived again. -/
theorem derived_names {params : List Token} (h : ∀ t ∈ params, IsName t)
    (hcount : params.length ≤ mostArguments) (hdistinct : (params.map Token.lexeme).Nodup)
    {ts : List Token} (hts : Shown (names params) ts) :
    ∃ params', Parameters ts params'
      ∧ params'.map Token.unplaced = params.map Token.unplaced := by
  have hrow : ∃ params', (ts = [] ∧ params' = [] ∨ Names ts params')
      ∧ params'.map Token.unplaced = params.map Token.unplaced := by
    cases params with
    | nil =>
      cases hts
      exact ⟨[], .inl ⟨rfl, rfl⟩, rfl⟩
    | cons t params =>
      obtain _ | ⟨ht, hrest⟩ := hts
      have hkind := ht.kind.trans (h t (by simp)).kind
      have hmore : ∀ u ∈ params, IsName u := fun u hu => h u (by simp [hu])
      obtain ⟨params', hnames, hsame⟩ := derived_moreNames hmore hkind hrest
      refine ⟨_, .inr hnames, ?_⟩
      rw [List.map_cons, List.map_cons, hsame, ht.unplaced_piece]
  obtain ⟨params', hrow, hsame⟩ := hrow
  refine ⟨params', ⟨hrow, ?_, ?_⟩, hsame⟩
  · have hlength := congrArg List.length hsame
    rw [List.length_map, List.length_map] at hlength
    rw [hlength]
    exact hcount
  · have hlexemes := congrArg (List.map Token.lexeme) hsame
    rw [List.map_map, List.map_map] at hlexemes
    change params'.map Token.lexeme = params.map Token.lexeme at hlexemes
    rw [hlexemes]
    exact hdistinct

/-- What stands in parentheses behind a word. -/
theorem derived_condition {c : Expr} (h : Formed c) (hc : ∀ k ∈ c.constants, k.Survives)
    {ps : List Piece} {ts : List Token}
    (hts : Shown (opening [' '] :: (c.pieces [] ++ closing :: ps)) ts) :
    ∃ l cs r us c', ts = l :: cs ++ r :: us ∧ l.kind = .leftParen ∧ Expression cs c'
      ∧ r.kind = .rightParen ∧ Shown ps us
      ∧ c'.mapTokens Token.unplaced = c.mapTokens Token.unplaced := by
  obtain _ | ⟨hl, hrest⟩ := hts
  obtain ⟨cs, _, rfl, hcs, _ | ⟨hr, hus⟩⟩ := hrest.cut
  obtain ⟨c', hc', hsame⟩ := derived_expr h hc hcs
  exact ⟨_, cs, _, _, c', rfl, hl.kind, expression_of_primary hc', hr.kind, hus, hsame⟩

/-- A value before a semicolon. -/
theorem derived_value {v : Expr} (h : Formed v) (hc : ∀ k ∈ v.constants, k.Survives)
    {gap : List Char} {ts : List Token} (hts : Shown (v.pieces gap ++ [semicolon]) ts) (next : Kind) :
    ∃ us stop v', ts = us ++ stop ∧ Expression us v' ∧ Terminator stop next
      ∧ v'.mapTokens Token.unplaced = v.mapTokens Token.unplaced := by
  obtain ⟨us, vs, rfl, hus, hvs⟩ := hts.cut
  obtain ⟨stop, rfl, hstop⟩ := hvs.single
  obtain ⟨v', hv', hsame⟩ := derived_expr h hc hus
  exact ⟨us, [stop], v', rfl, expression_of_primary hv', .semicolon hstop.kind, hsame⟩

mutual

/-- A printed statement is derived again, whatever follows. -/
theorem derived_stmt {inside : Bool} {s : Stmt} (h : FormedStmt inside s)
    (hc : ∀ c ∈ s.constants, c.Survives) ⦃gap : List Char⦄ ⦃ts : List Token⦄
    (hts : Shown (s.pieces gap) ts) (next : Kind) :
    ∃ s', Statement inside ts next s'
      ∧ s'.mapTokens Token.unplaced = s.mapTokens Token.unplaced := by
  cases h with
  | expression h =>
    obtain ⟨us, stop, e', rfl, he', hstop, hsame⟩ := derived_value h hc hts next
    refine ⟨_, .expression he' hstop, ?_⟩
    rw [Stmt.mapTokens, Stmt.mapTokens, hsame]
  | letBare hname =>
    obtain _ | ⟨hword, _ | ⟨ht, hrest⟩⟩ := hts
    obtain ⟨stop, rfl, hstop⟩ := hrest.single
    refine ⟨_, .letBare hword.kind (ht.kind.trans hname.kind) (.semicolon hstop.kind), ?_⟩
    rw [Stmt.mapTokens, Stmt.mapTokens, ht.unplaced_piece]
  | letValue hname h =>
    obtain _ | ⟨hword, _ | ⟨ht, _ | ⟨hmark, hrest⟩⟩⟩ := hts
    obtain ⟨us, stop, v', rfl, hv', hstop, hsame⟩ := derived_value h hc hrest next
    refine ⟨_, .letValue hword.kind (ht.kind.trans hname.kind) hmark.kind hv' hstop, ?_⟩
    rw [Stmt.mapTokens, Stmt.mapTokens, ht.unplaced_piece, Option.map_some, Option.map_some, hsame]
  | block hbrace hspelled h =>
    obtain _ | ⟨hopen, hrest⟩ := hts
    obtain ⟨us, close, body', rfl, hbody', hclose, hsame⟩ := derived_body h hc hrest
    refine ⟨_, .block hopen.kind hbody' hclose, ?_⟩
    rw [Stmt.mapTokens, Stmt.mapTokens, hsame, hopen.unplaced_fixed hspelled hbrace (by decide)]
  | @ifThen _ _ c yes hword hspelled hcondition hyes =>
    have hcc : ∀ k ∈ c.constants, k.Survives := fun k h => hc k (by simp [Stmt.constants, h])
    have hcy : ∀ k ∈ yes.constants, k.Survives := fun k h => hc k (by simp [Stmt.constants, h])
    obtain _ | ⟨ht, hrest⟩ := hts
    obtain ⟨l, cs, r, us, c', rfl, hl, hc', hr, hus, hsamec⟩ := derived_condition hcondition hcc hrest
    obtain ⟨yes', hyes', hsame⟩ := derived_stmt hyes hcy hus next
    refine ⟨_, .ifThen ht.kind hl hc' hr hyes', ?_⟩
    rw [Stmt.mapTokens, Stmt.mapTokens, hsamec, hsame, ht.unplaced_fixed hspelled hword (by decide)]
  | @ifThenElse _ _ c yes no hword hspelled hcondition hyes hclosed hno =>
    have hcc : ∀ k ∈ c.constants, k.Survives := fun k h => hc k (by simp [Stmt.constants, h])
    have hcy : ∀ k ∈ yes.constants, k.Survives := fun k h => hc k (by simp [Stmt.constants, h])
    have hcn : ∀ k ∈ no.constants, k.Survives := fun k h => hc k (by simp [Stmt.constants, h])
    obtain _ | ⟨ht, hrest⟩ := hts
    obtain ⟨l, cs, r, _, c', rfl, hl, hc', hr, hboth, hsamec⟩ := derived_condition hcondition hcc hrest
    obtain ⟨us, _, rfl, hus, _ | ⟨hmark, hvs⟩⟩ := hboth.cut
    obtain ⟨yes', hyes', hsamey⟩ := derived_stmt hyes hcy hus .elseWord
    obtain ⟨no', hno', hsamen⟩ := derived_stmt hno hcn hvs next
    have hclosed' : endsOpen yes' = false := (endsOpen_eq_of_mapTokens hsamey).trans hclosed
    have hstmt := Statement.ifThenElse ht.kind hl hc' hr hyes' hclosed' hmark.kind hno'
    simp only [List.cons_append, List.append_assoc] at hstmt ⊢
    refine ⟨_, hstmt, ?_⟩
    rw [Stmt.mapTokens, Stmt.mapTokens, hsamec, hsamey, hsamen,
      ht.unplaced_fixed hspelled hword (by decide)]
  | @whileLoop _ _ c body hword hspelled hcondition hbody =>
    have hcc : ∀ k ∈ c.constants, k.Survives := fun k h => hc k (by simp [Stmt.constants, h])
    have hcb : ∀ k ∈ body.constants, k.Survives := fun k h => hc k (by simp [Stmt.constants, h])
    obtain _ | ⟨ht, hrest⟩ := hts
    obtain ⟨l, cs, r, us, c', rfl, hl, hc', hr, hus, hsamec⟩ := derived_condition hcondition hcc hrest
    obtain ⟨body', hbody', hsame⟩ := derived_stmt hbody hcb hus next
    refine ⟨_, .whileLoop ht.kind hl hc' hr hbody', ?_⟩
    rw [Stmt.mapTokens, Stmt.mapTokens, hsamec, hsame, ht.unplaced_fixed hspelled hword (by decide)]
  | function hname hparams hcount hdistinct h =>
    obtain _ | ⟨hword, _ | ⟨ht, _ | ⟨hl, hrest⟩⟩⟩ := hts
    obtain ⟨ps, _, rfl, hps, _ | ⟨hr, _ | ⟨hopen, hinner⟩⟩⟩ := hrest.cut
    obtain ⟨params', hparams', hsamep⟩ := derived_names hparams hcount hdistinct hps
    obtain ⟨us, close, body', rfl, hbody', hclose, hsame⟩ := derived_body h hc hinner
    have hstmt : Statement inside _ next _ := .function hword.kind (ht.kind.trans hname.kind)
      hl.kind hparams' hr.kind hopen.kind hbody' hclose
    simp only [List.cons_append, List.append_assoc] at hstmt ⊢
    refine ⟨_, hstmt, ?_⟩
    rw [Stmt.mapTokens, Stmt.mapTokens, hsamep, hsame, ht.unplaced_piece]
  | returnBare hword hspelled =>
    obtain _ | ⟨ht, hrest⟩ := hts
    obtain ⟨stop, rfl, hstop⟩ := hrest.single
    refine ⟨_, .returnBare ht.kind (.semicolon hstop.kind), ?_⟩
    rw [Stmt.mapTokens, Stmt.mapTokens, ht.unplaced_fixed hspelled hword (by decide)]
  | returnValue hword hspelled h =>
    obtain _ | ⟨ht, hrest⟩ := hts
    obtain ⟨us, stop, v', rfl, hv', hstop, hsame⟩ := derived_value h hc hrest next
    refine ⟨_, .returnValue ht.kind hv' hstop, ?_⟩
    rw [Stmt.mapTokens, Stmt.mapTokens, Option.map_some, Option.map_some, hsame,
      ht.unplaced_fixed hspelled hword (by decide)]

theorem derived_body {inside : Bool} {ss : List Stmt} (h : FormedStmts inside ss)
    (hc : ∀ c ∈ Stmt.constantsAll ss, c.Survives) ⦃ts : List Token⦄
    (hts : Shown (Stmt.bodyPieces ss) ts) :
    ∃ us close ss', ts = us ++ [close] ∧ Statements inside us .rightBrace ss'
      ∧ close.kind = .rightBrace
      ∧ Stmt.mapTokensAll Token.unplaced ss' = Stmt.mapTokensAll Token.unplaced ss := by
  cases h with
  | nil =>
    obtain ⟨close, rfl, hclose⟩ := hts.single
    exact ⟨[], close, [], rfl, .nil, hclose.kind, rfl⟩
  | @cons _ s ss h hmore =>
    have hcs : ∀ c ∈ s.constants, c.Survives := fun c h => hc c (by simp [Stmt.constantsAll, h])
    have hcm : ∀ c ∈ Stmt.constantsAll ss, c.Survives :=
      fun c h => hc c (by simp [Stmt.constantsAll, h])
    obtain ⟨us, _, rfl, hus, hrest⟩ := Shown.cut hts
    obtain ⟨vs, ws, rfl, hvs, hws⟩ := hrest.cut
    obtain ⟨close, rfl, hclose⟩ := hws.single
    obtain ⟨s', hs', hsame⟩ := derived_stmt h hcs hus (headKind vs .rightBrace)
    obtain ⟨ss', hss', hsames⟩ := derived_more hmore hcm hvs .rightBrace
    refine ⟨us ++ vs, close, s' :: ss', (List.append_assoc _ _ _).symm, .cons hs' hss', hclose.kind, ?_⟩
    rw [Stmt.mapTokensAll, Stmt.mapTokensAll, hsame, hsames]

theorem derived_more {inside : Bool} {ss : List Stmt} (h : FormedStmts inside ss)
    (hc : ∀ c ∈ Stmt.constantsAll ss, c.Survives) ⦃ts : List Token⦄
    (hts : Shown (Stmt.morePieces ss) ts) (next : Kind) :
    ∃ ss', Statements inside ts next ss'
      ∧ Stmt.mapTokensAll Token.unplaced ss' = Stmt.mapTokensAll Token.unplaced ss := by
  cases h with
  | nil =>
    cases hts
    exact ⟨[], .nil, rfl⟩
  | @cons _ s ss h hmore =>
    have hcs : ∀ c ∈ s.constants, c.Survives := fun c h => hc c (by simp [Stmt.constantsAll, h])
    have hcm : ∀ c ∈ Stmt.constantsAll ss, c.Survives :=
      fun c h => hc c (by simp [Stmt.constantsAll, h])
    obtain ⟨us, vs, rfl, hus, hvs⟩ := Shown.cut hts
    obtain ⟨s', hs', hsame⟩ := derived_stmt h hcs hus (headKind vs next)
    obtain ⟨ss', hss', hsames⟩ := derived_more hmore hcm hvs next
    refine ⟨s' :: ss', .cons hs' hss', ?_⟩
    rw [Stmt.mapTokensAll, Stmt.mapTokensAll, hsame, hsames]

end

/-- A printed program is derived again. -/
theorem derived_program {p : Program} (h : FormedStmts false p.statements)
    (hc : ∀ c ∈ p.constants, c.Survives) {ts : List Token} (hts : Shown p.pieces ts) :
    ∃ q, Derives ts q ∧ q.mapTokens Token.unplaced = p.mapTokens Token.unplaced := by
  obtain ⟨statements⟩ := p
  cases h with
  | nil =>
    cases hts
    exact ⟨⟨[]⟩, .nil, rfl⟩
  | @cons _ s ss h hmore =>
    have hcs : ∀ c ∈ s.constants, c.Survives :=
      fun c h => hc c (by simp [Program.constants, Stmt.constantsAll, h])
    have hcm : ∀ c ∈ Stmt.constantsAll ss, c.Survives :=
      fun c h => hc c (by simp [Program.constants, Stmt.constantsAll, h])
    obtain ⟨us, vs, rfl, hus, hvs⟩ := Shown.cut hts
    obtain ⟨s', hs', hsame⟩ := derived_stmt h hcs hus (headKind vs .eof)
    obtain ⟨ss', hss', hsames⟩ := derived_more hmore hcm hvs .eof
    refine ⟨⟨s' :: ss'⟩, .cons hs' hss', ?_⟩
    simp only [Program.mapTokens, Stmt.mapTokensAll, hsame, hsames]

end Lexiscope.Printing
