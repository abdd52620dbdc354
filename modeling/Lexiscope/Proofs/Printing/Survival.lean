/-
  Lexiscope.Proofs.Printing.Survival

  A program that is printed and read again is the same program exactly if its
  constants survive printing.

  If they do, the lexer finds the printed pieces, and these derive the program
  again. If the program comes back, then so do its string constants, one after
  the other; as long as the lexer has found the printed pieces, the next string
  it reads is the next one that was printed, so it is plain and the pieces go on
  to agree. Then an infinite number would be the name that it is printed as, and
  one constant would be missing.
-/
import Lexiscope.Proofs.Grammar.Completeness
import Lexiscope.Proofs.Grammar.Soundness
import Lexiscope.Proofs.Printing.Derived
import Lexiscope.Proofs.Printing.Layout

namespace Lexiscope.Printing

open Grammar Lexical

-- ============================================================================
-- Constants among the pieces
-- ============================================================================

/-- Is the constant printed as a constant? -/
def written : Constant → Bool
  | .number value => value.isFinite
  | .string _ => true

/-- The constant that a printed piece is. What stands between quotes stands for itself. -/
def printed? (p : Piece) : Option Constant :=
  match p.kind with
  | .number => (Number.ofText? (String.ofList p.lexeme)).map .number
  | .string => (Token.unquote? p.lexeme).map fun inner => .string (String.ofList inner)
  | _ => none

theorem printed?_eq_none {p : Piece} (hnumber : p.kind ≠ .number) (hstring : p.kind ≠ .string) :
    printed? p = none := by
  rw [printed?]
  split
  · next h => exact absurd h hnumber
  · next h => exact absurd h hstring
  · rfl

@[simp] theorem printed?_fixed {gap lexeme : List Char} {kind : Kind} (hnumber : kind ≠ .number)
    (hstring : kind ≠ .string) : printed? ⟨gap, kind, lexeme⟩ = none :=
  printed?_eq_none hnumber hstring

@[simp] theorem printed?_stringPiece (gap : List Char) (s : String) :
    printed? (stringPiece gap s) = some (.string s) := by
  simp [printed?, stringPiece, Token.unquote?]

theorem printed?_booleanPiece (gap : List Char) (b : Bool) : printed? (booleanPiece gap b) = none := by
  cases b <;> rfl

theorem printed?_name {t : Token} (h : IsName t) (gap : List Char) :
    printed? (t.piece gap) = none :=
  printed?_eq_none (by simp [Token.piece, h.kind]) (by simp [Token.piece, h.kind])

theorem printed?_unary {t : Token} {op : UnaryOp} (h : UnaryOp.ofKind? t.kind = some op)
    (gap : List Char) : printed? (t.piece gap) = none := by
  apply printed?_eq_none <;> intro hkind <;> rw [show t.kind = _ from hkind] at h <;>
    cases h

theorem printed?_binary {t : Token} {op : BinaryOp} (h : BinaryOp.ofKind? t.kind = some op)
    (gap : List Char) : printed? (t.piece gap) = none := by
  apply printed?_eq_none <;> intro hkind <;> rw [show t.kind = _ from hkind] at h <;>
    cases h

theorem printed?_numberPiece (gap : List Char) (d : Decimal) :
    printed? (numberPiece gap d.toFloat) =
      if d.toFloat.isFinite then some (.number d.toFloat) else none := by
  by_cases hfinite : d.toFloat.isFinite = true
  · simp [printed?, numberPiece, hfinite, (Number.text_finite hfinite).2]
  · simp [printed?, numberPiece, hfinite]

theorem printed_moreNames {ts : List Token} (h : ∀ t ∈ ts, IsName t) :
    (moreNames ts).filterMap printed? = [] := by
  induction ts with
  | nil => rfl
  | cons t ts ih =>
    have hrest := ih fun u hu => h u (by simp [hu])
    simp [moreNames, printed?_name (h t (by simp)), hrest]

theorem printed_names {ts : List Token} (h : ∀ t ∈ ts, IsName t) :
    (names ts).filterMap printed? = [] := by
  cases ts with
  | nil => rfl
  | cons t ts =>
    have hmore : ∀ u ∈ ts, IsName u := fun u hu => h u (by simp [hu])
    rw [names, List.filterMap_cons_none (printed?_name (h t (by simp)) []), printed_moreNames hmore]

mutual

/-- The constants among the pieces of an expression are those of the expression that are printed
    as constants. -/
theorem printed_expr {e : Expr} (h : Formed e) (gap : List Char) :
    (e.pieces gap).filterMap printed? = e.constants.filter written := by
  cases h with
  | number d =>
    by_cases hfinite : d.toFloat.isFinite = true
    · simp [Expr.pieces, Expr.constants, printed?_numberPiece, hfinite, written]
    · simp [Expr.pieces, Expr.constants, printed?_numberPiece, hfinite, written]
  | string => simp [Expr.pieces, Expr.constants, written, List.filter_cons]
  | boolean => simp [Expr.pieces, Expr.constants, printed?_booleanPiece]
  | nil => rfl
  | identifier hname => simp [Expr.pieces, Expr.constants, printed?_name hname]
  | unary hmark _ h =>
    simp [Expr.pieces, Expr.constants, printed?_unary hmark, printed_expr h]
  | binary hmark _ hleft hright =>
    simp [Expr.pieces, Expr.constants, printed?_binary hmark, printed_expr hleft,
      printed_expr hright]
  | assign hname h =>
    simp [Expr.pieces, Expr.constants, printed?_name hname, printed_expr h]
  | call _ _ hcallee hargs _ =>
    simp [Expr.pieces, Expr.constants, printed_expr hcallee, printed_row hargs]

theorem printed_row {es : List Expr} (h : FormedAll es) :
    (Expr.rowPieces es).filterMap printed? = (Expr.constantsAll es).filter written := by
  cases h with
  | nil => rfl
  | cons h hmore =>
    simp [Expr.rowPieces, Expr.constantsAll, printed_expr h, printed_moreRow hmore]

theorem printed_moreRow {es : List Expr} (h : FormedAll es) :
    (Expr.moreRowPieces es).filterMap printed? = (Expr.constantsAll es).filter written := by
  cases h with
  | nil => rfl
  | cons h hmore =>
    simp [Expr.moreRowPieces, Expr.constantsAll, printed_expr h, printed_moreRow hmore]

end

mutual

/-- The constants among the pieces of a statement are those of the statement that are printed as
    constants. -/
theorem printed_stmt {inside : Bool} {s : Stmt} (h : FormedStmt inside s) (gap : List Char) :
    (s.pieces gap).filterMap printed? = s.constants.filter written := by
  cases h with
  | expression h => simp [Stmt.pieces, Stmt.constants, printed_expr h]
  | letBare hname => simp [Stmt.pieces, Stmt.constants, printed?_name hname]
  | letValue hname h =>
    simp [Stmt.pieces, Stmt.constants, printed?_name hname, printed_expr h]
  | block _ _ h => simp [Stmt.pieces, Stmt.constants, printed_body h]
  | ifThen _ _ hcondition hyes =>
    simp [Stmt.pieces, Stmt.constants, printed_expr hcondition, printed_stmt hyes]
  | ifThenElse _ _ hcondition hyes _ hno =>
    simp [Stmt.pieces, Stmt.constants, printed_expr hcondition, printed_stmt hyes,
      printed_stmt hno]
  | whileLoop _ _ hcondition hbody =>
    simp [Stmt.pieces, Stmt.constants, printed_expr hcondition, printed_stmt hbody]
  | function hname hparams _ _ h =>
    simp [Stmt.pieces, Stmt.constants, printed?_name hname, printed_names hparams,
      printed_body h]
  | returnBare _ _ => simp [Stmt.pieces, Stmt.constants]
  | returnValue _ _ h => simp [Stmt.pieces, Stmt.constants, printed_expr h]

theorem printed_body {inside : Bool} {ss : List Stmt} (h : FormedStmts inside ss) :
    (Stmt.bodyPieces ss).filterMap printed? = (Stmt.constantsAll ss).filter written := by
  cases h with
  | nil => rfl
  | cons h hmore =>
    simp [Stmt.bodyPieces, Stmt.constantsAll, printed_stmt h, printed_more hmore]

theorem printed_more {inside : Bool} {ss : List Stmt} (h : FormedStmts inside ss) :
    (Stmt.morePieces ss).filterMap printed? = (Stmt.constantsAll ss).filter written := by
  cases h with
  | nil => rfl
  | cons h hmore =>
    simp [Stmt.morePieces, Stmt.constantsAll, printed_stmt h, printed_more hmore]

end

theorem printed_program {p : Program} (h : FormedStmts false p.statements) :
    p.pieces.filterMap printed? = p.constants.filter written := by
  obtain ⟨statements⟩ := p
  cases h with
  | nil => rfl
  | cons h hmore =>
    simp [Program.pieces, Program.constants, Stmt.constantsAll, printed_stmt h, printed_more hmore]

-- ============================================================================
-- What the lexer finds
-- ============================================================================

/-- The string of a constant. -/
def stringOf? : Constant → Option String
  | .number _ => none
  | .string s => some s

/-- The string that a printed piece is. -/
def printedString? (p : Piece) : Option String := (printed? p).bind stringOf?

/-- The string that the lexer reads from a piece. -/
def readString? (p : Piece) : Option String :=
  if p.kind = .string then (Token.unquote? p.lexeme).map fun t => String.ofList (Token.unescape t)
  else none

theorem printedString?_of_kind {p : Piece} (h : p.kind ≠ .string) : printedString? p = none := by
  rw [printedString?, printed?]
  split
  · cases Number.ofText? (String.ofList p.lexeme) <;> rfl
  · next hkind => exact absurd hkind h
  · rfl

theorem printedString?_stringPiece (gap : List Char) (s : String) :
    printedString? (stringPiece gap s) = some s := by
  rw [printedString?, printed?_stringPiece]
  rfl

theorem readString?_of_kind {p : Piece} (h : p.kind ≠ .string) : readString? p = none := if_neg h

theorem readString?_quoted (gap body : List Char) :
    readString? ⟨gap, .string, '\'' :: (body ++ ['\''])⟩ =
      some (String.ofList (Token.unescape body)) := by
  simp [readString?, Token.unquote?]

/-- All strings among the pieces are plain. -/
def AllPlain (ps : List Piece) : Prop := ∀ s ∈ ps.filterMap printedString?, Plain s.toList

/-- Pieces that fit, with plain strings, are what the lexer finds. -/
theorem Laid.splits {ps : List Piece} (h : Laid ps) (hplain : AllPlain ps) :
    Splits (flat ps) ps [] := by
  induction h with
  | nil => exact .last .nil
  | piece hp hkind _ ih =>
    rw [AllPlain, List.filterMap_cons_none (printedString?_of_kind hkind)] at hplain
    rw [flat_cons]
    exact .piece hp (ih hplain)
  | @string gap s rest hgap _ ih =>
    rw [AllPlain, List.filterMap_cons_some (printedString?_stringPiece gap s)] at hplain
    obtain ⟨hs, hrest⟩ := List.forall_mem_cons.mp hplain
    rw [flat_cons]
    exact .piece (fits_of_string hgap.gap hs.stringBody _) (ih hrest)

/-- A string with anything in it is split off as a string, where it is printed. -/
theorem splits_string {gap : List Char} (hgap : IsSpaces gap) {s : String}
    {rest : List Char} {qs : List Piece} {last : List Char}
    (h : Splits (gap ++ ('\'' :: s.toList ++ ['\''] ++ rest)) qs last) :
    ∃ body after qs', qs = ⟨gap, .string, '\'' :: (body ++ ['\''])⟩ :: qs' ∧ StringBody body
      ∧ body ++ '\'' :: after = s.toList ++ '\'' :: rest ∧ Splits after qs' last := by
  have hsolid : Solid ('\'' :: s.toList ++ ['\''] ++ rest) := ⟨by decide, fun hc => nomatch hc⟩
  generalize htext : gap ++ ('\'' :: s.toList ++ ['\''] ++ rest) = text at h
  cases h with
  | last hlast => exact absurd (htext ▸ hlast) (hgap.gap.not_last hsolid (by simp))
  | @piece q after _ qs hq hrest =>
    obtain ⟨hgaps, hlexeme⟩ := hgap.gap.unique hsolid hq.gap hq.solid htext
    obtain ⟨qgap, kind, lexeme⟩ := q
    obtain rfl : gap = qgap := hgaps
    have hfirst := hq.lexeme
    obtain ⟨c, tail, rfl⟩ := List.exists_cons_of_ne_nil hq.lexeme.ne_nil
    obtain ⟨rfl, htail⟩ := List.cons.inj hlexeme
    obtain ⟨rfl, body, rfl, hbody⟩ := hfirst.of_quote
    refine ⟨body, after, qs, rfl, hbody, ?_, hrest⟩
    simpa using htail.symm

/-- If the lexer reads the strings that were printed, it finds the pieces that were printed, and
    all strings are plain. -/
theorem Laid.found {ps : List Piece} (h : Laid ps) {qs : List Piece} {last : List Char}
    (hsplits : Splits (flat ps) qs last)
    (hstrings : qs.filterMap readString? = ps.filterMap printedString?) :
    qs = ps ∧ AllPlain ps := by
  induction h generalizing qs with
  | nil =>
    generalize htext : flat [] = text at hsplits
    cases hsplits with
    | last _ => exact ⟨rfl, fun _ hs => nomatch hs⟩
    | piece hq _ =>
      have hlength := congrArg List.length htext
      have hpos := List.length_pos_iff.mpr hq.lexeme.ne_nil
      simp only [flat_nil, List.length_nil, List.length_append] at hlength
      omega
  | @piece p rest hp hkind _ ih =>
    rw [flat_cons] at hsplits
    generalize htext : p.gap ++ (p.lexeme ++ flat rest) = text at hsplits
    cases hsplits with
    | last hlast => exact absurd (htext ▸ hlast) hp.not_gap
    | piece hq hrest =>
      obtain ⟨rfl, rfl⟩ := hp.unique hq htext
      rw [List.filterMap_cons_none (readString?_of_kind hkind),
        List.filterMap_cons_none (printedString?_of_kind hkind)] at hstrings
      obtain ⟨rfl, hplain⟩ := ih hrest hstrings
      refine ⟨rfl, ?_⟩
      rw [AllPlain, List.filterMap_cons_none (printedString?_of_kind hkind)]
      exact hplain
  | @string gap s rest hgap _ ih =>
    rw [flat_cons] at hsplits
    obtain ⟨body, after, qs', rfl, hbody, heq, hrest⟩ := splits_string hgap hsplits
    rw [List.filterMap_cons_some (readString?_quoted gap body),
      List.filterMap_cons_some (printedString?_stringPiece gap s)] at hstrings
    obtain ⟨hread, hmore⟩ := List.cons.inj hstrings
    have hdecoded : Token.unescape body = s.toList := by
      rw [← hread, String.toList_ofList]
    obtain ⟨hplain, rfl, rfl⟩ := plain_of_quoted hbody hdecoded heq
    obtain ⟨rfl, hrestPlain⟩ := ih hrest hmore
    refine ⟨rfl, ?_⟩
    rw [AllPlain, List.filterMap_cons_some (printedString?_stringPiece gap s)]
    exact List.forall_mem_cons.mpr ⟨hplain, hrestPlain⟩

-- ============================================================================
-- What the tokens stand for
-- ============================================================================

theorem tokens_shown (before : List Char) (ps : List Piece) (gap : List Char) :
    ∃ body eof, tokens before ps gap = body ++ [eof] ∧ eof.kind = .eof ∧ Shown ps body := by
  induction ps generalizing before with
  | nil => exact ⟨[], _, rfl, rfl, .nil⟩
  | cons p ps ih =>
    obtain ⟨body, eof, htokens, heof, hshown⟩ := ih (before ++ p.gap ++ p.lexeme)
    rw [tokens, htokens]
    exact ⟨_ :: body, eof, rfl, heof, .cons ⟨rfl, rfl⟩ hshown⟩

/-- The tokens of a text that splits are spelled as their kinds are. -/
theorem Shown.spelled {ps : List Piece} {ts : List Token} (h : Shown ps ts) {text gap : List Char}
    (hsplits : Splits text ps gap) : ∀ t ∈ ts, Spelled t := by
  induction h generalizing text with
  | nil => simp
  | cons ht _ ih =>
    cases hsplits with
    | piece hp hrest =>
      refine List.forall_mem_cons.mpr ⟨?_, ih hrest⟩
      rw [Spelled, ht.kind, ht.lexeme, String.toList_ofList]
      exact hp.lexeme

/-- What is known of the tokens of a source text. -/
theorem tokens_of_tokenize {source : String} {ts : List Token}
    (h : Token.tokenize source = .ok ts) :
    ∃ pieces gap body eof, Splits source.toList pieces gap ∧ ts = body ++ [eof]
      ∧ eof.kind = .eof ∧ Shown pieces body ∧ (∀ t ∈ body, Spelled t)
      ∧ ∀ t ∈ body, t.kind ≠ .eof := by
  have hfrom : Token.tokensFrom source.toList.length ⟨source.toList, reached []⟩ = .ok ts := h
  obtain ⟨pieces, gap, hsplits, rfl⟩ := splits_of_tokensFrom (Nat.le_refl _) hfrom
  obtain ⟨body, eof, htokens, heof, hshown⟩ := tokens_shown [] pieces gap
  have hspelled := hshown.spelled hsplits
  exact ⟨pieces, gap, body, eof, hsplits, htokens, heof, hshown, hspelled,
    fun t ht => (hspelled t ht).kind_ne_eof⟩

theorem Shows.constant? {p : Piece} {t : Token} (h : Shows p t) (hkind : p.kind ≠ .string) :
    Printing.constant? t = printed? p := by
  by_cases hnumber : p.kind = .number
  · simp only [Printing.constant?, printed?, h.kind, hnumber, h.lexeme]
  · rw [printed?_eq_none hnumber hkind, constant?_eq_none]
    · rw [h.kind]
      exact hnumber
    · rw [h.kind]
      exact hkind

theorem Shows.constant?_string {s : String} {gap : List Char} {t : Token}
    (h : Shows (stringPiece gap s) t) (hs : Plain s.toList) :
    Printing.constant? t = some (.string s) := by
  rw [Printing.constant?, h.kind, h.stringValue? hs]
  rfl

/-- Tokens of plain strings stand for the constants that were printed. -/
theorem constants_of_shown {ps : List Piece} (h : Laid ps) (hplain : AllPlain ps)
    {ts : List Token} (hts : Shown ps ts) : ts.filterMap constant? = ps.filterMap printed? := by
  induction h generalizing ts with
  | nil =>
    cases hts
    rfl
  | @piece p rest _ hkind _ ih =>
    obtain _ | ⟨ht, hrest⟩ := hts
    rw [AllPlain, List.filterMap_cons_none (printedString?_of_kind hkind)] at hplain
    rw [List.filterMap_cons, List.filterMap_cons, ht.constant? hkind, ih hplain hrest]
  | @string gap s rest _ _ ih =>
    obtain _ | ⟨ht, hrest⟩ := hts
    rw [AllPlain, List.filterMap_cons_some (printedString?_stringPiece gap s)] at hplain
    obtain ⟨hs, hplain⟩ := List.forall_mem_cons.mp hplain
    rw [List.filterMap_cons_some (ht.constant?_string hs),
      List.filterMap_cons_some (printed?_stringPiece gap s), ih hplain hrest]

/-- The strings among the constants of tokens are those that the lexer reads. -/
theorem strings_of_shown {qs : List Piece} {ts : List Token} (h : Shown qs ts) :
    (ts.filterMap constant?).filterMap stringOf? = qs.filterMap readString? := by
  rw [List.filterMap_filterMap]
  induction h with
  | nil => rfl
  | @cons q qs t ts ht _ ih =>
    have hsame : (constant? t).bind stringOf? = readString? q := by
      rw [constant?, readString?, ht.kind, ht.lexeme]
      split
      · next hkind =>
        rw [hkind]
        cases Number.ofText? (String.ofList q.lexeme) <;> rfl
      · next hkind =>
        rw [if_pos hkind, Token.stringValue?, if_pos (ht.kind.trans hkind), ht.lexeme,
          String.toList_ofList]
        cases Token.unquote? q.lexeme <;> rfl
      · next hkind => rw [if_neg hkind]; rfl
    rw [List.filterMap_cons, List.filterMap_cons, hsame, ih]

/-- The strings among the pieces of a program are its string constants. -/
theorem strings_program {p : Program} (h : FormedStmts false p.statements) :
    p.pieces.filterMap printedString? = p.constants.filterMap stringOf? := by
  have hprinted := congrArg (List.filterMap stringOf?) (printed_program h)
  rw [List.filterMap_filterMap, List.filterMap_filter] at hprinted
  have hwritten : (fun c => if written c then stringOf? c else none) = stringOf? := by
    funext c
    cases c with
    | number x => simp [stringOf?]
    | string s => simp [written]
  rw [hwritten] at hprinted
  exact hprinted

theorem string_mem_iff {cs : List Constant} {s : String} :
    s ∈ cs.filterMap stringOf? ↔ .string s ∈ cs := by
  rw [List.mem_filterMap]
  constructor
  · rintro ⟨c, hc, hs⟩
    cases c with
    | number x => exact nomatch hs
    | string s' =>
      obtain rfl : s' = s := Option.some.inj hs
      exact hc
  · exact fun h => ⟨_, h, rfl⟩

-- ============================================================================
-- Printing and reading
-- ============================================================================

/-- A program read from a source text is formed. -/
theorem formed_of_parse {source : String} {ts : List Token} {limit : Nat} {p : Program}
    (htokens : Token.tokenize source = .ok ts) (hparse : Program.parse ts limit = .ok p) :
    FormedStmts false p.statements := by
  obtain ⟨pieces, gap, body, eof, -, rfl, heof, -, hspelled, hbody⟩ := tokens_of_tokenize htokens
  exact formed_of_statements (derives_of_parse heof hbody hparse) hspelled

/-- A formed program whose constants survive is read again. -/
theorem read_of_survives {p : Program} (h : FormedStmts false p.statements)
    (hc : ∀ c ∈ p.constants, c.Survives) {limit : Nat}
    (hlimit : ∀ ts, Token.tokenize p.text = .ok ts → ts.length + 2 ≤ limit) :
    ∃ ts q, Token.tokenize p.text = .ok ts ∧ Program.parse ts limit = .ok q
      ∧ q.mapTokens Token.unplaced = p.mapTokens Token.unplaced := by
  have hplain : AllPlain p.pieces := by
    rw [AllPlain, strings_program h]
    exact fun s hs => hc (.string s) (string_mem_iff.mp hs)
  have hsplits := (laid_program h).splits hplain
  rw [p.flat_pieces] at hsplits
  have htokens : Token.tokenize p.text = .ok (tokens [] p.pieces []) :=
    hsplits.tokensFrom (Nat.le_refl _) []
  obtain ⟨body, eof, heq, heof, hshown⟩ := tokens_shown [] p.pieces []
  rw [heq] at htokens
  obtain ⟨q, hq, hsame⟩ := derived_program h hc hshown
  have hbody : ∀ t ∈ body, t.kind ≠ .eof :=
    fun t ht => (hshown.spelled hsplits t ht).kind_ne_eof
  have hroom := hlimit _ htokens
  rw [List.length_append, List.length_singleton] at hroom
  exact ⟨_, q, htokens, parse_of_derives heof hbody (by omega) hq, hsame⟩

/-- A formed program that is read again has constants that survive. -/
theorem survives_of_read {p : Program} (h : FormedStmts false p.statements) {limit : Nat}
    {ts : List Token} {q : Program} (htokens : Token.tokenize p.text = .ok ts)
    (hparse : Program.parse ts limit = .ok q)
    (hsame : q.mapTokens Token.unplaced = p.mapTokens Token.unplaced) :
    ∀ c ∈ p.constants, c.Survives := by
  obtain ⟨qs, gap, body, eof, hsplits, rfl, heof, hshown, -, hbody⟩ := tokens_of_tokenize htokens
  have hread : body.filterMap constant? = p.constants := by
    rw [constants_of_statements (derives_of_parse heof hbody hparse)]
    change q.constants = p.constants
    rw [← q.constants_mapTokens Token.unplaced, hsame, p.constants_mapTokens]
  have hstrings : qs.filterMap readString? = p.pieces.filterMap printedString? := by
    rw [← strings_of_shown hshown, hread, strings_program h]
  rw [← p.flat_pieces] at hsplits
  obtain ⟨rfl, hplain⟩ := (laid_program h).found hsplits hstrings
  have hwritten : p.constants.filter written = p.constants := by
    rw [← printed_program h, ← constants_of_shown (laid_program h) hplain hshown, hread]
  rw [AllPlain, strings_program h] at hplain
  intro c hc
  cases c with
  | number x => exact List.filter_eq_self.mp hwritten _ hc
  | string s => exact hplain s (string_mem_iff.mpr hc)

/-- **Printing and reading again.** A program that was read from a source text comes back from its
    own text, but for the places of its tokens, if and only if no string constant has a quote or a
    backslash and every number constant is finite. -/
theorem read_text_iff_survives {source : String} {ts : List Token} {limit : Nat} {p : Program}
    (htokens : Token.tokenize source = .ok ts) (hparse : Program.parse ts limit = .ok p)
    {limit' : Nat} (hlimit : ∀ ts', Token.tokenize p.text = .ok ts' → ts'.length + 2 ≤ limit') :
    (∃ ts' q, Token.tokenize p.text = .ok ts' ∧ Program.parse ts' limit' = .ok q
      ∧ q.mapTokens Token.unplaced = p.mapTokens Token.unplaced)
    ↔ ∀ c ∈ p.constants, c.Survives := by
  have hformed := formed_of_parse htokens hparse
  constructor
  · rintro ⟨ts', q, htokens', hparse', hsame⟩
    exact survives_of_read hformed htokens' hparse' hsame
  · exact fun hc => read_of_survives hformed hc hlimit

/-- A token on the first line, from one column to another. -/
def lineToken (kind : Kind) (lexeme : String) (start stop : Nat) : Token :=
  ⟨kind, lexeme, ⟨1, start⟩, ⟨1, stop⟩⟩

/-- The tokens of `if (a) b = 'x'; else c(0.1)`. -/
def choiceTokens : List Token :=
  [lineToken .ifWord "if" 1 3, lineToken .leftParen "(" 4 5, lineToken .identifier "a" 5 6,
   lineToken .rightParen ")" 6 7, lineToken .identifier "b" 8 9, lineToken .assign "=" 10 11,
   lineToken .string "'x'" 12 15, lineToken .semicolon ";" 15 16, lineToken .elseWord "else" 17 21,
   lineToken .identifier "c" 22 23, lineToken .leftParen "(" 23 24, lineToken .number "0.1" 24 27,
   lineToken .rightParen ")" 27 28, lineToken .eof "" 28 28]

/-- The program of `choiceTokens`. -/
def choiceProgram : Program :=
  ⟨[.ifThenElse (lineToken .ifWord "if" 1 3) (.identifier (lineToken .identifier "a" 5 6))
    (.expression (.assign (lineToken .identifier "b" 8 9) (.string "x")))
    (.expression (.call (.identifier (lineToken .identifier "c" 22 23))
      (lineToken .leftParen "(" 23 24) [.number (Decimal.toFloat ⟨1, -1⟩)]))]⟩

theorem read_text_choice :
    ∃ ts q, Token.tokenize choiceProgram.text = .ok ts ∧ Program.parse ts 21 = .ok q
      ∧ q.mapTokens Token.unplaced = choiceProgram.mapTokens Token.unplaced := by
  have htokens : Token.tokenize "if (a) b = 'x'; else c(0.1)" = .ok choiceTokens := rfl
  have hparse : Program.parse choiceTokens 20 = .ok choiceProgram := rfl
  have hcount : (Token.tokenize choiceProgram.text).toOption.map List.length = some 19 := by
    decide +kernel
  have hlimit : ∀ ts, Token.tokenize choiceProgram.text = .ok ts → ts.length + 2 ≤ 21 := by
    intro ts hts
    rw [hts] at hcount
    have hlength : ts.length = 19 := Option.some.inj hcount
    omega
  have hfinite : (Decimal.toFloat ⟨1, -1⟩).isFinite = true := by decide +kernel
  refine (read_text_iff_survives htokens hparse hlimit).mpr ?_
  intro c hc
  obtain rfl | rfl : c = .string "x" ∨ c = .number (Decimal.toFloat ⟨1, -1⟩) := by
    simpa [choiceProgram, Program.constants, Stmt.constantsAll, Stmt.constants, Expr.constants,
      Expr.constantsAll] using hc
  · exact ⟨by decide, by decide⟩
  · exact hfinite

end Lexiscope.Printing
