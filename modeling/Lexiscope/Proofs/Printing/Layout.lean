/-
  Lexiscope.Proofs.Printing.Layout

  The lexer finds the pieces of a printed text, strings apart.

  Printed lexemes stand before a blank, a parenthesis, a comma or a semicolon,
  and none of these makes a lexeme longer (`ofText_of_calm`). The only lexemes
  that stand before something else are parentheses, braces and the marks before
  an operand. So each piece fits where it is printed, except that a string
  constant may hold anything (`Laid`).
-/
import Lexiscope.Proofs.Lexical.Split
import Lexiscope.Proofs.Printing.Formed
import Lexiscope.Proofs.Printing.Pieces

namespace Lexiscope.Printing

open Grammar Lexical

-- ============================================================================
-- Before calm text
-- ============================================================================

/-- The characters that may stand behind any printed lexeme. -/
def calmChars : List Char := [' ', '(', ')', ',', ';']

/-- The text begins with one of these characters, or is at its end. -/
def Calm (text : List Char) : Prop := ∀ c ∈ text.head?, c ∈ calmChars

theorem calm_nil : Calm [] := by simp [Calm]

theorem calm_cons {c : Char} (h : c ∈ calmChars) (text : List Char) : Calm (c :: text) := by
  simpa [Calm] using h

theorem Calm.head_ne {text : List Char} (h : Calm text) {c : Char} (hc : c ∉ calmChars) :
    text.head? ≠ some c := fun hhead => hc (h c hhead)

/-- A property of characters that no calm one has does not begin a calm text. -/
theorem Calm.takeWhile_eq_nil {text : List Char} (h : Calm text) {p : Char → Bool}
    (hp : calmChars.any p = false) : text.takeWhile p = [] := by
  cases text with
  | nil => rfl
  | cons c rest => rw [List.takeWhile_cons_of_neg (List.any_eq_false.mp hp c (h c rfl))]

theorem Calm.dropWhile_eq {text : List Char} (h : Calm text) {p : Char → Bool}
    (hp : calmChars.any p = false) : text.dropWhile p = text := by
  cases text with
  | nil => rfl
  | cons c rest => rw [List.dropWhile_cons_of_neg (List.any_eq_false.mp hp c (h c rfl))]

theorem oneOrTwo_of_calm {after : List Char} (h : Calm after) (short long : Kind) :
    Munch.oneOrTwo '=' short long after = .token short 1 := by
  rw [Munch.oneOrTwo, if_neg (h.head_ne (by decide))]

theorem ofText_of_sign_calm {after : List Char} (h : Calm after) :
    ∀ entry ∈ signs, Munch.ofText (entry.1 ++ after) = .token entry.2 entry.1.length := by
  simp only [signs, List.forall_mem_cons]
  exact ⟨rfl, rfl, rfl, rfl, rfl, rfl, oneOrTwo_of_calm h _ _, rfl, oneOrTwo_of_calm h _ _, rfl,
    oneOrTwo_of_calm h _ _, rfl, oneOrTwo_of_calm h _ _, rfl, rfl, rfl, rfl, rfl, rfl, rfl,
    List.forall_mem_nil _⟩

theorem ofText_of_isWord_calm {text after : List Char} (h : IsWord text) (hafter : Calm after) :
    Munch.ofText (text ++ after) =
      .token (Kind.ofWord (String.ofList text)) text.length := by
  rw [ofText_of_isWord h, hafter.takeWhile_eq_nil (by decide), List.append_nil, List.length_nil,
    Nat.add_zero]

theorem numberLength_of_calm {whole after : List Char} (h : IsDigits whole)
    (hafter : Calm after) : Munch.numberLength (whole ++ after) = whole.length := by
  have hdigit : calmChars.any isDigit = false := by decide
  rw [Munch.numberLength, List.takeWhile_append_of_pos h.2, hafter.takeWhile_eq_nil hdigit,
    List.append_nil, List.dropWhile_append_of_pos h.2, hafter.dropWhile_eq hdigit]
  split
  · exact absurd rfl (hafter.head_ne (show '.' ∉ calmChars by decide))
  · rfl

theorem numberLength_fraction_of_calm {whole places after : List Char} (hwhole : IsDigits whole)
    (hplaces : IsDigits places) (hafter : Calm after) :
    Munch.numberLength (whole ++ '.' :: places ++ after) = (whole ++ '.' :: places).length := by
  have hdigit : calmChars.any isDigit = false := by decide
  have hpoint : isDigit '.' = false := by decide
  have hpos : 0 < places.length := List.length_pos_iff.mpr hplaces.1
  rw [List.append_assoc, List.cons_append, Munch.numberLength,
    List.takeWhile_append_of_pos hwhole.2, List.dropWhile_append_of_pos hwhole.2,
    List.takeWhile_cons_of_neg (by simp [hpoint]), List.dropWhile_cons_of_neg (by simp [hpoint]),
    List.append_nil]
  simp only
  rw [List.takeWhile_append_of_pos hplaces.2, hafter.takeWhile_eq_nil hdigit, List.append_nil,
    if_neg (by omega), List.length_append, List.length_cons]
  omega

/-- Before calm text every lexeme is taken as it is. -/
theorem ofText_of_calm {kind : Kind} {lexeme after : List Char} (h : Lexeme kind lexeme)
    (hafter : Calm after) : Munch.ofText (lexeme ++ after) = .token kind lexeme.length := by
  cases h with
  | sign h => exact ofText_of_sign_calm hafter _ h
  | word h =>
    rw [ofText_of_isWord_calm (isWord_of_mem_words _ h) hafter, ofWord_of_mem h]
  | identifier hword hfree => rw [ofText_of_isWord_calm hword hafter, ofWord_of_free hfree]
  | whole h => rw [ofText_of_isDigits h, numberLength_of_calm h hafter]
  | fraction hwhole hplaces =>
    have hlength := numberLength_fraction_of_calm hwhole hplaces hafter
    rw [← hlength, List.append_assoc]
    exact ofText_of_isDigits hwhole _
  | string h => exact ofText_of_stringBody h after

-- ============================================================================
-- Pieces that fit
-- ============================================================================

/-- The gap is made of spaces. -/
def IsSpaces (gap : List Char) : Prop := ∀ c ∈ gap, c = ' '

theorem isSpaces_nil : IsSpaces [] := by simp [IsSpaces]

theorem isSpaces_one : IsSpaces [' '] := by simp [IsSpaces]

theorem IsSpaces.gap {gap : List Char} (h : IsSpaces gap) : Gap false gap := by
  induction gap with
  | nil => exact .nil
  | cons c rest ih =>
    obtain rfl := h c (by simp)
    exact .blank (by decide) (ih fun d hd => h d (by simp [hd]))

/-- A lexeme fits before calm text. -/
theorem fits_of_calm {p : Piece} {after : List Char} (hgap : IsSpaces p.gap)
    (h : Lexeme p.kind p.lexeme) (hafter : Calm after) : p.Fits after where
  gap := hgap.gap
  lexeme := h
  longest := longest_of_ofText (ofText_of_calm h hafter)
  no_comment _ := ⟨hafter.head_ne (by decide), hafter.head_ne (by decide)⟩

/-- Signs that no character makes longer. -/
def loneSigns : List (List Char × Kind) :=
  [(['('], .leftParen), ([')'], .rightParen), (['\x7b'], .leftBrace), (['\x7d'], .rightBrace),
   ([','], .comma), ([';'], .semicolon), (['-'], .minus)]

/-- These signs fit everywhere. -/
theorem fits_of_lone {p : Piece} (hgap : IsSpaces p.gap) (h : (p.lexeme, p.kind) ∈ loneSigns)
    (after : List Char) : p.Fits after := by
  have hsigns : ∀ entry ∈ loneSigns, entry ∈ signs ∧ entry.2 ≠ .slash := by decide
  have htaken : ∀ entry ∈ loneSigns,
      Munch.ofText (entry.1 ++ after) = .token entry.2 entry.1.length := by
    simp only [loneSigns, List.forall_mem_cons]
    exact ⟨rfl, rfl, rfl, rfl, rfl, rfl, rfl, List.forall_mem_nil _⟩
  obtain ⟨hsign, hslash⟩ := hsigns _ h
  exact ⟨hgap.gap, .sign hsign, longest_of_ofText (htaken _ h), fun heq => absurd heq hslash⟩

/-- A string fits everywhere. -/
theorem fits_of_string {gap body : List Char} (hgap : Gap false gap) (h : StringBody body)
    (after : List Char) : (⟨gap, .string, '\'' :: body ++ ['\'']⟩ : Piece).Fits after where
  gap := hgap
  lexeme := .string h
  longest := longest_of_ofText (ofText_of_stringBody h after)
  no_comment heq := nomatch heq

/-- The mark before an operand fits if no sign of equality follows. -/
theorem fits_of_mark {mark : Token} {op : UnaryOp} (hmark : UnaryOp.ofKind? mark.kind = some op)
    (hspelled : Spelled mark) {after : List Char} (hafter : after.head? ≠ some '=') :
    (mark.piece []).Fits after := by
  obtain ⟨kind, lexeme, start, stop⟩ := mark
  cases kind with
  | minus =>
    have hminus : Lexeme .minus lexeme.toList := hspelled
    have htext : lexeme.toList = ['-'] := hminus.eq_fixed (by decide)
    exact fits_of_lone isSpaces_nil (by simp [Token.piece, htext, loneSigns]) after
  | not =>
    have hnot : Lexeme .not lexeme.toList := hspelled
    have htext : lexeme.toList = ['!'] := hnot.eq_fixed (by decide)
    have htaken : Munch.ofText (lexeme.toList ++ after) = .token .not lexeme.toList.length := by
      rw [htext, List.singleton_append, Munch.ofText, Munch.oneOrTwo, if_neg hafter]
      rfl
    exact ⟨.nil, hspelled, longest_of_ofText htaken, fun heq => by cases heq⟩
  | _ => cases hmark

-- ============================================================================
-- Rows of pieces
-- ============================================================================

/-- Every piece fits before those that follow, except that strings may hold anything. -/
inductive Laid : List Piece → Prop where
  | nil : Laid []
  | piece {p : Piece} {rest : List Piece} (hp : p.Fits (flat rest)) (hkind : p.kind ≠ .string)
      (h : Laid rest) : Laid (p :: rest)
  | string {gap : List Char} {s : String} {rest : List Piece} (hgap : IsSpaces gap)
      (h : Laid rest) : Laid (stringPiece gap s :: rest)

theorem Laid.lone {kind : Kind} {gap lexeme : List Char} {rest : List Piece} (h : Laid rest)
    (hgap : IsSpaces gap) (hp : (lexeme, kind) ∈ loneSigns) : Laid (⟨gap, kind, lexeme⟩ :: rest) := by
  have hkinds : ∀ entry ∈ loneSigns, entry.2 ≠ .string := by decide
  exact .piece (fits_of_lone hgap hp _) (hkinds _ hp) h

theorem Laid.calm {p : Piece} {rest : List Piece} (h : Laid rest) (hgap : IsSpaces p.gap)
    (hp : Lexeme p.kind p.lexeme) (hkind : p.kind ≠ .string) (hcalm : Calm (flat rest)) :
    Laid (p :: rest) :=
  .piece (fits_of_calm hgap hp hcalm) hkind h

theorem Laid.fixed {kind : Kind} {gap lexeme : List Char} {rest : List Piece} (h : Laid rest)
    (hgap : IsSpaces gap) (hp : (lexeme, kind) ∈ signs ++ words) (hcalm : Calm (flat rest)) :
    Laid (⟨gap, kind, lexeme⟩ :: rest) := by
  have hkinds : ∀ entry ∈ signs ++ words, entry.2 ≠ .string := by decide
  obtain hsign | hword := List.mem_append.mp hp
  · exact h.calm hgap (.sign hsign) (hkinds _ hp) hcalm
  · exact h.calm hgap (.word hword) (hkinds _ hp) hcalm

theorem Laid.name {t : Token} {gap : List Char} {rest : List Piece} (h : Laid rest)
    (hgap : IsSpaces gap) (ht : IsName t) (hcalm : Calm (flat rest)) :
    Laid (t.piece gap :: rest) :=
  h.calm hgap ht.spelled (by simp [Token.piece, ht.kind]) hcalm

theorem calm_opening (rest : List Piece) : Calm (flat (opening [] :: rest)) := by
  rw [flat_cons]
  exact calm_cons (by decide) _

theorem calm_closing (rest : List Piece) : Calm (flat (closing :: rest)) := by
  rw [flat_cons]
  exact calm_cons (by decide) _

theorem calm_comma (rest : List Piece) : Calm (flat (comma :: rest)) := by
  rw [flat_cons]
  exact calm_cons (by decide) _

theorem calm_semicolon (rest : List Piece) : Calm (flat (semicolon :: rest)) := by
  rw [flat_cons]
  exact calm_cons (by decide) _

theorem calm_space {p : Piece} {gap : List Char} (h : p.gap = ' ' :: gap) (rest : List Piece) :
    Calm (flat (p :: rest)) := by
  rw [flat_cons, h]
  exact calm_cons (by decide) _

/-- Lexemes behind single spaces split where the spaces are. -/
theorem splits_of_spaces {ps : List Piece} (hgap : ∀ p ∈ ps, p.gap = [' '])
    (hlexeme : ∀ p ∈ ps, Lexeme p.kind p.lexeme) : Calm (flat ps) ∧ Splits (flat ps) ps [] := by
  induction ps with
  | nil => exact ⟨calm_nil, .last .nil⟩
  | cons p ps ih =>
    obtain ⟨hspace, hspaces⟩ := List.forall_mem_cons.mp hgap
    obtain ⟨hp, hps⟩ := List.forall_mem_cons.mp hlexeme
    obtain ⟨hcalm, hsplits⟩ := ih hspaces hps
    have hgap : IsSpaces p.gap := by
      rw [hspace]
      exact isSpaces_one
    refine ⟨calm_space hspace ps, ?_⟩
    rw [flat_cons]
    exact .piece (fits_of_calm hgap hp hcalm) hsplits

theorem calm_expr (e : Expr) (rest : List Piece) : Calm (flat (e.pieces [' '] ++ rest)) := by
  rw [flat_append, e.flat_pieces]
  exact calm_cons (by decide) _

theorem calm_stmt (s : Stmt) (rest : List Piece) : Calm (flat (s.pieces [' '] ++ rest)) := by
  rw [flat_append, s.flat_pieces]
  exact calm_cons (by decide) _

theorem calm_moreRow (es : List Expr) {rest : List Piece} (h : Calm (flat rest)) :
    Calm (flat (Expr.moreRowPieces es ++ rest)) := by
  cases es with
  | nil => exact h
  | cons e es => exact calm_comma _

-- ============================================================================
-- Constants
-- ============================================================================

theorem lexeme_numberPiece (gap : List Char) (d : Decimal) :
    Lexeme (numberPiece gap d.toFloat).kind (numberPiece gap d.toFloat).lexeme := by
  have hfree : ∀ entry ∈ words, entry.1 ≠ Number.infinityText.toList := by decide
  by_cases hfinite : d.toFloat.isFinite = true
  · simp only [numberPiece, if_pos hfinite]
    exact (Number.text_finite hfinite).1
  · simp only [numberPiece, if_neg hfinite, Number.text_infinite hfinite]
    exact .identifier (by decide) (fun kind hmem => absurd rfl (hfree _ hmem))

theorem starts_numberPiece (gap : List Char) (x : Float) :
    startsPrimary (numberPiece gap x).kind = true ∧ (numberPiece gap x).kind ≠ .string := by
  simp only [numberPiece]
  split <;> decide

theorem lexeme_booleanPiece (gap : List Char) (b : Bool) :
    Lexeme (booleanPiece gap b).kind (booleanPiece gap b).lexeme := by
  cases b with
  | true => exact .word (show (['t', 'r', 'u', 'e'], .trueWord) ∈ words by decide)
  | false => exact .word (show (['f', 'a', 'l', 's', 'e'], .falseWord) ∈ words by decide)

theorem starts_booleanPiece (gap : List Char) (b : Bool) :
    startsPrimary (booleanPiece gap b).kind = true ∧ (booleanPiece gap b).kind ≠ .string := by
  cases b with
  | true => exact ⟨rfl, fun h => nomatch h⟩
  | false => exact ⟨rfl, fun h => nomatch h⟩

theorem booleanPiece_gap (gap : List Char) (b : Bool) : (booleanPiece gap b).gap = gap := by
  cases b <;> rfl

/-- No lexeme that begins a primary expression begins with a sign of equality. -/
theorem head_ne_equals_of_lexeme {kind : Kind} {text : List Char} (h : Lexeme kind text)
    (hkind : startsPrimary kind = true) : text.head? ≠ some '=' := by
  have hsigns : ∀ entry ∈ signs, startsPrimary entry.2 = true → entry.1.head? ≠ some '=' := by
    decide
  have hword : ∀ {text : List Char}, IsWord text → text.head? ≠ some '=' := by
    rintro (_ | ⟨c, text⟩) hw
    · simp
    · rintro ⟨⟩
      exact absurd hw.1 (by decide)
  have hnumber : ∀ {text : List Char}, Lexeme .number text → text.head? ≠ some '=' := by
    intro text h
    obtain ⟨c, rest, rfl, hc⟩ := h.number_first
    rintro ⟨⟩
    exact absurd hc (by decide)
  cases h with
  | sign h => exact hsigns _ h hkind
  | word h => exact hword (isWord_of_mem_words _ h)
  | identifier hw _ => exact hword hw
  | whole h => exact hnumber (.whole h)
  | fraction hwhole hplaces => exact hnumber (.fraction hwhole hplaces)
  | string _ => simp

/-- No expression is printed with a sign of equality in front. -/
theorem head_ne_equals {e : Expr} (h : Formed e) (rest : List Piece) :
    (flat (e.pieces [] ++ rest)).head? ≠ some '=' := by
  have hfirst : ∀ {p : Piece} (more : List Piece), p.gap = [] → Lexeme p.kind p.lexeme →
      startsPrimary p.kind = true → (flat (p :: more)).head? ≠ some '=' := by
    intro p more hgap hlexeme hkind
    obtain ⟨c, tail, hcons⟩ := List.exists_cons_of_ne_nil hlexeme.ne_nil
    have hne := head_ne_equals_of_lexeme hlexeme hkind
    rw [hcons] at hne
    rw [flat_cons, hgap, hcons]
    exact hne
  have hparen : ∀ more, (flat (opening [] :: more)).head? ≠ some '=' :=
    fun more => hfirst more rfl (.sign (by decide)) rfl
  cases h with
  | number d => exact hfirst rest rfl (lexeme_numberPiece [] d) (starts_numberPiece [] _).1
  | string =>
    rw [Expr.pieces, List.singleton_append, flat_cons]
    simp [stringPiece]
  | @boolean b =>
    exact hfirst rest (booleanPiece_gap [] b) (lexeme_booleanPiece [] b) (starts_booleanPiece [] b).1
  | nil => exact hfirst rest rfl (.word (by decide)) rfl
  | identifier hname =>
    exact hfirst rest rfl hname.spelled (by simp [Token.piece, hname.kind, startsPrimary])
  | unary _ _ _ => exact hparen _
  | binary _ _ _ _ => exact hparen _
  | assign _ _ => exact hparen _
  | call _ _ _ _ _ => exact hparen _

-- ============================================================================
-- Printed trees
-- ============================================================================

mutual

/-- The pieces of an expression fit before calm text. -/
theorem laid_expr {e : Expr} (h : Formed e) ⦃gap : List Char⦄ (hgap : IsSpaces gap)
    ⦃rest : List Piece⦄ (hrest : Laid rest) (hcalm : Calm (flat rest)) :
    Laid (e.pieces gap ++ rest) := by
  cases h with
  | number d =>
    exact hrest.calm hgap (lexeme_numberPiece gap d) (starts_numberPiece gap _).2 hcalm
  | string => exact .string hgap hrest
  | @boolean b =>
    refine hrest.calm ?_ (lexeme_booleanPiece gap b) (starts_booleanPiece gap b).2 hcalm
    rw [booleanPiece_gap]
    exact hgap
  | nil => exact hrest.fixed hgap (by decide) hcalm
  | identifier hname => exact hrest.name hgap hname hcalm
  | @unary op mark operand hmark hspelled h =>
    have hclose : Laid (closing :: rest) := hrest.lone isSpaces_nil (by decide)
    have hoperand := laid_expr h isSpaces_nil hclose (calm_closing rest)
    have hkind : mark.kind ≠ .string := by
      intro heq
      rw [heq] at hmark
      exact nomatch hmark
    have hfits := fits_of_mark hmark hspelled (head_ne_equals h (closing :: rest))
    simp only [Expr.pieces, List.cons_append, List.append_assoc, List.nil_append]
    exact (Laid.piece hfits hkind hoperand).lone hgap (by decide)
  | @binary op mark l r hmark hspelled hleft hright =>
    have hclose : Laid (closing :: rest) := hrest.lone isSpaces_nil (by decide)
    have hr := laid_expr hright isSpaces_one hclose (calm_closing rest)
    have hkind : mark.kind ≠ .string := by
      intro heq
      rw [heq] at hmark
      exact nomatch hmark
    have hjoin : Laid (mark.piece [' '] :: (r.pieces [' '] ++ closing :: rest)) :=
      hr.calm isSpaces_one hspelled hkind (calm_expr r _)
    have hl := laid_expr hleft isSpaces_nil hjoin (calm_space rfl _)
    simp only [Expr.pieces, List.cons_append, List.append_assoc, List.nil_append]
    exact hl.lone hgap (by decide)
  | @assign t v hname h =>
    have hclose : Laid (closing :: rest) := hrest.lone isSpaces_nil (by decide)
    have hvalue := laid_expr h isSpaces_one hclose (calm_closing rest)
    have hequals : Laid (equals :: (v.pieces [' '] ++ closing :: rest)) :=
      hvalue.fixed isSpaces_one (by decide) (calm_expr v _)
    have htarget := hequals.name isSpaces_nil hname (calm_space rfl _)
    simp only [Expr.pieces, List.cons_append, List.append_assoc, List.nil_append]
    exact htarget.lone hgap (by decide)
  | call _ _ hcallee hargs _ =>
    have hclose : Laid (closing :: rest) := hrest.lone isSpaces_nil (by decide)
    have hclose' : Laid (closing :: closing :: rest) := hclose.lone isSpaces_nil (by decide)
    have hrow := laid_row hargs hclose' (calm_closing _)
    have hopen := hrow.lone isSpaces_nil (show (['('], .leftParen) ∈ loneSigns by decide)
    have hcall := laid_expr hcallee isSpaces_nil hopen (calm_opening _)
    simp only [Expr.pieces, List.cons_append, List.append_assoc, List.nil_append]
    exact hcall.lone hgap (by decide)

theorem laid_row {es : List Expr} (h : FormedAll es) ⦃rest : List Piece⦄
    (hrest : Laid rest) (hcalm : Calm (flat rest)) : Laid (Expr.rowPieces es ++ rest) := by
  cases h with
  | nil => exact hrest
  | @cons _ es h hmore =>
    have hlast := laid_moreRow hmore hrest hcalm
    rw [Expr.rowPieces, List.append_assoc]
    exact laid_expr h isSpaces_nil hlast (calm_moreRow es hcalm)

theorem laid_moreRow {es : List Expr} (h : FormedAll es) ⦃rest : List Piece⦄
    (hrest : Laid rest) (hcalm : Calm (flat rest)) : Laid (Expr.moreRowPieces es ++ rest) := by
  cases h with
  | nil => exact hrest
  | @cons _ es h hmore =>
    have hlast := laid_moreRow hmore hrest hcalm
    have hfirst := laid_expr h isSpaces_one hlast (calm_moreRow es hcalm)
    rw [Expr.moreRowPieces, List.cons_append, List.append_assoc]
    exact hfirst.lone isSpaces_nil (by decide)

end

theorem laid_moreNames {ts : List Token} (h : ∀ t ∈ ts, IsName t) {rest : List Piece}
    (hrest : Laid rest) (hcalm : Calm (flat rest)) :
    Laid (moreNames ts ++ rest) ∧ Calm (flat (moreNames ts ++ rest)) := by
  induction ts with
  | nil => exact ⟨hrest, hcalm⟩
  | cons t ts ih =>
    obtain ⟨hlaid, hcalm'⟩ := ih fun u hu => h u (by simp [hu])
    have hname := hlaid.name isSpaces_one (h t (by simp)) hcalm'
    exact ⟨hname.lone isSpaces_nil (by decide), calm_comma _⟩

theorem laid_names {ts : List Token} (h : ∀ t ∈ ts, IsName t) {rest : List Piece}
    (hrest : Laid rest) (hcalm : Calm (flat rest)) : Laid (names ts ++ rest) := by
  cases ts with
  | nil => exact hrest
  | cons t ts =>
    have hmore : ∀ u ∈ ts, IsName u := fun u hu => h u (by simp [hu])
    obtain ⟨hlaid, hcalm'⟩ := laid_moreNames hmore hrest hcalm
    exact hlaid.name isSpaces_nil (h t (by simp)) hcalm'

theorem calm_more (ss : List Stmt) {rest : List Piece} (h : Calm (flat rest)) :
    Calm (flat (Stmt.morePieces ss ++ rest)) := by
  cases ss with
  | nil => exact h
  | cons s ss =>
    rw [Stmt.morePieces, List.append_assoc]
    exact calm_stmt s _

mutual

/-- The pieces of a statement fit before calm text. -/
theorem laid_stmt {inside : Bool} {s : Stmt} (h : FormedStmt inside s) ⦃gap : List Char⦄
    (hgap : IsSpaces gap) ⦃rest : List Piece⦄ (hrest : Laid rest) (hcalm : Calm (flat rest)) :
    Laid (s.pieces gap ++ rest) := by
  have hstop : Laid (semicolon :: rest) := hrest.lone isSpaces_nil (by decide)
  cases h with
  | expression h =>
    rw [Stmt.pieces, List.append_assoc]
    exact laid_expr h hgap hstop (calm_semicolon rest)
  | letBare hname =>
    have hlet := hstop.name isSpaces_one hname (calm_semicolon rest)
    exact hlet.fixed hgap (by decide) (calm_space rfl _)
  | @letValue _ _ v hname h =>
    have hvalue := laid_expr h isSpaces_one hstop (calm_semicolon rest)
    have hequals : Laid (equals :: (v.pieces [' '] ++ semicolon :: rest)) :=
      hvalue.fixed isSpaces_one (by decide) (calm_expr v _)
    have hlet := hequals.name isSpaces_one hname (calm_space rfl _)
    simp only [Stmt.pieces, List.cons_append, List.append_assoc, List.nil_append]
    exact hlet.fixed hgap (by decide) (calm_space rfl _)
  | block _ _ h => exact (laid_body h hrest).lone hgap (by decide)
  | @ifThen _ _ c yes _ _ hcondition hyes =>
    have hyes := laid_stmt hyes isSpaces_one hrest hcalm
    have hclose : Laid (closing :: (yes.pieces [' '] ++ rest)) := hyes.lone isSpaces_nil (by decide)
    have hcond := laid_expr hcondition isSpaces_nil hclose (calm_closing _)
    have hopen : Laid (opening [' '] :: (c.pieces [] ++ closing :: (yes.pieces [' '] ++ rest))) :=
      hcond.lone isSpaces_one (by decide)
    simp only [Stmt.pieces, List.cons_append, List.append_assoc]
    exact hopen.fixed hgap (by decide) (calm_space rfl _)
  | @ifThenElse _ _ c yes no _ _ hcondition hyes _ hno =>
    have hno := laid_stmt hno isSpaces_one hrest hcalm
    have helse : Laid (elseWord :: (no.pieces [' '] ++ rest)) :=
      hno.fixed isSpaces_one (by decide) (calm_stmt no rest)
    have hyes := laid_stmt hyes isSpaces_one helse (calm_space rfl _)
    have hclose := hyes.lone isSpaces_nil (show ([')'], .rightParen) ∈ loneSigns by decide)
    have hcond := laid_expr hcondition isSpaces_nil hclose (calm_closing _)
    have hopen := hcond.lone isSpaces_one (show (['('], .leftParen) ∈ loneSigns by decide)
    simp only [Stmt.pieces, List.cons_append, List.append_assoc]
    exact hopen.fixed hgap (by decide) (calm_space rfl _)
  | @whileLoop _ _ c body _ _ hcondition hbody =>
    have hbody := laid_stmt hbody isSpaces_one hrest hcalm
    have hclose := hbody.lone isSpaces_nil (show ([')'], .rightParen) ∈ loneSigns by decide)
    have hcond := laid_expr hcondition isSpaces_nil hclose (calm_closing _)
    have hopen := hcond.lone isSpaces_one (show (['('], .leftParen) ∈ loneSigns by decide)
    simp only [Stmt.pieces, List.cons_append, List.append_assoc]
    exact hopen.fixed hgap (by decide) (calm_space rfl _)
  | function hname hparams _ _ hbody =>
    have hbody := laid_body hbody hrest
    have hbrace := hbody.lone isSpaces_one (show (['\x7b'], .leftBrace) ∈ loneSigns by decide)
    have hclose := hbrace.lone isSpaces_nil (show ([')'], .rightParen) ∈ loneSigns by decide)
    have hnames := laid_names hparams hclose (calm_closing _)
    have hopen := hnames.lone isSpaces_nil (show (['('], .leftParen) ∈ loneSigns by decide)
    have hfn := hopen.name isSpaces_one hname (calm_opening _)
    simp only [Stmt.pieces, List.cons_append, List.append_assoc]
    exact hfn.fixed hgap (by decide) (calm_space rfl _)
  | returnBare _ _ => exact hstop.fixed hgap (by decide) (calm_semicolon rest)
  | @returnValue _ v _ _ h =>
    have hvalue := laid_expr h isSpaces_one hstop (calm_semicolon rest)
    simp only [Stmt.pieces, List.cons_append, List.append_assoc, List.nil_append]
    exact hvalue.fixed hgap (by decide) (calm_expr v _)

theorem laid_body {inside : Bool} {ss : List Stmt} (h : FormedStmts inside ss)
    ⦃rest : List Piece⦄ (hrest : Laid rest) : Laid (Stmt.bodyPieces ss ++ rest) := by
  cases h with
  | nil => exact hrest.lone (by simp [IsSpaces]) (by decide)
  | @cons _ s ss h hmore =>
    have hbrace : Laid (rightBrace [' '] :: rest) := hrest.lone isSpaces_one (by decide)
    have hlast := laid_more hmore hbrace (calm_space rfl rest)
    simp only [Stmt.bodyPieces, List.append_assoc, List.cons_append, List.nil_append]
    exact laid_stmt h isSpaces_one hlast (calm_more ss (calm_space rfl rest))

theorem laid_more {inside : Bool} {ss : List Stmt} (h : FormedStmts inside ss)
    ⦃rest : List Piece⦄ (hrest : Laid rest) (hcalm : Calm (flat rest)) :
    Laid (Stmt.morePieces ss ++ rest) := by
  cases h with
  | nil => exact hrest
  | @cons _ s ss h hmore =>
    have hlast := laid_more hmore hrest hcalm
    rw [Stmt.morePieces, List.append_assoc]
    exact laid_stmt h isSpaces_one hlast (calm_more ss hcalm)

end

/-- The pieces of a program fit. -/
theorem laid_program {p : Program} (h : FormedStmts false p.statements) : Laid p.pieces := by
  obtain ⟨statements⟩ := p
  cases h with
  | nil => exact .nil
  | @cons _ s ss h hmore =>
    have hlast := laid_more hmore .nil calm_nil
    have hfirst := laid_stmt h isSpaces_nil hlast (calm_more ss calm_nil)
    rw [List.append_nil] at hfirst
    exact hfirst

end Lexiscope.Printing
