/-
  Lexiscope.Proofs.Lexical.Fault

  Where a scan fails.

  A fault is what stands in a source text instead of the next token: a character that
  begins nothing, a string or a block comment that is never closed, or a backslash in a
  string before a character that cannot be escaped. A scan that comes to a fault behind a
  gap gives its error and reads just the fault (`Fault.scan`), and a scan that gives an
  error has come to a fault (`fault_of_scan`). As the text of a string is its body up to
  where one ends, and the text behind a mark closes the comment or does not, nothing else
  is possible.
-/
import Lexiscope.Proofs.Lexical.Split
import Lexiscope.Proofs.Lexical.Unclosed

namespace Lexiscope.Lexical

/-- What stands at a place instead of a token, with the text behind it that is not read with it and
    the error that it is reported as. -/
inductive Fault (p : Pos) : List Char → List Char → LexError → Prop where
  | stray {c : Char} {after : List Char} (hquote : c ≠ '\'') (hsolid : Solid (c :: after))
      (hnone : ∀ kind text, Lexeme kind text → ¬ text <+: c :: after) :
      Fault p [c] after (.unexpectedCharacter p c)
  | openString {body tail : List Char} (hbody : StringBody body) (htail : tail = [] ∨ tail = ['\\']) :
      Fault p ('\'' :: body ++ tail) [] (.unterminatedString p)
  | openComment {text : List Char} (h : Unclosed text) :
      Fault p ('/' :: '*' :: text) [] (.unterminatedComment p)
  | badEscape {body after : List Char} {c : Char} (hbody : StringBody body)
      (hc : c ∉ ['n', 't', '\\', '\'']) :
      Fault p ('\'' :: body ++ ['\\', c]) after (.invalidEscape (p.after ('\'' :: body)) c)

theorem Fault.ne_nil {p : Pos} {taken after : List Char} {e : LexError} (h : Fault p taken after e) :
    taken ≠ [] := by
  cases h <;> simp

-- ============================================================================
-- A fault is reported
-- ============================================================================

theorem solid_quote (rest : List Char) : Solid ('\'' :: rest) :=
  ⟨by decide, fun h => absurd h (by decide)⟩

/-- Behind as many characters as a text has stands what follows it. -/
theorem advance_append (text after : List Char) (p : Pos) :
    Cursor.advance ⟨text ++ after, p⟩ text.length = ⟨after, p.after text⟩ := by
  rw [Cursor.advance, List.drop_left, List.take_left]

/-- Behind a gap, the lexeme is read that stands there. -/
theorem Gap.scan_solid {gap rest : List Char} (h : Gap false gap) (hrest : Solid rest) (p : Pos) :
    Token.scan ⟨gap ++ rest, p⟩ = Token.scanLexeme ⟨rest, p.after gap⟩ := by
  rw [Token.scan]
  simp only [h.pass_inner, skipGap_solid hrest]

/-- A fault behind a gap is reported, and read. -/
theorem Fault.scan {p : Pos} {gap taken after : List Char} {e : LexError} (hgap : Gap false gap)
    (h : Fault (p.after gap) taken after e) :
    Token.scan ⟨gap ++ (taken ++ after), p⟩ = (.error e, ⟨after, (p.after gap).after taken⟩) := by
  cases h with
  | @stray c _ hquote hsolid hnone =>
    rw [List.singleton_append, hgap.scan_solid hsolid, Token.scanLexeme]
    simp only [ofText_stray hquote hnone, Cursor.advance]
    rfl
  | @openString body tail hbody htail =>
    have hsolid : Solid ('\'' :: body ++ tail) := solid_quote _
    rw [List.append_nil, hgap.scan_solid hsolid, Token.scanLexeme]
    simp only [ofText_openString hbody htail, Cursor.advance, List.drop_length, List.take_length]
  | @openComment text hopen =>
    rw [List.append_nil, Token.scan]
    simp only [hgap.skip_unclosed hopen, Pos.after_append]
  | @badEscape body _ c hbody hc =>
    have hsolid : Solid ('\'' :: body ++ '\\' :: c :: after) := solid_quote _
    have hnext := advance_append ('\'' :: body ++ ['\\', c]) after (p.after gap)
    rw [List.length_append, List.append_assoc] at hnext
    rw [List.append_assoc]
    refine (hgap.scan_solid hsolid p).trans ?_
    rw [Token.scanLexeme]
    simp only [ofText_badEscape hbody hc, advance_append]
    exact congrArg _ hnext

-- ============================================================================
-- What is reported is a fault
-- ============================================================================

/-- What the lexer refuses where no gap begins is a fault. -/
theorem fault_of_scanLexeme {text : List Char} {p : Pos} {e : LexError} {next : Cursor}
    (hsolid : Solid text) (h : Token.scanLexeme ⟨text, p⟩ = (.error e, next)) :
    ∃ taken after, text = taken ++ after ∧ Fault p taken after e := by
  cases text with
  | nil => cases h
  | cons c rest =>
    rw [Token.scanLexeme] at h
    obtain ⟨kind, n, htoken⟩ | ⟨hquote, hstray⟩ | rfl := ofText_cases c rest
    · simp only [htoken] at h
      cases h
    · simp only [hstray] at h
      obtain rfl := Except.error.inj (Prod.mk.inj h).1
      exact ⟨[c], rest, rfl, .stray hquote hsolid (no_lexeme_of_stray hstray)⟩
    · obtain ⟨body, tail, rfl, hbody, hstop⟩ := exists_stringBody rest
      rw [← List.cons_append] at h ⊢
      cases hstop with
      | @quote after =>
        have htoken := ofText_of_stringBody hbody after
        rw [List.append_assoc, List.singleton_append] at htoken
        simp only [htoken] at h
        cases h
      | finish htail =>
        simp only [ofText_openString hbody htail] at h
        obtain rfl := Except.error.inj (Prod.mk.inj h).1
        exact ⟨'\'' :: body ++ tail, [], (List.append_nil _).symm, .openString hbody htail⟩
      | @badEscape c after hc =>
        simp only [ofText_badEscape hbody hc, advance_append] at h
        obtain rfl := Except.error.inj (Prod.mk.inj h).1
        exact ⟨'\'' :: body ++ ['\\', c], after, by simp, .badEscape hbody hc⟩

/-- A scan that gives an error has come to a fault behind a gap, and has read it. -/
theorem fault_of_scan {text : List Char} {p : Pos} {e : LexError} {next : Cursor}
    (h : Token.scan ⟨text, p⟩ = (.error e, next)) :
    ∃ gap taken after, text = gap ++ (taken ++ after) ∧ Gap false gap ∧
      Fault (p.after gap) taken after e ∧ next = ⟨after, (p.after gap).after taken⟩ := by
  suffices hfault : ∃ gap taken after, text = gap ++ (taken ++ after) ∧ Gap false gap ∧
      Fault (p.after gap) taken after e by
    obtain ⟨gap, taken, after, rfl, hgap, hfault⟩ := hfault
    rw [hfault.scan hgap] at h
    exact ⟨gap, taken, after, rfl, hgap, hfault, (Prod.mk.inj h).2.symm⟩
  rw [Token.scan] at h
  split at h
  · next hskip =>
    obtain ⟨gap, comment, rfl, hgap, hopen, rfl⟩ := unclosed_of_skipGap hskip
    obtain rfl := Except.error.inj (Prod.mk.inj h).1
    exact ⟨gap, '/' :: '*' :: comment, [], by rw [List.append_nil], hgap, .openComment hopen⟩
  · next cursor hskip =>
    obtain ⟨gap, rfl, hpos, hsolid, hgap⟩ := gap_of_skipGap hskip
    obtain ⟨rest, place⟩ := cursor
    obtain rfl : place = p.after gap := hpos
    obtain ⟨taken, after, hrest, hfault⟩ := fault_of_scanLexeme hsolid h
    obtain rfl : rest = taken ++ after := hrest
    have hmore : (taken ++ after).isEmpty = false := by simp [hfault.ne_nil]
    rw [hmore] at hgap
    exact ⟨gap, taken, after, rfl, hgap, hfault⟩

end Lexiscope.Lexical
