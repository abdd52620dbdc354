/-
  Lexiscope.Proofs.Lexical.Literal

  Literals and what they stand for.

  Every string has a literal (`stringLiteral`), in which the characters are escaped
  that could not stand there as they are. The escaping undoes what decoding does,
  character by character, and makes the body of a string; so the literal is one
  token, and the token stands for the string. And whatever the lexer takes for a
  string or a number has a value: it has checked the body and the digits.
-/
import Lexiscope.Proofs.Decimal.ReadBack
import Lexiscope.Proofs.Lexical.Halt
import Lexiscope.Proofs.Printing.Quote

namespace Lexiscope

namespace Lexical

-- ============================================================================
-- Writing a string as a literal
-- ============================================================================

/-- The character as it is written between quotes. -/
def escaped : Char → List Char
  | '\\' => ['\\', '\\']
  | '\'' => ['\\', '\'']
  | '\n' => ['\\', 'n']
  | '\t' => ['\\', 't']
  | c => [c]

/-- The literal for a string. -/
def stringLiteral (v : String) : String :=
  String.ofList ('\'' :: v.toList.flatMap escaped ++ ['\''])

/-- A character is written as it is, or as a backslash and a character that stands for it. -/
theorem escaped_cases (c : Char) :
    (c ≠ '\'' ∧ c ≠ '\\' ∧ escaped c = [c]) ∨
      ∃ d ∈ ['n', 't', '\\', '\''], escaped c = ['\\', d] ∧
        ∀ rest, Token.unescape ('\\' :: d :: rest) = c :: Token.unescape rest := by
  by_cases hslash : c = '\\'
  · subst hslash
    exact .inr ⟨'\\', by simp, rfl, fun _ => rfl⟩
  by_cases hquote : c = '\''
  · subst hquote
    exact .inr ⟨'\'', by simp, rfl, fun _ => rfl⟩
  by_cases hnewline : c = '\n'
  · subst hnewline
    exact .inr ⟨'n', by simp, rfl, fun _ => rfl⟩
  by_cases htab : c = '\t'
  · subst htab
    exact .inr ⟨'t', by simp, rfl, fun _ => rfl⟩
  · refine .inl ⟨hquote, hslash, ?_⟩
    rw [escaped]
    · exact hslash
    · exact hquote
    · exact hnewline
    · exact htab

/-- What is written for a text can stand between quotes. -/
theorem stringBody_escaped (text : List Char) : StringBody (text.flatMap escaped) := by
  induction text with
  | nil => exact .nil
  | cons c rest ih =>
    rw [List.flatMap_cons]
    obtain ⟨hquote, hslash, hc⟩ | ⟨d, hd, hc, -⟩ := escaped_cases c
    · rw [hc]
      exact .plain hquote hslash ih
    · rw [hc]
      exact .escape hd ih

/-- What is written for a text is decoded to the text. -/
theorem unescape_escaped (text : List Char) : Token.unescape (text.flatMap escaped) = text := by
  induction text with
  | nil => rfl
  | cons c rest ih =>
    rw [List.flatMap_cons]
    obtain ⟨-, hslash, hc⟩ | ⟨d, -, hc, hdecoded⟩ := escaped_cases c
    · rw [hc, List.singleton_append, Printing.unescape_cons hslash, ih]
    · rw [hc, List.cons_append, List.singleton_append, hdecoded, ih]

-- ============================================================================
-- What literals stand for
-- ============================================================================

/-- The source text is one string token, which stands for this string. -/
def IsLiteralOf (source v : String) : Prop :=
  ∃ t eof, Token.tokenize source = .ok [t, eof] ∧ t.kind = .string ∧ t.lexeme = source ∧
    eof.kind = .eof ∧ t.stringValue? = some v

/-- A token whose lexeme is a string stands for what the body is decoded to. -/
theorem stringValue?_of_stringBody {t : Token} {body : List Char} (hkind : t.kind = .string)
    (hlexeme : t.lexeme.toList = '\'' :: body ++ ['\'']) :
    t.stringValue? = some (String.ofList (Token.unescape body)) := by
  have hinner : Token.unquote? ('\'' :: body ++ ['\'']) = some body := by
    rw [List.cons_append, Token.unquote?, if_pos List.getLast?_concat, List.dropLast_concat]
  rw [Token.stringValue?, if_pos hkind, hlexeme, hinner, Option.map_some]

/-- The body of a string between quotes is a source text with one token. -/
theorem tokenize_stringBody {body : List Char} (h : StringBody body) :
    ∃ t eof, Token.tokenize (String.ofList ('\'' :: body ++ ['\''])) = .ok [t, eof] ∧
      t.kind = .string ∧ t.lexeme = String.ofList ('\'' :: body ++ ['\'']) ∧ eof.kind = .eof := by
  let p : Piece := ⟨[], .string, '\'' :: body ++ ['\'']⟩
  have hp : p.Fits [] :=
    ⟨.nil, .string h, longest_of_ofText (ofText_of_stringBody h []), fun hslash => nomatch hslash⟩
  have hsplits : Splits ('\'' :: body ++ ['\'']) [p] [] := by
    have hpiece := Splits.piece hp (.last .nil)
    rwa [List.append_nil] at hpiece
  exact ⟨_, _, tokenize_of_splits hsplits, rfl, rfl, rfl⟩

/-- The literal for a string stands for it. -/
theorem isLiteralOf_stringLiteral (v : String) : IsLiteralOf (stringLiteral v) v := by
  obtain ⟨t, eof, htokens, hkind, hlexeme, heof⟩ :=
    tokenize_stringBody (stringBody_escaped v.toList)
  refine ⟨t, eof, htokens, hkind, hlexeme, heof, ?_⟩
  rw [stringValue?_of_stringBody hkind (by rw [hlexeme, String.toList_ofList]), unescape_escaped,
    String.ofList_toList]

-- ============================================================================
-- What the lexer takes for a literal
-- ============================================================================

/-- Digits, perhaps with a point between them. -/
def IsNumeral (text : List Char) : Prop :=
  IsDigits text ∨ ∃ whole places, IsDigits whole ∧ IsDigits places ∧ text = whole ++ '.' :: places

theorem Lexeme.isNumeral {text : List Char} (h : Lexeme .number text) : IsNumeral text := by
  have hsigns : ∀ entry ∈ signs, entry.2 ≠ .number := by decide
  have hwords : ∀ entry ∈ words, entry.2 ≠ .number := by decide
  cases h with
  | sign h => exact absurd rfl (hsigns _ h)
  | word h => exact absurd rfl (hwords _ h)
  | whole h => exact .inl h
  | fraction hwhole hplaces => exact .inr ⟨_, _, hwhole, hplaces, rfl⟩

theorem Lexeme.stringBody {text : List Char} (h : Lexeme .string text) :
    ∃ body, text = '\'' :: body ++ ['\''] ∧ StringBody body := by
  have hsigns : ∀ entry ∈ signs, entry.2 ≠ .string := by decide
  have hwords : ∀ entry ∈ words, entry.2 ≠ .string := by decide
  cases h with
  | sign h => exact absurd rfl (hsigns _ h)
  | word h => exact absurd rfl (hwords _ h)
  | @string body h => exact ⟨body, rfl, h⟩

/-- Every numeral is read as a number. -/
theorem IsNumeral.exists_value {text : List Char} (h : IsNumeral text) :
    ∃ x, Number.ofText? (String.ofList text) = some x := by
  obtain hwhole | ⟨whole, places, hwhole, hplaces, rfl⟩ := h
  · rw [Number.ofText?_of_lexeme (.whole hwhole), Decimal.ofText?_whole hwhole]
    exact ⟨_, rfl⟩
  · rw [Number.ofText?_of_lexeme (.fraction hwhole hplaces),
      Decimal.ofText?_fraction hwhole hplaces]
    exact ⟨_, rfl⟩

/-- The token is spelled as its kind is, or is the end marker. -/
theorem spelled_of_scan {c next : Cursor} {t : Token} (h : Token.scan c = (.ok t, next)) :
    t.kind = .eof ∨ Lexeme t.kind t.lexeme.toList := by
  obtain ⟨-, rfl⟩ | ⟨p, after, -, hp, rfl, -⟩ := scan_cases h
  · exact .inl rfl
  · refine .inr ?_
    rw [Piece.token, String.toList_ofList]
    exact hp.lexeme

end Lexical

end Lexiscope
