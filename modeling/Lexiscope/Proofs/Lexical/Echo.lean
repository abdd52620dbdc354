/-
  Lexiscope.Proofs.Lexical.Echo

  The echo of a string, and what the lexer makes of it.

  The echo style writes a character in one of three ways (`Echoed`): as it is, as a
  backslash with one character, or as a code point in braces. No two characters are
  written alike, and what is written for one does not begin what is written for another
  (`Echoed.unique`), so the string can be told from its echo. The lexer knows four of
  the escapes only. Where these are enough, the echo is the literal for the string;
  the first character that needs another escape is where the lexer halts.
-/
import Lexiscope.Proofs.Lexical.Literal
import Lexiscope.Value

namespace Lexiscope

theorem Pos.after_of_notMem {text : List Char} (h : '\n' ∉ text) (p : Pos) :
    p.after text = ⟨p.line, p.column + text.length⟩ := by
  induction text generalizing p with
  | nil => rfl
  | cons c text ih =>
    rw [List.mem_cons, not_or] at h
    have hstep : p.step c = ⟨p.line, p.column + 1⟩ := if_neg (Ne.symm h.1)
    rw [Pos.after_cons, ih h.2, hstep, List.length_cons, Nat.add_assoc, Nat.add_comm 1]

namespace Text

-- ============================================================================
-- Hexadecimal digits
-- ============================================================================

theorem exists_digit_of_mem {n : Nat} {c : Char} (h : c ∈ Nat.toDigits 16 n) :
    ∃ d : Fin 16, c = Nat.digitChar d := by
  induction n using Nat.strongRecOn with
  | ind n ih =>
    rw [Nat.toDigits_eq_if (by decide)] at h
    split at h
    · next hlt => exact ⟨⟨n, hlt⟩, List.mem_singleton.mp h⟩
    · next hle =>
      rw [List.mem_append, List.mem_singleton] at h
      obtain hhigh | hlow := h
      · exact ih (n / 16) (Nat.div_lt_self (by omega) (by decide)) hhigh
      · exact ⟨⟨n % 16, Nat.mod_lt n (by decide)⟩, hlow⟩

theorem brace_not_mem_toDigits (n : Nat) : '\x7d' ∉ Nat.toDigits 16 n := by
  intro hmem
  have hdigit : ∀ d : Fin 16, '\x7d' ≠ Nat.digitChar d := by decide
  obtain ⟨d, hd⟩ := exists_digit_of_mem hmem
  exact hdigit d hd

theorem digitChar_injective : ∀ a b : Fin 16, Nat.digitChar a = Nat.digitChar b → a = b := by
  decide

/-- The digits of a number tell which one it is. -/
theorem toDigits_injective {m n : Nat} (h : Nat.toDigits 16 m = Nat.toDigits 16 n) : m = n := by
  have hlast : ∀ k, Nat.toDigits 16 k =
      (if k < 16 then [] else Nat.toDigits 16 (k / 16)) ++ [Nat.digitChar (k % 16)] := by
    intro k
    rw [Nat.toDigits_eq_if (by decide)]
    split
    · next hlt => rw [Nat.mod_eq_of_lt hlt, List.nil_append]
    · rfl
  induction m using Nat.strongRecOn generalizing n with
  | ind m ih =>
    rw [hlast m, hlast n] at h
    obtain ⟨hhigh, hlow⟩ := List.append_inj' h rfl
    have hmod : m % 16 = n % 16 :=
      congrArg Fin.val (digitChar_injective ⟨m % 16, Nat.mod_lt m (by decide)⟩
        ⟨n % 16, Nat.mod_lt n (by decide)⟩ (List.cons.inj hlow).1)
    split at hhigh
    · split at hhigh
      · omega
      · exact absurd hhigh.symm Nat.toDigits_ne_nil
    · split at hhigh
      · exact absurd hhigh Nat.toDigits_ne_nil
      · have hdiv := ih (m / 16) (Nat.div_lt_self (by omega) (by decide)) hhigh
        omega

-- ============================================================================
-- One character
-- ============================================================================

/-- The characters that have an escape of one character, and this character. -/
def shortEscapes : List (Char × Char) :=
  [('\t', 't'), ('\r', 'r'), ('\n', 'n'), ('\'', '\''), ('"', '"'), ('\\', '\\')]

/-- How a character is written in echo style. -/
inductive Echoed : Char → List Char → Prop where
  | plain {c : Char} (hprintable : isPrintable c = true) (hc : c ∉ ['\'', '"', '\\']) : Echoed c [c]
  | short {c d : Char} (h : (c, d) ∈ shortEscapes) : Echoed c ['\\', d]
  | long {c : Char} (hprintable : isPrintable c = false) (hc : c ∉ ['\t', '\n']) :
      Echoed c (codePoint c)

theorem echoed_escapeChar (c : Char) : Echoed c (escapeChar c) := by
  rw [escapeChar]
  split_ifs with htab hreturn hnewline hmark hprintable
  · exact .short (by simp [htab, shortEscapes])
  · exact .short (by simp [hreturn, shortEscapes])
  · exact .short (by simp [hnewline, shortEscapes])
  · refine .short ?_
    obtain rfl | rfl | rfl := hmark <;> decide
  · exact .plain hprintable (by simpa using hmark)
  · exact .long (by simpa using hprintable) (by simp [htab, hnewline])

theorem Echoed.ne_nil {c : Char} {written : List Char} (h : Echoed c written) : written ≠ [] := by
  cases h <;> exact List.cons_ne_nil _ _

theorem Echoed.printable {c : Char} {written : List Char} (h : Echoed c written) :
    ∀ x ∈ written, isPrintable x = true := by
  cases h with
  | plain hprintable _ => simpa using hprintable
  | short h =>
    have hshort : ∀ entry ∈ shortEscapes, isPrintable entry.2 = true := by decide
    simpa using ⟨by decide, hshort _ h⟩
  | long =>
    have hdigit : ∀ d : Fin 16, isPrintable (Nat.digitChar d) = true := by decide
    intro x hx
    simp only [codePoint, List.mem_cons, List.mem_append, List.not_mem_nil, or_false] at hx
    obtain rfl | rfl | rfl | hx | rfl := hx
    · decide
    · decide
    · decide
    · obtain ⟨d, rfl⟩ := exists_digit_of_mem hx
      exact hdigit d
    · decide

/-- A code point in braces ends with the first closing brace. -/
theorem codePoint_unique {c d : Char} {after after' : List Char}
    (h : codePoint c ++ after = codePoint d ++ after') : c = d ∧ after = after' := by
  simp only [codePoint, List.cons_append, List.append_assoc, List.nil_append, List.cons.injEq,
    true_and] at h
  have hpre := Lexical.prefix_before (brace_not_mem_toDigits c.toNat) ⟨_, h⟩
  have hpre' := Lexical.prefix_before (brace_not_mem_toDigits d.toNat) ⟨_, h.symm⟩
  have hdigits := hpre.eq_of_length_le hpre'.length_le
  rw [hdigits] at h
  exact ⟨Char.toNat_inj.mp (toDigits_injective hdigits),
    (List.cons.inj (List.append_cancel_left h)).2⟩

/-- What is written for a character tells which one it is, and where it ends. -/
theorem Echoed.unique {c d : Char} {written written' after after' : List Char}
    (h : Echoed c written) (h' : Echoed d written') (heq : written ++ after = written' ++ after') :
    c = d ∧ after = after' := by
  have hu : ∀ entry ∈ shortEscapes, entry.2 ≠ 'u' := by decide
  cases h with
  | plain _ hc =>
    cases h' with
    | plain => exact List.cons.inj heq
    | short => exact absurd (List.cons.inj heq).1 (by rintro rfl; simp at hc)
    | long => exact absurd (List.cons.inj heq).1 (by rintro rfl; simp at hc)
  | short h =>
    cases h' with
    | plain _ hc => exact absurd (List.cons.inj heq).1 (by rintro rfl; simp at hc)
    | short h' =>
      have hshort : ∀ entry ∈ shortEscapes, ∀ entry' ∈ shortEscapes,
          entry.2 = entry'.2 → entry.1 = entry'.1 := by decide
      obtain ⟨hsame, hafter⟩ := List.cons.inj (List.cons.inj heq).2
      exact ⟨hshort _ h _ h' hsame, hafter⟩
    | long => exact absurd (List.cons.inj (List.cons.inj heq).2).1 (hu _ h)
  | long =>
    cases h' with
    | plain _ hc => exact absurd (List.cons.inj heq).1 (by rintro rfl; simp at hc)
    | short h' => exact absurd (List.cons.inj (List.cons.inj heq).2).1 (Ne.symm (hu _ h'))
    | long => exact codePoint_unique heq

-- ============================================================================
-- A whole string
-- ============================================================================

theorem printable_of_mem_flatMap {text : List Char} {x : Char} (h : x ∈ text.flatMap escapeChar) :
    isPrintable x = true := by
  obtain ⟨c, -, hx⟩ := List.mem_flatMap.mp h
  exact (echoed_escapeChar c).printable x hx

theorem flatMap_escapeChar_injective {text text' : List Char}
    (h : text.flatMap escapeChar = text'.flatMap escapeChar) : text = text' := by
  have hne : ∀ c rest, escapeChar c ++ rest ≠ [] := fun c _ =>
    List.append_ne_nil_of_left_ne_nil (echoed_escapeChar c).ne_nil _
  induction text generalizing text' with
  | nil =>
    cases text' with
    | nil => rfl
    | cons d text' => exact absurd h.symm (hne d _)
  | cons c text ih =>
    cases text' with
    | nil => exact absurd h (hne c _)
    | cons d text' =>
      rw [List.flatMap_cons, List.flatMap_cons] at h
      obtain ⟨rfl, hrest⟩ := (echoed_escapeChar c).unique (echoed_escapeChar d) h
      rw [ih hrest]

/-- The echo of a string is printable. -/
theorem printable_echo (s : String) : ∀ x ∈ (echo s).toList, isPrintable x = true := by
  intro x hx
  rw [echo, String.toList_ofList, List.mem_cons, List.mem_append, List.mem_singleton] at hx
  obtain rfl | hx | rfl := hx
  · decide
  · exact printable_of_mem_flatMap hx
  · decide

/-- Different strings have different echoes. -/
theorem echo_injective {s s' : String} (h : echo s = echo s') : s = s' := by
  have hlist := congrArg String.toList h
  rw [echo, echo, String.toList_ofList, String.toList_ofList] at hlist
  have hbody := (List.append_inj' (List.cons.inj hlist).2 rfl).1
  exact String.toList_inj.mp (flatMap_escapeChar_injective hbody)

end Text

namespace Lexical

-- ============================================================================
-- Reading the echo
-- ============================================================================

/-- Does the lexer know how the character is written in echo style? -/
def Readable (c : Char) : Prop :=
  c = '\t' ∨ c = '\n' ∨ (Text.isPrintable c = true ∧ c ≠ '"')

instance (c : Char) : Decidable (Readable c) :=
  inferInstanceAs (Decidable (_ ∨ _ ∨ _))

/-- A readable character is written in echo style as in a literal. -/
theorem eq_escaped_of_echoed {c : Char} {written : List Char} (h : Text.Echoed c written)
    (hc : Readable c) : written = escaped c := by
  have hshort : ∀ entry ∈ Text.shortEscapes,
      Readable entry.1 → ['\\', entry.2] = escaped entry.1 := by decide
  cases h with
  | plain hprintable hmark =>
    rw [escaped]
    · rintro rfl
      simp at hmark
    · rintro rfl
      simp at hmark
    · rintro rfl
      exact absurd hprintable (by decide)
    · rintro rfl
      exact absurd hprintable (by decide)
  | short h => exact hshort _ h hc
  | long hprintable hcontrol =>
    obtain rfl | rfl | ⟨hprintable', -⟩ := hc
    · simp at hcontrol
    · simp at hcontrol
    · rw [hprintable] at hprintable'
      cases hprintable'

/-- Any other character is written with an escape that the lexer does not know. -/
theorem exists_foreign_of_echoed {c : Char} {written : List Char} (h : Text.Echoed c written)
    (hc : ¬ Readable c) :
    ∃ d more, written = '\\' :: d :: more ∧ d ∉ ['n', 't', '\\', '\''] := by
  have hshort : ∀ entry ∈ Text.shortEscapes,
      ¬ Readable entry.1 → entry.2 ∉ ['n', 't', '\\', '\''] := by decide
  cases h with
  | plain hprintable hmark =>
    have hquote : c ≠ '"' := by
      rintro rfl
      simp at hmark
    exact absurd (.inr (.inr ⟨hprintable, hquote⟩)) hc
  | short h => exact ⟨_, [], rfl, hshort _ h hc⟩
  | long => exact ⟨'u', _, rfl, by decide⟩

theorem flatMap_escapeChar {text : List Char} (h : ∀ c ∈ text, Readable c) :
    text.flatMap Text.escapeChar = text.flatMap escaped :=
  List.flatMap_congr fun c hc => eq_escaped_of_echoed (Text.echoed_escapeChar c) (h c hc)

/-- If all characters are readable, the echo is the literal for the string. -/
theorem echo_eq_stringLiteral {s : String} (h : ∀ c ∈ s.toList, Readable c) :
    Text.echo s = stringLiteral s := by
  rw [Text.echo, stringLiteral, flatMap_escapeChar h, List.cons_append]

theorem exists_first_not_readable {text : List Char} (h : ¬ ∀ c ∈ text, Readable c) :
    ∃ before c after, text = before ++ c :: after ∧ (∀ b ∈ before, Readable b) ∧ ¬ Readable c := by
  have hsome : (text.find? fun c => !decide (Readable c)).isSome = true := by
    rw [List.find?_isSome]
    simpa using h
  obtain ⟨c, hfind⟩ := Option.isSome_iff_exists.mp hsome
  obtain ⟨hc, before, after, htext, hbefore⟩ := List.find?_eq_some_iff_append.mp hfind
  exact ⟨before, c, after, htext, by simpa using hbefore, by simpa using hc⟩

/-- Otherwise the lexer halts at the backslash that is written for the first of the others. -/
theorem tokenize_echo_of_not_readable {s : String} {before after : List Char} {c : Char}
    (hs : s.toList = before ++ c :: after) (hbefore : ∀ b ∈ before, Readable b)
    (hc : ¬ Readable c) :
    ∃ d more, Text.escapeChar c = '\\' :: d :: more ∧
      Token.tokenize (Text.echo s) = .error (.invalidEscape
        ⟨1, 2 + (before.flatMap Text.escapeChar).length⟩ d) := by
  obtain ⟨d, more, hwritten, hd⟩ := exists_foreign_of_echoed (Text.echoed_escapeChar c) hc
  refine ⟨d, more, hwritten, tokenize_eq_error_iff.mpr ?_⟩
  have hbody : StringBody (before.flatMap Text.escapeChar) := by
    rw [flatMap_escapeChar hbefore]
    exact stringBody_escaped before
  have hline : '\n' ∉ '\'' :: before.flatMap Text.escapeChar := by
    rw [List.mem_cons, not_or]
    exact ⟨by decide, fun h => absurd (Text.printable_of_mem_flatMap h) (by decide)⟩
  have hecho : (Text.echo s).toList =
      [] ++ (('\'' :: before.flatMap Text.escapeChar ++ ['\\', d]) ++
        (more ++ (after.flatMap Text.escapeChar ++ ['\'']))) := by
    simp [Text.echo, hs, hwritten]
  have hplace : (Pos.first.after []).after ('\'' :: before.flatMap Text.escapeChar) =
      ⟨1, 2 + (before.flatMap Text.escapeChar).length⟩ := by
    rw [Pos.after_nil, Pos.after_of_notMem hline, List.length_cons, Nat.add_comm _ 1,
      ← Nat.add_assoc]
    rfl
  rw [hecho, ← hplace]
  exact .fault .nil (.badEscape hbody hd)

-- ============================================================================
-- The echo of every string
-- ============================================================================

/-- An echo is printable, and tells which string it is of. The lexer reads it as a literal for this
    string exactly if all characters are readable; otherwise it refuses it at the first that is not,
    for which the echo has an escape that the lexer does not know. -/
theorem echo_read_back (s : String) :
    (∀ x ∈ (Value.string s).echo.toList, Text.isPrintable x = true) ∧
    (∀ s', (Value.string s').echo = (Value.string s).echo → s' = s) ∧
    (IsLiteralOf (Value.string s).echo s ↔ ∀ c ∈ s.toList, Readable c) ∧
    (¬ (∀ c ∈ s.toList, Readable c) →
      ∃ before c after d more, s.toList = before ++ c :: after ∧ (∀ b ∈ before, Readable b) ∧
        ¬ Readable c ∧ Text.escapeChar c = '\\' :: d :: more ∧
        Token.tokenize (Value.string s).echo = .error (.invalidEscape
          ⟨1, 2 + (before.flatMap Text.escapeChar).length⟩ d)) := by
  have hecho : (Value.string s).echo = Text.echo s := rfl
  rw [hecho]
  refine ⟨Text.printable_echo s, fun s' h => Text.echo_injective h, ⟨?_, ?_⟩, ?_⟩
  · rintro ⟨t, eof, htokens, -⟩
    by_contra hall
    obtain ⟨before, c, after, hs, hbefore, hc⟩ := exists_first_not_readable hall
    obtain ⟨d, more, -, herror⟩ := tokenize_echo_of_not_readable hs hbefore hc
    rw [herror] at htokens
    cases htokens
  · intro hall
    rw [echo_eq_stringLiteral hall]
    exact isLiteralOf_stringLiteral s
  · intro hall
    obtain ⟨before, c, after, hs, hbefore, hc⟩ := exists_first_not_readable hall
    obtain ⟨d, more, hwritten, herror⟩ := tokenize_echo_of_not_readable hs hbefore hc
    exact ⟨before, c, after, d, more, hs, hbefore, hc, hwritten, herror⟩

/-- A newline and an apostrophe are read back, a quotation mark is not. -/
theorem echo_read_back_quotation :
    IsLiteralOf (Value.string "\n'").echo "\n'" ∧
      Token.tokenize (Value.string "\"").echo = .error (.invalidEscape ⟨1, 2⟩ '"') := by
  obtain ⟨-, -, hread, -⟩ := echo_read_back "\n'"
  obtain ⟨-, -, -, hfails⟩ := echo_read_back "\""
  have hreadable : ∀ c ∈ ['\n', '\''], Readable c := by simp [Readable, Text.isPrintable]
  have hforeign : ¬ ∀ c ∈ ['"'], Readable c := by simp [Readable]
  refine ⟨hread.mpr hreadable, ?_⟩
  obtain ⟨before, c, after, d, more, hs, -, -, hwritten, herror⟩ := hfails hforeign
  obtain ⟨rfl, rfl, rfl⟩ : before = [] ∧ c = '"' ∧ after = [] := by
    simpa [List.cons_eq_append_iff] using hs
  obtain ⟨rfl, rfl⟩ : '"' = d ∧ [] = more := by
    simpa [Text.escapeChar] using hwritten
  exact herror

end Lexical

end Lexiscope
