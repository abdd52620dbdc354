/-
  Lexiscope.Proofs.Lexical.Munch

  The longest lexeme at the beginning of a text.

  Two lemmas say all there is to know. What `Munch.ofText` takes is a lexeme of
  the kind it gives (`lexeme_of_ofText`); and where a lexeme stands at the
  beginning of a text, `Munch.ofText` takes at least that much, and gives its
  kind if it takes no more (`takes_of_lexeme`). Both look at the class of the
  lexeme once. That no longer lexeme stands there follows, and so does that the
  longest lexeme there is the one taken. What is refused is one character, or
  begins with a quote (`ofText_cases`) and goes on as the body of a string up to
  where that ends (`exists_stringBody`).
-/
import Lexiscope.Proofs.Lexical.Basic
import Mathlib

namespace Lexiscope.Lexical

-- ============================================================================
-- The first character
-- ============================================================================

/-- The characters with which lexemes begin that are neither numbers nor words. -/
def leaders : List Char :=
  ['(', ')', '\x7b', '\x7d', ',', ';', '=', '!', '>', '<', '&', '|', '+', '-', '*', '/', '\'']

theorem leaders_no_digit : ∀ c ∈ leaders, isDigit c = false := by
  have hnone : leaders.any isDigit = false := by decide
  simpa using hnone

theorem leaders_no_letter : ∀ c ∈ leaders, isLetter c = false := by
  have hnone : leaders.any isLetter = false := by decide
  simpa using hnone

theorem ofText_of_not_leader {c : Char} (h : c ∉ leaders) (rest : List Char) :
    Munch.ofText (c :: rest) =
      if isDigit c then .token .number (Munch.numberLength (c :: rest))
      else if isLetter c then Munch.word (c :: rest)
      else .stray c := by
  rw [Munch.ofText] <;> exact fun hc => h (by rw [hc]; decide)

theorem ofText_of_isDigit {c : Char} (h : isDigit c = true) (rest : List Char) :
    Munch.ofText (c :: rest) = .token .number (Munch.numberLength (c :: rest)) := by
  have hc : c ∉ leaders := fun hc => by simp [leaders_no_digit c hc] at h
  rw [ofText_of_not_leader hc, if_pos h]

theorem isDigit_iff {c : Char} : isDigit c = true ↔ 48 ≤ c.toNat ∧ c.toNat ≤ 57 := by
  simp only [isDigit, Char.isDigit, Bool.and_eq_true, decide_eq_true_eq, ge_iff_le,
    UInt32.le_iff_toNat_le]
  exact Iff.rfl

theorem isLetter_iff {c : Char} : isLetter c = true ↔
    ((65 ≤ c.toNat ∧ c.toNat ≤ 90) ∨ (97 ≤ c.toNat ∧ c.toNat ≤ 122)) ∨ c = '_' := by
  simp only [isLetter, Char.isAlpha, Char.isUpper, Char.isLower, Bool.or_eq_true,
    Bool.and_eq_true, decide_eq_true_eq, ge_iff_le, UInt32.le_iff_toNat_le, beq_iff_eq]
  exact Iff.rfl

theorem isDigit_eq_false_of_isLetter {c : Char} (h : isLetter c = true) : isDigit c = false := by
  rw [Bool.eq_false_iff, Ne, isDigit_iff]
  obtain (h | h) | rfl := isLetter_iff.mp h
  · omega
  · omega
  · decide

theorem ofText_of_isLetter {c : Char} (h : isLetter c = true) (rest : List Char) :
    Munch.ofText (c :: rest) = Munch.word (c :: rest) := by
  have hc : c ∉ leaders := fun hc => by simp [leaders_no_letter c hc] at h
  rw [ofText_of_not_leader hc, if_neg (by simp [isDigit_eq_false_of_isLetter h]), if_pos h]

-- ============================================================================
-- Words
-- ============================================================================

theorem isWordChar_of_isLetter {c : Char} (h : isLetter c = true) : isWordChar c = true := by
  rw [isWordChar, h, Bool.true_or]

theorem IsWord.all {text : List Char} (h : IsWord text) : ∀ c ∈ text, isWordChar c = true := by
  cases text with
  | nil => exact h.elim
  | cons c rest =>
    intro d hd
    obtain rfl | hd := List.mem_cons.mp hd
    · exact isWordChar_of_isLetter h.1
    · exact h.2 d hd

theorem isWord_of_mem_words : ∀ entry ∈ words, IsWord entry.1 := by decide

/-- The reserved words are those that the lexer looks up. -/
theorem keyword?_eq_some_iff {text : List Char} {kind : Kind} :
    Kind.keyword? (String.ofList text) = some kind ↔ (text, kind) ∈ words := by
  constructor
  · intro h
    have hall : ∀ entry ∈ Kind.keywords, (entry.1.toList, entry.2) ∈ words := by decide
    obtain ⟨front, back, hsplit, -⟩ := List.lookup_eq_some_iff.mp h
    have hmem : (String.ofList text, kind) ∈ Kind.keywords := by
      rw [hsplit]
      simp
    simpa using hall _ hmem
  · intro h
    have hall : ∀ entry ∈ words, Kind.keyword? (String.ofList entry.1) = some entry.2 := by decide
    exact hall _ h

theorem ofWord_of_mem {text : List Char} {kind : Kind} (h : (text, kind) ∈ words) :
    Kind.ofWord (String.ofList text) = kind := by
  rw [Kind.ofWord, keyword?_eq_some_iff.mpr h, Option.getD_some]

theorem ofWord_of_free {text : List Char} (h : ∀ kind, (text, kind) ∉ words) :
    Kind.ofWord (String.ofList text) = .identifier := by
  have hnone : Kind.keyword? (String.ofList text) = none := by
    rw [Option.eq_none_iff_forall_ne_some]
    exact fun kind hkind => h kind (keyword?_eq_some_iff.mp hkind)
  rw [Kind.ofWord, hnone, Option.getD_none]

/-- A word is a lexeme of the kind that the lexer gives it. -/
theorem IsWord.lexeme {text : List Char} (h : IsWord text) :
    Lexeme (Kind.ofWord (String.ofList text)) text := by
  cases hkind : Kind.keyword? (String.ofList text) with
  | some kind =>
    have hmem := keyword?_eq_some_iff.mp hkind
    rw [ofWord_of_mem hmem]
    exact .word hmem
  | none =>
    have hfree : ∀ kind, (text, kind) ∉ words := by
      intro kind hmem
      rw [keyword?_eq_some_iff.mpr hmem] at hkind
      exact nomatch hkind
    rw [ofWord_of_free hfree]
    exact .identifier h hfree

/-- Behind a word, the lexer takes all word characters. -/
theorem ofText_of_isWord {text : List Char} (h : IsWord text) (after : List Char) :
    Munch.ofText (text ++ after) =
      .token (Kind.ofWord (String.ofList (text ++ after.takeWhile isWordChar)))
        (text.length + (after.takeWhile isWordChar).length) := by
  cases text with
  | nil => exact h.elim
  | cons c rest =>
    rw [List.cons_append, ofText_of_isLetter h.1, Munch.word, ← List.cons_append,
      List.takeWhile_append_of_pos h.all, List.length_append]

-- ============================================================================
-- Numbers
-- ============================================================================

theorem IsDigits.first {text : List Char} (h : IsDigits text) (after : List Char) :
    ∃ c rest, text ++ after = c :: rest ∧ isDigit c = true := by
  cases text with
  | nil => exact absurd rfl h.1
  | cons c rest => exact ⟨c, rest ++ after, rfl, h.2 c (by simp)⟩

theorem takeWhile_isDigit_le_numberLength (text : List Char) :
    (text.takeWhile isDigit).length ≤ Munch.numberLength text := by
  unfold Munch.numberLength
  split
  · simp only
    split <;> omega
  · exact Nat.le_refl _

/-- Behind digits and a point, the lexer takes all digits. -/
theorem numberLength_fraction {whole places : List Char} (hwhole : IsDigits whole)
    (hplaces : IsDigits places) (after : List Char) :
    (whole ++ '.' :: places).length ≤ Munch.numberLength (whole ++ '.' :: places ++ after) := by
  have hpoint : isDigit '.' = false := by decide
  have htake : (whole ++ '.' :: (places ++ after)).takeWhile isDigit = whole := by
    rw [List.takeWhile_append_of_pos hwhole.2, List.takeWhile_cons_of_neg (by simp [hpoint]),
      List.append_nil]
  have hdrop : (whole ++ '.' :: (places ++ after)).dropWhile isDigit = '.' :: (places ++ after) := by
    rw [List.dropWhile_append_of_pos hwhole.2, List.dropWhile_cons_of_neg (by simp [hpoint])]
  have hlen : places.length ≤ ((places ++ after).takeWhile isDigit).length := by
    rw [List.takeWhile_append_of_pos hplaces.2, List.length_append]
    exact Nat.le_add_right _ _
  have hpos : 0 < places.length := List.length_pos_iff.mpr hplaces.1
  rw [List.append_assoc, List.cons_append, Munch.numberLength, htake, hdrop]
  simp only
  rw [if_neg (by omega), List.length_append, List.length_cons]
  omega

theorem isDigits_takeWhile {text : List Char} (h : text.takeWhile isDigit ≠ []) :
    IsDigits (text.takeWhile isDigit) :=
  ⟨h, fun d hd => List.all_eq_true.mp List.all_takeWhile d hd⟩

/-- What the lexer takes as a number is one. -/
theorem number_of_isDigit {c : Char} (h : isDigit c = true) (rest : List Char) :
    ∃ number after, c :: rest = number ++ after ∧ Lexeme .number number
      ∧ Munch.numberLength (c :: rest) = number.length := by
  have hwhole : IsDigits ((c :: rest).takeWhile isDigit) := by
    apply isDigits_takeWhile
    rw [List.takeWhile_cons_of_pos h]
    exact List.cons_ne_nil _ _
  have hsplit := (List.takeWhile_append_dropWhile : (c :: rest).takeWhile isDigit ++ _ = _)
  rw [Munch.numberLength]
  split
  · next places hdrop =>
    rw [hdrop, ← List.takeWhile_append_dropWhile (p := isDigit) (l := places)] at hsplit
    simp only
    split
    · exact ⟨_, _, hsplit.symm, .whole hwhole, rfl⟩
    · next hpos =>
      have hplaces : IsDigits (places.takeWhile isDigit) :=
        isDigits_takeWhile fun hnil => hpos (by rw [hnil]; rfl)
      refine ⟨_, places.dropWhile isDigit, ?_, .fraction hwhole hplaces, ?_⟩
      · rw [List.append_assoc, List.cons_append]
        exact hsplit.symm
      · rw [List.length_append, List.length_cons]
        omega
  · exact ⟨_, _, hsplit.symm, .whole hwhole, rfl⟩

-- ============================================================================
-- Strings
-- ============================================================================

theorem isEscapable_iff {c : Char} : Munch.isEscapable c = true ↔ c ∈ ['n', 't', '\\', '\''] := by
  simp [Munch.isEscapable, or_assoc]

/-- A character of a string that is neither a quote nor a backslash is read alone. -/
theorem string_plain {c : Char} (hquote : c ≠ '\'') (hslash : c ≠ '\\') (read : Nat)
    (rest : List Char) : Munch.string read (c :: rest) = Munch.string (read + 1) rest := by
  rw [Munch.string]
  · exact hquote
  · exact fun hc _ => hslash hc
  · exact fun _ _ hc _ => hslash hc

/-- The body of a string is read, whatever stands behind it. -/
theorem StringBody.read {body : List Char} (h : StringBody body) (read : Nat)
    (tail : List Char) :
    Munch.string read (body ++ tail) = Munch.string (read + body.length) tail := by
  induction h generalizing read with
  | nil => rfl
  | plain hquote hslash _ ih =>
    rw [List.cons_append, string_plain hquote hslash, ih, List.length_cons, Nat.add_right_comm,
      Nat.add_assoc]
  | escape hc _ ih =>
    rw [List.cons_append, List.cons_append, Munch.string, if_pos (isEscapable_iff.mpr hc), ih,
      List.length_cons, List.length_cons]
    congr 1
    omega

/-- Where the body of a string ends: at the quote that closes it, at the end of the text, or at a
    backslash before a character that cannot be escaped. -/
inductive StringStop : List Char → Prop where
  | quote {after : List Char} : StringStop ('\'' :: after)
  | finish {tail : List Char} (h : tail = [] ∨ tail = ['\\']) : StringStop tail
  | badEscape {c : Char} {after : List Char} (hc : c ∉ ['n', 't', '\\', '\'']) :
      StringStop ('\\' :: c :: after)

theorem string_badEscape {c : Char} (hc : c ∉ ['n', 't', '\\', '\'']) (read : Nat)
    (after : List Char) : Munch.string read ('\\' :: c :: after) = .badEscape read c := by
  rw [Munch.string, if_neg fun h => hc (isEscapable_iff.mp h)]

theorem string_finish {tail : List Char} (h : tail = [] ∨ tail = ['\\']) (read : Nat) :
    Munch.string read tail = .openString := by
  obtain rfl | rfl := h <;> rfl

/-- Every text goes on as the body of a string up to where one ends. -/
theorem exists_stringBody (text : List Char) :
    ∃ body tail, text = body ++ tail ∧ StringBody body ∧ StringStop tail := by
  match text with
  | [] => exact ⟨[], [], rfl, .nil, .finish (.inl rfl)⟩
  | c :: rest =>
    by_cases hquote : c = '\''
    · exact ⟨[], c :: rest, rfl, .nil, hquote ▸ .quote⟩
    by_cases hslash : c = '\\'
    · cases rest with
      | nil => exact ⟨[], [c], rfl, .nil, .finish (.inr (by rw [hslash]))⟩
      | cons d rest =>
        by_cases hd : d ∈ ['n', 't', '\\', '\'']
        · obtain ⟨body, tail, rfl, hbody, htail⟩ := exists_stringBody rest
          exact ⟨c :: d :: body, tail, rfl, hslash ▸ .escape hd hbody, htail⟩
        · exact ⟨[], c :: d :: rest, rfl, .nil, hslash ▸ .badEscape hd⟩
    · obtain ⟨body, tail, rfl, hbody, htail⟩ := exists_stringBody rest
      exact ⟨c :: body, tail, rfl, .plain hquote hslash hbody, htail⟩
termination_by text.length

/-- A string is taken as it is, whatever follows. -/
theorem ofText_of_stringBody {body : List Char} (h : StringBody body) (after : List Char) :
    Munch.ofText ('\'' :: body ++ ['\''] ++ after) =
      .token .string ('\'' :: body ++ ['\'']).length := by
  rw [List.append_assoc, List.cons_append, Munch.ofText, List.singleton_append, h.read, Munch.string]
  simp only [List.length_append, List.length_cons, List.length_nil]
  congr 1
  omega

/-- A string is refused that ends with the text, before it is closed. -/
theorem ofText_openString {body tail : List Char} (h : StringBody body)
    (htail : tail = [] ∨ tail = ['\\']) : Munch.ofText ('\'' :: body ++ tail) = .openString := by
  rw [List.cons_append, Munch.ofText, h.read, string_finish htail]

/-- A string is refused that goes on with a wrong escape. -/
theorem ofText_badEscape {body : List Char} {c : Char} (h : StringBody body)
    (hc : c ∉ ['n', 't', '\\', '\'']) (after : List Char) :
    Munch.ofText ('\'' :: body ++ '\\' :: c :: after) = .badEscape ('\'' :: body).length c := by
  rw [List.cons_append, Munch.ofText, h.read, string_badEscape hc, List.length_cons, Nat.add_comm]

/-- What the lexer takes as a string is one. -/
theorem string_body {read n : Nat} {kind : Kind} {text : List Char}
    (h : Munch.string read text = .token kind n) :
    ∃ body after, text = body ++ '\'' :: after ∧ StringBody body ∧ kind = .string
      ∧ n = read + body.length + 1 := by
  obtain ⟨body, tail, rfl, hbody, hstop⟩ := exists_stringBody text
  rw [hbody.read] at h
  cases hstop with
  | @quote after =>
    obtain ⟨rfl, rfl⟩ := Munch.token.inj h
    exact ⟨body, after, rfl, hbody, rfl, rfl⟩
  | finish htail =>
    rw [string_finish htail] at h
    exact nomatch h
  | badEscape hc =>
    rw [string_badEscape hc] at h
    exact nomatch h

-- ============================================================================
-- Lexemes
-- ============================================================================

/-- Where the text stands, at least that much is taken, and with this kind if it is no more. -/
def Takes (after text : List Char) (kind : Kind) : Prop :=
  ∃ kind' n, Munch.ofText (text ++ after) = .token kind' n ∧ text.length ≤ n
    ∧ (n = text.length → kind' = kind)

theorem takes_of_eq {after text : List Char} {kind : Kind}
    (h : Munch.ofText (text ++ after) = .token kind text.length) : Takes after text kind :=
  ⟨kind, text.length, h, Nat.le_refl _, fun _ => rfl⟩

theorem takes_of_oneOrTwo {after : List Char} {c second : Char} {short long : Kind}
    (h : Munch.ofText (c :: after) = Munch.oneOrTwo second short long after) :
    Takes after [c] short := by
  by_cases hsecond : after.head? = some second
  · exact ⟨long, 2, by rw [List.singleton_append, h, Munch.oneOrTwo, if_pos hsecond], by simp,
      by simp⟩
  · exact takes_of_eq (by rw [List.singleton_append, h, Munch.oneOrTwo, if_neg hsecond]; rfl)

/-- A sign is taken, or a longer one. -/
theorem takes_of_sign (after : List Char) : ∀ entry ∈ signs, Takes after entry.1 entry.2 := by
  simp only [signs, List.forall_mem_cons]
  exact ⟨takes_of_eq rfl, takes_of_eq rfl, takes_of_eq rfl, takes_of_eq rfl, takes_of_eq rfl,
    takes_of_eq rfl, takes_of_oneOrTwo rfl, takes_of_eq rfl, takes_of_oneOrTwo rfl,
    takes_of_eq rfl, takes_of_oneOrTwo rfl, takes_of_eq rfl, takes_of_oneOrTwo rfl,
    takes_of_eq rfl, takes_of_eq rfl, takes_of_eq rfl, takes_of_eq rfl, takes_of_eq rfl,
    takes_of_eq rfl, takes_of_eq rfl, List.forall_mem_nil _⟩

/-- A word is taken, or a longer one. -/
theorem takes_of_isWord (after : List Char) {text : List Char} (h : IsWord text) :
    Takes after text (Kind.ofWord (String.ofList text)) := by
  refine ⟨_, _, ofText_of_isWord h after, Nat.le_add_right _ _, ?_⟩
  intro hn
  have hnil : after.takeWhile isWordChar = [] := List.eq_nil_of_length_eq_zero (by omega)
  rw [hnil, List.append_nil]

/-- A number is taken, or a longer one. -/
theorem ofText_of_isDigits {text : List Char} (h : IsDigits text) (rest : List Char) :
    Munch.ofText (text ++ rest) = .token .number (Munch.numberLength (text ++ rest)) := by
  cases text with
  | nil => exact absurd rfl h.1
  | cons c text => exact ofText_of_isDigit (h.2 c (by simp)) _

/-- Where a lexeme stands, at least that much is taken, and with its kind if it is no more. -/
theorem takes_of_lexeme (after : List Char) {kind : Kind} {text : List Char}
    (h : Lexeme kind text) : Takes after text kind := by
  cases h with
  | sign h => exact takes_of_sign after _ h
  | word h =>
    rw [← ofWord_of_mem h]
    exact takes_of_isWord after (isWord_of_mem_words _ h)
  | identifier hw hfree =>
    rw [← ofWord_of_free hfree]
    exact takes_of_isWord after hw
  | whole h =>
    refine ⟨_, _, ofText_of_isDigits h after, ?_, fun _ => rfl⟩
    refine Nat.le_trans ?_ (takeWhile_isDigit_le_numberLength _)
    rw [List.takeWhile_append_of_pos h.2, List.length_append]
    exact Nat.le_add_right _ _
  | fraction hwhole hplaces =>
    refine ⟨_, _, ?_, numberLength_fraction hwhole hplaces after, fun _ => rfl⟩
    rw [List.append_assoc]
    exact ofText_of_isDigits hwhole _
  | string h => exact takes_of_eq (ofText_of_stringBody h after)

/-- A lexeme of this kind and length stands at the beginning of the text. -/
def Given (text : List Char) (kind : Kind) (n : Nat) : Prop :=
  ∃ lexeme after, text = lexeme ++ after ∧ Lexeme kind lexeme ∧ n = lexeme.length

theorem given_of_sign {text after : List Char} {kind : Kind} (h : (text, kind) ∈ signs) :
    Given (text ++ after) kind text.length :=
  ⟨text, after, rfl, .sign h, rfl⟩

theorem given_of_oneOrTwo {c second : Char} {short long kind : Kind} {rest : List Char} {n : Nat}
    (hshort : ([c], short) ∈ signs) (hlong : ([c, second], long) ∈ signs)
    (h : Munch.oneOrTwo second short long rest = .token kind n) : Given (c :: rest) kind n := by
  rw [Munch.oneOrTwo] at h
  split at h
  · next hhead =>
    obtain ⟨after, rfl⟩ := List.head?_eq_some_iff.mp hhead
    obtain ⟨rfl, rfl⟩ := Munch.token.inj h
    exact given_of_sign hlong
  · obtain ⟨rfl, rfl⟩ := Munch.token.inj h
    exact given_of_sign hshort

theorem given_of_onlyTwo {c second : Char} {long kind : Kind} {rest : List Char} {n : Nat}
    (hlong : ([c, second], long) ∈ signs)
    (h : Munch.onlyTwo c second long rest = .token kind n) : Given (c :: rest) kind n := by
  rw [Munch.onlyTwo] at h
  split at h
  · next hhead =>
    obtain ⟨after, rfl⟩ := List.head?_eq_some_iff.mp hhead
    obtain ⟨rfl, rfl⟩ := Munch.token.inj h
    exact given_of_sign hlong
  · exact nomatch h

theorem given_of_single {c : Char} {short kind : Kind} {rest : List Char} {n : Nat}
    (hshort : ([c], short) ∈ signs) (h : Munch.token short 1 = .token kind n) :
    Given (c :: rest) kind n := by
  obtain ⟨rfl, rfl⟩ := Munch.token.inj h
  exact given_of_sign hshort

theorem given_of_string {kind : Kind} {rest : List Char} {n : Nat}
    (h : Munch.string 1 rest = .token kind n) : Given ('\'' :: rest) kind n := by
  obtain ⟨body, after, rfl, hbody, rfl, rfl⟩ := string_body h
  refine ⟨'\'' :: body ++ ['\''], after, by simp, .string hbody, ?_⟩
  simp only [List.length_append, List.length_cons, List.length_nil]
  omega

theorem given_of_word {c : Char} {kind : Kind} {rest : List Char} {n : Nat}
    (hc : isLetter c = true) (h : Munch.word (c :: rest) = .token kind n) :
    Given (c :: rest) kind n := by
  have hword : IsWord ((c :: rest).takeWhile isWordChar) := by
    rw [List.takeWhile_cons_of_pos (isWordChar_of_isLetter hc)]
    exact ⟨hc, fun d hd => List.all_eq_true.mp List.all_takeWhile d hd⟩
  obtain ⟨rfl, rfl⟩ := Munch.token.inj h
  exact ⟨_, _, List.takeWhile_append_dropWhile.symm, hword.lexeme, rfl⟩

/-- What is taken from a text that is not at its end is a lexeme. -/
theorem lexeme_of_ofText {c : Char} {rest : List Char} {kind : Kind} {n : Nat}
    (h : Munch.ofText (c :: rest) = .token kind n) : Given (c :: rest) kind n := by
  by_cases hc : c ∈ leaders
  · simp only [leaders, List.mem_cons, List.not_mem_nil, or_false] at hc
    rcases hc with rfl | rfl | rfl | rfl | rfl | rfl | rfl | rfl | rfl | rfl | rfl | rfl | rfl
      | rfl | rfl | rfl | rfl
    · exact given_of_single (by decide) h
    · exact given_of_single (by decide) h
    · exact given_of_single (by decide) h
    · exact given_of_single (by decide) h
    · exact given_of_single (by decide) h
    · exact given_of_single (by decide) h
    · exact given_of_oneOrTwo (by decide) (by decide) h
    · exact given_of_oneOrTwo (by decide) (by decide) h
    · exact given_of_oneOrTwo (by decide) (by decide) h
    · exact given_of_oneOrTwo (by decide) (by decide) h
    · exact given_of_onlyTwo (by decide) h
    · exact given_of_onlyTwo (by decide) h
    · exact given_of_single (by decide) h
    · exact given_of_single (by decide) h
    · exact given_of_single (by decide) h
    · exact given_of_single (by decide) h
    · exact given_of_string h
  · rw [ofText_of_not_leader hc] at h
    split at h
    · next hdigit =>
      obtain ⟨number, after, hsplit, hlexeme, hlength⟩ := number_of_isDigit hdigit rest
      obtain ⟨rfl, rfl⟩ := Munch.token.inj h
      exact ⟨number, after, hsplit, hlexeme, hlength⟩
    · split at h
      · next hletter => exact given_of_word hletter h
      · exact nomatch h

theorem oneOrTwo_token (second : Char) (short long : Kind) (rest : List Char) :
    ∃ kind n, Munch.oneOrTwo second short long rest = .token kind n := by
  rw [Munch.oneOrTwo]
  split
  · exact ⟨long, 2, rfl⟩
  · exact ⟨short, 1, rfl⟩

theorem onlyTwo_cases (c second : Char) (long : Kind) (rest : List Char) :
    (∃ kind n, Munch.onlyTwo c second long rest = .token kind n)
      ∨ Munch.onlyTwo c second long rest = .stray c := by
  rw [Munch.onlyTwo]
  split
  · exact .inl ⟨long, 2, rfl⟩
  · exact .inr rfl

/-- A text that is not at its end begins with a token, or its first character begins nothing, or it
    is a quote. -/
theorem ofText_cases (c : Char) (rest : List Char) :
    (∃ kind n, Munch.ofText (c :: rest) = .token kind n)
      ∨ (c ≠ '\'' ∧ Munch.ofText (c :: rest) = .stray c) ∨ c = '\'' := by
  by_cases hc : c ∈ leaders
  · simp only [leaders, List.mem_cons, List.not_mem_nil, or_false] at hc
    rcases hc with rfl | rfl | rfl | rfl | rfl | rfl | rfl | rfl | rfl | rfl | rfl | rfl | rfl
      | rfl | rfl | rfl | rfl
    · exact .inl ⟨_, _, rfl⟩
    · exact .inl ⟨_, _, rfl⟩
    · exact .inl ⟨_, _, rfl⟩
    · exact .inl ⟨_, _, rfl⟩
    · exact .inl ⟨_, _, rfl⟩
    · exact .inl ⟨_, _, rfl⟩
    · exact .inl (oneOrTwo_token ..)
    · exact .inl (oneOrTwo_token ..)
    · exact .inl (oneOrTwo_token ..)
    · exact .inl (oneOrTwo_token ..)
    · exact (onlyTwo_cases ..).imp_right fun h => .inl ⟨by decide, h⟩
    · exact (onlyTwo_cases ..).imp_right fun h => .inl ⟨by decide, h⟩
    · exact .inl ⟨_, _, rfl⟩
    · exact .inl ⟨_, _, rfl⟩
    · exact .inl ⟨_, _, rfl⟩
    · exact .inl ⟨_, _, rfl⟩
    · exact .inr (.inr rfl)
  · rw [ofText_of_not_leader hc]
    split
    · exact .inl ⟨_, _, rfl⟩
    · split
      · exact .inl ⟨_, _, rfl⟩
      · refine .inr (.inl ⟨?_, rfl⟩)
        rintro rfl
        exact hc (by decide)

/-- A character with which no lexeme begins is refused. -/
theorem ofText_stray {c : Char} {after : List Char} (hquote : c ≠ '\'')
    (hnone : ∀ kind text, Lexeme kind text → ¬ text <+: c :: after) :
    Munch.ofText (c :: after) = .stray c := by
  obtain ⟨kind, n, htoken⟩ | ⟨-, hstray⟩ | hc := ofText_cases c after
  · obtain ⟨text, more, hsplit, htext, -⟩ := lexeme_of_ofText htoken
    exact absurd ⟨more, hsplit.symm⟩ (hnone kind text htext)
  · exact hstray
  · exact absurd hc hquote

/-- No lexeme begins with a character that is refused. -/
theorem no_lexeme_of_stray {c : Char} {after : List Char}
    (h : Munch.ofText (c :: after) = .stray c) (kind : Kind) (text : List Char)
    (htext : Lexeme kind text) : ¬ text <+: c :: after := by
  rintro ⟨more, hmore⟩
  obtain ⟨_, _, htaken, -⟩ := takes_of_lexeme more htext
  rw [hmore, h] at htaken
  cases htaken

-- ============================================================================
-- The longest lexeme
-- ============================================================================

theorem Lexeme.ne_nil {kind : Kind} {text : List Char} (h : Lexeme kind text) : text ≠ [] := by
  have hsigns : ∀ entry ∈ signs, entry.1 ≠ [] := by decide
  have hwords : ∀ entry ∈ words, entry.1 ≠ [] := by decide
  cases h with
  | sign h => exact hsigns _ h
  | word h => exact hwords _ h
  | identifier hword _ =>
    rintro rfl
    exact hword
  | whole h => exact h.1
  | fraction _ _ => simp
  | string _ => simp

/-- A number begins with a digit. -/
theorem Lexeme.number_first {text : List Char} (h : Lexeme .number text) :
    ∃ c rest, text = c :: rest ∧ isDigit c = true := by
  have hsigns : ∀ entry ∈ signs, entry.2 ≠ .number := by decide
  have hwords : ∀ entry ∈ words, entry.2 ≠ .number := by decide
  cases h with
  | sign h => exact absurd rfl (hsigns _ h)
  | word h => exact absurd rfl (hwords _ h)
  | whole h =>
    obtain ⟨c, rest, heq, hc⟩ := h.first []
    rw [List.append_nil] at heq
    exact ⟨c, rest, heq, hc⟩
  | fraction hwhole _ => exact hwhole.first _

/-- What begins with a quote is a string. -/
theorem Lexeme.of_quote {kind : Kind} {rest : List Char} (h : Lexeme kind ('\'' :: rest)) :
    kind = .string ∧ ∃ body, rest = body ++ ['\''] ∧ StringBody body := by
  have hsigns : ∀ entry ∈ signs, entry.1.head? ≠ some '\'' := by decide
  have hword : ¬ IsWord ('\'' :: rest) := fun hw => absurd hw.1 (by decide)
  have hnumber : ¬ Lexeme .number ('\'' :: rest) := by
    intro hnumber
    obtain ⟨c, tail, heq, hc⟩ := hnumber.number_first
    obtain ⟨rfl, -⟩ := List.cons.inj heq
    exact absurd hc (by decide)
  generalize htext : '\'' :: rest = text at h hword hnumber
  cases h with
  | sign h => exact absurd (by rw [← htext]; rfl) (hsigns _ h)
  | word h => exact absurd (isWord_of_mem_words _ h) hword
  | identifier hw _ => exact absurd hw hword
  | whole h => exact absurd (.whole h) hnumber
  | fraction hwhole hplaces => exact absurd (.fraction hwhole hplaces) hnumber
  | @string body h => exact ⟨rfl, body, (List.cons.inj htext).2, h⟩

theorem Lexeme.kind_ne_eof {kind : Kind} {text : List Char} (h : Lexeme kind text) :
    kind ≠ .eof := by
  have hsigns : ∀ entry ∈ signs, entry.2 ≠ .eof := by decide
  have hwords : ∀ entry ∈ words, entry.2 ≠ .eof := by decide
  cases h with
  | sign h => exact hsigns _ h
  | word h => exact hwords _ h
  | identifier _ _ | whole _ | fraction _ _ | string _ => simp

/-- Signs and reserved words are the only lexemes of their kinds. -/
theorem Lexeme.eq_fixed {kind : Kind} {text fixed : List Char} (h : Lexeme kind text)
    (hfixed : (fixed, kind) ∈ signs ++ words) : text = fixed := by
  have hunique : ∀ a ∈ signs ++ words, ∀ b ∈ signs ++ words, a.2 = b.2 → a.1 = b.1 := by decide
  have hkinds : ∀ entry ∈ signs ++ words,
      entry.2 ≠ .identifier ∧ entry.2 ≠ .number ∧ entry.2 ≠ .string := by decide
  obtain ⟨hidentifier, hnumber, hstring⟩ := hkinds _ hfixed
  cases h with
  | sign h => exact hunique _ (List.mem_append_left _ h) _ hfixed rfl
  | word h => exact hunique _ (List.mem_append_right _ h) _ hfixed rfl
  | identifier _ _ => exact absurd rfl hidentifier
  | whole _ | fraction _ _ => exact absurd rfl hnumber
  | string _ => exact absurd rfl hstring

/-- The longest lexeme at the beginning of a text is the one that is taken. -/
theorem ofText_of_longest {kind : Kind} {lexeme after : List Char} (h : Lexeme kind lexeme)
    (hlongest : ∀ kind' text, Lexeme kind' text → text <+: lexeme ++ after →
      text.length ≤ lexeme.length) :
    Munch.ofText (lexeme ++ after) = .token kind lexeme.length := by
  obtain ⟨kind', n, htext, hle, hkind⟩ := takes_of_lexeme after h
  have hn : n = lexeme.length := by
    obtain ⟨c, rest, hcons⟩ := List.exists_cons_of_ne_nil h.ne_nil
    rw [hcons, List.cons_append] at htext
    obtain ⟨text, after', hsplit, htaken, rfl⟩ := lexeme_of_ofText htext
    have hbound := hlongest kind' text htaken ⟨after', by rw [← hsplit, hcons, List.cons_append]⟩
    omega
  rw [htext, hkind hn, hn]

/-- No lexeme at the beginning of a text is longer than the one that is taken. -/
theorem longest_of_ofText {kind : Kind} {lexeme after : List Char}
    (h : Munch.ofText (lexeme ++ after) = .token kind lexeme.length) :
    ∀ kind' text, Lexeme kind' text → text <+: lexeme ++ after →
      text.length ≤ lexeme.length := by
  intro kind' text htext hpre
  obtain ⟨after', hsplit⟩ := hpre
  obtain ⟨kind'', n, htaken, hle, -⟩ := takes_of_lexeme after' htext
  rw [hsplit, h] at htaken
  obtain ⟨-, rfl⟩ := Munch.token.inj htaken
  exact hle

end Lexiscope.Lexical
