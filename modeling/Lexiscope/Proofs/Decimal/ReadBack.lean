/-
  Lexiscope.Proofs.Decimal.ReadBack

  A finite number that is written is read back as the same number.

  Two facts meet. The shortest digits of a double, and also all of its digits,
  have that double as their nearest one (`shortest_bits`); and positional
  notation is read as a decimal with the same numerator and denominator
  (`ofText?_positional`). What is written is digits, with a point between them
  or not, and so a number for the lexer too (`lexeme_text`).
-/
import Lexiscope.Proofs.Decimal.Double
import Lexiscope.Proofs.Lexical.Munch

namespace Lexiscope.Decimal

-- ============================================================================
-- The shortest digits
-- ============================================================================

theorem tenPow_pos (n : Nat) : 0 < tenPow n := Nat.pow_pos (by decide)

theorem tenPow_eq (n : Nat) : tenPow n = 2 ^ n * Nat.pow 5 n := Nat.mul_pow 2 5 n

theorem log2_full {mantissa : Nat} (hlow : 2 ^ 52 ≤ mantissa) (hhigh : mantissa < 2 ^ 53)
    (shift : Nat) : (mantissa * 2 ^ shift).log2 = 52 + shift := by
  have hpos : 0 < mantissa * 2 ^ shift := Nat.mul_pos (by omega) (Nat.two_pow_pos shift)
  refine (Nat.log2_eq_iff (by omega)).mpr ⟨?_, ?_⟩
  · rw [Nat.pow_add]
    exact Nat.mul_le_mul_right _ hlow
  · rw [Nat.add_right_comm, Nat.pow_add]
    exact Nat.mul_lt_mul_of_pos_right hhigh (Nat.two_pow_pos shift)

/-- The shift of a double is found again from its value. -/
theorem shiftOf_valueNum (bits : Nat) : shiftOf (valueNum bits) = exponentOf bits := by
  have hfull : 1 <<< 53 = 2 ^ 53 := rfl
  have hunit : 1 <<< 52 = 2 ^ 52 := rfl
  rw [shiftOf, valueNum, Nat.shiftLeft_eq, hfull]
  by_cases hzero : bits >>> 52 = 0
  · have hsmall : bits < 2 ^ 52 := by
      rw [Nat.shiftRight_eq_div_pow] at hzero
      omega
    rw [mantissaOf, if_pos hzero, exponentOf, hzero, if_pos (by omega)]
  · rw [mantissaOf, if_neg hzero, hunit]
    have hlow : 2 ^ 52 ≤ bits % 2 ^ 52 + 2 ^ 52 := by omega
    have hhigh : bits % 2 ^ 52 + 2 ^ 52 < 2 ^ 53 := by omega
    generalize bits % 2 ^ 52 + 2 ^ 52 = mantissa at hlow hhigh
    cases hshift : exponentOf bits with
    | zero => rw [if_pos (by omega)]
    | succ shift =>
      have hbig : 2 ^ 53 ≤ mantissa * 2 ^ (shift + 1) := by
        rw [Nat.pow_succ 2 shift, Nat.mul_comm _ 2, ← Nat.mul_assoc]
        exact Nat.le_trans (by omega) (Nat.le_mul_of_pos_right _ (Nat.two_pow_pos shift))
      rw [if_neg (by omega), log2_full hlow hhigh]
      omega

/-- The fields of a word make up the word. -/
theorem exponent_add_mantissa (bits : Nat) :
    (exponentOf bits <<< 52) + mantissaOf bits = bits := by
  have hunit : 1 <<< 52 = 2 ^ 52 := rfl
  rw [exponentOf, mantissaOf, hunit, Nat.shiftRight_eq_div_pow, Nat.shiftLeft_eq]
  split <;> omega

/-- The double nearest to the value of a double, as any fraction, is that double. -/
theorem nearestBits_value {bits a b : Nat} (h : bits < infinityBits) (hb : 0 < b)
    (hvalue : a <<< 1074 = valueNum bits * b) : nearestBits a b = bits := by
  have hround : roundDiv (valueNum bits * b) (b <<< exponentOf bits) = mantissaOf bits := by
    rw [valueNum, Nat.shiftLeft_eq, Nat.shiftLeft_eq, Nat.mul_assoc,
      Nat.mul_comm (2 ^ exponentOf bits) b]
    exact roundDiv_mul _ (Nat.mul_pos hb (Nat.two_pow_pos _))
  rw [nearestBits, hvalue]
  rw [Nat.mul_div_cancel _ hb, shiftOf_valueNum, hround, exponent_add_mantissa]
  omega

theorem shiftLeft_fivePow (value n : Nat) :
    (value * Nat.pow 5 n) <<< n = value * tenPow n := by
  rw [Nat.shiftLeft_eq, tenPow_eq, Nat.mul_assoc, Nat.mul_comm (2 ^ n)]

theorem bits_places (digits n : Nat) :
    (⟨digits, -(n : Int)⟩ : Decimal).bits = nearestBits digits (tenPow n) := by
  have hzero : (-(n : Int)).toNat = 0 := by omega
  have hplaces : (- -(n : Int)).toNat = n := by omega
  rw [bits, num, den, hzero, hplaces]
  congr 1
  exact Nat.mul_one _

theorem exactly_bits {bits : Nat} (h : bits < infinityBits) : (exactly bits).bits = bits := by
  rw [exactly]
  -- The number of places becomes a variable, so that no power of it is ever evaluated.
  generalize hplaces : 1074 = places
  have hexponent : (-1074 : Int) = -(places : Int) := by omega
  rw [hexponent, bits_places]
  refine nearestBits_value h (tenPow_pos places) ?_
  rw [hplaces]
  exact shiftLeft_fivePow (valueNum bits) places

theorem bits_zero : (⟨0, 0⟩ : Decimal).bits = 0 := by
  have hvalue : 0 <<< 1074 = valueNum 0 * tenPow 0 := by rw [Nat.zero_shiftLeft]; rfl
  exact nearestBits_value (by decide) (tenPow_pos 0) hvalue

theorem onGrid_bits {bits : Nat} {place : Int} {d : Decimal} (h : onGrid bits place = some d) :
    d.bits = bits := by
  simp only [onGrid] at h
  split at h
  · next habove => exact Option.some.inj h ▸ habove.1
  · split at h
    · next hbelow => exact Option.some.inj h ▸ hbelow
    · exact nomatch h

/-- The double nearest to the shortest digits of a double is that double. -/
theorem shortest_bits {bits : Nat} (h : bits < infinityBits) : (shortest bits).bits = bits := by
  simp only [shortest]
  cases hfound : (List.range 18).findSome? fun (n : Nat) =>
      onGrid bits (leadingPlace (valueNum bits) valueDen + 1 - n) with
  | none => exact exactly_bits h
  | some d =>
    obtain ⟨n, -, hn⟩ := List.exists_of_findSome?_eq_some hfound
    exact onGrid_bits hn

-- ============================================================================
-- Positional notation
-- ============================================================================

open Lexical (IsDigits Lexeme)

theorem ofDigits_eq (digits : List Char) :
    Text.ofDigits digits = Nat.ofDigitChars 10 digits 0 := rfl

theorem isDigits_toDigits (n : Nat) : IsDigits (Nat.toDigits 10 n) :=
  ⟨Nat.toDigits_ne_nil, fun _ hc => Nat.isDigit_of_mem_toDigits (by decide) (by decide) hc⟩

theorem isDigits_padded (width n : Nat) : IsDigits (padded width n) := by
  refine ⟨?_, ?_⟩
  · simp [padded]
  · intro c hc
    obtain hc | hc := List.mem_append.mp hc
    · rw [List.eq_of_mem_replicate hc]
      decide
    · exact (isDigits_toDigits n).2 c hc

theorem length_padded {width n : Nat} (hpos : 0 < width) (h : n < 10 ^ width) :
    (padded width n).length = width := by
  have hle := (Nat.length_toDigits_le_iff (by decide) hpos).mpr h
  simp only [padded, List.length_append, List.length_replicate]
  omega

theorem ofDigits_padded (width n : Nat) : Text.ofDigits (padded width n) = n := by
  rw [ofDigits_eq, padded, Nat.ofDigitChars_append, Nat.ofDigitChars_replicate_zero,
    Nat.mul_zero, Nat.ofDigitChars_ten_toDigits]

theorem ofDigits_append (a b : List Char) :
    Text.ofDigits (a ++ b) = 10 ^ b.length * Text.ofDigits a + Text.ofDigits b := by
  rw [ofDigits_eq, Nat.ofDigitChars_append, Nat.ofDigitChars_eq_ofDigitChars_zero,
    ofDigits_eq, ofDigits_eq]

theorem span_isDigits {digits : List Char} (h : IsDigits digits) {rest : List Char}
    (hrest : ∀ c ∈ rest.head?, c.isDigit = false) :
    (digits ++ rest).takeWhile Char.isDigit = digits
      ∧ (digits ++ rest).dropWhile Char.isDigit = rest := by
  have hall : ∀ d ∈ digits, d.isDigit = true := h.2
  rw [List.takeWhile_append_of_pos hall, List.dropWhile_append_of_pos hall]
  cases rest with
  | nil => simp
  | cons c rest =>
    have hc : c.isDigit = false := hrest c rfl
    simp [hc]

/-- Digits without a point are read as a whole number. -/
theorem ofText?_whole {whole : List Char} (h : IsDigits whole) :
    ofText? whole = some ⟨Text.ofDigits whole, 0⟩ := by
  have hnil : ∀ c ∈ ([] : List Char).head?, c.isDigit = false := by simp
  obtain ⟨htake, hdrop⟩ := span_isDigits h hnil
  rw [List.append_nil] at htake hdrop
  simp [ofText?, htake, hdrop, h.1, exponentOfText?]

/-- Digits behind a point are read as places. -/
theorem ofText?_fraction {whole places : List Char} (hwhole : IsDigits whole)
    (hplaces : IsDigits places) :
    ofText? (whole ++ '.' :: places) =
      some ⟨Text.ofDigits (whole ++ places), -(places.length : Int)⟩ := by
  have hpoint : ∀ c ∈ ('.' :: places).head?, c.isDigit = false := by simp
  have hnil : ∀ c ∈ ([] : List Char).head?, c.isDigit = false := by simp
  obtain ⟨htake, hdrop⟩ := span_isDigits hwhole hpoint
  obtain ⟨htake', hdrop'⟩ := span_isDigits hplaces hnil
  rw [List.append_nil] at htake' hdrop'
  simp [ofText?, htake, hdrop, htake', hdrop', hwhole.1, exponentOfText?]

/-- Positional notation is a number for the lexer. -/
theorem lexeme_positional (d : Decimal) : Lexeme .number d.positional := by
  rw [positional]
  split
  · exact .whole (isDigits_toDigits _)
  · exact .fraction (isDigits_toDigits _) (isDigits_padded _ _)

/-- Positional notation is read as a decimal number of the same value. -/
theorem ofText?_positional (d : Decimal) :
    ∃ read, ofText? d.positional = some read ∧ read.num = d.num ∧ read.den = d.den := by
  rw [positional]
  split
  · next hwhole =>
    refine ⟨_, ofText?_whole (isDigits_toDigits _), ?_, ?_⟩
    · rw [ofDigits_eq, Nat.ofDigitChars_ten_toDigits, num, num]
      exact Nat.mul_one _
    · rw [den, den, Int.toNat_of_nonpos (by omega : -d.exponent ≤ 0)]
      rfl
  · next hplaces =>
    have hpos : 0 < (-d.exponent).toNat := by omega
    refine ⟨_, ofText?_fraction (isDigits_toDigits _) (isDigits_padded _ _), ?_⟩
    have hsmall : d.digits % tenPow (-d.exponent).toNat < 10 ^ (-d.exponent).toNat :=
      Nat.mod_lt _ (tenPow_pos _)
    have hsame : (⟨Text.ofDigits (Nat.toDigits 10 (d.digits / tenPow (-d.exponent).toNat)
          ++ padded (-d.exponent).toNat (d.digits % tenPow (-d.exponent).toNat)),
        -((padded (-d.exponent).toNat (d.digits % tenPow (-d.exponent).toNat)).length : Int)⟩
          : Decimal) = d := by
      rw [ofDigits_append, ofDigits_padded, ofDigits_eq, Nat.ofDigitChars_ten_toDigits,
        length_padded hpos hsmall]
      have hdigits : 10 ^ (-d.exponent).toNat * (d.digits / tenPow (-d.exponent).toNat)
          + d.digits % tenPow (-d.exponent).toNat = d.digits := Nat.div_add_mod _ _
      have hexponent : -((-d.exponent).toNat : Int) = d.exponent := by omega
      rw [hdigits, hexponent]
    rw [hsame]
    exact ⟨rfl, rfl⟩

end Lexiscope.Decimal

-- ============================================================================
-- Numbers
-- ============================================================================

namespace Lexiscope.Number

open Lexical (Lexeme)

theorem bits_le_infinityBits (d : Decimal) : d.bits ≤ Decimal.infinityBits := Nat.min_le_right _ _

/-- The word for infinity. -/
def infinityText : String := "inf"

/-- How a number that was read from a decimal is written. -/
theorem text_ofBits {bits : Nat} (h : bits ≤ Decimal.infinityBits) :
    text (Float.ofBits (UInt64.ofNat bits)) =
      if bits = Decimal.infinityBits then infinityText
      else if bits = 0 then "0"
      else String.ofList (Decimal.shortest bits).positional := by
  have hinfinity : Decimal.infinityBits < 1 <<< 63 := by decide
  have hmod : bits % (1 <<< 63) = bits := Nat.mod_eq_of_lt (Nat.lt_of_le_of_lt h hinfinity)
  rw [text]
  simp only [Decimal.toBits_ofBits h, hmod]
  rw [if_neg (by omega), if_neg (by omega)]
  split
  · rfl
  · split <;> rfl

theorem toLower_of_isDigit {c : Char} (h : isDigit c = true) : c.toLower = c := by
  have := Lexical.isDigit_iff.mp h
  have hval : c.val.toNat = c.toNat := rfl
  rw [Char.toLower, dif_neg]
  simp only [ge_iff_le, UInt32.le_iff_toNat_le, hval]
  intro hrange
  have : 65 ≤ c.toNat := hrange.1
  omega

/-- A text that begins with a digit is no word, whatever the case of its letters. -/
theorem lower_ne_of_isDigit {c : Char} {rest : List Char} (h : isDigit c = true) {word : String}
    (hword : word.toList.head?.any isDigit = false) :
    String.ofList ((c :: rest).map Char.toLower) ≠ word := by
  rintro rfl
  rw [String.toList_ofList, List.map_cons, toLower_of_isDigit h] at hword
  simp [h] at hword

/-- The text of a number of the lexer is read as the nearest double. -/
theorem ofText?_of_lexeme {text : List Char} (h : Lexeme .number text) :
    ofText? (String.ofList text) = (Decimal.ofText? text).map Decimal.toFloat := by
  obtain ⟨c, rest, rfl, hc⟩ := h.number_first
  have hunsigned : ofUnsigned? (c :: rest) =
      (Decimal.ofText? (c :: rest)).map Decimal.toFloat := by
    rw [ofUnsigned?, if_neg (lower_ne_of_isDigit hc (by decide)), if_neg]
    rintro (hword | hword)
    · exact lower_ne_of_isDigit hc (by decide) hword
    · exact lower_ne_of_isDigit hc (by decide) hword
  rw [ofText?, String.toList_ofList, ← hunsigned]
  split
  · next heq =>
    obtain ⟨rfl, -⟩ := List.cons.inj heq
    exact absurd hc (by decide)
  · next heq =>
    obtain ⟨rfl, -⟩ := List.cons.inj heq
    exact absurd hc (by decide)
  · rfl

/-- What the lexer takes for a number is read as the double nearest to some decimal. -/
theorem exists_decimal {text : List Char} {x : Float} (h : Lexeme .number text)
    (hx : ofText? (String.ofList text) = some x) : ∃ d : Decimal, x = d.toFloat := by
  rw [ofText?_of_lexeme h] at hx
  obtain ⟨d, -, rfl⟩ := Option.map_eq_some_iff.mp hx
  exact ⟨d, rfl⟩

/-- Infinity is written as a word. -/
theorem text_infinite {d : Decimal} (h : d.toFloat.isFinite ≠ true) :
    text d.toFloat = infinityText := by
  rw [Decimal.toFloat, Ne, Decimal.isFinite_ofBits (bits_le_infinityBits d),
    Decidable.not_not] at h
  rw [Decimal.toFloat, text_ofBits (bits_le_infinityBits d), if_pos h]

/-- A finite number is written as a number of the lexer, and read back. -/
theorem text_finite {d : Decimal} (h : d.toFloat.isFinite = true) :
    Lexeme .number (text d.toFloat).toList ∧ ofText? (text d.toFloat) = some d.toFloat := by
  have hle := bits_le_infinityBits d
  have hne : d.bits ≠ Decimal.infinityBits := (Decimal.isFinite_ofBits hle).mp h
  rw [Decimal.toFloat, text_ofBits hle, if_neg hne]
  split
  · next hzero =>
    rw [hzero]
    refine ⟨.whole (Decimal.isDigits_toDigits 0), ?_⟩
    have hread := ofText?_of_lexeme (.whole (Decimal.isDigits_toDigits 0))
    rw [Decimal.ofText?_whole (Decimal.isDigits_toDigits 0), Option.map_some, Decimal.toFloat,
      Decimal.ofDigits_eq, Nat.ofDigitChars_ten_toDigits, Decimal.bits_zero] at hread
    exact hread
  · have hlexeme := Decimal.lexeme_positional (Decimal.shortest d.bits)
    obtain ⟨read, hread, hnum, hden⟩ := Decimal.ofText?_positional (Decimal.shortest d.bits)
    have hbits : read.bits = d.bits := by
      rw [Decimal.bits, hnum, hden]
      exact Decimal.shortest_bits (Nat.lt_of_le_of_ne hle hne)
    rw [String.toList_ofList]
    refine ⟨hlexeme, ?_⟩
    rw [ofText?_of_lexeme hlexeme, hread, Option.map_some, Decimal.toFloat, hbits]

end Lexiscope.Number
