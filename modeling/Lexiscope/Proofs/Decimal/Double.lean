/-
  Lexiscope.Proofs.Decimal.Double

  Doubles and their bits.

  The core library reads a word of bits by taking it apart into sign, exponent
  and mantissa, and stores what it has read by putting the parts together
  again. Both steps are undone here for the words that stand for numbers, so
  that a double is found again from its bits (`toBits_ofBits`) and the bits
  tell whether it is finite (`isFinite_ofBits`).
-/
import Lexiscope.Decimal.Text
import Mathlib

namespace Lexiscope.Decimal

open Float.Model
open Float.Model.UnpackedFloat (Sign)

/-- The exponent field of a word. -/
abbrev exponentField (word : BitVec 64) : BitVec 11 := @UnpackedFloat.unpackExponent .binary64 word

/-- The mantissa field of a word. -/
abbrev mantissaField (word : BitVec 64) : BitVec 52 := @UnpackedFloat.unpackMantissa .binary64 word

/-- The sign of a word. -/
abbrev signField (word : BitVec 64) : Sign :=
  Sign.ofBitVec (@UnpackedFloat.unpackSign .binary64 word)

/-- The word with these fields. -/
def joinFields (sign : Sign) (exponent : BitVec 11) (mantissa : BitVec 52) : BitVec 64 :=
  UnpackedFloat.packComponents .binary64 sign exponent mantissa

theorem toNat_exponentField (word : BitVec 64) :
    (exponentField word).toNat = word.toNat / 2 ^ 52 % 2 ^ 11 := by
  simp only [exponentField, UnpackedFloat.unpackExponent, BitVec.toNat_cast,
    BitVec.extractLsb_toNat, Nat.shiftRight_eq_div_pow]

theorem toNat_mantissaField (word : BitVec 64) : (mantissaField word).toNat = word.toNat % 2 ^ 52 := by
  simp only [mantissaField, UnpackedFloat.unpackMantissa, BitVec.toNat_cast,
    BitVec.extractLsb_toNat, Nat.shiftRight_zero]

/-- A word is made of its fields. -/
theorem joinFields_self (word : BitVec 64) :
    joinFields (signField word) (exponentField word) (mantissaField word) = word := by
  have hsign : ∀ bit : BitVec 1, (Sign.ofBitVec bit).toBitVec = bit := by decide
  apply BitVec.eq_of_toNat_eq
  have hword := word.isLt
  have hexponent := (exponentField word).isLt
  have hmantissa := (mantissaField word).isLt
  rw [joinFields, UnpackedFloat.packComponents, BitVec.toNat_append, BitVec.toNat_append,
    signField, hsign, ← Nat.shiftLeft_add_eq_or_of_lt hmantissa,
    ← Nat.shiftLeft_add_eq_or_of_lt hexponent, toNat_exponentField, toNat_mantissaField]
  simp only [UnpackedFloat.unpackSign, BitVec.toNat_cast, BitVec.extractLsb_toNat,
    Nat.shiftRight_eq_div_pow, Nat.shiftLeft_eq]
  omega

/-- Storing a number below the full mantissas. -/
theorem pack_small {sign : Sign} {mantissa : Nat} {exponent : Int} (hpos : 0 < mantissa)
    (hmantissa : mantissa < 2 ^ 52) (hexponent : exponent = -1074) :
    UnpackedFloat.pack .binary64 (.finite sign mantissa exponent hpos) =
      joinFields sign 0 (BitVec.ofNat 52 mantissa) := by
  have hbiased : (exponent + Format.binary64.exponentBias
      + Format.binary64.mantissaBitsWithoutImplicit).toNat = 1 := by
    rw [hexponent]
    decide
  have hlog : ¬ mantissa.log2 + 1 = Format.binary64.mantissaBits := by
    have := (Nat.log2_lt (by omega)).mpr hmantissa
    have hbits : Format.binary64.mantissaBits = 53 := rfl
    omega
  rw [UnpackedFloat.pack]
  simp only [hbiased]
  rw [if_neg (by decide), if_neg hlog]
  rfl

/-- Storing a number with a full mantissa. -/
theorem pack_full {sign : Sign} {mantissa field : Nat} {exponent : Int} (hpos : 0 < mantissa)
    (hlow : 2 ^ 52 ≤ mantissa) (hhigh : mantissa < 2 ^ 53) (hfield : field < 2047)
    (hexponent : exponent = field - 1075) :
    UnpackedFloat.pack .binary64 (.finite sign mantissa exponent hpos) =
      joinFields sign (BitVec.ofNat 11 field) (BitVec.ofNat 52 mantissa) := by
  have hbiased : (exponent + Format.binary64.exponentBias
      + Format.binary64.mantissaBitsWithoutImplicit).toNat = field := by
    have hbias : (Format.binary64.exponentBias : Int) = 1023 := rfl
    have hplaces : (Format.binary64.mantissaBitsWithoutImplicit : Int) = 52 := rfl
    omega
  have hlog : mantissa.log2 + 1 = Format.binary64.mantissaBits := by
    have hge := (Nat.le_log2 (by omega)).mpr hlow
    have hlt := (Nat.log2_lt (by omega)).mpr hhigh
    have hbits : Format.binary64.mantissaBits = 53 := rfl
    omega
  have hfits : ¬ 2 ^ Format.binary64.exponentBits ≤ field + 1 := by
    have hwidth : 2 ^ Format.binary64.exponentBits = 2048 := rfl
    omega
  rw [UnpackedFloat.pack]
  simp only [hbiased]
  rw [if_neg hfits, if_pos hlog]
  rfl

/-- What is read from the words of numbers that are not negative. -/
theorem unpack_cases {word : BitVec 64} (h : word.toNat ≤ infinityBits) :
    (word.toNat = infinityBits ∧ exponentField word = -1#11 ∧ mantissaField word = 0#52
      ∧ UnpackedFloat.unpack .binary64 word = .infinity (signField word))
    ∨ (word.toNat ≠ infinityBits ∧ exponentField word = 0#11 ∧ mantissaField word = 0#52
      ∧ UnpackedFloat.unpack .binary64 word = .zero (signField word))
    ∨ (word.toNat ≠ infinityBits ∧ exponentField word = 0#11 ∧ ∃ hpos,
      UnpackedFloat.unpack .binary64 word =
        .finite (signField word) (mantissaField word).toNat (-1074) hpos)
    ∨ (word.toNat ≠ infinityBits ∧ (exponentField word).toNat < 2047 ∧ ∃ hpos,
      UnpackedFloat.unpack .binary64 word =
        .finite (signField word) (2 ^ 52 + (mantissaField word).toNat)
          ((exponentField word).toNat - 1075) hpos) := by
  have hexponent := toNat_exponentField word
  have hmantissa := toNat_mantissaField word
  have hinfinity : infinityBits = 2047 * 2 ^ 52 := rfl
  have hones : exponentField word = -1#11 ↔ (exponentField word).toNat = 2047 :=
    ⟨fun heq => by rw [heq]; rfl, fun heq => BitVec.eq_of_toNat_eq heq⟩
  by_cases hfinite : word.toNat = infinityBits
  · left
    have hexp : exponentField word = -1#11 := hones.mpr (by omega)
    have hman : mantissaField word = 0#52 := by
      apply BitVec.eq_of_toNat_eq
      rw [BitVec.toNat_zero]
      omega
    refine ⟨hfinite, hexp, hman, ?_⟩
    simp only [UnpackedFloat.unpack]
    rw [if_pos hexp, if_pos hman]
  · right
    have hexp : ¬ exponentField word = -1#11 := fun heq => by
      have := hones.mp heq
      omega
    by_cases hlow : exponentField word = 0#11
    · by_cases hman : mantissaField word = 0#52
      · left
        refine ⟨hfinite, hlow, hman, ?_⟩
        simp only [UnpackedFloat.unpack]
        rw [if_neg hexp, if_pos hlow, dif_pos hman]
      · right; left
        have hpos : 0 < (mantissaField word).toNat := by
          have hne : (mantissaField word).toNat ≠ 0 := fun heq => hman (BitVec.eq_of_toNat_eq heq)
          omega
        refine ⟨hfinite, hlow, hpos, ?_⟩
        simp only [UnpackedFloat.unpack]
        rw [if_neg hexp, if_pos hlow, dif_neg hman]
        simp only [hlow]
        rfl
    · right; right
      have hbelow : (exponentField word).toNat < 2047 := by omega
      refine ⟨hfinite, hbelow, by omega, ?_⟩
      have hfull : (1#1 ++ mantissaField word).toNat = 2 ^ 52 + (mantissaField word).toNat := by
        rw [BitVec.toNat_append, ← Nat.shiftLeft_add_eq_or_of_lt (mantissaField word).isLt]
        rfl
      simp only [UnpackedFloat.unpack]
      rw [if_neg hexp, if_neg hlow]
      simp only [hfull]
      rfl

/-- The words of numbers are found again. -/
theorem pack_unpack {word : BitVec 64} (h : word.toNat ≤ infinityBits) :
    UnpackedFloat.pack .binary64 (UnpackedFloat.unpack .binary64 word) = word := by
  have hself := joinFields_self word
  have hlt := (mantissaField word).isLt
  obtain ⟨-, hexp, hman, heq⟩ | ⟨-, hexp, hman, heq⟩ | ⟨-, hexp, hpos, heq⟩ | ⟨-, hexp, hpos, heq⟩ :=
    unpack_cases h
  · rw [hexp, hman] at hself
    rw [heq]
    exact hself
  · rw [hexp, hman] at hself
    rw [heq]
    exact hself
  · rw [hexp] at hself
    rw [heq, pack_small hpos hlt rfl, BitVec.ofNat_toNat, BitVec.setWidth_eq]
    exact hself
  · have hsame : BitVec.ofNat 52 (2 ^ 52 + (mantissaField word).toNat) = mantissaField word := by
      apply BitVec.eq_of_toNat_eq
      rw [BitVec.toNat_ofNat]
      omega
    rw [heq, pack_full hpos (by omega) (by omega) hexp rfl, BitVec.ofNat_toNat,
      BitVec.setWidth_eq, hsame]
    exact hself

theorem toNat_toBitVec_ofNat {bits : Nat} (h : bits ≤ infinityBits) :
    (UInt64.ofNat bits).toBitVec.toNat = bits :=
  Nat.mod_eq_of_lt (Nat.lt_of_le_of_lt h (by decide))

/-- A double is found again from its bits. -/
theorem toBits_ofBits {bits : Nat} (h : bits ≤ infinityBits) :
    (Float.ofBits (UInt64.ofNat bits)).toBits.toNat = bits := by
  have hword := toNat_toBitVec_ofNat h
  change (UnpackedFloat.pack .binary64
    (UnpackedFloat.unpack .binary64 (UInt64.ofNat bits).toBitVec)).toNat = bits
  rw [pack_unpack (by rw [hword]; exact h), hword]

/-- The bits tell whether a double is finite. -/
theorem isFinite_ofBits {bits : Nat} (h : bits ≤ infinityBits) :
    (Float.ofBits (UInt64.ofNat bits)).isFinite = true ↔ bits ≠ infinityBits := by
  have hword := toNat_toBitVec_ofNat h
  have hle : (UInt64.ofNat bits).toBitVec.toNat ≤ infinityBits := by rw [hword]; exact h
  have hread : (Float.ofBits (UInt64.ofNat bits)).isFinite =
      (UnpackedFloat.unpack .binary64 (UInt64.ofNat bits).toBitVec).isFinite := by
    change (UnpackedFloat.unpack .binary64 (UnpackedFloat.pack .binary64
      (UnpackedFloat.unpack .binary64 (UInt64.ofNat bits).toBitVec))).isFinite = _
    rw [pack_unpack hle]
  rw [hread]
  have hcases := unpack_cases hle
  rw [hword] at hcases
  obtain ⟨heq, -, -, hunpack⟩ | ⟨hne, -, -, hunpack⟩ | ⟨hne, -, _, hunpack⟩ | ⟨hne, -, _, hunpack⟩ :=
    hcases
  · rw [hunpack]
    simp [UnpackedFloat.isFinite, heq]
  · simp [hunpack, UnpackedFloat.isFinite, hne]
  · simp [hunpack, UnpackedFloat.isFinite, hne]
  · simp [hunpack, UnpackedFloat.isFinite, hne]

end Lexiscope.Decimal
