/-
  Lexiscope.Proofs.Text.Utf8

  The bytes of a text, and their order.

  UTF-8 keeps the order of characters. The first byte of a character grows with the
  number of bytes; among characters with equally many bytes, these hold the digits of
  the scalar value to the base 64, the highest one first. So the bytes of two
  characters differ at a place where both still have one (`Parted`), and it does not
  matter what is put behind them: texts are ordered by their bytes as they are by their
  scalar values (`lex_bytes_iff`).
-/
import Lexiscope.Text.Utf8
import Mathlib.Data.String.Basic
import Mathlib.Order.Monotone.Basic

namespace Lexiscope

/-- The bytes of a text in UTF-8. -/
def utf8Bytes (text : List Char) : List UInt8 := text.flatMap String.utf8EncodeChar

theorem toByteArray_inj {u v : List UInt8} (h : u.toByteArray = v.toByteArray) : u = v := by
  rw [← List.toList_data_toByteArray (l := u), h, List.toList_data_toByteArray]

/-- What can be decoded is a text in UTF-8. -/
theorem isSome_decode?_iff {bytes : List UInt8} :
    (Text.decode? bytes).isSome ↔ ∃ text, bytes = utf8Bytes text := by
  rw [Text.decode?, String.fromUTF8?]
  constructor
  · intro h
    split at h
    · next hvalid =>
      obtain ⟨text, htext⟩ := hvalid
      exact ⟨text, toByteArray_inj htext⟩
    · cases h
  · rintro ⟨text, rfl⟩
    rw [dif_pos ⟨text, rfl⟩]
    rfl

namespace Text

/-- The bytes of a text, as it is encoded in UTF-8. -/
def bytes (s : String) : List UInt8 := s.toUTF8.data.toList

/-- The scalar values of the characters of a text. -/
def scalars (s : String) : List Nat := s.toList.map Char.toNat

theorem bytes_eq (s : String) : bytes s = utf8Bytes s.toList := by
  have hbytes : s.toByteArray = s.toList.utf8Encode := by
    rw [← String.toByteArray_ofList, String.ofList_toList]
  rw [bytes, String.toUTF8_eq_toByteArray, hbytes, List.utf8Encode, List.toList_data_toByteArray]
  rfl

-- ============================================================================
-- Bytes that differ before either list ends
-- ============================================================================

/-- At the first place where the lists differ both have a byte, and the first list has the smaller
    one. -/
inductive Parted : List UInt8 → List UInt8 → Prop where
  | here {x y : UInt8} {u v : List UInt8} (h : x < y) : Parted (x :: u) (y :: v)
  | later {x : UInt8} {u v : List UInt8} (h : Parted u v) : Parted (x :: u) (x :: v)

namespace Parted

variable {u v : List UInt8}

/-- Nothing that is put behind the lists changes their order. -/
theorem append (h : Parted u v) (s t : List UInt8) : Parted (u ++ s) (v ++ t) := by
  induction h with
  | here hlt => exact .here hlt
  | later _ ih => exact .later ih

theorem lex (h : Parted u v) : List.Lex (· < ·) u v := by
  induction h with
  | here hlt => exact .rel hlt
  | later _ ih => exact .cons ih

end Parted

-- ============================================================================
-- Characters
-- ============================================================================

/-- Continuation bytes for the last digits of a scalar value to the base 64. -/
def continuations (code : Nat) : Nat → List UInt8
  | 0 => []
  | digits + 1 => UInt8.ofNat (code / 64 ^ digits % 64 + 128) :: continuations code digits

/-- How many continuation bytes a scalar value needs. -/
def extent (code : Nat) : Nat :=
  if code ≤ 127 then 0 else if code ≤ 2047 then 1 else if code ≤ 65535 then 2 else 3

/-- The least first byte of a character with so many continuation bytes. -/
def leadMark : Nat → Nat
  | 0 => 0
  | 1 => 192
  | 2 => 224
  | 3 => 240
  | _ => 248

/-- The first byte of a character: what the digits in the continuation bytes leave over, and the
    mark that says how many there are. -/
def lead (code : Nat) : Nat := code / 64 ^ extent code + leadMark (extent code)

theorem toNat_lt (c : Char) : c.toNat < 0x110000 := by
  have hvalid : c.toNat.isValidChar := c.valid
  rcases hvalid with h | ⟨_, h⟩ <;> omega

/-- A character is its first byte and the continuation bytes that it needs. -/
theorem utf8EncodeChar_eq (c : Char) :
    String.utf8EncodeChar c =
      UInt8.ofNat (lead c.toNat) :: continuations c.toNat (extent c.toNat) := by
  have hcode := toNat_lt c
  unfold String.utf8EncodeChar lead
  fun_cases extent c.toNat with
  | case1 h =>
    simp only [Char.toNat_val, if_pos h, continuations, leadMark, Nat.pow_zero, Nat.div_one,
      Nat.add_zero]
  | case2 h h2 =>
    have hdigit : c.toNat / 64 % 32 = c.toNat / 64 := Nat.mod_eq_of_lt (by omega)
    simp only [Char.toNat_val, if_neg h, if_pos h2, hdigit, continuations, leadMark, Nat.pow_zero,
      Nat.pow_one, Nat.div_one]
  | case3 h h2 h3 =>
    have hdigit : c.toNat / 4096 % 16 = c.toNat / 4096 := Nat.mod_eq_of_lt (by omega)
    simp only [Char.toNat_val, if_neg h, if_neg h2, if_pos h3, hdigit, continuations, leadMark,
      Nat.pow_zero, Nat.pow_one, Nat.div_one, Nat.reducePow]
  | case4 h h2 h3 =>
    have hdigit : c.toNat / 262144 % 8 = c.toNat / 262144 := Nat.mod_eq_of_lt (by omega)
    simp only [Char.toNat_val, if_neg h, if_neg h2, if_neg h3, hdigit, continuations, leadMark,
      Nat.pow_zero, Nat.pow_one, Nat.div_one, Nat.reducePow]

theorem leadMark_mono : Monotone leadMark := by
  refine monotone_nat_of_le_succ fun k => ?_
  match k with
  | 0 | 1 | 2 | 3 => decide
  | k + 4 => exact Nat.le_refl 248

/-- The first byte says how many bytes follow. -/
theorem lead_mem {code : Nat} (h : code < 0x110000) :
    leadMark (extent code) ≤ lead code ∧ lead code < leadMark (extent code + 1) := by
  unfold lead
  fun_cases extent code <;> simp only [leadMark] <;> omega

theorem lead_lt {code : Nat} (h : code < 0x110000) : lead code < UInt8.size :=
  calc lead code < leadMark (extent code + 1) := (lead_mem h).2
    _ ≤ leadMark (extent code + 4) := leadMark_mono (by omega)
    _ ≤ 248 := Nat.le_refl 248
    _ < UInt8.size := by decide

theorem extent_mono : Monotone extent := by
  intro a b h
  fun_cases extent b <;> unfold extent <;> grind

theorem continuation_lt (n : Nat) : n % 64 + 128 < UInt8.size :=
  calc n % 64 + 128 < 64 + 128 := Nat.add_lt_add_right (Nat.mod_lt n (by decide)) 128
    _ < UInt8.size := by decide

/-- Where the digits in front agree, the larger value has the larger digits behind. -/
theorem parted_continuations {a b : Nat} (h : a < b) (digits : Nat)
    (hfront : a / 64 ^ digits = b / 64 ^ digits) :
    Parted (continuations a digits) (continuations b digits) := by
  induction digits with
  | zero =>
    rw [Nat.pow_zero, Nat.div_one, Nat.div_one] at hfront
    omega
  | succ digits ih =>
    rw [Nat.pow_succ, ← Nat.div_div_eq_div_mul, ← Nat.div_div_eq_div_mul] at hfront
    rw [continuations, continuations]
    have hle : a / 64 ^ digits ≤ b / 64 ^ digits := Nat.div_le_div_right h.le
    rcases hle.lt_or_eq with hlt | heq
    · have hdigit : a / 64 ^ digits % 64 + 128 < b / 64 ^ digits % 64 + 128 := by omega
      exact .here ((UInt8.ofNat_lt_iff_lt (continuation_lt _) (continuation_lt _)).mpr hdigit)
    · rw [heq]
      exact .later (ih heq)

/-- The bytes of two characters differ as the characters do. -/
theorem parted_utf8EncodeChar {c d : Char} (h : c < d) :
    Parted (String.utf8EncodeChar c) (String.utf8EncodeChar d) := by
  have hcode : c.toNat < d.toNat := h
  have hc := toNat_lt c
  have hd := toNat_lt d
  have hlead_lt := (UInt8.ofNat_lt_iff_lt (lead_lt hc) (lead_lt hd)).mpr
  rw [utf8EncodeChar_eq, utf8EncodeChar_eq]
  rcases (extent_mono hcode.le).lt_or_eq with hext | hext
  -- More bytes are marked by a larger first byte.
  · refine .here (hlead_lt ?_)
    calc lead c.toNat < leadMark (extent c.toNat + 1) := (lead_mem hc).2
      _ ≤ leadMark (extent d.toNat) := leadMark_mono hext
      _ ≤ lead d.toNat := (lead_mem hd).1
  -- Of equally many bytes, the first one holds the highest digits.
  · have hle : lead c.toNat ≤ lead d.toNat := by
      rw [lead, lead, hext]
      exact Nat.add_le_add_right (Nat.div_le_div_right hcode.le) _
    rcases hle.lt_or_eq with hlead | hlead
    · exact .here (hlead_lt hlead)
    · rw [hlead, hext]
      refine .later (parted_continuations hcode _ ?_)
      rw [lead, lead, hext] at hlead
      exact Nat.add_right_cancel hlead

-- ============================================================================
-- Texts
-- ============================================================================

/-- Characters in front that are the same have the same bytes; then the first ones that differ
    settle the order. -/
theorem lex_utf8Bytes {s t : List Char} (h : List.Lex (· < ·) s t) :
    List.Lex (· < ·) (utf8Bytes s) (utf8Bytes t) := by
  induction h with
  | @nil c t =>
    rw [utf8Bytes, utf8Bytes, List.flatMap_nil, List.flatMap_cons, utf8EncodeChar_eq]
    exact .nil
  | @rel c s d t hcd =>
    rw [utf8Bytes, utf8Bytes, List.flatMap_cons, List.flatMap_cons]
    exact ((parted_utf8EncodeChar hcd).append _ _).lex
  | @cons c s t _ ih =>
    rw [utf8Bytes, utf8Bytes, List.flatMap_cons, List.flatMap_cons]
    exact List.append_left_lt ih

/-- What keeps the order of texts also tells it, since of two texts one comes first. -/
theorem lex_iff_of_mono {α : Type} [LT α] [Std.Asymm (α := α) (· < ·)] {f : String → List α}
    (hmono : ∀ {s t : String}, s < t → List.Lex (· < ·) (f s) (f t)) {s t : String} :
    List.Lex (· < ·) (f s) (f t) ↔ s < t := by
  refine ⟨fun h => ?_, hmono⟩
  rcases lt_trichotomy s t with hst | rfl | hts
  · exact hst
  · exact absurd h (List.lt_asymm h)
  · exact absurd h (List.lt_asymm (hmono hts))

/-- Texts are ordered by their bytes. -/
theorem lex_bytes_iff {s t : String} : List.Lex (· < ·) (bytes s) (bytes t) ↔ s < t :=
  lex_iff_of_mono fun h => by
    rw [bytes_eq, bytes_eq]
    exact lex_utf8Bytes h

/-- Texts are ordered by the scalar values of their characters. -/
theorem lex_scalars_iff {s t : String} : List.Lex (· < ·) (scalars s) (scalars t) ↔ s < t :=
  lex_iff_of_mono fun h => List.map_lt (f := Char.toNat) (fun _ _ hcd => hcd) h

theorem bytes_inj {s t : String} : bytes s = bytes t ↔ s = t := by
  refine ⟨fun h => ?_, congrArg bytes⟩
  rw [bytes, bytes, String.toUTF8_eq_toByteArray, String.toUTF8_eq_toByteArray] at h
  exact String.toByteArray_inj.mp (ByteArray.ext (Array.toList_inj.mp h))

end Text

end Lexiscope
