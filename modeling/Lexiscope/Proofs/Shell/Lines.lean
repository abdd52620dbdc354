/-
  Lexiscope.Proofs.Shell.Lines

  The lines of an input.

  The shell reads bytes and cuts them behind every newline. In UTF-8 a newline is
  never a part of another character, so the lines of a text are texts again. Two
  inputs in a row have the lines of both if the first one ends with a newline.
-/
import Lexiscope.Shell
import Lexiscope.Proofs.Text.Utf8
import Mathlib.Data.List.TakeWhile

namespace Lexiscope

open Shell (splitLines)

-- ============================================================================
-- Cutting
-- ============================================================================

theorem splitLines_ne_nil {bytes : List UInt8} (h : bytes ≠ []) : splitLines bytes ≠ [] := by
  cases bytes with
  | nil => exact absurd rfl h
  | cons b rest =>
    rw [splitLines]
    split
    · exact List.cons_ne_nil _ _
    · split
      · exact List.cons_ne_nil _ _
      · exact List.cons_ne_nil _ _

/-- Behind a newline, or at the very beginning, there is a cut. -/
theorem splitLines_append {u : List UInt8} (v : List UInt8) (h : ∀ b ∈ u.getLast?, b = 10) :
    splitLines (u ++ v) = splitLines u ++ splitLines v := by
  induction u with
  | nil => rfl
  | cons b rest ih =>
    by_cases hnil : rest = []
    · subst hnil
      obtain rfl : b = 10 := h b rfl
      simp only [List.cons_append, List.nil_append, splitLines, if_pos]
    · have ih := ih fun b hb => h b (by rwa [List.getLast?_cons_of_ne_nil hnil])
      obtain ⟨line, more, hlines⟩ := List.exists_cons_of_ne_nil (splitLines_ne_nil hnil)
      simp only [List.cons_append, splitLines, ih, hlines]
      split
      · rfl
      · rfl

/-- Bytes without a newline go to the front of the line that they are put before. -/
theorem splitLines_of_no_newline {bytes rest : List UInt8} (hne : bytes ≠ [])
    (h : ∀ b ∈ bytes, b ≠ 10) :
    splitLines (bytes ++ rest) =
      (bytes ++ (splitLines rest).headD []) :: (splitLines rest).tail := by
  induction bytes with
  | nil => exact absurd rfl hne
  | cons b bytes ih =>
    obtain ⟨hb, h⟩ := List.forall_mem_cons.mp h
    rw [List.cons_append, splitLines, if_neg hb]
    by_cases hnil : bytes = []
    · subst hnil
      rw [List.nil_append]
      cases splitLines rest with
      | nil => rfl
      | cons line more => rfl
    · rw [ih hnil h]
      rfl

-- ============================================================================
-- Texts
-- ============================================================================

theorem newline_eq_ofNat_iff {n : Nat} : (10 : UInt8) = UInt8.ofNat n ↔ n % 256 = 10 := by
  rw [← UInt8.toNat_inj, UInt8.toNat_ofNat']
  exact eq_comm

/-- Only a newline has the byte of a newline in it. -/
theorem eq_newline_of_mem_utf8EncodeChar {c : Char} (h : 10 ∈ String.utf8EncodeChar c) :
    c = '\n' := by
  have hcode : c.val.toNat = 10 := by
    unfold String.utf8EncodeChar at h
    dsimp only at h
    split at h
    · rw [List.mem_singleton, newline_eq_ofNat_iff] at h
      omega
    -- Every byte of a longer character is at least 128.
    · split at h
      · simp only [List.mem_cons, List.not_mem_nil, or_false, newline_eq_ofNat_iff] at h
        omega
      · split at h
        · simp only [List.mem_cons, List.not_mem_nil, or_false, newline_eq_ofNat_iff] at h
          omega
        · simp only [List.mem_cons, List.not_mem_nil, or_false, newline_eq_ofNat_iff] at h
          omega
  exact Char.ext (UInt32.toNat_inj.mp hcode)

theorem utf8_of_mem_splitLines (text : List Char) :
    ∀ line ∈ splitLines (utf8Bytes text), ∃ chars, line = utf8Bytes chars := by
  induction text with
  | nil => exact List.forall_mem_nil _
  | cons c text ih =>
    rw [utf8Bytes, List.flatMap_cons]
    by_cases hc : c = '\n'
    · subst hc
      rw [show String.utf8EncodeChar '\n' = [10] from rfl, List.singleton_append, splitLines,
        if_pos rfl]
      exact List.forall_mem_cons.mpr ⟨⟨['\n'], rfl⟩, ih⟩
    · have hbytes : ∀ b ∈ String.utf8EncodeChar c, b ≠ 10 := by
        rintro b hb rfl
        exact hc (eq_newline_of_mem_utf8EncodeChar hb)
      rw [splitLines_of_no_newline String.utf8EncodeChar_ne_nil hbytes]
      refine List.forall_mem_cons.mpr ⟨?_, fun line hline => ih line (List.mem_of_mem_tail hline)⟩
      cases hlines : splitLines (text.flatMap String.utf8EncodeChar) with
      | nil => exact ⟨[c], rfl⟩
      | cons line more =>
        obtain ⟨chars, hchars⟩ := ih line (by rw [utf8Bytes, hlines]; exact List.mem_cons_self)
        exact ⟨c :: chars, by rw [List.headD_cons, hchars]; rfl⟩

/-- The lines of a text are texts. -/
theorem isSome_decode?_of_mem_splitLines {input line : List UInt8}
    (h : (Text.decode? input).isSome) (hline : line ∈ splitLines input) :
    (Text.decode? line).isSome := by
  obtain ⟨text, rfl⟩ := isSome_decode?_iff.mp h
  exact isSome_decode?_iff.mpr (utf8_of_mem_splitLines text line hline)

-- ============================================================================
-- Blank lines
-- ============================================================================

/-- Is there anything but blanks on the line? -/
def holdsText (line : List UInt8) : Bool :=
  (Text.decode? line).any fun text => !text.toList.all Text.isBlank

/-- A text is trimmed away if it is all blank. -/
theorem Text.isEmpty_trimEnd (text : List Char) : (trimEnd text).isEmpty = text.all isBlank := by
  rw [Bool.eq_iff_iff, List.isEmpty_iff, trimEnd, List.reverse_eq_nil_iff, List.dropWhile_eq_nil_iff,
    List.all_eq_true]
  simp only [List.mem_reverse]

end Lexiscope
