/-
  Lexiscope.Proofs.Printing.Quote

  Strings that are printed without escapes.

  The lexer reads a printed string up to the first quote that no backslash
  escapes, and decodes what it has read. If that is the string that was printed,
  the string has neither quotes nor backslashes (`plain_of_quoted`): decoding
  makes a text with a backslash shorter, so the lexer would have read beyond the
  printed string, and such a text can not begin with its own decoding and a
  quote, because every backslash in front asks for one more behind it.
-/
import Lexiscope.Proofs.Lexical.Munch

namespace Lexiscope.Printing

open Lexical

/-- The text has neither quotes nor backslashes. -/
def Plain (text : List Char) : Prop := '\'' ∉ text ∧ '\\' ∉ text

theorem plain_nil : Plain [] := ⟨List.not_mem_nil, List.not_mem_nil⟩

theorem Plain.cons {c : Char} {rest : List Char} (hquote : c ≠ '\'') (hslash : c ≠ '\\')
    (h : Plain rest) : Plain (c :: rest) :=
  ⟨List.not_mem_cons_of_ne_of_not_mem (Ne.symm hquote) h.1,
    List.not_mem_cons_of_ne_of_not_mem (Ne.symm hslash) h.2⟩

theorem unescape_cons {c : Char} (h : c ≠ '\\') (rest : List Char) :
    Token.unescape (c :: rest) = c :: Token.unescape rest := by
  rw [Token.unescape.eq_4]
  · exact fun hc _ => h hc
  · exact fun _ _ hc _ => h hc

/-- A plain text is its own decoding. -/
theorem Plain.unescape {text : List Char} (h : Plain text) : Token.unescape text = text := by
  induction text with
  | nil => rfl
  | cons c rest ih =>
    have hc : c ≠ '\\' := fun heq => h.2 (by simp [heq])
    rw [unescape_cons hc, ih ⟨fun hmem => h.1 (by simp [hmem]), fun hmem => h.2 (by simp [hmem])⟩]

/-- A plain text may stand between quotes. -/
theorem Plain.stringBody {text : List Char} (h : Plain text) : StringBody text := by
  induction text with
  | nil => exact .nil
  | cons c rest ih =>
    refine .plain (fun heq => h.1 (by simp [heq])) (fun heq => h.2 (by simp [heq])) (ih ?_)
    exact ⟨fun hmem => h.1 (by simp [hmem]), fun hmem => h.2 (by simp [hmem])⟩

/-- What stands between quotes is plain, or decoding makes it shorter. -/
theorem plain_or_shorter {body : List Char} (h : StringBody body) :
    Plain body ∨ (Token.unescape body).length < body.length := by
  have hle : ∀ {text : List Char}, StringBody text →
      (Token.unescape text).length ≤ text.length := by
    intro text htext
    induction htext with
    | nil => exact Nat.le_refl _
    | plain _ hslash _ ih =>
      rw [unescape_cons hslash]
      exact Nat.succ_le_succ ih
    | escape _ _ ih =>
      rw [Token.unescape, List.length_cons, List.length_cons, List.length_cons]
      omega
  induction h with
  | nil => exact .inl plain_nil
  | plain hquote hslash _ ih =>
    rw [unescape_cons hslash]
    obtain hplain | hlt := ih
    · exact .inl (hplain.cons hquote hslash)
    · exact .inr (Nat.succ_lt_succ hlt)
  | escape _ hrest _ =>
    right
    have := hle hrest
    rw [Token.unescape, List.length_cons, List.length_cons, List.length_cons]
    omega

/-- No text behind backslashes is its own decoding with a quote behind it. -/
theorem ne_unescape_quote {body : List Char} (h : StringBody body) (count : Nat)
    (rest : List Char) :
    List.replicate count '\\' ++ body ≠ Token.unescape body ++ '\'' :: rest := by
  induction h generalizing count with
  | nil =>
    cases count with
    | zero => exact fun heq => nomatch heq
    | succ count =>
      intro heq
      rw [List.replicate_succ, List.cons_append] at heq
      exact absurd (List.cons.inj heq).1 (by decide)
  | plain _ hslash _ ih =>
    rw [unescape_cons hslash]
    cases count with
    | zero => exact fun heq => ih 0 (List.cons.inj heq).2
    | succ count =>
      intro heq
      rw [List.replicate_succ, List.cons_append] at heq
      exact hslash (List.cons.inj heq).1.symm
  | @escape c body hc _ ih =>
    intro heq
    -- The decoded character is a backslash, so the escaped one is; it joins those in front.
    have hfirst : List.replicate count '\\' ++ '\\' :: c :: body =
        '\\' :: (List.replicate count '\\' ++ c :: body) := by
      rw [← List.cons_append, ← List.replicate_succ, List.replicate_succ', List.append_assoc]
      rfl
    rw [hfirst, Token.unescape, List.cons_append] at heq
    obtain ⟨hdecoded, htail⟩ := List.cons.inj heq
    have hslash : c = '\\' := by
      simp only [List.mem_cons, List.not_mem_nil, or_false] at hc
      obtain rfl | rfl | rfl | rfl := hc
      · exact absurd hdecoded (by decide)
      · exact absurd hdecoded (by decide)
      · rfl
      · exact absurd hdecoded (by decide)
    apply ih (count + 1)
    rw [← htail, hslash, List.replicate_succ', List.append_assoc]
    rfl

/-- A printed string that the lexer reads as itself is plain, and read as a whole. -/
theorem plain_of_quoted {body text after rest : List Char} (h : StringBody body)
    (hread : Token.unescape body = text)
    (heq : body ++ '\'' :: after = text ++ '\'' :: rest) :
    Plain text ∧ body = text ∧ after = rest := by
  obtain hplain | hlt := plain_or_shorter h
  · obtain rfl : body = text := hplain.unescape.symm.trans hread
    exact ⟨hplain, rfl, (List.cons.inj (List.append_cancel_left heq)).2⟩
  · exfalso
    rw [hread] at hlt
    obtain ⟨more, htext, -⟩ | ⟨more, hbody, hmore⟩ := List.append_eq_append_iff.mp heq
    · have hlength := congrArg List.length htext
      rw [List.length_append] at hlength
      omega
    · cases more with
      | nil =>
        rw [List.append_nil] at hbody
        rw [hbody] at hlt
        omega
      | cons c more =>
        obtain ⟨rfl, -⟩ := List.cons.inj hmore
        refine ne_unescape_quote h 0 more ?_
        rw [hread, List.replicate_zero, List.nil_append]
        exact hbody

end Lexiscope.Printing
