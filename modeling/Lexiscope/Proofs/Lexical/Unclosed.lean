/-
  Lexiscope.Proofs.Lexical.Unclosed

  Block comments that are never closed.

  Inside of one the machine reads on to the end of the text and gives the place of the
  outermost mark (`skipGap_unclosed`): going down a level asks for one more rest of a
  comment, so a text that holds too few of them never leads back between comments. What
  stands before such a comment is a gap. It is found by taking blanks and whole comments
  off the front, without the machine (`exists_gap`).
-/
import Lexiscope.Proofs.Lexical.Gap

namespace Lexiscope.Lexical

/-- The text does not close a block comment that begins before it. -/
def Unclosed (text : List Char) : Prop := ∀ comment, CommentRest comment → ¬ comment <+: text

-- ============================================================================
-- Inside of a comment
-- ============================================================================

/-- The rest of one more comment may stand in front. -/
theorem closing_close {last : Bool} {count : Nat} {text : List Char} (h : Closing last count text) :
    Closing last (count + 1) ('*' :: '/' :: text) := ⟨['*', '/'], text, rfl, .close, h⟩

/-- Where too few comments are closed, all of the text is read. -/
theorem skipGap_inBlock {depth : Nat} {text : List Char}
    (h : ∀ closing, Closing false (depth + 1) closing → ¬ closing <+: text) (opened p : Pos) :
    skipGap (.block opened depth) text p = (some opened, ⟨[], p.after text⟩) := by
  match text with
  | [] => rfl
  | c :: rest =>
    by_cases hopen : ['/', '*'] <+: c :: rest
    · obtain ⟨tail, htail⟩ := hopen
      obtain ⟨rfl, rfl⟩ := List.cons.inj htail
      have hmore : ∀ closing, Closing false (depth + 2) closing → ¬ closing <+: tail := by
        intro closing hclosing hpre
        exact h _ (closing_nested hclosing) ((List.prefix_append_right_inj ['/', '*']).mpr hpre)
      exact skipGap_inBlock hmore opened (p.after ['/', '*'])
    · by_cases hclose : ['*', '/'] <+: c :: rest
      · obtain ⟨tail, htail⟩ := hclose
        obtain ⟨rfl, rfl⟩ := List.cons.inj htail
        cases depth with
        | zero => exact absurd ⟨tail, rfl⟩ (h _ (closing_close .nil))
        | succ depth =>
          have hless : ∀ closing, Closing false (depth + 1) closing → ¬ closing <+: tail := by
            intro closing hclosing hpre
            exact h _ (closing_close hclosing) ((List.prefix_append_right_inj ['*', '/']).mpr hpre)
          exact skipGap_inBlock hless opened (p.after ['*', '/'])
      · have hsame : ∀ closing, Closing false (depth + 1) closing → ¬ closing <+: rest := by
          rintro closing hclosing ⟨more, rfl⟩
          exact h _ (closing_cons hopen hclose hclosing) ⟨more, rfl⟩
        rw [skipGap_other hopen hclose]
        exact skipGap_inBlock hsame opened (p.step c)
termination_by text.length

/-- A block comment that is never closed is read to the end of the text. -/
theorem skipGap_unclosed {text : List Char} (h : Unclosed text) (opened p : Pos) :
    skipGap (.block opened 0) text p = (some opened, ⟨[], p.after text⟩) := by
  refine skipGap_inBlock ?_ opened p
  rintro _ ⟨comment, rest, rfl, hcomment, -⟩ hpre
  exact h comment hcomment ((List.prefix_append comment rest).trans hpre)

-- ============================================================================
-- Before the comment
-- ============================================================================

theorem Gap.append {last : Bool} {gap more : List Char} (h : Gap false gap) (hmore : Gap last more) :
    Gap last (gap ++ more) := by
  induction h with
  | nil => exact hmore
  | blank hblank _ ih => exact .blank hblank ih
  | @line body rest hbody _ ih =>
    rw [List.append_assoc, List.cons_append]
    exact .line hbody ih
  | lastLine hlast _ => exact absurd hlast Bool.false_ne_true
  | block hcomment _ ih =>
    rw [List.append_assoc]
    exact .block hcomment ih

/-- A gap begins, or a block comment that is never closed, where the text is not solid. A comment
    up to the end of the line may be all there is. -/
theorem gap_of_not_solid {text : List Char} (h : ¬ Solid text) :
    (∃ lead rest, text = lead ++ rest ∧ lead ≠ [] ∧ Gap false lead) ∨ Gap true text ∨
      ∃ comment, text = '/' :: '*' :: comment ∧ Unclosed comment := by
  cases text with
  | nil => exact absurd trivial h
  | cons c rest =>
    by_cases hblank : Text.isBlank c = true
    · exact .inl ⟨[c], rest, rfl, List.cons_ne_nil _ _, .blank hblank .nil⟩
    have hmark : c = '/' ∧ (rest.head? = some '/' ∨ rest.head? = some '*') := by
      refine Decidable.byContradiction fun hmark => ?_
      exact h ⟨Bool.eq_false_iff.mpr hblank, fun hc => not_or.mp fun hhead => hmark ⟨hc, hhead⟩⟩
    obtain ⟨rfl, hhead | hhead⟩ := hmark
    · obtain ⟨tail, rfl⟩ := List.head?_eq_some_iff.mp hhead
      by_cases hnewline : '\n' ∈ tail
      · obtain ⟨body, rest, rfl, hbody⟩ := List.eq_append_cons_of_mem hnewline
        exact .inl ⟨'/' :: '/' :: body ++ ['\n'], rest, by simp, List.cons_ne_nil _ _,
          .line hbody .nil⟩
      · exact .inr (.inl (.lastLine rfl hnewline))
    · obtain ⟨tail, rfl⟩ := List.head?_eq_some_iff.mp hhead
      by_cases hopen : Unclosed tail
      · exact .inr (.inr ⟨tail, rfl, hopen⟩)
      · simp only [Unclosed, Classical.not_forall, Classical.not_not] at hopen
        obtain ⟨comment, hcomment, rest, rfl⟩ := hopen
        have hgap : Gap false ('/' :: '*' :: comment ++ []) := .block hcomment .nil
        rw [List.append_nil] at hgap
        exact .inl ⟨'/' :: '*' :: comment, rest, rfl, List.cons_ne_nil _ _, hgap⟩

/-- A text is a last gap, or a gap stands before something else: a text in which no gap begins, or
    a block comment that is never closed. -/
theorem exists_gap (text : List Char) :
    Gap true text ∨ ∃ gap rest, text = gap ++ rest ∧ Gap false gap ∧
      (Solid rest ∨ ∃ comment, rest = '/' :: '*' :: comment ∧ Unclosed comment) := by
  by_cases hsolid : Solid text
  · exact .inr ⟨[], text, rfl, .nil, .inl hsolid⟩
  obtain ⟨lead, rest, htext, hne, hlead⟩ | hlast | hopen := gap_of_not_solid hsolid
  · have hlt : rest.length < text.length := by
      have hpos := List.length_pos_iff.mpr hne
      rw [htext, List.length_append]
      omega
    rw [htext]
    obtain hlast | ⟨gap, rest', rfl, hgap, hrest⟩ := exists_gap rest
    · exact .inl (hlead.append hlast)
    · exact .inr ⟨lead ++ gap, rest', by rw [List.append_assoc], hlead.append hgap, hrest⟩
  · exact .inl hlast
  · exact .inr ⟨[], text, rfl, .nil, .inr hopen⟩
termination_by text.length

/-- A block comment that is never closed is found behind a gap. -/
theorem Gap.skip_unclosed {gap comment : List Char} (hgap : Gap false gap) (h : Unclosed comment)
    (p : Pos) : skipGap .blank (gap ++ '/' :: '*' :: comment) p =
      (some (p.after gap), ⟨[], p.after (gap ++ '/' :: '*' :: comment)⟩) := by
  rw [hgap.pass_inner, Pos.after_append]
  exact skipGap_unclosed h (p.after gap) ((p.after gap).after ['/', '*'])

/-- A block comment that is found open stands behind a gap, and nothing closes it. -/
theorem unclosed_of_skipGap {text : List Char} {p opened : Pos} {next : Cursor}
    (h : skipGap .blank text p = (some opened, next)) :
    ∃ gap comment, text = gap ++ '/' :: '*' :: comment ∧ Gap false gap ∧ Unclosed comment ∧
      opened = p.after gap := by
  obtain hlast | ⟨gap, rest, rfl, hgap, hsolid | ⟨comment, rfl, hopen⟩⟩ := exists_gap text
  · have hskip := hlast.skip (fun _ => rfl) (show Solid [] from trivial) p
    rw [List.append_nil, h] at hskip
    cases hskip
  · rw [hgap.pass_inner, skipGap_solid hsolid] at h
    cases h
  · rw [hgap.skip_unclosed hopen] at h
    exact ⟨gap, comment, rfl, hgap, hopen, (Option.some.inj (Prod.mk.inj h).1).symm⟩

end Lexiscope.Lexical
