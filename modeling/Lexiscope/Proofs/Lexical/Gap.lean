/-
  Lexiscope.Proofs.Lexical.Gap

  Passing over blanks and comments.

  `skipGap` is a machine with a mode, `Gap` says what a gap is without one. A
  gap is passed over as a whole (`Gap.pass`), and the machine stops behind it
  where no gap begins (`Gap.skip`); each rest of a comment brings the machine
  one level up (`CommentRest.skip`). The other way round, what the machine has
  passed over is described mode by mode (`Passed`), and from the blank mode it
  is a gap (`gap_of_skipGap`).
-/
import Lexiscope.Proofs.Lexical.Basic

namespace Lexiscope.Lexical

/-- No gap begins here: the text is at its end, or its first character is no blank and begins no
    comment. -/
def Solid : List Char → Prop
  | [] => True
  | c :: rest =>
    Text.isBlank c = false ∧ (c = '/' → rest.head? ≠ some '/' ∧ rest.head? ≠ some '*')

/-- The mode behind the end of a block comment. -/
def closed (opened : Pos) : Nat → GapMode
  | 0 => .blank
  | depth + 1 => .block opened depth

-- ============================================================================
-- Gaps are passed over
-- ============================================================================

/-- Where no comment begins, a blank is passed over, and nothing else is. -/
theorem skipGap_char {c : Char} {rest : List Char}
    (hline : ∀ tail, c = '/' → rest ≠ '/' :: tail) (hblock : ∀ tail, c = '/' → rest ≠ '*' :: tail)
    (p : Pos) : skipGap .blank (c :: rest) p
      = if Text.isBlank c then skipGap .blank rest (p.step c) else (none, ⟨c :: rest, p⟩) := by
  rw [skipGap.eq_def]
  split
  all_goals simp_all

theorem skipGap_inLine (c : Char) (rest : List Char) (p : Pos) :
    skipGap .line (c :: rest) p = skipGap (if c = '\n' then .blank else .line) rest (p.step c) := rfl

theorem skipGap_solid {text : List Char} (h : Solid text) (p : Pos) :
    skipGap .blank text p = (none, ⟨text, p⟩) := by
  cases text with
  | nil => rfl
  | cons c rest =>
    obtain ⟨hblank, hmark⟩ := h
    rw [skipGap_char, if_neg (Bool.eq_false_iff.mp hblank)]
    · rintro tail hc rfl
      exact (hmark hc).1 rfl
    · rintro tail hc rfl
      exact (hmark hc).2 rfl

theorem skipGap_blank {c : Char} (h : Text.isBlank c = true) (rest : List Char) (p : Pos) :
    skipGap .blank (c :: rest) p = skipGap .blank rest (p.step c) := by
  have hc : c ≠ '/' := by
    rintro rfl
    exact absurd h (by decide)
  rw [skipGap_char, if_pos h]
  · exact fun _ heq _ => hc heq
  · exact fun _ heq _ => hc heq

theorem skipGap_line {body : List Char} (h : '\n' ∉ body) (rest : List Char) (p : Pos) :
    skipGap .line (body ++ '\n' :: rest) p = skipGap .blank rest (p.after (body ++ ['\n'])) := by
  induction body generalizing p with
  | nil => rfl
  | cons c body ih =>
    obtain ⟨hc, hbody⟩ := List.ne_and_not_mem_of_not_mem_cons h
    rw [List.cons_append, skipGap_inLine, if_neg (Ne.symm hc), ih hbody, List.cons_append, Pos.after_cons]

theorem skipGap_lastLine {body : List Char} (h : '\n' ∉ body) (p : Pos) :
    skipGap .line body p = (none, ⟨[], p.after body⟩) := by
  induction body generalizing p with
  | nil => rfl
  | cons c body ih =>
    obtain ⟨hc, hbody⟩ := List.ne_and_not_mem_of_not_mem_cons h
    rw [skipGap_inLine, if_neg (Ne.symm hc), ih hbody, Pos.after_cons]

theorem skipGap_close (opened : Pos) (depth : Nat) (rest : List Char) (p : Pos) :
    skipGap (.block opened depth) ('*' :: '/' :: rest) p =
      skipGap (closed opened depth) rest (p.after ['*', '/']) := by
  cases depth with
  | zero => rfl
  | succ depth => rfl

theorem skipGap_other {c : Char} {rest : List Char} (hopen : ¬ ['/', '*'] <+: c :: rest)
    (hclose : ¬ ['*', '/'] <+: c :: rest) (opened : Pos) (depth : Nat) (p : Pos) :
    skipGap (.block opened depth) (c :: rest) p =
      skipGap (.block opened depth) rest (p.step c) := by
  have hnoOpen : ∀ tail, c = '/' → rest ≠ '*' :: tail := by
    rintro tail rfl rfl
    exact hopen ⟨tail, rfl⟩
  have hnoClose : ∀ tail, c = '*' → rest ≠ '/' :: tail := by
    rintro tail rfl rfl
    exact hclose ⟨tail, rfl⟩
  rw [skipGap.eq_def]
  split
  all_goals simp_all

theorem CommentRest.ne_nil {comment : List Char} (h : CommentRest comment) : comment ≠ [] := by
  cases h <;> simp

theorem CommentRest.two_le_length {comment : List Char} (h : CommentRest comment) :
    2 ≤ comment.length := by
  cases h with
  | close => exact Nat.le_refl 2
  | nested _ _ => simp
  | other _ _ hrest =>
    have hpos := List.length_pos_iff.mpr hrest.ne_nil
    rw [List.length_cons]
    omega

/-- The mark with which the rest of a comment begins does not reach behind it. -/
theorem CommentRest.mark_iff {comment mark : List Char} (h : CommentRest comment)
    (hmark : mark.length = 2) (after : List Char) :
    mark <+: comment ++ after ↔ mark <+: comment := by
  constructor
  · intro hpre
    refine List.prefix_of_prefix_length_le hpre (List.prefix_append comment after) ?_
    rw [hmark]
    exact h.two_le_length
  · exact fun hpre => hpre.trans (List.prefix_append comment after)

/-- The rest of a comment brings the machine one level up. -/
theorem CommentRest.skip {comment : List Char} (h : CommentRest comment) (opened : Pos)
    (depth : Nat) (rest : List Char) (p : Pos) :
    skipGap (.block opened depth) (comment ++ rest) p =
      skipGap (closed opened depth) rest (p.after comment) := by
  induction h generalizing depth rest p with
  | close => exact skipGap_close opened depth rest p
  | @nested inner tail _ _ ihinner ih =>
    calc skipGap (.block opened depth) ('/' :: '*' :: inner ++ tail ++ rest) p
      _ = skipGap (.block opened (depth + 1)) (inner ++ (tail ++ rest)) (p.after ['/', '*']) := by
          rw [List.append_assoc]
          rfl
      _ = skipGap (.block opened depth) (tail ++ rest) ((p.after ['/', '*']).after inner) :=
          ihinner (depth + 1) (tail ++ rest) _
      _ = skipGap (closed opened depth) rest (((p.after ['/', '*']).after inner).after tail) :=
          ih depth rest _
      _ = skipGap (closed opened depth) rest (p.after ('/' :: '*' :: inner ++ tail)) := by
          rw [← Pos.after_append, ← Pos.after_append]
          rfl
  | @other c tail hopen hclose htail ih =>
    have hmark : ∀ {mark : List Char}, mark.length = 2 → ¬ mark <+: c :: tail →
        ¬ mark <+: c :: (tail ++ rest) := by
      intro mark hlength hnot hpre
      exact hnot (((CommentRest.other hopen hclose htail).mark_iff hlength rest).mp hpre)
    rw [List.cons_append, skipGap_other (hmark rfl hopen) (hmark rfl hclose), ih, Pos.after_cons]

/-- A gap is passed over, whatever follows it. -/
theorem Gap.pass {last : Bool} {gap rest : List Char} (h : Gap last gap)
    (hlast : last = true → rest = []) (p : Pos) :
    skipGap .blank (gap ++ rest) p = skipGap .blank rest (p.after gap) := by
  induction h generalizing p with
  | nil => rfl
  | blank hblank _ ih => rw [List.cons_append, skipGap_blank hblank, ih, Pos.after_cons]
  | @line body tail hbody _ ih =>
    calc skipGap .blank ('/' :: '/' :: body ++ '\n' :: tail ++ rest) p
      _ = skipGap .line (body ++ '\n' :: (tail ++ rest)) (p.after ['/', '/']) := by
          rw [List.append_assoc]
          rfl
      _ = skipGap .blank (tail ++ rest) ((p.after ['/', '/']).after (body ++ ['\n'])) :=
          skipGap_line hbody _ _
      _ = skipGap .blank rest (((p.after ['/', '/']).after (body ++ ['\n'])).after tail) := ih _
      _ = skipGap .blank rest (p.after ('/' :: '/' :: body ++ '\n' :: tail)) := by
          rw [← Pos.after_append, ← Pos.after_append]
          simp
  | @lastLine body hl hbody =>
    rw [hlast hl, List.append_nil]
    exact skipGap_lastLine hbody _
  | @block comment tail hcomment _ ih =>
    calc skipGap .blank ('/' :: '*' :: comment ++ tail ++ rest) p
      _ = skipGap (.block p 0) (comment ++ (tail ++ rest)) (p.after ['/', '*']) := by
          rw [List.append_assoc]
          rfl
      _ = skipGap .blank (tail ++ rest) ((p.after ['/', '*']).after comment) :=
          hcomment.skip p 0 _ _
      _ = skipGap .blank rest (((p.after ['/', '*']).after comment).after tail) := ih _
      _ = skipGap .blank rest (p.after ('/' :: '*' :: comment ++ tail)) := by
          rw [← Pos.after_append, ← Pos.after_append]
          rfl

theorem Gap.pass_inner {gap : List Char} (h : Gap false gap) (rest : List Char) (p : Pos) :
    skipGap .blank (gap ++ rest) p = skipGap .blank rest (p.after gap) :=
  h.pass (fun hlast => absurd hlast Bool.false_ne_true) p

/-- Behind a gap, passing over stops at a text in which no gap begins. -/
theorem Gap.skip {last : Bool} {gap rest : List Char} (h : Gap last gap)
    (hlast : last = true → rest = []) (hrest : Solid rest) (p : Pos) :
    skipGap .blank (gap ++ rest) p = (none, ⟨rest, p.after gap⟩) := by
  rw [h.pass hlast, skipGap_solid hrest]

-- ============================================================================
-- What is passed over is a gap
-- ============================================================================

/-- The rest of a comment up to the end of the line, and a gap behind it. -/
inductive LineRest (last : Bool) : List Char → Prop where
  | newline {rest : List Char} (h : Gap last rest) : LineRest last ('\n' :: rest)
  | stop (hlast : last = true) : LineRest last []
  | other {c : Char} {rest : List Char} (hc : c ≠ '\n') (h : LineRest last rest) :
      LineRest last (c :: rest)

/-- The rests of so many block comments, and a gap behind them. -/
def Closing (last : Bool) : Nat → List Char → Prop
  | 0, text => Gap last text
  | count + 1, text =>
    ∃ comment rest, text = comment ++ rest ∧ CommentRest comment ∧ Closing last count rest

/-- What may be passed over beginning in a mode. -/
def Passed (last : Bool) : GapMode → List Char → Prop
  | .blank, text => Gap last text
  | .line, text => LineRest last text
  | .block _ depth, text => Closing last (depth + 1) text

/-- A line comment is its marks, its body and a newline, or ends with the text. -/
theorem LineRest.gap {last : Bool} {text : List Char} (h : LineRest last text) :
    Gap last ('/' :: '/' :: text) := by
  have hsplit : (∃ body rest, text = body ++ '\n' :: rest ∧ '\n' ∉ body ∧ Gap last rest)
      ∨ (last = true ∧ '\n' ∉ text) := by
    induction h with
    | @newline rest h => exact .inl ⟨[], rest, rfl, List.not_mem_nil, h⟩
    | stop hlast => exact .inr ⟨hlast, List.not_mem_nil⟩
    | @other c rest hc _ ih =>
      obtain ⟨body, rest, rfl, hbody, hgap⟩ | ⟨hlast, hbody⟩ := ih
      · exact .inl ⟨c :: body, rest, rfl, List.not_mem_cons_of_ne_of_not_mem (Ne.symm hc) hbody, hgap⟩
      · exact .inr ⟨hlast, List.not_mem_cons_of_ne_of_not_mem (Ne.symm hc) hbody⟩
  obtain ⟨body, rest, rfl, hbody, hgap⟩ | ⟨hlast, hbody⟩ := hsplit
  · exact .line hbody hgap
  · exact .lastLine hlast hbody

/-- A character that begins no mark may stand before the rest of a block comment. -/
theorem closing_cons {last : Bool} {count : Nat} {c : Char} {text rest : List Char}
    (hopen : ¬ ['/', '*'] <+: c :: (text ++ rest)) (hclose : ¬ ['*', '/'] <+: c :: (text ++ rest))
    (h : Closing last (count + 1) text) : Closing last (count + 1) (c :: text) := by
  obtain ⟨comment, tail, rfl, hcomment, htail⟩ := h
  have hpre : c :: comment <+: c :: (comment ++ tail ++ rest) :=
    ⟨tail ++ rest, by rw [List.cons_append, List.append_assoc]⟩
  exact ⟨c :: comment, tail, rfl,
    .other (fun h => hopen (h.trans hpre)) (fun h => hclose (h.trans hpre)) hcomment, htail⟩

/-- A comment inside a block comment closes before it. -/
theorem closing_nested {last : Bool} {count : Nat} {text : List Char}
    (h : Closing last (count + 2) text) : Closing last (count + 1) ('/' :: '*' :: text) := by
  obtain ⟨inner, _, rfl, hinner, comment, tail, rfl, hcomment, htail⟩ := h
  refine ⟨'/' :: '*' :: inner ++ comment, tail, ?_, .nested hinner hcomment, htail⟩
  simp only [List.cons_append, List.append_assoc]

/-- What is passed over is what may be passed over in the mode, and no gap begins behind it. -/
theorem passed_of_skipGap {mode : GapMode} {text : List Char} {p : Pos}
    {next : Cursor} (h : skipGap mode text p = (none, next)) :
    ∃ gap, text = gap ++ next.rest ∧ next.pos = p.after gap ∧ Solid next.rest
      ∧ Passed next.rest.isEmpty mode gap := by
  fun_induction skipGap mode text p with
  | case1 => exact nomatch h
  | case2 mode p hmode =>
    obtain ⟨-, rfl⟩ := Prod.mk.inj h
    refine ⟨[], rfl, rfl, trivial, ?_⟩
    cases mode with
    | blank => exact .nil
    | line => exact .stop rfl
    | block opened depth => exact absurd rfl (hmode opened depth)
  | case3 rest p ih =>
    obtain ⟨gap, rfl, hpos, hsolid, hgap⟩ := ih h
    exact ⟨'/' :: '/' :: gap, rfl, hpos, hsolid, hgap.gap⟩
  | case4 rest p ih =>
    obtain ⟨gap, rfl, hpos, hsolid, comment, tail, rfl, hcomment, htail⟩ := ih h
    exact ⟨'/' :: '*' :: (comment ++ tail), rfl, hpos, hsolid, .block hcomment htail⟩
  | case5 c rest p hline hblock hblank ih =>
    obtain ⟨gap, rfl, hpos, hsolid, hgap⟩ := ih h
    exact ⟨c :: gap, rfl, hpos, hsolid, .blank hblank hgap⟩
  | case6 c rest p hline hblock hblank =>
    obtain ⟨-, rfl⟩ := Prod.mk.inj h
    refine ⟨[], rfl, rfl, ⟨Bool.eq_false_iff.mpr hblank, ?_⟩, .nil⟩
    intro hc
    constructor
    · intro hhead
      obtain ⟨tail, rfl⟩ := List.head?_eq_some_iff.mp hhead
      exact hline tail hc rfl
    · intro hhead
      obtain ⟨tail, rfl⟩ := List.head?_eq_some_iff.mp hhead
      exact hblock tail hc rfl
  | case7 c rest p ih =>
    obtain ⟨gap, rfl, hpos, hsolid, hgap⟩ := ih h
    refine ⟨c :: gap, rfl, hpos, hsolid, ?_⟩
    by_cases hc : c = '\n'
    · rw [if_pos hc] at hgap
      rw [hc]
      exact .newline hgap
    · rw [if_neg hc] at hgap
      exact .other hc hgap
  | case8 opened depth rest p ih =>
    obtain ⟨gap, rfl, hpos, hsolid, hgap⟩ := ih h
    exact ⟨'/' :: '*' :: gap, rfl, hpos, hsolid, closing_nested hgap⟩
  | case9 opened rest p ih =>
    obtain ⟨gap, rfl, hpos, hsolid, hgap⟩ := ih h
    exact ⟨'*' :: '/' :: gap, rfl, hpos, hsolid, ['*', '/'], gap, rfl, .close, hgap⟩
  | case10 opened depth rest p ih =>
    obtain ⟨gap, rfl, hpos, hsolid, hgap⟩ := ih h
    exact ⟨'*' :: '/' :: gap, rfl, hpos, hsolid, ['*', '/'], gap, rfl, .close, hgap⟩
  | case11 opened depth c rest p hopen hclose hcloseInner ih =>
    obtain ⟨gap, rfl, hpos, hsolid, hgap⟩ := ih h
    have hnoOpen : ¬ ['/', '*'] <+: c :: (gap ++ next.rest) := by
      rintro ⟨tail, htail⟩
      obtain ⟨rfl, hrest⟩ := List.cons.inj htail
      exact hopen tail rfl hrest.symm
    have hnoClose : ¬ ['*', '/'] <+: c :: (gap ++ next.rest) := by
      rintro ⟨tail, htail⟩
      obtain ⟨rfl, hrest⟩ := List.cons.inj htail
      cases depth with
      | zero => exact hclose tail rfl rfl hrest.symm
      | succ depth => exact hcloseInner depth tail rfl rfl hrest.symm
    exact ⟨c :: gap, rfl, hpos, hsolid, closing_cons hnoOpen hnoClose hgap⟩

/-- What is passed over between comments is a gap. -/
theorem gap_of_skipGap {text : List Char} {p : Pos} {next : Cursor}
    (h : skipGap .blank text p = (none, next)) :
    ∃ gap, text = gap ++ next.rest ∧ next.pos = p.after gap ∧ Solid next.rest
      ∧ Gap next.rest.isEmpty gap :=
  passed_of_skipGap h

end Lexiscope.Lexical
