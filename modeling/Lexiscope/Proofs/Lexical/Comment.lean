/-
  Lexiscope.Proofs.Lexical.Comment

  Block comments, and source texts that begin with one.

  No comment is the beginning of another (`CommentRest.unique`), so a text that begins
  with a comment says where it ends. Passing over blanks and comments reads exactly that
  much. Where no comment begins, all of the text is read and the mark is reported that
  stands in front; a later comment may be reported as well, but it stands further on,
  so the place tells which of both has happened (`reports_opened_iff`). A comment in
  front of a source text only makes its first gap longer, and moves what follows.
-/
import Lexiscope.Proofs.Lexical.Halt
import Lexiscope.Proofs.Lexical.Places
import Lexiscope.Proofs.Printing.Respaced

namespace Lexiscope

/-- The error without its place. -/
def LexError.unplaced : LexError → LexError
  | unexpectedCharacter _ c => unexpectedCharacter Pos.first c
  | unterminatedString _ => unterminatedString Pos.first
  | unterminatedComment _ => unterminatedComment Pos.first
  | invalidEscape _ c => invalidEscape Pos.first c

namespace Lexical

/-- A block comment: the mark that opens it, and its rest up to the mark that closes it. -/
def IsBlockComment (text : List Char) : Prop :=
  ∃ rest, text = '/' :: '*' :: rest ∧ CommentRest rest

/-- Tokens of the same kinds, with the same lexemes, or errors that differ in their place only. -/
inductive ReadAlike : Except LexError (List Token) → Except LexError (List Token) → Prop where
  | tokens {ts us : List Token} (h : us.map Token.reading = ts.map Token.reading) :
      ReadAlike (.ok ts) (.ok us)
  | error {e f : LexError} (h : f.unplaced = e.unplaced) : ReadAlike (.error e) (.error f)

-- ============================================================================
-- One comment
-- ============================================================================

/-- The rest of a comment ends with the first mark that closes it. -/
theorem CommentRest.of_close {text : List Char} (h : CommentRest ('*' :: '/' :: text)) :
    text = [] := by
  cases h with
  | close => rfl
  | other _ hclose _ => exact absurd ⟨text, rfl⟩ hclose

/-- Behind a mark that opens a comment there is this comment, and then the rest goes on. -/
theorem CommentRest.of_open {text : List Char} (h : CommentRest ('/' :: '*' :: text)) :
    ∃ inner rest, text = inner ++ rest ∧ CommentRest inner ∧ CommentRest rest := by
  cases h with
  | nested hinner hrest => exact ⟨_, _, rfl, hinner, hrest⟩
  | other hopen _ _ => exact absurd ⟨text, rfl⟩ hopen

/-- Behind a character that begins no mark the rest goes on. -/
theorem CommentRest.of_other {c : Char} {text : List Char} (h : CommentRest (c :: text))
    (hopen : ¬ ['/', '*'] <+: c :: text) (hclose : ¬ ['*', '/'] <+: c :: text) :
    CommentRest text := by
  cases h with
  | close => exact absurd List.prefix_rfl hclose
  | nested _ _ => exact absurd ⟨_, rfl⟩ hopen
  | other _ _ hrest => exact hrest

/-- No text begins with two rests of a comment. -/
theorem CommentRest.unique {comment comment' after after' : List Char} (h : CommentRest comment)
    (h' : CommentRest comment') (heq : comment ++ after = comment' ++ after') :
    comment = comment' := by
  have hmarks : ∀ {c c' a a' : List Char}, CommentRest c → CommentRest c' → c ++ a = c' ++ a' →
      ∀ mark : List Char, mark.length = 2 → (mark <+: c' ↔ mark <+: c) := by
    intro c c' a a' hc hc' hsame mark hmark
    rw [← hc.mark_iff hmark a, hsame, hc'.mark_iff hmark a']
  induction h generalizing comment' after after' with
  | close =>
    obtain ⟨text, rfl⟩ := (hmarks .close h' heq ['*', '/'] rfl).mpr List.prefix_rfl
    obtain rfl : text = [] := h'.of_close
    rfl
  | @nested inner rest hinner hrest ihinner ih =>
    have hopen : ['/', '*'] <+: '/' :: '*' :: inner ++ rest := ⟨inner ++ rest, rfl⟩
    obtain ⟨text, rfl⟩ := (hmarks (.nested hinner hrest) h' heq ['/', '*'] rfl).mpr hopen
    obtain ⟨inner', rest', rfl, hinner', hrest'⟩ := h'.of_open
    have hbehind : inner ++ (rest ++ after) = inner' ++ (rest' ++ after') := by
      simpa using heq
    obtain rfl := ihinner hinner' hbehind
    obtain rfl := ih hrest' (List.append_cancel_left hbehind)
    rfl
  | @other c rest hopen hclose hrest ih =>
    obtain ⟨d, rest', rfl⟩ := List.exists_cons_of_ne_nil h'.ne_nil
    have hmarks := hmarks (.other hopen hclose hrest) h' heq
    obtain ⟨rfl, hbehind⟩ := List.cons.inj heq
    have hrest' := h'.of_other (mt (hmarks _ rfl).mp hopen) (mt (hmarks _ rfl).mp hclose)
    rw [ih hrest' hbehind]

theorem IsBlockComment.unique {comment comment' text : List Char} (h : IsBlockComment comment)
    (h' : IsBlockComment comment') (hpre : comment <+: text) (hpre' : comment' <+: text) :
    comment = comment' := by
  obtain ⟨rest, rfl, hrest⟩ := h
  obtain ⟨rest', rfl, hrest'⟩ := h'
  obtain ⟨after, rfl⟩ := hpre
  obtain ⟨after', hafter⟩ := hpre'
  have hbehind : rest ++ after = rest' ++ after' := by simpa using hafter.symm
  rw [hrest.unique hrest' hbehind]

-- ============================================================================
-- Behind the mark that opens a comment
-- ============================================================================

variable {text : List Char} {opened : Pos}

/-- What begins with the mark begins with a comment exactly if what is behind the mark closes it. -/
theorem unclosed_iff :
    Unclosed text ↔ ∀ comment, IsBlockComment comment → ¬ comment <+: '/' :: '*' :: text := by
  constructor
  · rintro hopen _ ⟨rest, rfl, hrest⟩ hpre
    exact hopen rest hrest ((List.prefix_append_right_inj ['/', '*']).mp hpre)
  · intro h rest hrest hpre
    exact h _ ⟨rest, rfl, hrest⟩ ((List.prefix_append_right_inj ['/', '*']).mpr hpre)

/-- A comment is passed over, and nothing behind it. -/
theorem IsBlockComment.skip {comment rest : List Char} (h : IsBlockComment comment)
    (htext : '/' :: '*' :: text = comment ++ rest) :
    skipGap (.block opened 0) text (opened.after ['/', '*']) =
      skipGap .blank rest (opened.after comment) := by
  obtain ⟨inside, rfl, hinside⟩ := h
  obtain rfl : text = inside ++ rest := by simpa using htext
  have hpos : opened.after ('/' :: '*' :: inside) = (opened.after ['/', '*']).after inside :=
    opened.after_append ['/', '*'] inside
  rw [hinside.skip, hpos]
  rfl

/-- The mark is reported exactly if no comment begins with it: a comment further on that is not
    closed stands somewhere else. -/
theorem reports_opened_iff :
    (skipGap (.block opened 0) text (opened.after ['/', '*'])).1 = some opened ↔ Unclosed text := by
  constructor
  · intro hreported rest hrest ⟨after, htext⟩
    have hcomment : IsBlockComment ('/' :: '*' :: rest) := ⟨rest, rfl, hrest⟩
    rw [hcomment.skip (by rw [← htext]; rfl)] at hreported
    obtain ⟨gap, later, -, -, -, hplace⟩ :=
      unclosed_of_skipGap (Prod.ext hreported rfl : _ = (some opened, _))
    rw [← Pos.after_append] at hplace
    exact opened.after_ne (by simp) hplace.symm
  · intro hopen
    rw [skipGap_unclosed hopen]

-- ============================================================================
-- In front of a source text
-- ============================================================================

/-- The same fault somewhere else is reported as the same error. -/
theorem Fault.elsewhere {p : Pos} {taken after : List Char} {e : LexError}
    (h : Fault p taken after e) (q : Pos) :
    ∃ f, Fault q taken after f ∧ f.unplaced = e.unplaced := by
  cases h with
  | stray hquote hsolid hnone => exact ⟨_, .stray hquote hsolid hnone, rfl⟩
  | openString hbody htail => exact ⟨_, .openString hbody htail, rfl⟩
  | openComment hopen => exact ⟨_, .openComment hopen, rfl⟩
  | badEscape hbody hc => exact ⟨_, .badEscape hbody hc, rfl⟩

theorem Halts.elsewhere {p : Pos} {text : List Char} {e : LexError} (h : Halts p text e) (q : Pos) :
    ∃ f, Halts q text f ∧ f.unplaced = e.unplaced := by
  induction h generalizing q with
  | @fault p gap _ _ _ hgap hfault =>
    obtain ⟨f, hf, hsame⟩ := hfault.elsewhere (q.after gap)
    exact ⟨f, .fault hgap hf, hsame⟩
  | @piece p piece _ _ hpiece _ ih =>
    obtain ⟨f, hf, hsame⟩ := ih ((q.after piece.gap).after piece.lexeme)
    exact ⟨f, .piece hpiece hf, hsame⟩

/-- A comment in front of a gap makes it a longer one. -/
theorem IsBlockComment.gap {comment gap : List Char} {last : Bool} (h : IsBlockComment comment)
    (hgap : Gap last gap) : Gap last (comment ++ gap) := by
  obtain ⟨rest, rfl, hrest⟩ := h
  exact .block hrest hgap

/-- A comment in front of a source text changes nothing but places. -/
theorem IsBlockComment.readAlike {comment source : String} (h : IsBlockComment comment.toList) :
    ReadAlike (Token.tokenize source) (Token.tokenize (comment ++ source)) := by
  cases hread : Token.tokenize source with
  | ok ts =>
    obtain ⟨ps, gap, hps, rfl⟩ := splits_of_tokenize hread
    obtain ⟨qs, last, hqs, htokens⟩ := hps.behind h.gap
    rw [← String.toList_append] at hqs
    have hbehind : Token.tokenize (comment ++ source) = .ok (tokens [] qs last) :=
      hqs.tokensFrom (Nat.le_refl _) []
    rw [hbehind, htokens]
    refine .tokens ?_
    rw [Printing.map_reading_tokens, Printing.map_reading_tokens]
  | error e =>
    obtain ⟨f, hf, hsame⟩ :=
      (tokenize_eq_error_iff.mp hread).elsewhere (Pos.first.after comment.toList)
    have hhalts := hf.behind h.gap
    rw [← String.toList_append, ← tokenize_eq_error_iff] at hhalts
    rw [hhalts]
    exact .error hsame

-- ============================================================================
-- Balanced comments
-- ============================================================================

/-- Block comments are passed over exactly if they are balanced. Behind a mark that opens one, the
    lexer goes on behind the comment that begins with the mark, and there is one such comment at
    most; if there is none, it reads all of the text and reports this mark, which it does in no other
    case. So a comment in front of a source text leaves the kinds and lexemes of the tokens, or the
    error, as they are. -/
theorem balanced_comments_skipped :
    (∀ (text : List Char) (opened : Pos),
      ((skipGap (.block opened 0) text (opened.after ['/', '*'])).1 ≠ some opened ↔
        ∃ comment, IsBlockComment comment ∧ comment <+: '/' :: '*' :: text) ∧
      (∀ comment rest, IsBlockComment comment → '/' :: '*' :: text = comment ++ rest →
        skipGap (.block opened 0) text (opened.after ['/', '*']) =
            skipGap .blank rest (opened.after comment) ∧
          ∀ other, IsBlockComment other → other <+: '/' :: '*' :: text → other = comment) ∧
      ((∀ comment, IsBlockComment comment → ¬ comment <+: '/' :: '*' :: text) →
        skipGap (.block opened 0) text (opened.after ['/', '*']) =
            (some opened, ⟨[], opened.after ('/' :: '*' :: text)⟩) ∧
          (Token.scan ⟨'/' :: '*' :: text, opened⟩).1 = .error (.unterminatedComment opened))) ∧
    ∀ comment source : String, IsBlockComment comment.toList →
      ReadAlike (Token.tokenize source) (Token.tokenize (comment ++ source)) := by
  refine ⟨fun text opened => ⟨?_, ?_, ?_⟩, fun _ _ h => h.readAlike⟩
  · rw [Ne, reports_opened_iff, unclosed_iff]
    simp
  · intro comment rest hcomment htext
    have hpre : comment <+: '/' :: '*' :: text := ⟨rest, htext.symm⟩
    exact ⟨hcomment.skip htext, fun other hother hpre' => hother.unique hcomment hpre' hpre⟩
  · intro hnone
    have hopen : Unclosed text := unclosed_iff.mpr hnone
    constructor
    · rw [skipGap_unclosed hopen, ← Pos.after_append]
      rfl
    · have hgap : Gap false [] := .nil
      have hscan := (Fault.openComment (p := opened) hopen).scan hgap
      rw [List.nil_append, List.append_nil] at hscan
      rw [hscan]

/-- The slash behind the first mark opens another comment, and does not close the first one. -/
theorem balanced_comments_skipped_overlapping :
    IsBlockComment "/*/**/*/".toList ∧
    skipGap (.block Pos.first 0) "/**/*/x".toList ⟨1, 3⟩ = skipGap .blank ['x'] ⟨1, 9⟩ ∧
    ReadAlike (Token.tokenize "x ?") (Token.tokenize ("/*/**/*/" ++ "x ?")) ∧
    (skipGap (.block Pos.first 0) "/**/".toList ⟨1, 3⟩).1 = some Pos.first := by
  have hinner : CommentRest ['*', '/'] := .close
  have hcomment : IsBlockComment "/*/**/*/".toList := ⟨_, rfl, .nested hinner .close⟩
  obtain ⟨hskips, halike⟩ := balanced_comments_skipped
  obtain ⟨-, hread, -⟩ := hskips "/**/*/x".toList Pos.first
  refine ⟨hcomment, (hread _ ['x'] hcomment rfl).1, halike _ "x ?" hcomment, rfl⟩

end Lexical

end Lexiscope
