/-
  Lexiscope.Proofs.Lexical.Resume

  One scan after the other, also behind errors.

  What a scan does is said once, for every cursor (`Passes`): it passes over the text up to
  where the next scan goes on, and over some text at least, unless it gives the end marker.
  From an exhausted text it gives the end marker and stays where it is. So the text that is
  left gets shorter with every scan until none is left.
-/
import Lexiscope.Proofs.Lexical.Fault

namespace Lexiscope

namespace Token

/-- Where reading of a source text has come to after so many scans, whatever they gave. -/
def cursorAfter (source : String) (count : Nat) : Cursor :=
  (fun c => (scan c).2)^[count] (Cursor.ofSource source)

/-- What the scan gives that comes after so many others. -/
def nthScan (source : String) (count : Nat) : Except LexError Token :=
  (scan (cursorAfter source count)).1

theorem cursorAfter_succ (source : String) (count : Nat) :
    cursorAfter source (count + 1) = (scan (cursorAfter source count)).2 :=
  Function.iterate_succ_apply' _ count _

theorem scanTimes_eq_map (count : Nat) (c : Cursor) :
    scanTimes count c =
      (List.range count).map fun k => (scan ((fun c => (scan c).2)^[k] c)).1 := by
  induction count generalizing c with
  | zero => rfl
  | succ count ih =>
    rw [List.range_succ_eq_map, List.map_cons, List.map_map]
    exact congrArg _ (ih (scan c).2)

end Token

namespace Lexical

-- ============================================================================
-- One scan
-- ============================================================================

/-- The scan from the cursor passes over this text. -/
structure Passes (c : Cursor) (passed : List Char) : Prop where
  rest : c.rest = passed ++ (Token.scan c).2.rest
  pos : (Token.scan c).2.pos = c.pos.after passed
  lexeme : ∀ t, (Token.scan c).1 = .ok t → t.lexeme.toList <:+ passed
  progress : passed = [] → ∃ t, (Token.scan c).1 = .ok t ∧ t.kind = .eof
  eof : ∀ t, (Token.scan c).1 = .ok t → t.kind = .eof →
    (Token.scan c).2.rest = [] ∧ Token.scan (Token.scan c).2 = (.ok t, (Token.scan c).2)

theorem scan_nil (p : Pos) : Token.scan ⟨[], p⟩ = (.ok ⟨.eof, "", p, p⟩, ⟨[], p⟩) := rfl

theorem Gap.passes {gap : List Char} (h : Gap true gap) (p : Pos) : Passes ⟨gap, p⟩ gap := by
  constructor
  case rest => rw [h.scan, List.append_nil]
  case pos => rw [h.scan]
  case lexeme =>
    rintro t ht
    rw [h.scan] at ht
    obtain rfl := Except.ok.inj ht
    exact List.nil_suffix
  case progress => exact fun _ => ⟨_, by rw [h.scan], rfl⟩
  case eof =>
    intro t ht _
    rw [h.scan] at ht
    obtain rfl := Except.ok.inj ht
    rw [h.scan]
    exact ⟨rfl, scan_nil _⟩

theorem Piece.Fits.passes {p : Piece} {after : List Char} (h : p.Fits after) (pos : Pos) :
    Passes ⟨p.gap ++ (p.lexeme ++ after), pos⟩ (p.gap ++ p.lexeme) := by
  constructor
  case rest => rw [h.scan, List.append_assoc]
  case pos => rw [h.scan, Pos.after_append]
  case lexeme =>
    intro t ht
    rw [h.scan] at ht
    obtain rfl := Except.ok.inj ht
    rw [Piece.token, String.toList_ofList]
    exact List.suffix_append _ _
  case progress => exact fun hnil => absurd (List.append_eq_nil_iff.mp hnil).2 h.lexeme.ne_nil
  case eof =>
    intro t ht heof
    rw [h.scan] at ht
    obtain rfl := Except.ok.inj ht
    exact absurd heof h.lexeme.kind_ne_eof

theorem Fault.passes {p : Pos} {gap taken after : List Char} {e : LexError} (hgap : Gap false gap)
    (h : Fault (p.after gap) taken after e) : Passes ⟨gap ++ (taken ++ after), p⟩ (gap ++ taken) := by
  constructor
  case rest => rw [h.scan hgap, List.append_assoc]
  case pos => rw [h.scan hgap, Pos.after_append]
  case lexeme =>
    intro t ht
    rw [h.scan hgap] at ht
    cases ht
  case progress => exact fun hnil => absurd (List.append_eq_nil_iff.mp hnil).2 h.ne_nil
  case eof =>
    intro t ht _
    rw [h.scan hgap] at ht
    cases ht

/-- Every scan passes over some text. -/
theorem exists_passes (c : Cursor) : ∃ passed, Passes c passed := by
  obtain ⟨text, p⟩ := c
  match hscan : Token.scan ⟨text, p⟩ with
  | (.error e, next) =>
    obtain ⟨gap, taken, after, rfl, hgap, hfault, -⟩ := fault_of_scan hscan
    exact ⟨gap ++ taken, hfault.passes hgap⟩
  | (.ok t, next) =>
    obtain ⟨hgap, -⟩ | ⟨q, after, rfl, hq, -, -⟩ := scan_cases hscan
    · exact ⟨text, hgap.passes p⟩
    · exact ⟨q.gap ++ q.lexeme, hq.passes p⟩

-- ============================================================================
-- All scans
-- ============================================================================

/-- What the scans have passed over and what is left make up the source text. -/
theorem passed_so_far {source : String} {pieces : Nat → List Char}
    (h : ∀ k, Passes (Token.cursorAfter source k) (pieces k)) (k : Nat) :
    source.toList = (List.range k).flatMap pieces ++ (Token.cursorAfter source k).rest ∧
      (Token.cursorAfter source k).pos = reached ((List.range k).flatMap pieces) := by
  induction k with
  | zero => exact ⟨rfl, rfl⟩
  | succ k ih =>
    obtain ⟨htext, hpos⟩ := ih
    rw [List.range_succ, List.flatMap_append, List.flatMap_singleton, Token.cursorAfter_succ]
    constructor
    · rw [htext, (h k).rest, List.append_assoc]
    · rw [(h k).pos, hpos, reached_append]

/-- Each scan makes the text that is left shorter, until none is. -/
theorem rest_shorter (source : String) (k : Nat) :
    (Token.cursorAfter source k).rest = [] ∨
      (Token.cursorAfter source k).rest.length + k ≤ source.toList.length := by
  induction k with
  | zero => exact .inr (Nat.le_refl _)
  | succ k ih =>
    obtain ⟨passed, h⟩ := exists_passes (Token.cursorAfter source k)
    have hrest := h.rest
    rw [Token.cursorAfter_succ]
    by_cases hnil : passed = []
    · obtain ⟨t, ht, heof⟩ := h.progress hnil
      exact .inl (h.eof t ht heof).1
    · have hpos := List.length_pos_iff.mpr hnil
      obtain hdone | hleft := ih
      · rw [hdone] at hrest
        exact .inl (List.append_eq_nil_iff.mp hrest.symm).2
      · rw [hrest, List.length_append] at hleft
        right
        omega

/-- The end marker is given again and again. -/
theorem eof_again {source : String} {k : Nat} {t : Token} (ht : Token.nthScan source k = .ok t)
    (heof : t.kind = .eof) {m : Nat} (hm : k ≤ m) : Token.nthScan source m = .ok t := by
  obtain ⟨passed, h⟩ := exists_passes (Token.cursorAfter source k)
  obtain ⟨-, hagain⟩ := h.eof t ht heof
  rw [← Token.cursorAfter_succ] at hagain
  obtain rfl | hlt := Nat.eq_or_lt_of_le hm
  · exact ht
  · obtain ⟨more, rfl⟩ := Nat.exists_eq_add_of_lt hlt
    have hstays : Token.cursorAfter source (k + more + 1) = Token.cursorAfter source (k + 1) := by
      rw [Nat.add_right_comm, Nat.add_comm, Token.cursorAfter, Function.iterate_add_apply]
      exact Function.iterate_fixed (congrArg Prod.snd hagain) more
    rw [Token.nthScan, hstays, hagain]

/-- However many scans there are of a source text, and whatever they give, each goes on where the
    one before has stopped and passes over a piece of the text, which ends with the lexeme if the
    scan gives a token. The piece is empty for the end marker only. This comes when nothing is
    left, at the latest after as many scans as the text has characters, and does not change any
    more. -/
theorem scans_go_on (source : String) :
    (∀ count, Token.scanTimes count (Cursor.ofSource source) =
      (List.range count).map (Token.nthScan source)) ∧
    ∃ pieces : Nat → List Char,
      (∀ k, source.toList = (List.range k).flatMap pieces ++ (Token.cursorAfter source k).rest ∧
        (Token.cursorAfter source k).pos = reached ((List.range k).flatMap pieces)) ∧
      (∀ k, (∀ t, Token.nthScan source k = .ok t → t.kind ≠ .eof) → pieces k ≠ []) ∧
      (∀ k t, Token.nthScan source k = .ok t → t.lexeme.toList <:+ pieces k) ∧
      (∀ k t, Token.nthScan source k = .ok t → t.kind = .eof →
        (Token.cursorAfter source (k + 1)).rest = [] ∧
          ∀ m, k ≤ m → Token.nthScan source m = .ok t) ∧
      ∀ k, source.toList.length ≤ k → ∃ t, Token.nthScan source k = .ok t ∧ t.kind = .eof := by
  choose pieces h using fun k => exists_passes (Token.cursorAfter source k)
  refine ⟨fun count => Token.scanTimes_eq_map count _, pieces, passed_so_far h, ?_, ?_, ?_, ?_⟩
  · intro k hnone hnil
    obtain ⟨t, ht, heof⟩ := (h k).progress hnil
    exact hnone t ht heof
  · exact fun k t ht => (h k).lexeme t ht
  · intro k t ht heof
    rw [Token.cursorAfter_succ]
    exact ⟨((h k).eof t ht heof).1, fun m hm => eof_again ht heof hm⟩
  · intro k hk
    have hdone : (Token.cursorAfter source k).rest = [] := by
      obtain hdone | hleft := rest_shorter source k
      · exact hdone
      · exact List.eq_nil_of_length_eq_zero (by omega)
    have hpieces := (h k).rest
    rw [hdone] at hpieces
    obtain ⟨t, ht, heof⟩ := (h k).progress (List.append_eq_nil_iff.mp hpieces.symm).1
    exact ⟨t, ht, heof⟩

end Lexical

end Lexiscope
