/-
  Lexiscope.Proofs.Lexical.Places

  Each token of a source text begins at a place of its own.

  Reading a text leads to a later line, or further on in the same line
  (`Pos.after_later`). A token begins where the text before it leads to, and between
  the beginnings of two tokens stands at least the lexeme of the first.
-/
import Lexiscope.Proofs.Lexical.Lines

namespace Lexiscope

theorem Pos.after_later (p : Pos) (text : List Char) :
    p.line < (p.after text).line ∨
      (p.after text).line = p.line ∧ (p.after text).column = p.column + text.length := by
  induction text generalizing p with
  | nil => exact .inr ⟨rfl, rfl⟩
  | cons c text ih =>
    rw [Pos.after_cons, List.length_cons]
    have hstep := ih (p.step c)
    by_cases hc : c = '\n'
    · have hline : (p.step c).line = p.line + 1 := by simp [Pos.step, hc]
      omega
    · have hline : (p.step c).line = p.line := by simp [Pos.step, hc]
      have hcolumn : (p.step c).column = p.column + 1 := by simp [Pos.step, hc]
      omega

/-- Only an empty text leads nowhere. -/
theorem Pos.after_ne (p : Pos) {text : List Char} (h : text ≠ []) : p.after text ≠ p := by
  intro heq
  have hlater := p.after_later text
  have hpos := List.length_pos_iff.mpr h
  rw [heq] at hlater
  omega

namespace Lexical

/-- A token begins where the text leads to, no earlier than the text in front of all tokens. -/
theorem start_of_mem_tokens {before gap : List Char} {ps : List Piece} {t : Token}
    (h : t ∈ tokens before ps gap) : ∃ text, t.start = reached (before ++ text) := by
  induction ps generalizing before with
  | nil =>
    rw [tokens, List.mem_singleton] at h
    exact ⟨gap, h ▸ rfl⟩
  | cons p ps ih =>
    rw [tokens, List.mem_cons] at h
    rcases h with rfl | h
    · exact ⟨p.gap, rfl⟩
    · obtain ⟨text, ht⟩ := ih h
      exact ⟨p.gap ++ (p.lexeme ++ text), by simpa using ht⟩

theorem Splits.starts_nodup {text gap : List Char} {ps : List Piece} (h : Splits text ps gap)
    (before : List Char) : ((tokens before ps gap).map Token.start).Nodup := by
  induction h generalizing before with
  | last _ => exact List.nodup_singleton _
  | @piece p after gap ps hp _ ih =>
    rw [tokens, List.map_cons, List.nodup_cons]
    refine ⟨fun hmem => ?_, ih _⟩
    obtain ⟨u, hu, hsame⟩ := List.mem_map.mp hmem
    obtain ⟨text, hstart⟩ := start_of_mem_tokens hu
    have hne : p.lexeme ++ text ≠ [] := List.append_ne_nil_of_left_ne_nil hp.lexeme.ne_nil text
    refine (reached (before ++ p.gap)).after_ne hne ?_
    rw [← reached_append, ← List.append_assoc, ← hstart]
    exact hsame

/-- Where no two tokens begin at the same place, the place says which token it is. -/
theorem index_eq_of_start {ts : List Token} (hnodup : (ts.map Token.start).Nodup) {i j : Nat}
    {t u : Token} (ht : ts[i]? = some t) (hu : ts[j]? = some u) (hstart : t.start = u.start) :
    i = j := by
  have hi : (ts.map Token.start)[i]? = some t.start := by rw [List.getElem?_map, ht, Option.map_some]
  have hj : (ts.map Token.start)[j]? = some u.start := by rw [List.getElem?_map, hu, Option.map_some]
  have hlt := (List.getElem?_eq_some_iff.mp hi).1
  exact (List.getElem?_inj hlt hnodup).mp (by rw [hi, hj, hstart])

/-- No two tokens of a source text begin at the same place. -/
theorem tokenize_starts_nodup {source : String} {ts : List Token}
    (h : Token.tokenize source = .ok ts) : (ts.map Token.start).Nodup := by
  obtain ⟨ps, gap, hps, rfl⟩ := splits_of_tokenize h
  exact hps.starts_nodup []

end Lexical

end Lexiscope
