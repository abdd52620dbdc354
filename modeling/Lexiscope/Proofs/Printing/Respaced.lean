/-
  Lexiscope.Proofs.Printing.Respaced

  The lexemes of a source text, written again with single spaces between them.

  A space makes no lexeme longer, so the text that is written splits where the spaces
  are, into the pieces of the source text with other gaps (`splits_respaced`). What was
  between the tokens is lost and nothing else: not which tokens there are, and not what
  stands in a string.
-/
import Lexiscope.Proofs.Lexical.Lines
import Lexiscope.Proofs.Printing.Layout

namespace Lexiscope

open Lexical (Piece Splits tokens reached splits_of_tokenize)

/-- The text of the tokens other than the end marker, with single spaces between them. -/
def Token.respaced (ts : List Token) : String :=
  " ".intercalate ((ts.filter fun t => t.kind ≠ .eof).map Token.lexeme)

/-- What is known of a token without its place. -/
def Token.reading (t : Token) : Kind × String × Option String := (t.kind, t.lexeme, t.stringValue?)

namespace Printing

-- ============================================================================
-- Tokens of pieces
-- ============================================================================

/-- What is known of the tokens of pieces does not depend on the gaps. -/
theorem map_reading_tokens (before : List Char) (ps : List Piece) (gap : List Char) :
    (tokens before ps gap).map Token.reading =
      ps.map (fun p => Token.reading ⟨p.kind, String.ofList p.lexeme, Pos.first, Pos.first⟩) ++
        [(.eof, "", none)] := by
  induction ps generalizing before with
  | nil => rfl
  | cons p ps ih =>
    rw [tokens, List.map_cons, ih]
    rfl

/-- The tokens other than the end marker are the lexemes of the pieces. -/
theorem lexemes_tokens {text gap : List Char} {ps : List Piece} (h : Splits text ps gap)
    (before : List Char) :
    ((tokens before ps gap).filter fun t => t.kind ≠ .eof).map Token.lexeme =
      ps.map fun p => String.ofList p.lexeme := by
  induction h generalizing before with
  | last _ => rfl
  | @piece p after gap ps hp _ ih =>
    rw [tokens, List.filter_cons_of_pos (by simpa using hp.lexeme.kind_ne_eof), List.map_cons, ih,
      List.map_cons]

-- ============================================================================
-- Other gaps
-- ============================================================================

/-- The piece behind another gap. -/
def behind (gap : List Char) (p : Piece) : Piece := ⟨gap, p.kind, p.lexeme⟩

/-- The pieces with single spaces between them. -/
def respacedPieces : List Piece → List Piece
  | [] => []
  | p :: ps => behind [] p :: ps.map (behind [' '])

theorem flat_behind_space (ps : List Piece) :
    flat (ps.map (behind [' '])) =
      (ps.map fun p => String.ofList p.lexeme).flatMap fun s => " ".toList ++ s.toList := by
  induction ps with
  | nil => rfl
  | cons p ps ih => simp [behind, ih]

theorem flat_respacedPieces (ps : List Piece) :
    flat (respacedPieces ps) = (" ".intercalate (ps.map fun p => String.ofList p.lexeme)).toList := by
  cases ps with
  | nil => rfl
  | cons p ps =>
    rw [List.map_cons, toList_intercalate_cons, String.toList_ofList, ← flat_behind_space]
    rfl

/-- With single spaces between them, the lexemes split where the spaces are. -/
theorem splits_respaced {ps : List Piece} (h : ∀ p ∈ ps, Lexical.Lexeme p.kind p.lexeme) :
    Splits (flat (respacedPieces ps)) (respacedPieces ps) [] := by
  cases ps with
  | nil => exact .last .nil
  | cons p ps =>
    obtain ⟨hp, hps⟩ := List.forall_mem_cons.mp h
    have hgaps : ∀ q ∈ ps.map (behind [' ']), q.gap = [' '] := by simp [behind]
    have hlexemes : ∀ q ∈ ps.map (behind [' ']), Lexical.Lexeme q.kind q.lexeme := by
      simpa [behind] using hps
    obtain ⟨hcalm, hsplits⟩ := splits_of_spaces hgaps hlexemes
    rw [respacedPieces, flat_cons]
    exact .piece (fits_of_calm isSpaces_nil hp hcalm) hsplits

theorem map_respacedPieces {α : Type} (f : Kind → List Char → α) (ps : List Piece) :
    (respacedPieces ps).map (fun p => f p.kind p.lexeme) = ps.map fun p => f p.kind p.lexeme := by
  cases ps with
  | nil => rfl
  | cons p ps =>
    rw [respacedPieces, List.map_cons, List.map_cons, List.map_map]
    rfl

/-- The lexemes of a source text with single spaces between them are tokenized, to tokens of the
    same kinds, with the same lexemes and standing for the same strings, and the end marker stands
    at the end of what was written. -/
theorem tokenize_respaced {source : String} {ts : List Token} (h : Token.tokenize source = .ok ts) :
    ∃ us, Token.tokenize (Token.respaced ts) = .ok us ∧
      us.map Token.reading = ts.map Token.reading ∧
      us.getLast? = some ⟨.eof, "", reached (Token.respaced ts).toList,
        reached (Token.respaced ts).toList⟩ := by
  obtain ⟨ps, gap, hps, rfl⟩ := splits_of_tokenize h
  have htext : (Token.respaced (tokens [] ps gap)).toList = flat (respacedPieces ps) := by
    rw [Token.respaced, lexemes_tokens hps, flat_respacedPieces]
  have hsplits := splits_respaced hps.lexeme_of_mem
  rw [← htext] at hsplits
  refine ⟨_, hsplits.tokensFrom (Nat.le_refl _) [], ?_, hsplits.getLast?_tokens []⟩
  rw [map_reading_tokens, map_reading_tokens]
  exact congrArg (· ++ _) (map_respacedPieces
    (fun kind lexeme => Token.reading ⟨kind, String.ofList lexeme, Pos.first, Pos.first⟩) ps)

-- ============================================================================
-- A crowded text
-- ============================================================================

/-- The tokens of a text without a space: a string with an escaped quote, comment marks and a
    newline in it, and a comment between two signs. -/
def crowdedTokens : List Token :=
  [⟨.not, "!", ⟨1, 1⟩, ⟨1, 2⟩⟩, ⟨.string, "'\\'//\n/*'", ⟨1, 2⟩, ⟨2, 4⟩⟩,
   ⟨.lessEqual, "<=", ⟨2, 4⟩, ⟨2, 6⟩⟩, ⟨.assign, "=", ⟨2, 10⟩, ⟨2, 11⟩⟩,
   ⟨.number, "1.5", ⟨2, 11⟩, ⟨2, 14⟩⟩, ⟨.identifier, "x", ⟨2, 14⟩, ⟨2, 15⟩⟩,
   ⟨.eof, "", ⟨2, 15⟩, ⟨2, 15⟩⟩]

theorem tokenize_respaced_crowded :
    Token.tokenize "!'\\'//\n/*'<=/**/=1.5x" = .ok crowdedTokens ∧
    Token.respaced crowdedTokens = "! '\\'//\n/*' <= = 1.5 x" ∧
    ∃ us, Token.tokenize "! '\\'//\n/*' <= = 1.5 x" = .ok us ∧
      us.map Token.reading = crowdedTokens.map Token.reading ∧
      us.getLast? = some ⟨.eof, "", ⟨2, 15⟩, ⟨2, 15⟩⟩ := by
  have htokens : Token.tokenize "!'\\'//\n/*'<=/**/=1.5x" = .ok crowdedTokens := rfl
  have htext : Token.respaced crowdedTokens = "! '\\'//\n/*' <= = 1.5 x" := by decide
  have hread := tokenize_respaced htokens
  rw [htext] at hread
  exact ⟨htokens, htext, hread⟩

end Printing

end Lexiscope
