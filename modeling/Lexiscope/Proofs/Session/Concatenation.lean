/-
  Lexiscope.Proofs.Session.Concatenation

  Running one source unit after another is running both as one.

  Two source texts with a newline between them have the tokens of both, and what is
  read from these are the statements of both, unless the first text breaks off in the
  middle of one: its last token has to be a semicolon or a closing brace. The
  statements in a row then run as the two programs do, one after the other.
-/
import Lexiscope.Proofs.Eval.Sequence
import Lexiscope.Proofs.Grammar.Seam
import Lexiscope.Proofs.Lexical.Lines

namespace Lexiscope

open Lexical (tokenize_ends tokenize_stacked)

theorem Token.Moves.down (lines : Nat) : Token.Moves (Token.down lines) :=
  ⟨fun _ => rfl, fun _ => rfl⟩

theorem isClosing_of_kind {kind : Kind} (h : kind = .semicolon ∨ kind = .rightBrace) :
    isClosing kind = true := by
  obtain rfl | rfl := h
  · rfl
  · rfl

/-- One source text below another is read as the statements of both. Those of the lower one stand
    further down by the number of lines above them. -/
theorem parse_stacked {a b : String} {limit : Nat} {ts us : List Token} {p q : Program}
    (ha : Token.tokenize a = .ok ts) (hp : Program.parse ts limit = .ok p)
    (hlast : ∀ t ∈ (beforeEof ts).getLast?, t.kind = .semicolon ∨ t.kind = .rightBrace)
    (hb : Token.tokenize b = .ok us) (hq : Program.parse us limit = .ok q) :
    ∃ vs, Token.tokenize (a ++ "\n" ++ b) = .ok vs ∧
      Program.parse vs limit = .ok (p ++ q.mapTokens (.down (1 + a.toList.count '\n'))) := by
  obtain ⟨before, eof, rfl, heof, hbefore, hstacked⟩ := tokenize_stacked ha hb
  obtain ⟨body, eof', rfl, heof', hbody⟩ := tokenize_ends hb
  rw [Grammar.beforeEof_append heof hbefore] at hlast
  have hclosed : before = [] ∨ Closed before := by
    by_cases hnil : before = []
    · exact .inl hnil
    · have hmem := List.getLast?_eq_some_getLast hnil
      exact .inr ⟨_, hmem, isClosing_of_kind (hlast _ hmem)⟩
  refine ⟨_, hstacked, ?_⟩
  rw [List.map_append, List.map_singleton, ← List.append_assoc]
  exact parse_append (.down _) heof heof' hbefore hbody hp hq hclosed

/-- Of two source texts that are read as programs, the first of which ends with a semicolon or a
    closing brace or has no tokens, the one above the other is read as the statements of both; the
    columns of the lower one stay, and its lines are counted on. And a program behind another that
    was read runs as the two do in turn: if the first one fails, so do both, and else they end as
    the second one does on the machine that the first one leaves, with the same output and the same
    scopes. If both in a row end, then so do the two in turn. -/
theorem programs_in_a_row_run_in_turn :
    (∀ (a b : String) (limit : Nat) (ts us : List Token) (p q : Program),
      Token.tokenize a = .ok ts → Program.parse ts limit = .ok p →
      (∀ t ∈ (beforeEof ts).getLast?, t.kind = .semicolon ∨ t.kind = .rightBrace) →
      Token.tokenize b = .ok us → Program.parse us limit = .ok q →
      ∃ vs, Token.tokenize (a ++ "\n" ++ b) = .ok vs ∧
        Program.parse vs limit = .ok (p ++ q.mapTokens (.down (1 + a.toList.count '\n')))) ∧
    ∀ (p q : Program) (limit : Nat) (scope : ScopeId) (m : Machine), p.Parsed →
      q.statements ≠ [] →
      (∀ e m', (Phrase.program p).Ends limit scope m (.error e) m' →
        (Phrase.program (p ++ q)).Ends limit scope m (.error e) m') ∧
      (∀ v m₁ r m₂, (Phrase.program p).Ends limit scope m (.ok v) m₁ →
        (Phrase.program q).Ends limit scope m₁ r m₂ →
        ∃ m', (Phrase.program (p ++ q)).Ends limit scope m r m' ∧ m'.sink = m₂.sink ∧
          m'.store = m₂.store) ∧
      ∀ r m', (Phrase.program (p ++ q)).Ends limit scope m r m' →
        (∃ e, r = .error e ∧ (Phrase.program p).Ends limit scope m (.error e) m') ∨
        ∃ v m₁ m₂, (Phrase.program p).Ends limit scope m (.ok v) m₁ ∧
          (Phrase.program q).Ends limit scope m₁ r m₂ ∧ m'.sink = m₂.sink ∧
          m'.store = m₂.store := by
  refine ⟨fun a b limit ts us p q ha hp hlast hb hq => parse_stacked ha hp hlast hb hq,
    fun p q limit scope m hp hq => ⟨fun e m' h => Program.ends_append_of_error q h, ?_, ?_⟩⟩
  · intro v m₁ r m₂ hfirst hsecond
    obtain ⟨m', hboth, hsame⟩ := Program.ends_append_of_ok hp.wellFormed hq hfirst hsecond
    exact ⟨m', hboth, hsame.sink.symm, hsame.store.symm⟩
  · intro r m' hboth
    obtain herror | ⟨v, m₁, m₂, hfirst, hsecond, hsame⟩ :=
      Program.ends_of_append hp.wellFormed hq hboth
    · exact .inl herror
    · exact .inr ⟨v, m₁, m₂, hfirst, hsecond, hsame.sink, hsame.store⟩

section Witness

/-- The tokens of `let x;`. -/
def declarationTokens : List Token :=
  [⟨.letWord, "let", ⟨1, 1⟩, ⟨1, 4⟩⟩, ⟨.identifier, "x", ⟨1, 5⟩, ⟨1, 6⟩⟩,
    ⟨.semicolon, ";", ⟨1, 6⟩, ⟨1, 7⟩⟩, ⟨.eof, "", ⟨1, 7⟩, ⟨1, 7⟩⟩]

/-- `let x;` -/
def declaration : Program := ⟨[.letVar ⟨.identifier, "x", ⟨1, 5⟩, ⟨1, 6⟩⟩ none]⟩

/-- The tokens of `print(x)`. -/
def mentionTokens : List Token :=
  [⟨.identifier, "print", ⟨1, 1⟩, ⟨1, 6⟩⟩, ⟨.leftParen, "(", ⟨1, 6⟩, ⟨1, 7⟩⟩,
    ⟨.identifier, "x", ⟨1, 7⟩, ⟨1, 8⟩⟩, ⟨.rightParen, ")", ⟨1, 8⟩, ⟨1, 9⟩⟩,
    ⟨.eof, "", ⟨1, 9⟩, ⟨1, 9⟩⟩]

/-- `print(x)` -/
def mention : Program :=
  ⟨[.expression (.call (.identifier ⟨.identifier, "print", ⟨1, 1⟩, ⟨1, 6⟩⟩)
    ⟨.leftParen, "(", ⟨1, 6⟩, ⟨1, 7⟩⟩ [.identifier ⟨.identifier, "x", ⟨1, 7⟩, ⟨1, 8⟩⟩])]⟩

/-- The machine of a new session. -/
def newMachine : Machine := (Session.new Limits.default .unbounded .silent).machine

/-- The name `x` can be read below its declaration, there in the second line, and its value is
    printed behind it. The other way around, its value is asked for before it has one. -/
theorem programs_in_a_row_run_in_turn_declaration :
    (∃ vs, Token.tokenize ("let x;" ++ "\n" ++ "print(x)") = .ok vs ∧
      Program.parse vs 3 = .ok (declaration ++ mention.mapTokens (.down 1))) ∧
    (∃ r m', (Phrase.program (declaration ++ mention)).Ends 1 0 newMachine r m' ∧
      m'.sink.bytes = "nil\n".toUTF8 ∧
      ((∃ e, r = .error e ∧ (Phrase.program declaration).Ends 1 0 newMachine (.error e) m') ∨
        ∃ v m₁ m₂, (Phrase.program declaration).Ends 1 0 newMachine (.ok v) m₁ ∧
          (Phrase.program mention).Ends 1 0 m₁ r m₂ ∧ m₂.sink.bytes = "nil\n".toUTF8)) ∧
    ∃ e m', (Phrase.program (mention ++ declaration)).Ends 1 0 newMachine (.error e) m' := by
  have hdeclaration : Token.tokenize "let x;" = .ok declarationTokens := rfl
  have hmention : Token.tokenize "print(x)" = .ok mentionTokens := rfl
  have hparse : Program.parse declarationTokens 3 = .ok declaration := rfl
  have hparse' : Program.parse mentionTokens 3 = .ok mention := rfl
  have hruns : (((Phrase.program declaration).run 1 9 0 newMachine).bind fun first =>
      ((Phrase.program mention).run 1 9 0 first.2).map fun second =>
        (first.1.toBool, second.2.sink.bytes)) = some (true, "nil\n".toUTF8) := by decide +kernel
  have hfails : (((Phrase.program mention).run 1 9 0 newMachine).map fun answer =>
      answer.1.toBool) = some false := by decide +kernel
  obtain ⟨hread, hrun⟩ := programs_in_a_row_run_in_turn
  obtain ⟨-, hok, hback⟩ := hrun declaration mention 1 0 newMachine
    ⟨declarationTokens, 3, declaration, hparse, rfl⟩ (by decide)
  obtain ⟨herror, -, -⟩ := hrun mention declaration 1 0 newMachine
    ⟨mentionTokens, 3, mention, hparse', rfl⟩ (by decide)
  refine ⟨hread _ _ 3 _ _ _ _ hdeclaration hparse (by decide) hmention hparse', ?_, ?_⟩
  · obtain ⟨⟨_ | v, m₁⟩, hfirst, hruns⟩ := Option.bind_eq_some_iff.mp hruns
    · obtain ⟨_, -, hanswer⟩ := Option.map_eq_some_iff.mp hruns
      cases (Prod.mk.inj hanswer).1
    · obtain ⟨⟨r, m₂⟩, hsecond, hanswer⟩ := Option.map_eq_some_iff.mp hruns
      obtain ⟨m', hboth, hsink, -⟩ := hok v m₁ r m₂ ⟨9, hfirst⟩ ⟨9, hsecond⟩
      have hbytes : m'.sink.bytes = "nil\n".toUTF8 := by rw [hsink, (Prod.mk.inj hanswer).2]
      refine ⟨r, m', hboth, hbytes, (hback r m' hboth).imp_right ?_⟩
      rintro ⟨v, m₁, m₂, hfirst, hsecond, hsink, -⟩
      exact ⟨v, m₁, m₂, hfirst, hsecond, by rw [← hsink, hbytes]⟩
  · obtain ⟨⟨e | _, m'⟩, hfirst, hfailed⟩ := Option.map_eq_some_iff.mp hfails
    · exact ⟨e, m', herror e m' ⟨9, hfirst⟩⟩
    · cases hfailed

end Witness

end Lexiscope
