/-
  Lexiscope.Proofs.Lockstep.Session

  What a program does depends neither on its layout nor on how logical operators
  are spelled.

  Two sessions that have run similar source units, one after the other, are
  alike (`SessionAlike`): the unit that comes next finds values that are alike
  behind the same names, and gets the same labels for its functions. So similar
  units that come next end both or neither, with the same output, and with
  values that look the same or with errors of the same kind and message at
  corresponding tokens (`similar_units_agree`). The tokens of an error may
  belong to a unit that was run before: a function is called that it defined.
-/
import Lexiscope.Proofs.Eval.Fuel
import Lexiscope.Proofs.Lockstep.Run
import Lexiscope.Proofs.Lockstep.Similar

namespace Lexiscope

-- ============================================================================
-- Similar sessions
-- ============================================================================

/-- Under these limits the source text is read as this program. -/
def ReadsAs (limits : Limits) (source : String) (p : Program) : Prop :=
  ∃ ts, Token.tokenize source = .ok ts ∧ Program.parse ts limits.nesting = .ok p

theorem ReadsAs.formed {limits : Limits} {source : String} {p : Program}
    (h : ReadsAs limits source p) : Printing.FormedStmts false p.statements := by
  obtain ⟨ts, htokens, hparse⟩ := h
  exact Printing.formed_of_parse htokens hparse

/-- Sessions under the same limits that have run similar source units, latest first. Units may end
    with errors, and may be known by different names. -/
inductive SimilarSessions (limits : Limits) : List (Program × Program) → Session → Session → Prop where
  | new (sink : Sink) (j k : Journal) :
      SimilarSessions limits [] (.new limits sink j) (.new limits sink k)
  | next {earlier : List (Program × Program)} {s t s' t' : Session}
      {unit unit' source source' : String} {p q : Program} {r r' : Except Diagnostic Value}
      (h : SimilarSessions limits earlier s t) (hp : ReadsAs limits source p)
      (hq : ReadsAs limits source' q) (hpq : p.Similar q) (hs : s.Ends unit source r s')
      (ht : t.Ends unit' source' r' t') : SimilarSessions limits ((p, q) :: earlier) s' t'

/-- The values have the same type, are printed and echoed in the same way, and both count as true
    or neither does. -/
structure LooksLike (v w : Value) : Prop where
  type : v.type = w.type
  text : v.text = w.text
  echo : v.echo = w.echo
  isTruthy : v.isTruthy = w.isTruthy

/-- Both results are values that look the same, or both are errors of the same kind and with the
    same message that came up at corresponding tokens of two similar units; the place of an error
    is where its token begins. -/
inductive ResultsAgree (units : List (Program × Program)) :
    Except Diagnostic Value → Except Diagnostic Value → Prop where
  | value {v w : Value} (h : LooksLike v w) : ResultsAgree units (.ok v) (.ok w)
  | error {unit unit' : String} {e e' : RuntimeError} (hkind : e.kind = e'.kind)
      (hmessage : e.message = e'.message)
      (hplace : ∃ pair ∈ units, pair.1.Corresponding pair.2 e.token e'.token) :
      ResultsAgree units (.error ⟨unit, .runtime e⟩) (.error ⟨unit', .runtime e'⟩)

namespace Lockstep

-- ============================================================================
-- Sessions that are alike
-- ============================================================================

/-- Sessions under the given limits that no source unit can tell apart. -/
structure SessionAlike (T : Token → Token → Prop) (limits : Limits) (s t : Session) : Prop where
  left : s.limits = limits
  right : t.limits = limits
  nextLabel : s.nextLabel = t.nextLabel
  machine : ∃ ρ : Scopes, ρ Session.globals Session.globals ∧ MachineAlike T ρ s.machine t.machine

variable {T : Token → Token → Prop} {limits : Limits}

/-- In new sessions the global scopes are paired, and nothing but the builtin functions is there. -/
theorem sessionAlike_new (limits : Limits) (sink : Sink) (j k : Journal) :
    SessionAlike T limits (.new limits sink j) (.new limits sink k) := by
  refine ⟨rfl, rfl, rfl, fun a b => a = 0 ∧ b = 0, ⟨rfl, rfl⟩, ?_, rfl, rfl⟩
  constructor
  · rintro a b a' b' ⟨rfl, rfl⟩ ⟨rfl, rfl⟩
    exact Iff.rfl
  · rintro a b ⟨rfl, rfl⟩
    exact Nat.one_pos
  · rintro a b ⟨rfl, rfl⟩
    exact Nat.one_pos
  · rintro a b ⟨rfl, rfl⟩
    exact .none
  · rintro a b ⟨rfl, rfl⟩ x
    show Option.Rel _ ((Scope.get? ⟨[("print", .value (.builtin .print))], none⟩ x).map _)
      ((Scope.get? ⟨[("print", .value (.builtin .print))], none⟩ x).map _)
    rw [Scope.get?, List.find?_singleton]
    split
    · exact .some (.builtin .print)
    · exact .none
  · exact Store.ordered_newGlobal
  · exact Store.ordered_newGlobal

theorem SessionAlike.sink {s t : Session} (h : SessionAlike T limits s t) :
    s.machine.sink = t.machine.sink := by
  obtain ⟨ρ, -, hmachine⟩ := h.machine
  exact hmachine.sink

/-- Results that are alike, with sessions that are alike afterwards. -/
structure SessionAnswerAlike (T : Token → Token → Prop) (limits : Limits)
    (x y : Except RuntimeError Value × Session) : Prop where
  result : ∃ ρ : Scopes, ResultAlike T (ValueAlike T ρ) x.1 y.1
  session : SessionAlike T limits x.2 y.2

theorem exec_inStep {s t : Session} {p q : Program} (h : SessionAlike T limits s t)
    (hpq : List.Forall₂ (StmtAlike T) p.statements q.statements) (fuel : Nat) :
    Option.Rel (SessionAnswerAlike T limits) (s.exec p Session.globals fuel)
      (t.exec q Session.globals fuel) := by
  obtain ⟨hleft, hright, hlabel, ρ, hglobals, hmachine⟩ := h
  have hanswer := programRun_inStep limits.calls fuel hpq hglobals hmachine
  unfold Session.exec Session.step
  rw [hleft, hright]
  generalize p.run limits.calls fuel Session.globals s.machine = x,
    q.run limits.calls fuel Session.globals t.machine = y at hanswer ⊢
  cases hanswer with
  | none => exact .none
  | @some ρ' r r' m m' hρ hresult hmachine' =>
    exact .some ⟨⟨ρ', hresult⟩, rfl, rfl, hlabel, ρ', hρ _ _ hglobals, hmachine'⟩

-- ============================================================================
-- Source units
-- ============================================================================

/-- The result as it is reported for a source unit. -/
def reported (unit : String) (r : Except RuntimeError Value) : Except Diagnostic Value :=
  r.mapError fun e => ⟨unit, .runtime e⟩

/-- The session in which a program is run that was just read: the next label is one that the
    program does not use, and something was entered in the journal. -/
def loaded (s : Session) (p : Program) (journal : Journal) : Session :=
  ⟨{ s.machine with journal := journal }, s.limits, (p.relabel s.nextLabel).2⟩

/-- A source unit that can be read is run as a program with labels of its own. -/
theorem run_of_readsAs {s : Session} {source : String} {p : Program}
    (h : ReadsAs s.limits source p) (unit : String) :
    ∃ journal, ∀ fuel, s.run unit source fuel
      = ((loaded s p journal).exec (p.relabel s.nextLabel).1 Session.globals fuel).map fun answer =>
        (reported unit answer.1, answer.2) := by
  obtain ⟨ts, htokens, hparse⟩ := h
  refine ⟨((s.machine.journal.note (.running unit source.utf8ByteSize)).note
    (.scanned ts.length)).note (.parsed p.statements.length), fun fuel => ?_⟩
  have hload : (s.note (.running unit source.utf8ByteSize)).load source
      = (.ok (p.relabel s.nextLabel).1, loaded s p
          (((s.machine.journal.note (.running unit source.utf8ByteSize)).note
            (.scanned ts.length)).note (.parsed p.statements.length))) := by
    unfold Session.load
    rw [htokens]
    dsimp only
    rw [show Program.parse ts
      ((s.note (.running unit source.utf8ByteSize)).note (.scanned ts.length)).limits.nesting
        = .ok p from hparse]
    rfl
  rw [Session.run, Session.runIn, hload]
  dsimp only
  generalize (loaded s p _).exec (p.relabel s.nextLabel).1 Session.globals fuel = x
  rcases x with _ | ⟨_ | _, _⟩ <;> rfl

/-- Values that are alike, or the same fault at paired tokens in two source units. -/
inductive ReportAlike (T : Token → Token → Prop) :
    Except Diagnostic Value → Except Diagnostic Value → Prop where
  | ok {ρ : Scopes} {v w : Value} (h : ValueAlike T ρ v w) : ReportAlike T (.ok v) (.ok w)
  | error {unit unit' : String} {e e' : RuntimeError} (h : ErrorAlike T e e') :
      ReportAlike T (.error ⟨unit, .runtime e⟩) (.error ⟨unit', .runtime e'⟩)

/-- Reports that are alike, with sessions that are alike afterwards. -/
structure RunAlike (T : Token → Token → Prop) (limits : Limits)
    (x y : Except Diagnostic Value × Session) : Prop where
  report : ReportAlike T x.1 y.1
  session : SessionAlike T limits x.2 y.2

/-- Similar source units run in lockstep in sessions that are alike. -/
theorem run_inStep {s t : Session} {source source' : String} {p q : Program}
    (h : SessionAlike T limits s t) (hp : ReadsAs limits source p)
    (hq : ReadsAs limits source' q) (hpq : p.Similar q)
    (hT : ∀ ⦃t u⦄, p.Corresponding q t u → T t u) (unit unit' : String) (fuel : Nat) :
    Option.Rel (RunAlike T limits) (s.run unit source fuel) (t.run unit' source' fuel) := by
  obtain ⟨halike, hfree⟩ := relabel_of_similar hp.formed hq.formed hpq hT s.nextLabel
  obtain ⟨journal, hs⟩ := run_of_readsAs (show ReadsAs s.limits source p by rwa [h.left]) unit
  obtain ⟨journal', ht⟩ := run_of_readsAs (show ReadsAs t.limits source' q by rwa [h.right]) unit'
  rw [hs, ht, ← h.nextLabel]
  have hloaded : SessionAlike T limits (loaded s p journal) (loaded t q journal') := by
    obtain ⟨hleft, hright, hlabel, ρ, hglobals, hmachine⟩ := h
    refine ⟨hleft, hright, ?_, ρ, hglobals, hmachine.stores, hmachine.sink, hmachine.calls⟩
    rw [loaded, loaded, ← hlabel]
    exact hfree
  have hanswer := exec_inStep hloaded halike fuel
  generalize (loaded s p journal).exec (p.relabel s.nextLabel).1 Session.globals fuel = x,
    (loaded t q journal').exec (q.relabel s.nextLabel).1 Session.globals fuel = y at hanswer ⊢
  cases hanswer with
  | none => exact .none
  | @some x y hxy =>
    obtain ⟨r, s'⟩ := x
    obtain ⟨r', t'⟩ := y
    obtain ⟨⟨ρ, hresult⟩, hsession⟩ := hxy
    cases hresult with
    | ok hv => exact .some ⟨.ok hv, hsession⟩
    | error he => exact .some ⟨.error he, hsession⟩

/-- Sessions that have run similar units are alike, if corresponding tokens of these are paired. -/
theorem sessionAlike_of_similar {earlier : List (Program × Program)} {s t : Session}
    (h : SimilarSessions limits earlier s t)
    (hT : ∀ pair ∈ earlier, ∀ ⦃t u⦄, pair.1.Corresponding pair.2 t u → T t u) :
    SessionAlike T limits s t := by
  induction h with
  | new sink j k => exact sessionAlike_new limits sink j k
  | @next earlier s t s' t' unit unit' source source' p q r r' _ hp hq hpq hs ht ih =>
    rw [List.forall_mem_cons] at hT
    obtain ⟨fuel, hs, ht⟩ := hs.common_fuel ht
    have hrun := run_inStep (ih hT.2) hp hq hpq hT.1 unit unit' fuel
    rw [hs, ht, Option.rel_some_some] at hrun
    exact hrun.session

-- ============================================================================
-- Layout and spelling do not matter
-- ============================================================================

/-- The tokens correspond in one of the pairs of units. -/
def CorrespondingIn (units : List (Program × Program)) (t u : Token) : Prop :=
  ∃ pair ∈ units, pair.1.Corresponding pair.2 t u

theorem resultsAgree_of_alike {units : List (Program × Program)}
    {r r' : Except Diagnostic Value} (h : ReportAlike (CorrespondingIn units) r r') :
    ResultsAgree units r r' := by
  cases h with
  | ok hv => exact .value ⟨hv.type, hv.text, hv.echo, hv.isTruthy⟩
  | error he =>
    exact .error (congrArg Fault.kind he.fault) (congrArg Fault.message he.fault) he.token

/-- Similar source units that are run in similar sessions end both or neither. If they end, they
    have written the same, and their results agree. -/
theorem similar_units_agree {limits : Limits} {earlier : List (Program × Program)} {s t : Session}
    {source source' : String} {p q : Program} (hsessions : SimilarSessions limits earlier s t)
    (hp : ReadsAs limits source p) (hq : ReadsAs limits source' q) (hpq : p.Similar q)
    (unit unit' : String) :
    ((∃ r s', s.Ends unit source r s') ↔ ∃ r t', t.Ends unit' source' r t') ∧
      ∀ r s' r' t', s.Ends unit source r s' → t.Ends unit' source' r' t' →
        s'.machine.sink = t'.machine.sink ∧ ResultsAgree ((p, q) :: earlier) r r' := by
  have halike : SessionAlike (CorrespondingIn ((p, q) :: earlier)) limits s t :=
    sessionAlike_of_similar hsessions fun pair hpair _ _ h => ⟨pair, .tail _ hpair, h⟩
  have hruns := run_inStep halike hp hq hpq (fun _ _ h => ⟨(p, q), .head _, h⟩) unit unit'
  constructor
  · constructor
    · rintro ⟨r, s', fuel, hs⟩
      have hrun := hruns fuel
      rw [hs] at hrun
      generalize ht : t.run unit' source' fuel = y at hrun
      cases hrun with
      | @some _ y _ => exact ⟨y.1, y.2, fuel, ht⟩
    · rintro ⟨r, t', fuel, ht⟩
      have hrun := hruns fuel
      rw [ht] at hrun
      generalize hs : s.run unit source fuel = x at hrun
      cases hrun with
      | @some x _ _ => exact ⟨x.1, x.2, fuel, hs⟩
  · intro r s' r' t' hs ht
    obtain ⟨fuel, hs, ht⟩ := hs.common_fuel ht
    have hrun := hruns fuel
    rw [hs, ht, Option.rel_some_some] at hrun
    exact ⟨hrun.session.sink, resultsAgree_of_alike hrun.report⟩

section Witness

open Printing (lineToken)

/-- The tokens of `fn f(){x&&y}`. -/
def tightTokens : List Token :=
  [lineToken .fnWord "fn" 1 3, lineToken .identifier "f" 4 5, lineToken .leftParen "(" 5 6,
   lineToken .rightParen ")" 6 7, lineToken .leftBrace "\x7b" 7 8, lineToken .identifier "x" 8 9,
   lineToken .andSign "&&" 9 11, lineToken .identifier "y" 11 12,
   lineToken .rightBrace "\x7d" 12 13, lineToken .eof "" 13 13]

/-- The program of `tightTokens`. -/
def tightProgram : Program :=
  ⟨[.function 0 (lineToken .identifier "f" 4 5) []
    [.expression (.binary .and (lineToken .andSign "&&" 9 11)
      (.identifier (lineToken .identifier "x" 8 9))
      (.identifier (lineToken .identifier "y" 11 12)))]]⟩

/-- The tokens of `fn f() { (x and y) }`. -/
def looseTokens : List Token :=
  [lineToken .fnWord "fn" 1 3, lineToken .identifier "f" 4 5, lineToken .leftParen "(" 5 6,
   lineToken .rightParen ")" 6 7, lineToken .leftBrace "\x7b" 8 9, lineToken .leftParen "(" 10 11,
   lineToken .identifier "x" 11 12, lineToken .andWord "and" 13 16, lineToken .identifier "y" 17 18,
   lineToken .rightParen ")" 18 19, lineToken .rightBrace "\x7d" 20 21, lineToken .eof "" 21 21]

/-- The program of `looseTokens`. -/
def looseProgram : Program :=
  ⟨[.function 0 (lineToken .identifier "f" 4 5) []
    [.expression (.binary .and (lineToken .andWord "and" 13 16)
      (.identifier (lineToken .identifier "x" 11 12))
      (.identifier (lineToken .identifier "y" 17 18)))]]⟩

/-- A call of `f` whose parentheses begin and end at the given columns. -/
def callTokens (opening closing : Nat) : List Token :=
  [lineToken .identifier "f" 1 2, lineToken .leftParen "(" opening (opening + 1),
   lineToken .rightParen ")" closing (closing + 1), lineToken .eof "" (closing + 1) (closing + 1)]

/-- The program of `callTokens`. -/
def callProgram (opening : Nat) : Program :=
  ⟨[.expression (.call (.identifier (lineToken .identifier "f" 1 2))
    (lineToken .leftParen "(" opening (opening + 1)) [])]⟩

/-- The function fails at a name in its body, and the tokens of that body belong to the unit that
    defined it. -/
theorem similar_units_agree_undefined :
    ∃ s t, SimilarSessions ⟨20, 20⟩ [(tightProgram, looseProgram)] s t ∧
      (∃ r t', t.Ends "unit" "f ( )" r t') ∧
      ∀ r s' r' t', s.Ends "unit" "f()" r s' → t.Ends "unit" "f ( )" r' t' →
        s'.machine.sink = t'.machine.sink ∧
          ResultsAgree [(callProgram 2, callProgram 3), (tightProgram, looseProgram)] r r' := by
  have hready : (((Session.new ⟨20, 20⟩ .unbounded .silent).run "unit" "fn f()\x7bx&&y\x7d" 10).bind
      fun answer => answer.2.run "unit" "f()" 10).isSome = true := by decide +kernel
  have hready' : ((Session.new ⟨20, 20⟩ .unbounded .silent).run "unit"
      "fn f() \x7b (x and y) \x7d" 10).isSome = true := by decide +kernel
  obtain ⟨⟨r, s'⟩, hend⟩ := Option.isSome_iff_exists.mp hready
  obtain ⟨⟨r₀, s⟩, hs, hcall⟩ := Option.bind_eq_some_iff.mp hend
  obtain ⟨⟨r₀', t⟩, ht⟩ := Option.isSome_iff_exists.mp hready'
  have hsessions : SimilarSessions ⟨20, 20⟩ [(tightProgram, looseProgram)] s t :=
    .next (.new .unbounded .silent .silent) ⟨tightTokens, rfl, rfl⟩ ⟨looseTokens, rfl, rfl⟩ rfl
      ⟨10, hs⟩ ⟨10, ht⟩
  have hread : ReadsAs ⟨20, 20⟩ "f()" (callProgram 2) := ⟨callTokens 2 3, rfl, rfl⟩
  have hread' : ReadsAs ⟨20, 20⟩ "f ( )" (callProgram 3) := ⟨callTokens 3 5, rfl, rfl⟩
  obtain ⟨hends, hagree⟩ := similar_units_agree hsessions hread hread' rfl "unit" "unit"
  exact ⟨s, t, hsessions, hends.mp ⟨r, s', 10, hcall⟩, hagree⟩

end Witness

end Lockstep

end Lexiscope
