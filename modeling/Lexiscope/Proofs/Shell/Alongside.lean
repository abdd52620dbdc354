/-
  Lexiscope.Proofs.Shell.Alongside

  What was written before makes no difference to the shell.

  Two runs that write to sinks without a bound, each behind what was written there
  before, write the same and end in the same way. Nor do the journals matter. So two
  shells that differ in nothing else stay alongside each other, line by line, and on
  lines of text neither of them fails.
-/
import Lexiscope.Proofs.Session.Recovery
import Lexiscope.Proofs.Curbed.Run
import Lexiscope.Proofs.Shell.Lines

namespace Lexiscope

-- ============================================================================
-- Sinks
-- ============================================================================

/-- Sinks without a bound, which have taken the same behind what they had before. -/
def Sink.Alongside (before before' : ByteArray) (s s' : Sink) : Prop :=
  ∃ out, s = ⟨before ++ out, none⟩ ∧ s' = ⟨before' ++ out, none⟩

namespace Sink.Alongside

variable {before before' : ByteArray} {s s' : Sink}

theorem start (hs : s.limit = none) (hs' : s'.limit = none) :
    Sink.Alongside s.bytes s'.bytes s s' := by
  obtain ⟨bytes, limit⟩ := s
  obtain ⟨bytes', limit'⟩ := s'
  obtain rfl : limit = none := hs
  obtain rfl : limit' = none := hs'
  exact ⟨ByteArray.empty, by rw [ByteArray.append_empty], by rw [ByteArray.append_empty]⟩

/-- Both take every text. -/
theorem write (h : Sink.Alongside before before' s s') (text : String) :
    (s.write text).2 = true ∧ (s'.write text).2 = true ∧
      Sink.Alongside before before' (s.write text).1 (s'.write text).1 := by
  obtain ⟨out, rfl, rfl⟩ := h
  refine ⟨rfl, rfl, out ++ text.toUTF8, ?_, ?_⟩
  · show Sink.mk _ none = _
    rw [ByteArray.append_assoc]
  · show Sink.mk _ none = _
    rw [ByteArray.append_assoc]

end Sink.Alongside

/-- The same bounds for both runs, which write to sinks alongside each other. -/
def Curb.alongside (limit : Nat) (before before' : ByteArray) : Curb where
  tight := limit
  loose := limit
  Paired := Sink.Alongside before before'
  Journals _ _ := True
  Stops _ := False
  Left _ _ := False
  tight_le := Nat.le_refl limit
  tooDeep hne := absurd rfl hne
  write _ _ h text := by
    obtain ⟨htaken, htaken', hnext⟩ := h.write text
    exact .inl ⟨htaken.trans htaken'.symm, hnext⟩
  note _ _ h _ := h
  later _ _ _ hleft _ := hleft

-- ============================================================================
-- Sessions
-- ============================================================================

/-- Sessions that differ only in their journals and in what was written before. -/
structure Session.Alongside (before before' : ByteArray) (s s' : Session) : Prop where
  sink : Sink.Alongside before before' s.machine.sink s'.machine.sink
  store : s.machine.store = s'.machine.store
  calls : s.machine.activeCalls = s'.machine.activeCalls
  limits : s.limits = s'.limits
  nextLabel : s.nextLabel = s'.nextLabel

namespace Session.Alongside

variable {before before' : ByteArray} {s s' s₁ : Session} {unit source : String} {fuel : Nat}

theorem withJournals (h : Session.Alongside before before' s s') (j j' : Journal) :
    Session.Alongside before before' (s.withJournal j) (s'.withJournal j') :=
  ⟨h.sink, h.store, h.calls, h.limits, h.nextLabel⟩

theorem exec {p : Program} {scope : ScopeId} {r : Except RuntimeError Value}
    (h : Session.Alongside before before' s s') (hexec : s.exec p scope fuel = some (r, s₁)) :
    ∃ s₁', s'.exec p scope fuel = some (r, s₁') ∧ Session.Alongside before before' s₁ s₁' := by
  obtain ⟨m, hrun, rfl⟩ := step_eq_some hexec
  have hpace := Curb.phrase_inPace (.alongside s.limits.calls before before') (.program p) fuel scope
  have houtcome := hpace.outcome ⟨h.store, h.sink, h.calls, trivial⟩
  rw [show (Phrase.program p).run (Curb.alongside s.limits.calls before before').tight fuel scope
    s.machine = some (r, m) from hrun] at houtcome
  unfold Session.exec Session.step
  rw [← h.limits]
  generalize hother : (Phrase.program p).run (Curb.alongside s.limits.calls before before').loose
    fuel scope s'.machine = y at houtcome
  rw [show p.run s.limits.calls fuel scope s'.machine = y from hother]
  cases houtcome with
  | together r hm => exact ⟨_, rfl, hm.sink, hm.store, hm.calls, rfl, h.nextLabel⟩
  | stopped he _ => exact he.elim

/-- A source unit ends in the same way in both sessions. -/
theorem run {r : Except Diagnostic Value} (h : Session.Alongside before before' s s')
    (hrun : s.run unit source fuel = some (r, s₁)) :
    ∃ s₁', s'.run unit source fuel = some (r, s₁') ∧ Session.Alongside before before' s₁ s₁' := by
  rcases run_cases hrun with ⟨e, journal, htokens, rfl, rfl⟩ |
    ⟨ts, e, journal, htokens, hparse, rfl, rfl⟩ | ⟨p, journal, r', hread, hexec, rfl⟩
  · rw [Session.run, runIn, load, htokens]
    exact ⟨_, rfl, h.withJournals journal _⟩
  · rw [Session.run, runIn, load, htokens]
    dsimp only
    rw [show Program.parse ts ((s'.note (.running unit source.utf8ByteSize)).note
      (.scanned ts.length)).limits.nesting = .error e from h.limits ▸ hparse]
    exact ⟨_, rfl, h.withJournals journal _⟩
  · obtain ⟨journal', hrun'⟩ := Lockstep.run_of_readsAs (h.limits ▸ hread) unit
    have hloaded : Session.Alongside before before' (Lockstep.loaded s p journal)
        (Lockstep.loaded s' p journal') :=
      ⟨h.sink, h.store, h.calls, h.limits, by rw [Lockstep.loaded, Lockstep.loaded, h.nextLabel]⟩
    obtain ⟨s₁', hexec', hafter⟩ := hloaded.exec hexec
    rw [hrun', ← h.nextLabel, hexec', Option.map_some]
    exact ⟨s₁', rfl, hafter⟩

end Session.Alongside

-- ============================================================================
-- Lines
-- ============================================================================

/-- What was written before two runs of the shell, to the outputs and to the sinks for errors. -/
structure Past where
  out : ByteArray
  out' : ByteArray
  errors : ByteArray
  errors' : ByteArray

namespace Shell

/-- Shells at the same line that differ only in their journals and in what was written before. -/
structure Alongside (past : Past) (sh : Shell) (errors : Sink) (sh' : Shell) (errors' : Sink) :
    Prop where
  session : Session.Alongside past.out past.out' sh.session sh'.session
  errors : Sink.Alongside past.errors past.errors' errors errors'
  counter : sh.counter = sh'.counter

/-- Neither run has failed. The shells are at the line with this number, alongside each other. -/
def GoOn (past : Past) (line : Nat) (x x' : Option Outcome) : Prop :=
  ∃ sh errors sh' errors', x = some (sh, errors, none) ∧ x' = some (sh', errors', none) ∧
    sh.counter = line ∧ Alongside past sh errors sh' errors'

variable {past : Past} {sh sh' next : Shell} {errors errors' : Sink} {fuel : Nat}

/-- Where the prompt can be written, the answer to it decides. -/
theorem step_of_write (h : sh.write sh.prompt = (next, true)) (errors : Sink)
    (line : Option (List UInt8)) (fuel : Nat) :
    sh.step errors line fuel = next.answer errors line fuel := by
  rw [step, h]

theorem answer_some (sh : Shell) (errors : Sink) (line : List UInt8) (fuel : Nat) :
    sh.answer errors (some line) fuel = sh.runLine errors line fuel := rfl

theorem answer_none (h : sh.write "\n" = (next, true)) (errors : Sink) (fuel : Nat) :
    sh.answer errors none fuel = some (next, errors, none) := by
  rw [answer, h]

namespace Alongside

theorem note (h : Alongside past sh errors sh' errors') (e e' : Event) :
    Alongside past { sh with session := sh.session.note e } errors
      { sh' with session := sh'.session.note e' } errors' :=
  ⟨h.session.withJournals _ _, h.errors, h.counter⟩

theorem counted (h : Alongside past sh errors sh' errors') :
    Alongside past { sh with counter := sh.counter + 1 } errors
      { sh' with counter := sh'.counter + 1 } errors' :=
  ⟨h.session, h.errors, congrArg (· + 1) h.counter⟩

theorem goOn {line : Nat} (h : Alongside past sh errors sh' errors') (hline : sh.counter = line) :
    GoOn past line (some (sh, errors, none)) (some (sh', errors', none)) :=
  ⟨sh, errors, sh', errors', rfl, rfl, hline, h⟩

/-- Both outputs take a text. -/
theorem write (h : Alongside past sh errors sh' errors') (text : String) :
    ∃ next next', sh.write text = (next, true) ∧ sh'.write text = (next', true) ∧
      next.counter = sh.counter ∧ Alongside past next errors next' errors' := by
  obtain ⟨htaken, htaken', hnext⟩ := h.session.sink.write text
  have hsession : Session.Alongside past.out past.out' (sh.write text).1.session
      (sh'.write text).1.session :=
    ⟨hnext, h.session.store, h.session.calls, h.session.limits, h.session.nextLabel⟩
  exact ⟨_, _, Prod.ext rfl htaken, Prod.ext rfl htaken', rfl, hsession, h.errors, h.counter⟩

/-- A value is shown, and the line is counted. -/
theorem report_of_write {next : Shell} {v : Value} (hv : v ≠ .nil)
    (h : sh.write (sh.echoLine v) = (next, true)) :
    sh.report errors (.ok v) = ({ next with counter := next.counter + 1 }, errors, none) := by
  cases v with
  | nil => exact absurd rfl hv
  | number _ | string _ | boolean _ | function _ _ | builtin _ => simp only [Shell.report, h]

/-- However a line ended, this is shown and the line is counted. -/
theorem report (h : Alongside past sh errors sh' errors') (result : Except Diagnostic Value) :
    GoOn past (sh.counter + 1) (some (sh.report errors result))
      (some (sh'.report errors' result)) := by
  have hvalue : ∀ v : Value, v ≠ .nil → GoOn past (sh.counter + 1)
      (some (sh.report errors (.ok v))) (some (sh'.report errors' (.ok v))) := by
    intro v hv
    obtain ⟨next, next', hwrite, hwrite', hcounter, hnext⟩ := h.write (sh.echoLine v)
    rw [echoLine, h.counter] at hwrite'
    rw [report_of_write hv hwrite, report_of_write hv hwrite']
    exact hnext.counted.goOn (congrArg (· + 1) hcounter)
  cases result with
  | error d =>
    obtain ⟨htaken, htaken', herrors⟩ := h.errors.write (d.text ++ "\n")
    unfold Shell.report
    dsimp only
    generalize errors.write _ = w, errors'.write _ = w' at htaken htaken' herrors ⊢
    obtain ⟨errors₁, taken⟩ := w
    obtain ⟨errors₁', taken'⟩ := w'
    obtain rfl : taken = true := htaken
    obtain rfl : taken' = true := htaken'
    have hnoted := (h.note (.lineFailed sh.counter) (.lineFailed sh'.counter)).counted
    exact goOn ⟨hnoted.session, herrors, hnoted.counter⟩ rfl
  | ok v =>
    cases v with
    | nil => exact h.counted.goOn rfl
    | number _ | string _ | boolean _ | function _ _ | builtin _ => exact hvalue _ nofun

/-- A line of text is run if there is anything on it but blanks. -/
theorem runLine (h : Alongside past sh errors sh' errors') {line : List UInt8}
    (htext : (Text.decode? line).isSome) {o : Outcome}
    (hrun : sh.runLine errors line fuel = some o) :
    GoOn past (sh.counter + if holdsText line then 1 else 0) (sh.runLine errors line fuel)
      (sh'.runLine errors' line fuel) := by
  obtain ⟨text, htext⟩ := Option.isSome_iff_exists.mp htext
  have hholds : holdsText line = !(Text.trimEnd text.toList).isEmpty := by
    rw [holdsText, htext, Text.isEmpty_trimEnd]
    rfl
  unfold Shell.runLine at hrun ⊢
  rw [htext] at hrun ⊢
  dsimp only at hrun ⊢
  rw [hholds]
  by_cases hblank : (Text.trimEnd text.toList).isEmpty = true
  · rw [if_pos hblank, if_pos hblank, hblank]
    exact h.goOn rfl
  · rw [if_neg hblank] at hrun
    rw [if_neg hblank, if_neg hblank, Bool.eq_false_iff.mpr hblank]
    cases hsession : sh.session.run unit (String.ofList (Text.trimEnd text.toList)) fuel with
    | none =>
      rw [hsession] at hrun
      cases hrun
    | some answer =>
      obtain ⟨result, session⟩ := answer
      obtain ⟨session', hsession', hnext⟩ := h.session.run hsession
      rw [hsession']
      have hafter : Alongside past { sh with session := session } errors
          { sh' with session := session' } errors' := ⟨hnext, h.errors, h.counter⟩
      exact hafter.report result

theorem step_line (h : Alongside past sh errors sh' errors') {line : List UInt8}
    (htext : (Text.decode? line).isSome) {o : Outcome}
    (hrun : sh.step errors (some line) fuel = some o) :
    GoOn past (sh.counter + if holdsText line then 1 else 0) (sh.step errors (some line) fuel)
      (sh'.step errors' (some line) fuel) := by
  obtain ⟨next, next', hwrite, hwrite', hcounter, hnext⟩ := h.write sh.prompt
  have hprompt : sh'.write sh'.prompt = (next', true) := by rwa [prompt, ← h.counter]
  rw [step_of_write hwrite, answer_some] at hrun
  rw [step_of_write hwrite, step_of_write hprompt, answer_some, answer_some, ← hcounter]
  exact hnext.runLine htext hrun

/-- At the end of the input the shell writes a prompt and a newline, and is done. -/
theorem step_end (h : Alongside past sh errors sh' errors') (fuel : Nat) :
    GoOn past sh.counter (sh.step errors none fuel) (sh'.step errors' none fuel) := by
  obtain ⟨next, next', hwrite, hwrite', hcounter, hnext⟩ := h.write sh.prompt
  have hprompt : sh'.write sh'.prompt = (next', true) := by rwa [prompt, ← h.counter]
  obtain ⟨last, last', hnewline, hnewline', hcounter', hlast⟩ := hnext.write "\n"
  rw [step_of_write hwrite, step_of_write hprompt, answer_none hnewline, answer_none hnewline']
  exact hlast.goOn (hcounter'.trans hcounter)

end Alongside

-- ============================================================================
-- Inputs
-- ============================================================================

/-- Runs lines one after the other, up to where the prompt for what follows is written. -/
def feed (sh : Shell) (errors : Sink) (fuel : Nat) : List (List UInt8) → Option Outcome
  | [] => some (sh, errors, none)
  | line :: rest =>
    match sh.step errors (some line) fuel with
    | some (sh', errors', none) => feed sh' errors' fuel rest
    | other => other

/-- Lines are run up to where others follow, and then these are. -/
theorem runLines_append (sh : Shell) (errors : Sink) (fuel : Nat) (lines more : List (List UInt8)) :
    sh.runLines errors fuel (lines ++ more) =
      match sh.feed errors fuel lines with
      | some (sh', errors', none) => sh'.runLines errors' fuel more
      | other => other := by
  induction lines generalizing sh errors with
  | nil => rfl
  | cons line rest ih =>
    rw [List.cons_append, runLines, feed]
    rcases sh.step errors (some line) fuel with _ | ⟨next, errors₁, _ | failure⟩
    · rfl
    · exact ih next errors₁
    · rfl

theorem Alongside.feed {lines : List (List UInt8)} (h : Alongside past sh errors sh' errors')
    (htexts : ∀ line ∈ lines, (Text.decode? line).isSome) {o : Outcome}
    (hrun : sh.feed errors fuel lines = some o) :
    GoOn past (sh.counter + lines.countP holdsText) (sh.feed errors fuel lines)
      (sh'.feed errors' fuel lines) := by
  induction lines generalizing sh errors sh' errors' with
  | nil => exact h.goOn rfl
  | cons line rest ih =>
    obtain ⟨htext, htexts⟩ := List.forall_mem_cons.mp htexts
    rw [Shell.feed] at hrun
    cases hstep : sh.step errors (some line) fuel with
    | none =>
      rw [hstep] at hrun
      cases hrun
    | some o' =>
      obtain ⟨next, errors₁, next', errors₁', hfirst, hfirst', hcounter, hnext⟩ :=
        h.step_line htext hstep
      rw [hfirst] at hrun
      rw [Shell.feed, Shell.feed, hfirst, hfirst', List.countP_cons, Nat.add_comm (rest.countP _),
        ← Nat.add_assoc, ← hcounter]
      exact ih hnext htexts hrun

/-- On lines of text the shell does not fail, and counts those that hold more than blanks. -/
theorem Alongside.runLines {lines : List (List UInt8)} (h : Alongside past sh errors sh' errors')
    (htexts : ∀ line ∈ lines, (Text.decode? line).isSome) {o : Outcome}
    (hrun : sh.runLines errors fuel lines = some o) :
    GoOn past (sh.counter + lines.countP holdsText) (sh.runLines errors fuel lines)
      (sh'.runLines errors' fuel lines) := by
  rw [← List.append_nil lines, runLines_append] at hrun ⊢
  rw [runLines_append, List.append_nil]
  cases hfeed : sh.feed errors fuel lines with
  | none =>
    rw [hfeed] at hrun
    cases hrun
  | some o' =>
    obtain ⟨next, errors₁, next', errors₁', hfirst, hfirst', hcounter, hnext⟩ :=
      h.feed htexts hfeed
    rw [← hfeed, hfirst, hfirst', ← hcounter]
    exact hnext.step_end fuel

end Shell

end Lexiscope
