/-
  Lexiscope.Proofs.Shell.Cut

  A session with the shell can be cut at any line end.

  When the shell has run the lines of one input and starts on another, it is where it
  would be between two lines of a single input, except that it has written one prompt
  and the newline behind it more. What it has written makes no difference to what
  follows.
-/
import Lexiscope.Proofs.Curbed.Depth
import Lexiscope.Proofs.Shell.Alongside

namespace Lexiscope

namespace Shell

variable {sh sh₁ sh₂ : Shell} {errors errors₁ errors₂ : Sink} {fuel more : Nat} {o : Outcome}

-- ============================================================================
-- Fuel
-- ============================================================================

theorem runLine_mono (hle : fuel ≤ more) {line : List UInt8}
    (h : sh.runLine errors line fuel = some o) : sh.runLine errors line more = some o := by
  unfold runLine at h ⊢
  cases htext : Text.decode? line with
  | none =>
    rw [htext] at h
    exact h
  | some text =>
    rw [htext] at h
    dsimp only at h ⊢
    by_cases hblank : (Text.trimEnd text.toList).isEmpty = true
    · rw [if_pos hblank] at h ⊢
      exact h
    · rw [if_neg hblank] at h ⊢
      cases hrun : sh.session.run unit (String.ofList (Text.trimEnd text.toList)) fuel with
      | none =>
        rw [hrun] at h
        exact nomatch h
      | some answer =>
        rw [hrun] at h
        rw [Session.run_mono hle hrun]
        exact h

theorem step_mono (hle : fuel ≤ more) {line : Option (List UInt8)}
    (h : sh.step errors line fuel = some o) : sh.step errors line more = some o := by
  rcases hprompt : sh.write sh.prompt with ⟨next, _ | _⟩
  · rw [step, hprompt] at h ⊢
    exact h
  · rw [step_of_write hprompt] at h ⊢
    cases line with
    | none => exact h
    | some bytes => exact runLine_mono hle h

theorem runLines_mono (hle : fuel ≤ more) {lines : List (List UInt8)}
    (h : sh.runLines errors fuel lines = some o) : sh.runLines errors more lines = some o := by
  induction lines generalizing sh errors with
  | nil => exact step_mono hle h
  | cons line rest ih =>
    rw [runLines] at h ⊢
    cases hstep : sh.step errors (some line) fuel with
    | none =>
      rw [hstep] at h
      cases h
    | some o' =>
      rw [hstep] at h
      rw [step_mono hle hstep]
      obtain ⟨next, errors', _ | failure⟩ := o'
      · exact ih h
      · exact h

/-- More fuel keeps what an input comes to. -/
theorem run_mono (hle : fuel ≤ more) {input : List UInt8}
    (h : sh.run errors input fuel = some o) : sh.run errors input more = some o := by
  obtain ⟨o', hlines, hfinish⟩ := Option.map_eq_some_iff.mp h
  exact Option.map_eq_some_iff.mpr ⟨o', runLines_mono hle hlines, hfinish⟩

/-- With enough fuel the input comes to this. -/
def Ends (sh : Shell) (errors : Sink) (input : List UInt8) (o : Outcome) : Prop :=
  ∃ fuel, sh.run errors input fuel = some o

-- ============================================================================
-- The end of an input
-- ============================================================================

/-- What was written to the output. -/
def out (sh : Shell) : ByteArray := sh.session.machine.sink.bytes

/-- The shell when it has written this and nothing else. -/
def withOut (sh : Shell) (bytes : ByteArray) : Shell :=
  { sh with session := { sh.session with machine :=
    { sh.session.machine with sink := ⟨bytes, none⟩ } } }

/-- The shell where it starts on an input. -/
def begun (sh : Shell) : Shell := { sh with session := sh.session.note .shellStarted }

/-- The shell when it has come to the end of an input. -/
def ended (sh : Shell) : Shell :=
  { sh with session := sh.session.note (.shellEnded (sh.counter - 1)) }

theorem run_eq_some_iff {input : List UInt8} :
    sh.run errors input fuel = some o ↔
      ∃ o', sh.begun.runLines errors fuel (splitLines input) = some o' ∧ finish o' = o :=
  Option.map_eq_some_iff

theorem write_eq (hfree : sh.session.machine.sink.limit = none) (text : String) :
    sh.write text = (sh.withOut (sh.out ++ text.toUTF8), true) := by
  obtain ⟨⟨⟨store, ⟨bytes, limit⟩, calls, journal⟩, limits, nextLabel⟩, counter⟩ := sh
  obtain rfl : limit = none := hfree
  rfl

/-- At the end of an input there is a prompt with nothing behind it. -/
theorem step_end_eq (hfree : sh.session.machine.sink.limit = none) (errors : Sink) (fuel : Nat) :
    sh.step errors none fuel =
      some (sh.withOut (sh.out ++ (sh.prompt ++ "\n").toUTF8), errors, none) := by
  rw [step_of_write (write_eq hfree _), answer_none (write_eq rfl "\n")]
  show some (sh.withOut ((sh.out ++ sh.prompt.toUTF8) ++ "\n".toUTF8), errors, none) = _
  rw [ByteArray.append_assoc, String.toUTF8_eq_toByteArray, String.toUTF8_eq_toByteArray,
    String.toUTF8_eq_toByteArray, String.toByteArray_append]

/-- What a run on an input of lines of text comes to before it writes its last prompt, another one
    alongside comes to as well. -/
theorem Alongside.before_end {past : Past} {sh' : Shell} {errors' e : Sink} {input : List UInt8}
    {failure : Option ShellFailure} (h : Alongside past sh.begun errors sh' errors')
    (htexts : ∀ line ∈ splitLines input, (Text.decode? line).isSome)
    (hrun : sh.run errors input fuel = some (sh₁, e, failure)) :
    failure = none ∧ ∃ next next' middle,
      sh'.feed errors' fuel (splitLines input) = some (next', middle, none) ∧
      next.counter = sh.counter + (splitLines input).countP holdsText ∧
      Alongside past next e next' middle ∧
      sh₁ = (next.withOut (next.out ++ (next.prompt ++ "\n").toUTF8)).ended := by
  obtain ⟨o, hlines, hfinish⟩ := run_eq_some_iff.mp hrun
  rw [← List.append_nil (splitLines input), runLines_append] at hlines
  cases hfeed : sh.begun.feed errors fuel (splitLines input) with
  | none =>
    rw [hfeed] at hlines
    cases hlines
  | some o' =>
    obtain ⟨next, e', next', middle, hfirst, hfirst', hcounter, hnext⟩ := h.feed htexts hfeed
    obtain ⟨shown, hsink, -⟩ := hnext.session.sink
    rw [hfirst] at hlines
    dsimp only at hlines
    rw [Shell.runLines, step_end_eq (congrArg Sink.limit hsink), Option.some.injEq] at hlines
    subst hlines
    cases hfinish
    exact ⟨rfl, next, next', middle, hfirst', hcounter, hnext, rfl⟩

/-- What a run on an input of lines of text comes to, another one alongside comes to as well. -/
theorem Alongside.to_end {past : Past} {sh' : Shell} {errors' e : Sink} {input : List UInt8}
    {failure : Option ShellFailure} (h : Alongside past sh.begun errors sh' errors')
    (htexts : ∀ line ∈ splitLines input, (Text.decode? line).isSome)
    (hrun : sh.run errors input fuel = some (sh₁, e, failure)) :
    failure = none ∧ ∃ last' e',
      sh'.runLines errors' fuel (splitLines input) = some (last', e', none) ∧
      Alongside past sh₁ e last'.ended e' := by
  obtain ⟨o, hlines, hfinish⟩ := run_eq_some_iff.mp hrun
  obtain ⟨last, e₁, last', e', hlast, hlast', -, hnext⟩ := h.runLines htexts hlines
  obtain rfl : o = (last, e₁, none) := Option.some.inj (hlines.symm.trans hlast)
  cases hfinish
  exact ⟨rfl, last', e', hlast', hnext.note _ _⟩

/-- A session with the shell can be cut at any line end. Where the first of two runs ends, the
    prompt is for the line that has the number of the first line, counted on by the lines with
    anything but blanks on them. A single run on both inputs writes the same, without this prompt
    and the newline behind it, and comes to the same line with the same scopes. Neither the runs in
    turn nor the single one fail. -/
theorem cut_at_line_end {u v : List UInt8} {e₁ e₂ : Sink} {failure₁ failure₂ : Option ShellFailure}
    (hfree : sh.session.machine.sink.limit = none) (hfree₁ : errors₁.limit = none)
    (hfree₂ : errors₂.limit = none) (hfree₃ : errors.limit = none)
    (hu : (Text.decode? u).isSome) (hend : u = [] ∨ u.getLast? = some 10)
    (hv : (Text.decode? v).isSome) (hrun₁ : sh.Ends errors₁ u (sh₁, e₁, failure₁))
    (hrun₂ : sh₁.Ends errors₂ v (sh₂, e₂, failure₂)) :
    failure₁ = none ∧ failure₂ = none ∧ ∃ shown out₂ err₁ err₂ : ByteArray,
      (∃ k, k = sh.counter + (splitLines u).countP holdsText ∧
        sh₁.out = sh.out ++ (shown ++ (">>> [" ++ toString k ++ "]: " ++ "\n").toUTF8)) ∧
      e₁.bytes = errors₁.bytes ++ err₁ ∧
      sh₂.out = sh₁.out ++ out₂ ∧ e₂.bytes = errors₂.bytes ++ err₂ ∧
      ∃ sh₃ e₃, sh.Ends errors (u ++ v) (sh₃, e₃, none) ∧ sh₃.out = sh.out ++ (shown ++ out₂) ∧
        e₃.bytes = errors.bytes ++ (err₁ ++ err₂) ∧ sh₃.counter = sh₂.counter ∧
        sh₃.session.machine.store = sh₂.session.machine.store := by
  obtain ⟨fuel₁, hrun₁⟩ := hrun₁
  obtain ⟨fuel₂, hrun₂⟩ := hrun₂
  have hrun₁ := run_mono (Nat.le_max_left fuel₁ fuel₂) hrun₁
  have hrun₂ := run_mono (Nat.le_max_right fuel₁ fuel₂) hrun₂
  generalize max fuel₁ fuel₂ = fuel at hrun₁ hrun₂
  have hlast : ∀ b ∈ u.getLast?, b = 10 := by
    rintro b hb
    rcases hend with rfl | hnewline
    · cases hb
    · exact Option.some.inj (hb.symm.trans hnewline)
  -- The first input, in a run of its own and in the single run.
  have hstart : Alongside ⟨sh.out, sh.out, errors₁.bytes, errors.bytes⟩ sh.begun errors₁ sh.begun
      errors := ⟨⟨.start hfree hfree, rfl, rfl, rfl, rfl⟩, .start hfree₁ hfree₃, rfl⟩
  obtain ⟨rfl, next, next', middle, hfeed, hcounter, hnext, rfl⟩ :=
    hstart.before_end (fun _ => isSome_decode?_of_mem_splitLines hu) hrun₁
  obtain ⟨shown, hsink, hsink'⟩ := hnext.session.sink
  obtain ⟨err₁, herrors, herrors'⟩ := hnext.errors
  -- The second input, from where the first run ended and from where the single run is.
  have hbetween : Alongside ⟨_, next'.out, errors₂.bytes, middle.bytes⟩
      (next.withOut (next.out ++ (next.prompt ++ "\n").toUTF8)).ended.begun errors₂ next' middle :=
    ⟨⟨.start rfl (congrArg Sink.limit hsink'), hnext.session.store, hnext.session.calls,
      hnext.session.limits, hnext.session.nextLabel⟩,
      .start hfree₂ (congrArg Sink.limit herrors'), hnext.counter⟩
  obtain ⟨rfl, last, e, hlines, hfinal⟩ :=
    hbetween.to_end (fun _ => isSome_decode?_of_mem_splitLines hv) hrun₂
  obtain ⟨out₂, hout, hout'⟩ := hfinal.session.sink
  obtain ⟨err₂, herr, herr'⟩ := hfinal.errors
  have hsingle : sh.run errors (u ++ v) fuel = some (last.ended, e, none) := by
    rw [run_eq_some_iff, splitLines_append v hlast]
    refine ⟨(last, e, none), ?_, rfl⟩
    rw [runLines_append, hfeed]
    exact hlines
  have hnextOut : next.out = sh.out ++ shown := congrArg Sink.bytes hsink
  have hnextOut' : next'.out = sh.out ++ shown := congrArg Sink.bytes hsink'
  have hmiddle : middle.bytes = errors.bytes ++ err₁ := congrArg Sink.bytes herrors'
  refine ⟨rfl, rfl, shown, out₂, err₁, err₂, ⟨_, rfl, ?_⟩, congrArg Sink.bytes herrors,
    congrArg Sink.bytes hout, congrArg Sink.bytes herr, last.ended, e, ⟨fuel, hsingle⟩, ?_, ?_,
    hfinal.counter.symm, hfinal.session.store.symm⟩
  · show next.out ++ (next.prompt ++ "\n").toUTF8 = _
    rw [hnextOut, prompt, hcounter, ByteArray.append_assoc]
  · rw [← ByteArray.append_assoc, ← hnextOut']
    exact congrArg Sink.bytes hout'
  · rw [← ByteArray.append_assoc, ← hmiddle]
    exact congrArg Sink.bytes herr'

section Witness

/-- A shell in which nothing was run yet. -/
def freshShell : Shell := .new (.new .default .unbounded .silent)

/-- A name is declared, another is not known, and then there are only blanks. -/
def upperInput : List UInt8 := "let s = 'a'\nx\n  \n".toUTF8.toList

/-- A line without a newline at its end. -/
def lowerInput : List UInt8 := "s".toUTF8.toList

/-- The blank line is not counted and the line that fails is, so the upper input ends at the third
    prompt. The name is still known in the lower input. -/
theorem cut_at_line_end_undefined :
    ∃ sh₁ e₁ sh₂ e₂, freshShell.Ends .unbounded upperInput (sh₁, e₁, none) ∧
      sh₁.Ends .unbounded lowerInput (sh₂, e₂, none) ∧ sh₂.counter = 4 ∧
      ∃ shown out₂ : ByteArray,
        sh₁.out = freshShell.out ++ (shown ++ ">>> [3]: \n".toUTF8) ∧ sh₂.out = sh₁.out ++ out₂ ∧
        ∃ sh₃ e₃, freshShell.Ends .unbounded (upperInput ++ lowerInput) (sh₃, e₃, none) ∧
          sh₃.out = freshShell.out ++ (shown ++ out₂) ∧ sh₃.counter = 4 := by
  have hruns : ((freshShell.run .unbounded upperInput 20).bind fun first =>
      (first.1.run .unbounded lowerInput 20).map fun second => second.1.counter) = some 4 := by
    decide +kernel
  obtain ⟨⟨sh₁, e₁, failure₁⟩, hfirst, hruns⟩ := Option.bind_eq_some_iff.mp hruns
  obtain ⟨⟨sh₂, e₂, failure₂⟩, hsecond, hcounter⟩ := Option.map_eq_some_iff.mp hruns
  obtain ⟨rfl, rfl, shown, out₂, _, _, ⟨k, hk, hshown⟩, -, hout₂, -, sh₃, e₃, hsingle, hout₃, -,
    hline, -⟩ :=
    cut_at_line_end rfl rfl rfl (show Sink.unbounded.limit = none from rfl)
      (show (Text.decode? upperInput).isSome by decide +kernel)
      (.inr (show upperInput.getLast? = some 10 by decide +kernel))
      (show (Text.decode? lowerInput).isSome by decide +kernel) ⟨20, hfirst⟩ ⟨20, hsecond⟩
  obtain rfl : k = 3 := hk.trans (by decide +kernel)
  exact ⟨sh₁, e₁, sh₂, e₂, ⟨20, hfirst⟩, ⟨20, hsecond⟩, hcounter, shown, out₂, hshown, hout₂, sh₃, e₃,
    hsingle, hout₃, hline.trans hcounter⟩

end Witness

end Shell

end Lexiscope
