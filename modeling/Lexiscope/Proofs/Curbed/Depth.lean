/-
  Lexiscope.Proofs.Curbed.Depth

  A lower limit on active calls only cuts a run short.

  The same run under two limits is a curbed run and a free one with the same sink.
  The one with the lower limit ends whenever the other does. It ends in the same way
  and leaves the same machine, or it ends with a stack overflow, and then what it
  has written is the beginning of what the other one writes.
-/
import Lexiscope.Proofs.Curbed.Run
import Lexiscope.Proofs.Eval.Names

namespace Lexiscope

/-- The run ended because too many calls were active. -/
def Overflowed (r : Except RuntimeError Value) : Prop :=
  ∃ e, r = .error e ∧ e.kind = .stackOverflow

/-- A lower and a higher limit on active calls, for runs that write to the same sink. -/
def Curb.calls {lower higher : Nat} (h : lower ≤ higher) : Curb where
  tight := lower
  loose := higher
  Paired := Eq
  Journals := Eq
  Stops e := e.kind = .stackOverflow
  Left := Sink.GrowsTo
  tight_le := h
  tooDeep _ := by
    refine ⟨fun _ _ => rfl, ?_⟩
    rintro s _ rfl
    exact .refl s
  write := by
    rintro s _ rfl text
    exact .inl ⟨rfl, rfl⟩
  note := Journal.note_eq
  later _ _ _ := Sink.GrowsTo.trans

theorem Curb.machines_calls_iff {lower higher : Nat} {h : lower ≤ higher} {m m' : Machine} :
    (Curb.calls h).Machines m m' ↔ m = m' := by
  constructor
  · rintro ⟨hstore, hsink, hcalls, hjournal⟩
    obtain ⟨store, sink, calls, journal⟩ := m
    obtain ⟨store', sink', calls', journal'⟩ := m'
    obtain rfl : store = store' := hstore
    obtain rfl : sink = sink' := hsink
    obtain rfl : calls = calls' := hcalls
    obtain rfl : journal = journal' := hjournal
    rfl
  · rintro rfl
    exact ⟨rfl, rfl, rfl, rfl⟩

/-- If a program or an expression ends under the higher limit, it ends under the lower one: with the
    same result on the same machine, or with a stack overflow after the beginning of the output. If
    it ends under the lower limit and not with a stack overflow, it ends under the higher one in the
    same way. -/
theorem lower_limit_only_cuts (phrase : Phrase) (scope : ScopeId) (m : Machine)
    {lower higher : Nat} (h : lower ≤ higher) :
    (∀ r m₂, phrase.Ends higher scope m r m₂ → ∃ r₁ m₁, phrase.Ends lower scope m r₁ m₁ ∧
      (r₁ = r ∧ m₁ = m₂ ∨
        Overflowed r₁ ∧ ∃ more, m₂.sink.bytes = m₁.sink.bytes ++ more)) ∧
    ∀ r m₁, phrase.Ends lower scope m r m₁ → ¬ Overflowed r → phrase.Ends higher scope m r m₁ := by
  have hself : (Curb.calls h).Machines m m := Curb.machines_calls_iff.mpr rfl
  constructor
  · intro r m₂ hends
    rcases Curb.ends_of_loose hself hends with ⟨m₁, hlower, hsame⟩ | ⟨e, m₁, hlower, hstops, hleft⟩
    · exact ⟨r, m₁, hlower, .inl ⟨rfl, Curb.machines_calls_iff.mp hsame⟩⟩
    · exact ⟨.error e, m₁, hlower, .inr ⟨⟨e, rfl, hstops⟩, hleft.bytes⟩⟩
  · intro r m₁ hends hfree
    have hstops : ∀ e, r = .error e → ¬ (Curb.calls h).Stops e :=
      fun e he hkind => hfree ⟨e, he, hkind⟩
    obtain ⟨m₂, hhigher, hsame⟩ := Curb.ends_of_tight hself hends hstops
    obtain rfl : m₁ = m₂ := Curb.machines_calls_iff.mp hsame
    exact hhigher

section Witness

/-- `fn f(x) { print(x); if (x) f(false); } f(true);` -/
def countingDown : Program :=
  ⟨[.function 1 (looseName "f") [looseName "x"]
      [.expression (.call (.identifier (looseName "print")) (looseName "(")
        [.identifier (looseName "x")]),
       .ifThen (looseName "if") (.identifier (looseName "x"))
        (.expression (.call (.identifier (looseName "f")) (looseName "(") [.boolean false]))],
    .expression (.call (.identifier (looseName "f")) (looseName "(") [.boolean true])]⟩

/-- A machine that knows the builtin functions only, and has done nothing yet. -/
def idleMachine : Machine := ⟨Store.empty.newGlobal.1, .unbounded, 0, .silent⟩

/-- Two active calls are enough for the program. Where only one is allowed, it overflows behind its
    first line. -/
theorem lower_limit_only_cuts_countingDown :
    ∃ r m₂ r₁ m₁, (Phrase.program countingDown).Ends 2 0 idleMachine r m₂ ∧
      m₂.sink.bytes = "true\nfalse\n".toUTF8 ∧
      (Phrase.program countingDown).Ends 1 0 idleMachine r₁ m₁ ∧
      m₁.sink.bytes = "true\n".toUTF8 ∧ Overflowed r₁ ∧
      ∃ more, m₂.sink.bytes = m₁.sink.bytes ++ more := by
  have hhigher : (((Phrase.program countingDown).run 2 20 0 idleMachine).map fun answer =>
      answer.2.sink.bytes) = some "true\nfalse\n".toUTF8 := by decide +kernel
  have hlower : (((Phrase.program countingDown).run 1 20 0 idleMachine).map fun answer =>
      answer.2.sink.bytes) = some "true\n".toUTF8 := by decide +kernel
  obtain ⟨⟨r, m₂⟩, hrun, hbytes⟩ := Option.map_eq_some_iff.mp hhigher
  obtain ⟨⟨r₁, m₁⟩, hrun₁, hbytes₁⟩ := Option.map_eq_some_iff.mp hlower
  obtain ⟨r', m', hends, hcut⟩ :=
    (lower_limit_only_cuts (.program countingDown) 0 idleMachine (by decide : 1 ≤ 2)).1 r m₂
      ⟨20, hrun⟩
  obtain ⟨rfl, rfl⟩ := hends.unique ⟨20, hrun₁⟩
  rcases hcut with ⟨-, rfl⟩ | ⟨hoverflow, hmore⟩
  · exact absurd (hbytes.symm.trans hbytes₁) (by decide +kernel)
  · exact ⟨r, m₂, r', m', ⟨20, hrun⟩, hbytes, hends, hbytes₁, hoverflow, hmore⟩

end Witness

end Lexiscope
