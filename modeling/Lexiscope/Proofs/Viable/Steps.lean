/-
  Lexiscope.Proofs.Viable.Steps

  Where a parser breaks off.

  A parser looks no further than the current token. So if it fails there, it fails on
  every input that is the same up to and with this token; and the tokens before it are
  the beginning of something that could be read, because every choice made so far was
  one of the grammar. Both are said by one property of parsers (`Parser.Breaks`), which
  is proved along the parser, one rule for each way to build one. A parser comes with
  the language of what it reads, and behind some tokens that were read stands what is
  missing from a row of the language (`Rows.after`).

  A limit that is met is no error in this sense. And one error comes late: behind an
  equals sign a value is read before the target in front is looked at, so an equals
  sign may be refused after a token behind it (`Blames`).
-/
import Lexiscope.Proofs.Grammar.Completeness

namespace Lexiscope

open Grammar (headKind headKind_cons headD_kind bind_eq_ok pure_eq_ok looseToken)

/-- Is it a limit that was met, and not something that should have stood there? -/
def Expected.IsLimit : Expected → Prop
  | .nesting _ | .fewParameters _ | .fewArguments _ => True
  | _ => False

-- ============================================================================
-- Languages
-- ============================================================================

/-- A language: rows of tokens. -/
abbrev Rows : Type := List Token → Prop

namespace Rows

variable {α : Type}

/-- The tokens are the beginning of a row. -/
def Begins (L : Rows) (ts : List Token) : Prop := ∃ more, L (ts ++ more)

/-- What stands behind some tokens in a row. -/
def after (L : Rows) (us : List Token) : Rows := fun vs => L (us ++ vs)

/-- The same before a token that is known to be of kind `next`: nothing is asked of what begins with
    a token of another kind. -/
def afterBefore (L : Rows) (us : List Token) (next : Kind) : Rows :=
  fun vs => headKind vs next = next → L (us ++ vs)

/-- The rows that have a tree. -/
def of (R : List Token → α → Prop) : Rows := fun us => ∃ a, R us a

/-- The rows that have a tree before some kind of token. -/
def ofBefore (R : List Token → Kind → α → Prop) : Rows := fun us => ∃ next a, R us next a

theorem Begins.of_row {L : Rows} {ts : List Token} (h : L ts) : L.Begins ts :=
  ⟨[], by rwa [List.append_nil]⟩

theorem Begins.of_append {L : Rows} {ts us : List Token} (h : L.Begins (ts ++ us)) :
    L.Begins ts := by
  obtain ⟨more, h⟩ := h
  exact ⟨us ++ more, by rwa [← List.append_assoc]⟩

theorem Begins.nil {L : Rows} {ts : List Token} (h : L.Begins ts) : L.Begins [] :=
  .of_append (show L.Begins ([] ++ ts) from h)

theorem Begins.of_after {L : Rows} {us vs : List Token} (h : (L.after us).Begins vs) :
    L.Begins (us ++ vs) := by
  obtain ⟨more, h⟩ := h
  exact ⟨more, by rwa [List.append_assoc]⟩

theorem Begins.mono {L L' : Rows} (hrows : ∀ us, L us → L'.Begins us) {ts : List Token}
    (h : L.Begins ts) : L'.Begins ts := by
  obtain ⟨more, h⟩ := h
  exact (hrows _ h).of_append

end Rows

namespace Parser

variable {α β γ : Type} {t : Token} {L L' : Rows} {ctx ctx' : ParseContext}
  {rest other : List Token}

-- ============================================================================
-- Parsers that break off at the current token
-- ============================================================================

/-- Two inputs have the same current token, under the same limit. -/
structure Alike (ctx ctx' : ParseContext) (rest other : List Token) : Prop where
  eof : ctx'.eof.kind = .eof
  limit : ctx'.maxNesting = ctx.maxNesting
  head : other.headD ctx'.eof = rest.headD ctx.eof

/-- So they have with the same tokens in front. -/
theorem Alike.append (h : Alike ctx ctx' rest other) (us : List Token) :
    Alike ctx ctx' (us ++ rest) (us ++ other) where
  eof := h.eof
  limit := h.limit
  head := by
    cases us with
    | nil => exact h.head
    | cons u us => rfl

/-- The error is at the current token; or this is an equals sign, and the error may be at a token
    behind it. -/
def Blames (ctx : ParseContext) (rest : List Token) (e : ParseError) : Prop :=
  e.token = rest.headD ctx.eof ∨
    (rest.headD ctx.eof).kind = .assign ∧ (e.token ∈ rest.tail ∨ e.token = ctx.eof)

/-- With this current token the parser reads some tokens, no matter what stands behind the token that
    it leaves in front; or else it breaks off somewhere, behind the beginning of a row, and does so
    no matter what stands behind the token it breaks off at. -/
structure BreaksAt (t : Token) (L : Rows) (p : Parser α) : Prop where
  again : ∀ ⦃ctx ts a rest⦄, ctx.eof.kind = .eof → ts.headD ctx.eof = t →
    p ctx ts = .ok (a, rest) → ∃ us, ts = us ++ rest ∧
      ∀ ⦃ctx' other⦄, Alike ctx ctx' rest other → p ctx' (us ++ other) = .ok (a, other)
  stuck : ∀ ⦃ctx ts e⦄, ctx.eof.kind = .eof → ts.headD ctx.eof = t → p ctx ts = .error e →
    ¬ e.expected.IsLimit → ∃ us rest, ts = us ++ rest ∧ L.Begins us ∧ Blames ctx rest e ∧
      ∀ ⦃ctx' other⦄, Alike ctx ctx' rest other → ∃ e', p ctx' (us ++ other) = .error e'

/-- The parser breaks off like this with every current token, and there is a row. -/
structure Breaks (L : Rows) (p : Parser α) : Prop where
  opens : L.Begins []
  onToken : ∀ t, BreaksAt t L p

namespace BreaksAt

/-- Only what the parser does with this current token matters. -/
theorem congr {p q : Parser α} (hq : BreaksAt t L q)
    (heq : ∀ ctx ts, ctx.eof.kind = .eof → ts.headD ctx.eof = t → p ctx ts = q ctx ts) :
    BreaksAt t L p where
  again ctx ts a rest heof hhead hread := by
    rw [heq ctx ts heof hhead] at hread
    obtain ⟨us, rfl, hagain⟩ := hq.again heof hhead hread
    refine ⟨us, rfl, fun ctx' other halike => ?_⟩
    rw [heq ctx' _ halike.eof ((halike.append us).head.trans hhead)]
    exact hagain halike
  stuck ctx ts e heof hhead hread hlimit := by
    rw [heq ctx ts heof hhead] at hread
    obtain ⟨us, rest, rfl, hbegins, hblames, hstuck⟩ := hq.stuck heof hhead hread hlimit
    refine ⟨us, rest, rfl, hbegins, hblames, fun ctx' other halike => ?_⟩
    rw [heq ctx' _ halike.eof ((halike.append us).head.trans hhead)]
    exact hstuck halike

theorem mono {p : Parser α} (hp : BreaksAt t L p) (hrows : ∀ us, L us → L'.Begins us) :
    BreaksAt t L' p where
  again := hp.again
  stuck ctx ts e heof hhead hread hlimit := by
    obtain ⟨us, rest, hts, hbegins, hblames, hstuck⟩ := hp.stuck heof hhead hread hlimit
    exact ⟨us, rest, hts, hbegins.mono hrows, hblames, hstuck⟩

protected theorem pure (a : α) : BreaksAt t L (pure a) where
  again ctx ts a' rest _ _ hread := by
    obtain ⟨rfl, rfl⟩ := pure_eq_ok.mp hread
    exact ⟨[], rfl, fun _ _ _ => rfl⟩
  stuck _ _ _ _ _ hread := nomatch hread

/-- The current token is refused. -/
theorem failAt (hopen : L.Begins []) (x : Expected) :
    BreaksAt t L (Parser.failAt t x : Parser α) where
  again _ _ _ _ _ _ hread := nomatch hread
  stuck ctx ts e _ hhead hread _ := by
    cases hread
    exact ⟨[], ts, rfl, hopen, .inl hhead.symm, fun _ _ _ => ⟨_, rfl⟩⟩

theorem fail (hopen : L.Begins []) (x : Expected) : BreaksAt t L (Parser.fail x : Parser α) :=
  (failAt hopen x).congr fun _ _ _ hhead => by rw [Parser.fail, Parser.failAt, hhead]

/-- A parser that only ever meets a limit. -/
theorem limited {p : Parser α} (h : ∀ ctx ts, ∃ e, p ctx ts = .error e ∧ e.expected.IsLimit) :
    BreaksAt t L p where
  again ctx ts a rest _ _ hread := by
    obtain ⟨e, he, -⟩ := h ctx ts
    rw [he] at hread
    cases hread
  stuck ctx ts e _ _ hread hlimit := by
    obtain ⟨e', he, hmet⟩ := h ctx ts
    rw [he] at hread
    cases hread
    exact absurd hmet hlimit

/-- The current token is looked at. -/
theorem current {f : Token → Parser β} (hf : BreaksAt t L (f t)) :
    BreaksAt t L (Parser.current >>= f) :=
  hf.congr fun ctx ts _ hhead => show f (ts.headD ctx.eof) ctx ts = _ by rw [hhead]

/-- The current token is taken. -/
theorem take {p : Parser β} (ht : t.kind ≠ .eof) (hp : ∀ u, BreaksAt u (L.after [t]) p) :
    BreaksAt t L (Parser.take >>= fun _ => p) where
  again ctx ts a rest heof hhead hread := by
    cases ts with
    | nil => exact absurd (hhead ▸ heof) ht
    | cons u ts =>
      obtain rfl : u = t := hhead
      obtain ⟨us, rfl, hagain⟩ := (hp _).again heof rfl (show p ctx ts = _ from hread)
      exact ⟨u :: us, rfl, fun ctx' other halike => hagain halike⟩
  stuck ctx ts e heof hhead hread hlimit := by
    cases ts with
    | nil => exact absurd (hhead ▸ heof) ht
    | cons u ts =>
      obtain rfl : u = t := hhead
      obtain ⟨us, rest, rfl, hbegins, hblames, hstuck⟩ :=
        (hp _).stuck heof rfl (show p ctx ts = _ from hread) hlimit
      exact ⟨u :: us, rest, rfl, hbegins.of_after, hblames, fun ctx' other halike => hstuck halike⟩

/-- A token that has to be there is taken if it is there. -/
theorem expect {kind : Kind} {x : Expected} {f : Token → Parser β} (hopen : L.Begins [])
    (hf : t.kind = kind → BreaksAt t L (Parser.take >>= fun _ => f t)) :
    BreaksAt t L (Parser.expect kind x >>= f) := by
  by_cases hkind : t.kind = kind
  · refine (hf hkind).congr fun ctx ts _ hhead => ?_
    show Parser.bind (Parser.expect kind x) f ctx ts = f t ctx ts.tail
    simp only [Parser.bind, Parser.expect, hhead, hkind, if_true]
  · refine (failAt hopen x).congr fun ctx ts _ hhead => ?_
    show Parser.bind (Parser.expect kind x) f ctx ts = _
    simp only [Parser.bind, Parser.expect, hhead, hkind, if_false, Parser.failAt]

/-- A token that may be missing is taken if it is there. -/
theorem skip {kind : Kind} {p q : Parser β}
    (hyes : t.kind = kind → BreaksAt t L (Parser.take >>= fun _ => p))
    (hno : t.kind ≠ kind → BreaksAt t L q) :
    BreaksAt t L (Parser.skip kind >>= fun there => if there then p else q) := by
  by_cases hkind : t.kind = kind
  · refine (hyes hkind).congr fun ctx ts _ hhead => ?_
    show Parser.bind (Parser.skip kind) _ ctx ts = p ctx ts.tail
    simp only [Parser.bind, Parser.skip, hhead, hkind, if_true]
  · refine (hno hkind).congr fun ctx ts _ hhead => ?_
    show Parser.bind (Parser.skip kind) _ ctx ts = _
    simp only [Parser.bind, Parser.skip, hhead, hkind, if_false, Bool.false_eq_true]

/-- A parser that reads rows stands in front of parsers for what is missing behind them. -/
theorem bind {R : List Token → Kind → α → Prop} {p : Parser α} {f : α → Parser β}
    (hp : BreaksAt t (Rows.ofBefore R) p) (hreads : Grammar.ReadsBefore p R)
    (hopen : ∀ us next a, R us next a → L.Begins us)
    (hf : ∀ us next a, R us next a → ∀ u, BreaksAt u (L.afterBefore us next) (f a)) :
    BreaksAt t L (p >>= f) where
  again ctx ts b rest heof hhead hread := by
    obtain ⟨a, mid, hfirst, hsecond⟩ := bind_eq_ok.mp hread
    obtain ⟨us, rfl, hagain⟩ := hp.again heof hhead hfirst
    obtain ⟨us', hus, hrow⟩ := hreads heof hfirst
    obtain rfl := List.append_cancel_right hus
    obtain ⟨vs, rfl, hagain'⟩ := (hf us _ a hrow _).again heof rfl hsecond
    refine ⟨us ++ vs, (List.append_assoc ..).symm, fun ctx' other halike => ?_⟩
    rw [List.append_assoc]
    exact bind_eq_ok.mpr ⟨a, vs ++ other, hagain (halike.append vs), hagain' halike⟩
  stuck ctx ts e heof hhead hread hlimit := by
    have herror : ∀ {ctx' : ParseContext} {us : List Token} {e' : ParseError},
        p ctx' us = .error e' → (p >>= f) ctx' us = .error e' := by
      intro ctx' us e' h
      show Parser.bind p f ctx' us = _
      rw [Parser.bind, h]
    cases hfirst : p ctx ts with
    | error e' =>
      obtain rfl : e' = e := Except.error.inj ((herror hfirst).symm.trans hread)
      obtain ⟨us, rest, rfl, hbegins, hblames, hstuck⟩ := hp.stuck heof hhead hfirst hlimit
      refine ⟨us, rest, rfl, hbegins.mono ?_, hblames, fun ctx' other halike => ?_⟩
      · rintro vs ⟨next, a, hrow⟩
        exact hopen vs next a hrow
      · obtain ⟨e', he'⟩ := hstuck halike
        exact ⟨e', herror he'⟩
    | ok r =>
      obtain ⟨a, mid⟩ := r
      rw [Grammar.bind_of_ok hfirst] at hread
      obtain ⟨us, rfl, hagain⟩ := hp.again heof hhead hfirst
      obtain ⟨us', hus, hrow⟩ := hreads heof hfirst
      obtain rfl := List.append_cancel_right hus
      obtain ⟨vs, rest, rfl, hbegins, hblames, hstuck⟩ :=
        (hf us _ a hrow _).stuck heof rfl hread hlimit
      refine ⟨us ++ vs, rest, (List.append_assoc ..).symm, ?_, hblames, fun ctx' other halike => ?_⟩
      · -- nothing is known of what follows the first row, unless something does
        cases vs with
        | nil =>
          rw [List.append_nil]
          exact hopen us _ a hrow
        | cons v vs =>
          obtain ⟨more, hmore⟩ := hbegins
          exact ⟨more, List.append_assoc us (v :: vs) more ▸ hmore rfl⟩
      · rw [List.append_assoc, Grammar.bind_of_ok (hagain (halike.append vs))]
        exact hstuck halike

end BreaksAt

namespace Breaks

theorem mono {p : Parser α} (hp : Breaks L p) (hrows : ∀ us, L us → L'.Begins us) :
    Breaks L' p where
  opens := hp.opens.mono hrows
  onToken t := (hp.onToken t).mono hrows

protected theorem pure (hopen : L.Begins []) (a : α) : Breaks L (pure a) := ⟨hopen, fun _ => .pure a⟩

theorem fail (hopen : L.Begins []) (x : Expected) : Breaks L (Parser.fail x : Parser α) :=
  ⟨hopen, fun _ => .fail hopen x⟩

/-- A parser that only ever meets a limit. -/
theorem limited {p : Parser α} (hopen : L.Begins [])
    (h : ∀ ctx ts, ∃ e, p ctx ts = .error e ∧ e.expected.IsLimit) : Breaks L p :=
  ⟨hopen, fun _ => .limited h⟩

theorem current {f : Token → Parser β} (hopen : L.Begins []) (hf : ∀ t, BreaksAt t L (f t)) :
    Breaks L (Parser.current >>= f) := ⟨hopen, fun t => .current (hf t)⟩

/-- The limit is asked for. -/
theorem maxNesting {f : Nat → Parser β} (hf : ∀ limit, Breaks L (f limit)) :
    Breaks L (Parser.maxNesting >>= f) where
  opens := (hf 0).opens
  onToken t := by
    constructor
    · intro ctx ts a rest heof hhead hread
      obtain ⟨us, hts, hagain⟩ := ((hf ctx.maxNesting).onToken t).again heof hhead hread
      refine ⟨us, hts, fun ctx' other halike => ?_⟩
      show f ctx'.maxNesting ctx' (us ++ other) = _
      rw [halike.limit]
      exact hagain halike
    · intro ctx ts e heof hhead hread hlimit
      obtain ⟨us, rest, hts, hbegins, hblames, hstuck⟩ :=
        ((hf ctx.maxNesting).onToken t).stuck heof hhead hread hlimit
      refine ⟨us, rest, hts, hbegins, hblames, fun ctx' other halike => ?_⟩
      show ∃ e', f ctx'.maxNesting ctx' (us ++ other) = _
      rw [halike.limit]
      exact hstuck halike

theorem expect {kind : Kind} {x : Expected} {f : Token → Parser β} (hkind : kind ≠ .eof)
    (hf : ∀ t, t.kind = kind → Breaks (L.after [t]) (f t)) :
    Breaks L (Parser.expect kind x >>= f) := by
  have hopen : L.Begins [] := (hf (looseToken kind "") rfl).opens.of_after.nil
  refine ⟨hopen, fun t => .expect hopen fun ht => ?_⟩
  exact .take (ht ▸ hkind) (hf t ht).onToken

/-- Behind a token that may be missing a limit may be met, so it is not asked whether there is a row
    with this token. -/
theorem skip {kind : Kind} {p q : Parser β} (hkind : kind ≠ .eof)
    (hyes : ∀ t, t.kind = kind → ∀ u, BreaksAt u (L.after [t]) p) (hno : Breaks L q) :
    Breaks L (Parser.skip kind >>= fun there => if there then p else q) :=
  ⟨hno.opens, fun t => .skip (fun ht => .take (ht ▸ hkind) (hyes t ht)) fun _ => hno.onToken t⟩

theorem ite {b : Bool} {p q : Parser β} (hyes : Breaks L p) (hno : Breaks L q) :
    Breaks L (if b then p else q) := by
  cases b with
  | true => exact hyes
  | false => exact hno

/-- It is asked of what kind the current token is. -/
theorem ask {question : Parser Bool} (answer : Token → Bool) {p q : Parser β}
    (hanswer : ∀ ctx ts, question ctx ts = .ok (answer (ts.headD ctx.eof), ts)) (hyes : Breaks L p)
    (hno : Breaks L q) : Breaks L (question >>= fun b => if b then p else q) where
  opens := hno.opens
  onToken t := by
    have hbranch : BreaksAt t L (if answer t then p else q) := (hyes.ite hno).onToken t
    refine hbranch.congr fun ctx ts _ hhead => ?_
    rw [Grammar.bind_of_ok (hanswer ctx ts), hhead]

theorem atKind {kind : Kind} {p q : Parser β} (hyes : Breaks L p) (hno : Breaks L q) :
    Breaks L (Parser.at_ kind >>= fun b => if b then p else q) :=
  .ask (fun t => decide (t.kind = kind)) (fun _ _ => rfl) hyes hno

theorem atStatementEnd {p q : Parser β} (hyes : Breaks L p) (hno : Breaks L q) :
    Breaks L (Parser.atStatementEnd >>= fun b => if b then p else q) :=
  .ask (fun t => t.kind = .semicolon || t.kind = .rightBrace || t.kind = .eof) (fun _ _ => rfl)
    hyes hno

theorem bind {R : List Token → Kind → α → Prop} {p : Parser α} {f : α → Parser β}
    (hp : Breaks (Rows.ofBefore R) p) (hreads : Grammar.ReadsBefore p R)
    (hopen : ∀ us next a, R us next a → L.Begins us)
    (hf : ∀ us next a, R us next a → ∀ u, BreaksAt u (L.afterBefore us next) (f a)) :
    Breaks L (p >>= f) where
  opens := by
    refine hp.opens.mono ?_
    rintro us ⟨next, a, hrow⟩
    exact hopen us next a hrow
  onToken t := (hp.onToken t).bind hreads hopen hf

/-- Where the kind of the token behind the first row does not matter. -/
theorem seq {R : List Token → α → Prop} {p : Parser α} {f : α → Parser β}
    (hp : Breaks (Rows.of R) p) (hreads : Grammar.Reads p R)
    (hf : ∀ us a, R us a → Breaks (L.after us) (f a)) : Breaks L (p >>= f) := by
  have hfirst : Breaks (Rows.ofBefore fun us _ a => R us a) p :=
    hp.mono fun us ⟨a, hrow⟩ => .of_row ⟨.eof, a, hrow⟩
  refine hfirst.bind hreads (fun us _ a hrow => ?_) fun us next a hrow u => ?_
  · exact List.append_nil us ▸ (hf us a hrow).opens.of_after
  · exact ((hf us a hrow).onToken u).mono fun vs h => .of_row fun _ => h

/-- What was read becomes part of something larger. -/
theorem map {R : List Token → Kind → α → Prop} {p : Parser α} (hp : Breaks (Rows.ofBefore R) p)
    (hreads : Grammar.ReadsBefore p R) {g : α → β}
    (hopen : ∀ us next a, R us next a → L.Begins us) : Breaks L (p >>= fun a => pure (g a)) :=
  hp.bind hreads hopen fun _ _ _ _ _ => .pure _

end Breaks

end Parser

end Lexiscope
