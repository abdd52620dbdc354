/-
  Lexiscope.Proofs.Provenance.Session

  Where the errors of a session are reported.

  A unit that cannot be read is reported at one of its own tokens. A unit that fails
  while it runs fails at a site of its program, or in the body of a function that an
  earlier unit defined: functions outlive the unit they come from, and keep its
  tokens. So the place of an error may belong to an earlier source than the unit
  that the diagnostic names. In either case it is the start of a token, and the kind
  of the error says which sort of token that is (`RuntimeError.StandsAt`).
-/
import Lexiscope.Proofs.Printing.Survival
import Lexiscope.Proofs.Provenance.Parse
import Lexiscope.Proofs.Session.Recovery

namespace Lexiscope

open Lexical (signs words)
open Printing (Spelled)

-- ============================================================================
-- The sort of token for a kind of error
-- ============================================================================

/-- The operators that do not take operands of all types. -/
def typedOperators : List String := ["-", "+", "*", "/", "<", "<=", ">", ">="]

/-- The fault says that the operator which the token stands for has operands of wrong types. -/
inductive Token.OperandsWrong (t : Token) : Fault → Prop where
  | sign {found : ValueType} (hlexeme : t.lexeme = "-") (hfound : found ≠ .number) :
      OperandsWrong t (.badOperand found)
  | operator {op : BinaryOp} {needed : Operands} {left right : ValueType}
      (hlexeme : t.lexeme ∈ typedOperators) (hop : BinaryOp.ofKind? t.kind = some op)
      (hneeded : op.needs? = some needed) (hwrong : ¬ needed.Accept left right) :
      OperandsWrong t (.badOperands t.lexeme needed left right)

/-- The token is of the sort that errors of this kind are reported at: the name that the message
    quotes, a division sign, the parenthesis of a call, or an operator with wrong operands. -/
def RuntimeError.StandsAt (e : RuntimeError) (t : Token) : Prop :=
  match e.kind with
  | .name => t.kind = .identifier ∧
      (e.message = "Undefined variable '" ++ t.lexeme ++ "'" ∨
        e.message = "Cannot assign to undefined variable '" ++ t.lexeme ++ "'")
  | .type => t.lexeme = "(" ∧ (∃ found, found ≠ .function ∧ e.fault = .notCallable found) ∨
      t.OperandsWrong e.fault
  | .divisionByZero => t.lexeme = "/"
  | .arity | .stackOverflow | .output => t.lexeme = "("

/-- Signs and reserved words are spelled in one way only. -/
theorem lexeme_eq_of_spelled {t : Token} (h : Spelled t) {fixed : String}
    (hfixed : (fixed.toList, t.kind) ∈ signs ++ words) : t.lexeme = fixed :=
  String.toList_inj.mp (h.eq_fixed hfixed)

theorem lexeme_of_needs? {t : Token} (h : Spelled t) {op : BinaryOp} {needed : Operands}
    (hop : BinaryOp.ofKind? t.kind = some op) (hneeded : op.needs? = some needed) :
    t.lexeme ∈ typedOperators := by
  have hfixed : ∃ fixed ∈ typedOperators, (fixed.toList, t.kind) ∈ signs ++ words := by
    generalize t.kind = kind at hop
    cases kind with
    | less | lessEqual | greater | greaterEqual | plus | minus | star | slash => decide
    | _ => cases hop <;> cases hneeded
  obtain ⟨fixed, hmem, hfixed⟩ := hfixed
  rw [lexeme_eq_of_spelled h hfixed]
  exact hmem

theorem UnaryOp.eq_minus_of_ofKind? {kind : Kind} (h : UnaryOp.ofKind? kind = some .negate) :
    kind = .minus := by
  cases kind with
  | minus => rfl
  | _ => cases h

theorem BinaryOp.eq_slash_of_ofKind? {kind : Kind} (h : BinaryOp.ofKind? kind = some .divide) :
    kind = .slash := by
  cases kind with
  | slash => rfl
  | _ => cases h

theorem Role.Fits.kind_ne_eof {role : Role} {t : Token} (h : role.Fits t) : t.kind ≠ .eof := by
  intro heof
  cases role <;> rw [Role.Fits, heof] at h <;> cases h

/-- What comes up at a site that was read from a source text stands at the right sort of token. -/
theorem RuntimeError.RaisedAt.standsAt {e : RuntimeError} {site : Site} (h : e.RaisedAt site)
    (hfits : site.role.Fits site.token) (hspelled : Spelled site.token) :
    e.StandsAt site.token := by
  obtain ⟨role, t, inside⟩ := site
  obtain ⟨token, fault⟩ := e
  obtain ⟨rfl, hraises⟩ := h
  have hparen : t.kind = .leftParen → t.lexeme = "(" := fun hkind =>
    lexeme_eq_of_spelled hspelled (by rw [hkind]; decide)
  dsimp only at hraises hfits hspelled ⊢
  cases hraises with
  | undefined => exact ⟨hfits, .inl rfl⟩
  | unassignable => exact ⟨hfits, .inr rfl⟩
  | sign happly =>
    obtain ⟨rfl, hfound, herror⟩ := UnaryOp.eq_of_apply_error happly
    obtain ⟨-, rfl⟩ := RuntimeError.mk.inj herror
    have hkind : t.kind = .minus := UnaryOp.eq_minus_of_ofKind? hfits
    exact .inr (.sign (lexeme_eq_of_spelled hspelled (by rw [hkind]; decide)) hfound)
  | operator happly =>
    rcases BinaryOp.eq_of_apply_error happly with ⟨rfl, herror⟩ | ⟨needed, hneeded, hrejects⟩
    · obtain ⟨-, rfl⟩ := RuntimeError.mk.inj herror
      have hkind : t.kind = .slash := BinaryOp.eq_slash_of_ofKind? hfits
      exact lexeme_eq_of_spelled hspelled (by rw [hkind]; decide)
    · obtain ⟨-, rfl⟩ := RuntimeError.mk.inj hrejects.error
      exact .inr (.operator (lexeme_of_needs? hspelled hfits hneeded) hfits hneeded hrejects.wrong)
  | notCallable hfound => exact .inl ⟨hparen hfits, _, hfound, rfl⟩
  | wrongArity function harity => exact hparen hfits
  | tooDeep limit function => exact hparen hfits
  | outputFailed reason => exact hparen hfits

-- ============================================================================
-- Sites of a source text
-- ============================================================================

/-- One of the tokens of the source text begins at this place. The end marker counts. -/
def StartsTokenOf (source : String) (pos : Pos) : Prop :=
  ∃ ts, Token.tokenize source = .ok ts ∧ ∃ t ∈ ts, pos = t.start

theorem exists_eof_of_tokenize {source : String} {ts : List Token}
    (h : Token.tokenize source = .ok ts) : ∃ t ∈ ts, t.kind = .eof := by
  obtain ⟨-, -, body, eof, -, rfl, heof, -⟩ := Printing.tokens_of_tokenize h
  exact ⟨eof, by simp, heof⟩

/-- A site of a program that was read is at a token of the source text, of a kind that fits and
    spelled as its kind is. -/
theorem ReadsAs.site {limits : Limits} {source : String} {p : Program} {site : Site}
    (h : ReadsAs limits source p) (hsite : site ∈ p.sites) :
    ∃ ts, Token.tokenize source = .ok ts ∧ Program.parse ts limits.nesting = .ok p ∧
      site.token ∈ ts ∧ site.role.Fits site.token ∧ Spelled site.token := by
  obtain ⟨ts, htokens, hparse⟩ := h
  have hyields := Program.parse_yields (exists_eof_of_tokenize htokens) limits.nesting
  obtain ⟨hmem, hfits⟩ := hyields.2 p hparse site hsite
  refine ⟨ts, htokens, hparse, hmem, hfits, ?_⟩
  obtain ⟨-, -, body, eof, -, rfl, heof, -, hspelled, -⟩ := Printing.tokens_of_tokenize htokens
  rcases List.mem_append.mp hmem with hbody | hlast
  · exact hspelled _ hbody
  · rw [List.mem_singleton.mp hlast] at hfits
    exact absurd heof hfits.kind_ne_eof

/-- An error at such a site is reported at the start of a token of the right sort. -/
theorem ReadsAs.raised {limits : Limits} {source : String} {p : Program} {site : Site}
    {e : RuntimeError} (h : ReadsAs limits source p) (hsite : site ∈ p.sites)
    (hraised : e.RaisedAt site) :
    ∃ ts, Token.tokenize source = .ok ts ∧ Program.parse ts limits.nesting = .ok p ∧
      ∃ t ∈ ts, e.pos = t.start ∧ e.StandsAt t := by
  obtain ⟨ts, htokens, hparse, hmem, hfits, hspelled⟩ := h.site hsite
  have hpos : e.pos = site.token.start := by rw [RuntimeError.pos, hraised.token]
  exact ⟨ts, htokens, hparse, site.token, hmem, hpos, hraised.standsAt hfits hspelled⟩

theorem ReadsAs.startsTokenOf {limits : Limits} {source : String} {p : Program} {site : Site}
    {e : RuntimeError} (h : ReadsAs limits source p) (hsite : site ∈ p.sites)
    (hraised : e.RaisedAt site) : StartsTokenOf source e.pos := by
  obtain ⟨ts, htokens, -, t, ht, hpos, -⟩ := h.raised hsite hraised
  exact ⟨ts, htokens, t, ht, hpos⟩

-- ============================================================================
-- Sessions and what their units leave behind
-- ============================================================================

namespace Session

/-- A session under these limits that has run these source texts, latest first. Units may have
    failed, and may have any names. -/
inductive History (limits : Limits) : List String → Session → Prop where
  | new (sink : Sink) (journal : Journal) : History limits [] (.new limits sink journal)
  | next {earlier : List String} {s s' : Session} {unit source : String}
      {r : Except Diagnostic Value} (h : History limits earlier s)
      (hends : s.Ends unit source r s') : History limits (source :: earlier) s'

/-- The site stands in the body of a function that one of the source texts defines. -/
def LeftBy (limits : Limits) (sources : List String) (site : Site) : Prop :=
  ∃ source ∈ sources, ∃ p, ReadsAs limits source p ∧ site ∈ p.sites ∧ site.inside = true

/-- The functions of the session were all defined by these source texts. -/
structure DefinedBy (limits : Limits) (sources : List String) (s : Session) : Prop where
  made : s.machine.store.Made (LeftBy limits sources)
  limits : s.limits = limits

/-- Where an error of a unit with this source text comes from, if it runs behind the earlier ones. -/
inductive ErrorFrom (limits : Limits) (earlier : List String) (source : String) : Error → Prop where
  | lex {e : LexError} : ErrorFrom limits earlier source (.lex e)
  | parse {e : ParseError} {ts : List Token} (htokens : Token.tokenize source = .ok ts)
      (hmem : e.token ∈ ts) : ErrorFrom limits earlier source (.parse e)
  | own {e : RuntimeError} {p : Program} {site : Site} (hread : ReadsAs limits source p)
      (hsite : site ∈ p.sites) (hraised : e.RaisedAt site) :
      ErrorFrom limits earlier source (.runtime e)
  | left {e : RuntimeError} {site : Site} (hsite : LeftBy limits earlier site)
      (hraised : e.RaisedAt site) : ErrorFrom limits earlier source (.runtime e)

variable {limits : Limits} {earlier : List String} {s s' : Session} {unit source : String}

/-- What one unit does: its error comes from itself or from a function that is there, and so do the
    functions that are there afterwards. -/
theorem DefinedBy.run (h : DefinedBy limits earlier s) {fuel : Nat}
    {r : Except Diagnostic Value} (hrun : s.run unit source fuel = some (r, s')) :
    DefinedBy limits (source :: earlier) s' ∧
      ∀ d, r = .error d → d.unit = unit ∧ ErrorFrom limits earlier source d.error := by
  have hkept : s.machine.store.Made (LeftBy limits (source :: earlier)) := by
    intro e x v hv
    refine (h.made hv).mono fun site hsite _ => ?_
    obtain ⟨origin, horigin, hleft⟩ := hsite
    exact ⟨origin, List.mem_cons_of_mem source horigin, hleft⟩
  rcases run_cases hrun with ⟨e, journal, -, rfl, rfl⟩ | ⟨ts, e, journal, htokens, hparse, rfl, rfl⟩ |
    ⟨p, journal, r', hread, hexec, rfl⟩
  · refine ⟨⟨hkept, h.limits⟩, ?_⟩
    rintro d ⟨⟩
    exact ⟨rfl, .lex⟩
  · refine ⟨⟨hkept, h.limits⟩, ?_⟩
    rintro d ⟨⟩
    have hyields := Program.parse_yields (exists_eof_of_tokenize htokens) s.limits.nesting
    exact ⟨rfl, .parse htokens (hyields.1 e hparse)⟩
  · rw [h.limits] at hread
    obtain ⟨m, hmachine, rfl⟩ := step_eq_some hexec
    -- While the unit runs, its own sites and those that were left behind are in play.
    let c := Account.ofPlaces fun site => site ∈ p.sites ∨ LeftBy limits earlier site
    have hsites : ∀ site ∈ (p.relabel s.nextLabel).1.sites, c.Place site := by
      rw [p.sites_relabel]
      exact fun site hsite => .inl hsite
    have hstore : (Lockstep.loaded s p journal).machine.store.Made c.Place := fun e x v hv =>
      (h.made hv).mono fun site hsite _ => .inr hsite
    obtain ⟨-, hmade, hresult⟩ := Program.run_meets hsites hstore hmachine
    refine ⟨⟨fun e x v hv => (hmade hv).mono ?_, h.limits⟩, ?_⟩
    · rintro site (hown | ⟨origin, horigin, hleft⟩) hinside
      · exact ⟨source, List.mem_cons_self, p, hread, hown, hinside⟩
      · exact ⟨origin, List.mem_cons_of_mem source horigin, hleft⟩
    · intro d hd
      cases r' with
      | ok v => cases hd
      | error e =>
        cases hd
        obtain ⟨site, hown | hleft, hraised⟩ := hresult
        · exact ⟨rfl, .own hread hown hraised⟩
        · exact ⟨rfl, .left hleft hraised⟩

theorem History.definedBy (h : History limits earlier s) : DefinedBy limits earlier s := by
  induction h with
  | new sink journal => exact ⟨.newGlobal, rfl⟩
  | next _ hends ih =>
    obtain ⟨fuel, hrun⟩ := hends
    exact (ih.run hrun).1

theorem History.errorFrom (h : History limits earlier s) {d : Diagnostic}
    (hends : s.Ends unit source (.error d) s') :
    d.unit = unit ∧ ErrorFrom limits earlier source d.error := by
  obtain ⟨fuel, hrun⟩ := hends
  exact (h.definedBy.run hrun).2 d rfl

-- ============================================================================
-- A function that fails in a later unit
-- ============================================================================

/-- A unit that defines a function which needs a number. -/
def library : String := "let pad;\nfn f(a) \x7b return -a; \x7d"

/-- The place at which a running unit failed. -/
def stoppedAt? : Except Diagnostic Value → Option Pos
  | .error ⟨_, .runtime e⟩ => some e.pos
  | _ => none

theorem exists_of_stoppedAt? {r : Except Diagnostic Value} {pos : Pos} (h : stoppedAt? r = some pos) :
    ∃ d e, r = .error d ∧ d.error = .runtime e ∧ e.pos = pos := by
  unfold stoppedAt? at h
  split at h
  · next unit e => exact ⟨_, e, rfl, rfl, Option.some.inj h⟩
  · cases h

/-- The next unit gives the function something else, and fails at the sign in the second line of the
    library. It has only one line itself. -/
theorem fails_in_library :
    ∃ s d e s', History ⟨20, 20⟩ [library] s ∧ s.Ends "main" "f(nil)" (.error d) s' ∧
      d.error = .runtime e ∧ e.pos = ⟨2, 18⟩ ∧ ¬ StartsTokenOf "f(nil)" e.pos := by
  have hruns : (((new ⟨20, 20⟩ .unbounded .silent).run "library" library 20).bind fun defined =>
      (defined.2.run "main" "f(nil)" 20).map fun called => stoppedAt? called.1)
        = some (some ⟨2, 18⟩) := by decide +kernel
  have htokens : (Token.tokenize "f(nil)").toOption.map (·.map Token.start)
      = some [⟨1, 1⟩, ⟨1, 2⟩, ⟨1, 3⟩, ⟨1, 6⟩, ⟨1, 7⟩] := by decide +kernel
  obtain ⟨⟨r₀, s⟩, hdefined, hruns⟩ := Option.bind_eq_some_iff.mp hruns
  obtain ⟨⟨r, s'⟩, hcalled, hstopped⟩ := Option.map_eq_some_iff.mp hruns
  obtain ⟨d, e, rfl, he, hpos⟩ := exists_of_stoppedAt? hstopped
  refine ⟨s, d, e, s', .next (.new .unbounded .silent) ⟨20, hdefined⟩, ⟨20, hcalled⟩, he, hpos, ?_⟩
  rintro ⟨ts, hts, t, ht, hstart⟩
  rw [hts] at htokens
  have hplaces : ts.map Token.start = _ := Option.some.inj htokens
  have hplace : e.pos ∈ ts.map Token.start := List.mem_map.mpr ⟨t, ht, hstart.symm⟩
  rw [hplaces, hpos] at hplace
  exact absurd hplace (by decide)

-- ============================================================================
-- Places of errors
-- ============================================================================

theorem ErrorFrom.startsTokenOf {e : ParseError}
    (h : ErrorFrom limits earlier source (.parse e)) : StartsTokenOf source e.pos := by
  cases h with
  | parse htokens hmem => exact ⟨_, htokens, e.token, hmem, rfl⟩

/-- If a unit cannot be read, its error is at the start of one of its tokens. If it fails while it
    runs, its error is at the start of a token of its own source text or of an earlier one that could
    be read, and the token is of the sort that goes with the kind of the error. -/
theorem errors_stand_at_tokens (h : History limits earlier s) {d : Diagnostic}
    (hends : s.Ends unit source (.error d) s') :
    (∀ e, d.error = .parse e → StartsTokenOf source e.pos) ∧
      ∀ e, d.error = .runtime e → ∃ origin ∈ source :: earlier, ∃ p ts,
        Token.tokenize origin = .ok ts ∧ Program.parse ts limits.nesting = .ok p ∧
          ∃ t ∈ ts, e.pos = t.start ∧ e.StandsAt t := by
  obtain ⟨-, hfrom⟩ := h.errorFrom hends
  refine ⟨fun e he => ?_, fun e he => ?_⟩
  · rw [he] at hfrom
    exact hfrom.startsTokenOf
  · rw [he] at hfrom
    cases hfrom with
    | own hread hsite hraised =>
      exact ⟨source, List.mem_cons_self, _, hread.raised hsite hraised⟩
    | left hleft hraised =>
      obtain ⟨origin, horigin, p, hread, hsite, -⟩ := hleft
      exact ⟨origin, List.mem_cons_of_mem source horigin, p, hread.raised hsite hraised⟩

/-- The sign is a token of the library, of the sort that goes with operands of wrong types. -/
theorem errors_stand_at_tokens_library :
    ∃ s d e s', History ⟨20, 20⟩ [library] s ∧ s.Ends "main" "f(nil)" (.error d) s' ∧
      d.error = .runtime e ∧ e.pos = ⟨2, 18⟩ ∧ ∃ origin ∈ ["f(nil)", library], ∃ p ts,
        Token.tokenize origin = .ok ts ∧ Program.parse ts 20 = .ok p ∧
          ∃ t ∈ ts, e.pos = t.start ∧ e.StandsAt t := by
  obtain ⟨s, d, e, s', hhistory, hends, he, hpos, -⟩ := fails_in_library
  exact ⟨s, d, e, s', hhistory, hends, he, hpos, (errors_stand_at_tokens hhistory hends).2 e he⟩

/-- A diagnostic names the unit that was run. Its place is the start of a token of that unit, unless
    the unit failed in the body of a function that an earlier source text defined: then it is the
    start of a token there. -/
theorem diagnostics_name_the_unit (h : History limits earlier s) {d : Diagnostic}
    (hends : s.Ends unit source (.error d) s') :
    d.unit = unit ∧ (∀ e, d.error = .parse e → StartsTokenOf source e.pos) ∧
      ∀ e, d.error = .runtime e → StartsTokenOf source e.pos ∨
        ∃ origin ∈ earlier, ∃ p, ReadsAs limits origin p ∧ StartsTokenOf origin e.pos ∧
          ∃ site ∈ p.sites, site.inside = true ∧ e.pos = site.token.start := by
  obtain ⟨hunit, hfrom⟩ := h.errorFrom hends
  refine ⟨hunit, fun e he => ?_, fun e he => ?_⟩
  · rw [he] at hfrom
    exact hfrom.startsTokenOf
  · rw [he] at hfrom
    cases hfrom with
    | own hread hsite hraised => exact .inl (hread.startsTokenOf hsite hraised)
    | @left _ site hleft hraised =>
      obtain ⟨origin, horigin, p, hread, hsite, hinside⟩ := hleft
      have hpos : e.pos = site.token.start := by rw [RuntimeError.pos, hraised.token]
      exact .inr ⟨origin, horigin, p, hread, hread.startsTokenOf hsite hraised, site, hsite, hinside,
        hpos⟩

/-- The diagnostic names the unit that was run, and its place is in the library. -/
theorem diagnostics_name_the_unit_library :
    ∃ s d e s', History ⟨20, 20⟩ [library] s ∧ s.Ends "main" "f(nil)" (.error d) s' ∧
      d.error = .runtime e ∧ d.unit = "main" ∧ ∃ p, ReadsAs ⟨20, 20⟩ library p ∧
        StartsTokenOf library e.pos ∧
          ∃ site ∈ p.sites, site.inside = true ∧ e.pos = site.token.start := by
  obtain ⟨s, d, e, s', hhistory, hends, he, -, helsewhere⟩ := fails_in_library
  obtain ⟨hunit, -, hruntime⟩ := diagnostics_name_the_unit hhistory hends
  rcases hruntime e he with hown | ⟨origin, horigin, hleft⟩
  · exact absurd hown helsewhere
  · rw [List.mem_singleton.mp horigin] at hleft
    exact ⟨s, d, e, s', hhistory, hends, he, hunit, hleft⟩

/-- Not every diagnostic has its place in the unit that it names. -/
theorem diagnostics_misplaced :
    ¬ ∀ (limits : Limits) (earlier : List String) (s s' : Session) (unit source : String)
      (d : Diagnostic), History limits earlier s → s.Ends unit source (.error d) s' →
        d.error.stage ≠ .lex → d.unit = unit ∧ StartsTokenOf source d.error.pos := by
  intro hall
  obtain ⟨s, d, e, s', hhistory, hends, he, -, helsewhere⟩ := fails_in_library
  have hstage : d.error.stage ≠ .lex := by
    rw [he]
    exact nofun
  obtain ⟨-, hplace⟩ := hall _ _ s s' _ _ d hhistory hends hstage
  rw [he] at hplace
  exact helsewhere hplace

end Session

end Lexiscope
