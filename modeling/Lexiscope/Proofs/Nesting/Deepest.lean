/-
  Lexiscope.Proofs.Nesting.Deepest

  A program as high as the nesting limit allows, for every limit.

  The bound on the height of trees adds up what each part of the parser can make of the
  room that is left, so a text that reaches it has to use up every part: the expression
  for one level less in parentheses, with as many calls behind it as there is room, and
  then as many operators of every rung of the ladder, those that bind tightest first
  (`deepest`). No assignment and no prefix operator occurs, for they take a level and
  make the tree only one higher.
-/
import Lexiscope.Proofs.Nesting.Height
import Lexiscope.Proofs.Printing.Survival

namespace Lexiscope

open Grammar Lexical Printing

-- ============================================================================
-- Texts
-- ============================================================================

/-- Behind a space, a sign that opens the arguments of a call or a group. -/
abbrev openSign : Piece := opening [' ']

/-- Behind a space, the sign that closes them. -/
abbrev closeSign : Piece := ⟨[' '], .rightParen, [')']⟩

/-- So many calls without arguments. -/
def callRow : Nat → List Piece
  | 0 => []
  | count + 1 => openSign :: closeSign :: callRow count

/-- The mark of an operator and a constant, so many times. -/
def chainRow (mark : Piece) : Nat → List Piece
  | 0 => []
  | count + 1 => mark :: nilWord [' '] :: chainRow mark count

/-- Behind the pieces of an operand, so many operators with each of the marks, the last mark
    first. -/
def ladderRow (base : List Piece) (count : Nat) : List Piece → List Piece
  | [] => base
  | mark :: tighter => ladderRow base count tighter ++ chainRow mark count

/-- An operator for every rung of the ladder. -/
def rungMarks : List Piece :=
  [⟨[' '], .orSign, ['|', '|']⟩, ⟨[' '], .andSign, ['&', '&']⟩, ⟨[' '], .equal, ['=', '=']⟩,
   ⟨[' '], .less, ['<']⟩, ⟨[' '], .plus, ['+']⟩, ⟨[' '], .star, ['*']⟩]

/-- The expression that is highest among those that are read with room for one level more: `nil`,
    then `( nil ) ( ) * nil + nil < nil == nil && nil || nil`, and so on. -/
def deepest : Nat → List Piece
  | 0 => [nilWord [' ']]
  | room + 1 =>
    ladderRow (openSign :: deepest room ++ [closeSign] ++ callRow (room + 1)) (room + 1) rungMarks

/-- A sign or word behind a space. -/
structure Spaced (p : Piece) : Prop where
  gap : p.gap = [' ']
  fixed : (p.lexeme, p.kind) ∈ signs ++ words

theorem spaced_rungMarks : ∀ mark ∈ rungMarks, Spaced mark := by
  have hgaps : ∀ mark ∈ rungMarks, mark.gap = [' '] := by decide
  have hfixed : ∀ mark ∈ rungMarks, (mark.lexeme, mark.kind) ∈ signs ++ words := by decide
  exact fun mark hmark => ⟨hgaps mark hmark, hfixed mark hmark⟩

theorem spaced_nilWord : Spaced (nilWord [' ']) := ⟨rfl, by decide⟩

theorem spaced_openSign : Spaced openSign := ⟨rfl, by decide⟩

theorem spaced_closeSign : Spaced closeSign := ⟨rfl, by decide⟩

theorem spaced_callRow (count : Nat) : ∀ p ∈ callRow count, Spaced p := by
  induction count with
  | zero => exact List.forall_mem_nil _
  | succ count ih =>
    exact List.forall_mem_cons.mpr
      ⟨spaced_openSign, List.forall_mem_cons.mpr ⟨spaced_closeSign, ih⟩⟩

theorem spaced_chainRow {mark : Piece} (hmark : Spaced mark) (count : Nat) :
    ∀ p ∈ chainRow mark count, Spaced p := by
  induction count with
  | zero => exact List.forall_mem_nil _
  | succ count ih =>
    exact List.forall_mem_cons.mpr ⟨hmark, List.forall_mem_cons.mpr ⟨spaced_nilWord, ih⟩⟩

theorem spaced_ladderRow {base : List Piece} (hbase : ∀ p ∈ base, Spaced p) (count : Nat)
    {marks : List Piece} (hmarks : ∀ mark ∈ marks, Spaced mark) :
    ∀ p ∈ ladderRow base count marks, Spaced p := by
  induction marks with
  | nil => exact hbase
  | cons mark tighter ih =>
    obtain ⟨hmark, htighter⟩ := List.forall_mem_cons.mp hmarks
    exact List.forall_mem_append.mpr ⟨ih htighter, spaced_chainRow hmark count⟩

theorem spaced_deepest (room : Nat) : ∀ p ∈ deepest room, Spaced p := by
  induction room with
  | zero => exact List.forall_mem_singleton.mpr spaced_nilWord
  | succ room ih =>
    refine spaced_ladderRow (List.forall_mem_append.mpr ⟨?_, spaced_callRow _⟩) _ spaced_rungMarks
    refine List.forall_mem_append.mpr ⟨List.forall_mem_cons.mpr ⟨spaced_openSign, ih⟩, ?_⟩
    exact List.forall_mem_singleton.mpr spaced_closeSign

/-- Signs and words with spaces before them are split where the spaces are. -/
theorem splits_of_spaced {ps : List Piece} (h : ∀ p ∈ ps, Spaced p) : Splits (flat ps) ps [] :=
  (splits_of_spaces (fun p hp => (h p hp).gap)
    fun p hp => (List.mem_append.mp (h p hp).fixed).elim .sign .word).2

-- ============================================================================
-- Trees
-- ============================================================================

namespace Node

/-- There is a way from the node down to a leaf with so many nodes. -/
def HasPath (n : Node) (height : Nat) : Prop := ∃ path, n.Path path ∧ path.length = height

theorem HasPath.of_leaf {n : Node} (h : n.children = []) : n.HasPath 1 := ⟨[n], .leaf h, rfl⟩

theorem HasPath.step {n child : Node} {height : Nat} (hchild : child ∈ n.children)
    (h : child.HasPath height) : n.HasPath (height + 1) := by
  obtain ⟨path, hpath, hlength⟩ := h
  exact ⟨n :: path, .step hchild hpath, congrArg Nat.succ hlength⟩

end Node

namespace Parser

variable {ctx : ParseContext} {room : Nat}

/-- The parser makes the pieces, before a token it stops at, a tree with a way of so many nodes
    down from its root. -/
def Builds (ctx : ParseContext) (p : Parser Expr) (stop : Kind → Prop) (ps : List Piece)
    (height : Nat) : Prop :=
  ∀ ⦃ts rest⦄, Shown ps ts → stop (headKind rest .eof) →
    ∃ e, p ctx (ts ++ rest) = .ok (e, rest) ∧ (Node.expr e).HasPath height

theorem primary_builds_nil {expr : Parser Expr} :
    Builds ctx (primary expr) (fun _ => True) [nilWord [' ']] 1 := by
  intro ts rest hts _
  obtain ⟨t, rfl, ht⟩ := hts.single
  refine ⟨.nil, ?_, .of_leaf rfl⟩
  simp only [primary, List.singleton_append, current_bind, List.headD_cons, ht.kind, take_bind,
    pure_apply]

theorem primary_builds_group {expr : Parser Expr} {ps : List Piece} {height : Nat}
    (h : Builds ctx expr (· = .rightParen) ps height) :
    Builds ctx (primary expr) (fun _ => True) (openSign :: ps ++ [closeSign]) height := by
  intro ts rest hts _
  obtain ⟨us, _, rfl, hus, hclose⟩ := hts.cut
  obtain ⟨r, rfl, hr⟩ := hclose.single
  cases hus with
  | cons hl hinner =>
    have hstop : headKind (r :: rest) .eof = .rightParen := hr.kind
    obtain ⟨e, hread, hpath⟩ := h hinner hstop
    exact ⟨e, primary_of_group hl.kind hr.kind hread, hpath⟩

/-- Every call makes the tree one higher. -/
theorem calls_build (heof : ctx.eof.kind = .eof) {expr : Parser Expr} {count : Nat}
    (hcount : count ≤ room) {callee : Expr} {height : Nat} (h : (Node.expr callee).HasPath height) :
    Builds ctx (calls expr room callee) (· ≠ .leftParen) (callRow count) (height + count) := by
  induction count generalizing room callee height with
  | zero =>
    rintro _ rest ⟨⟩ hstop
    exact ⟨callee, calls_done heof hstop room callee, h⟩
  | succ count ih =>
    intro ts rest hts hstop
    obtain ⟨left, rfl⟩ : ∃ left, room = left + 1 := ⟨room - 1, by omega⟩
    obtain _ | @⟨_, _, l, _, hl, _ | @⟨_, _, r, more, hr, hmore⟩⟩ := hts
    have hargs : argumentList expr ctx ([] ++ r :: (more ++ rest))
        = .ok ([], r :: (more ++ rest)) := by
      rw [List.nil_append, argumentList, at_bind, List.headD_cons, hr.kind]
      rfl
    have hcall : (Node.expr (.call callee l [])).HasPath (height + 1) := h.step List.mem_cons_self
    obtain ⟨e, hread, hpath⟩ := ih (Nat.le_of_succ_le_succ hcount) hcall hmore hstop
    refine ⟨e, ?_, ?_⟩
    · rw [← hread]
      exact calls_step hl.kind hr.kind hargs
    · rw [Nat.add_comm count 1, ← Nat.add_assoc]
      exact hpath

/-- A primary expression and the calls behind it. -/
theorem operandOf_builds (heof : ctx.eof.kind = .eof) {ps : List Piece} {height count : Nat}
    (hstart : ∀ ts, Shown ps ts → StartsWith startsPrimary ts)
    (h : Builds ctx (primary (expression room)) (fun _ => True) ps height) (hcount : count ≤ room) :
    Builds ctx (operandOf room) (· ≠ .leftParen) (ps ++ callRow count) (height + count) := by
  intro ts rest hts hstop
  obtain ⟨us, vs, rfl, hus, hvs⟩ := hts.cut
  obtain ⟨callee, hcallee, hbelow⟩ := @h us (vs ++ rest) hus trivial
  obtain ⟨e, hread, hpath⟩ := calls_build heof hcount hbelow hvs hstop
  refine ⟨e, ?_, hpath⟩
  rw [List.append_assoc, operandOf, unary_of_primary ((hstart us hus).append _), bind_of_ok hcallee]
  exact hread

theorem operandOf_builds_nil (heof : ctx.eof.kind = .eof) :
    Builds ctx (operandOf room) (· ≠ .leftParen) [nilWord [' ']] 1 := by
  have hcount : 0 ≤ room := Nat.zero_le room
  refine operandOf_builds heof ?_ primary_builds_nil hcount
  intro ts hts
  obtain ⟨t, rfl, ht⟩ := hts.single
  exact .cons (by rw [ht.kind]; rfl) _

/-- The mark with the number of a rung is that of an operator of the rung. -/
theorem rungMarks_level {n : Nat} {mark : Piece} (h : rungMarks[n]? = some mark) :
    ∃ op, BinaryOp.ofKind? mark.kind = some op ∧ level op = n := by
  have hn : n < 6 := (List.getElem?_eq_some_iff.mp h).1
  match n, hn with
  | 0, _ | 1, _ | 2, _ | 3, _ | 4, _ | 5, _ =>
    cases h
    exact ⟨_, rfl, rfl⟩

/-- An operand ends where the next operator of the rung stands, and where the rung ends. -/
theorem stops_chainRow {n : Nat} {mark : Piece} (hmark : rungMarks[n]? = some mark) {count : Nat}
    {ts rest : List Token} (hts : Shown (chainRow mark count) ts)
    (hstop : Stops n (headKind rest .eof)) : Stops (n + 1) (headKind (ts ++ rest) .eof) := by
  cases count with
  | zero =>
    cases hts
    exact hstop.mono (Nat.le_succ n)
  | succ count =>
    obtain _ | ⟨ht, _⟩ := hts
    obtain ⟨op, hop, hlevel⟩ := rungMarks_level hmark
    rw [List.cons_append, headKind_cons, ht.kind]
    refine ⟨fun hparen => ?_, fun op' hop' => ?_⟩
    · rw [hparen] at hop
      cases hop
    · obtain rfl := Option.some.inj (hop.symm.trans hop')
      exact hlevel ▸ Nat.lt_succ_self _

/-- Every operator of a rung makes the tree one higher. -/
theorem levelLoop_builds (heof : ctx.eof.kind = .eof) {n : Nat} {mark : Piece}
    (hmark : rungMarks[n]? = some mark) {count left : Nat} (hcount : count ≤ left) {e : Expr}
    {height : Nat} (h : (Node.expr e).HasPath height) :
    Builds ctx (levelLoop room (operandOf room) n left e) (Stops n) (chainRow mark count)
      (height + count) := by
  obtain ⟨op, hop, hlevel⟩ := rungMarks_level hmark
  have hn : n + 1 ≤ operandLevel := (List.getElem?_eq_some_iff.mp hmark).1
  induction count generalizing left e height with
  | zero =>
    rintro _ rest ⟨⟩ hstop
    exact ⟨e, levelLoop_done heof hstop left e, h⟩
  | succ count ih =>
    intro ts rest hts hstop
    obtain ⟨left, rfl⟩ : ∃ before, left = before + 1 := ⟨left - 1, by omega⟩
    obtain _ | @⟨_, _, t, _, ht, _ | @⟨_, _, u, more, hu, hmore⟩⟩ := hts
    have hnext := stops_chainRow hmark hmore hstop
    obtain ⟨r, hright, -⟩ : ∃ r, operandOf room ctx ([u] ++ (more ++ rest)) = .ok (r, more ++ rest)
        ∧ (Node.expr r).HasPath 1 := operandOf_builds_nil heof (.cons hu .nil) hnext.no_call
    have hjoined : (Node.expr (.binary op t e r)).HasPath (height + 1) :=
      h.step List.mem_cons_self
    obtain ⟨e', hread, hpath⟩ := ih (Nat.le_of_succ_le_succ hcount) hjoined hmore hstop
    refine ⟨e', ?_, ?_⟩
    · rw [← hread]
      exact levelLoop_step (ht.kind ▸ hop) hlevel (binary_of_operand heof hn hnext hright)
    · rw [Nat.add_comm count 1, ← Nat.add_assoc]
      exact hpath

/-- Every rung of the ladder has a chain of its own. -/
theorem binary_builds (heof : ctx.eof.kind = .eof) {base : List Piece} {height : Nat}
    (hbase : Builds ctx (operandOf room) (· ≠ .leftParen) base height) {n : Nat}
    (hn : n ≤ operandLevel) :
    Builds ctx (binary room (operandOf room) (ladder.drop n)) (Stops n)
      (ladderRow base room (rungMarks.drop n)) (height + (operandLevel - n) * room) := by
  induction hn using Nat.decreasingInduction with
  | self =>
    intro ts rest hts hstop
    rw [Nat.sub_self, Nat.zero_mul]
    exact hbase hts hstop.no_call
  | of_succ n hlt ih =>
    have hmarks : n < rungMarks.length := hlt
    intro ts rest hts hstop
    rw [List.drop_eq_getElem_cons hmarks, ladderRow] at hts
    have hmark := List.getElem?_eq_getElem hmarks
    obtain ⟨us, vs, rfl, hus, hvs⟩ := hts.cut
    obtain ⟨first, hfirst, hbelow⟩ := ih hus (stops_chainRow hmark hvs hstop)
    obtain ⟨e, hread, hpath⟩ := levelLoop_builds heof hmark (Nat.le_refl room) hbelow hvs hstop
    refine ⟨e, ?_, ?_⟩
    · rw [List.append_assoc, binary_drop hlt hfirst]
      exact hread
    · have hlevels : operandLevel - n = operandLevel - (n + 1) + 1 := by omega
      rw [hlevels, Nat.succ_mul, ← Nat.add_assoc]
      exact hpath

theorem expression_builds_ladder (heof : ctx.eof.kind = .eof) {base : List Piece} {height : Nat}
    (hbase : Builds ctx (operandOf room) (· ≠ .leftParen) base height) :
    Builds ctx (expression (room + 1)) (fun kind => endsExpression kind = true)
      (ladderRow base room rungMarks) (height + 6 * room) := by
  intro ts rest hts hends
  obtain ⟨e, hread, hpath⟩ := binary_builds heof hbase (Nat.zero_le _) hts
    (stops_zero_of_endsExpression hends)
  have hassign : headKind rest .eof ≠ .assign := by
    intro heq
    rw [heq] at hends
    cases hends
  exact ⟨e, expression_of_operators heof hassign hread, hpath⟩

/-- With room for one level more, the deepest expression is as high as any. -/
theorem expression_builds (heof : ctx.eof.kind = .eof) (room : Nat) :
    Builds ctx (expression (room + 1)) (fun kind => endsExpression kind = true) (deepest room)
      (tallest (room + 1)) := by
  induction room with
  | zero => exact expression_builds_ladder heof (operandOf_builds_nil heof)
  | succ room ih =>
    have hgroup : Builds ctx (primary (expression (room + 1))) (fun _ => True)
        (openSign :: deepest room ++ [closeSign]) (tallest (room + 1)) :=
      primary_builds_group fun ts rest hts hclose => ih hts (by rw [hclose]; rfl)
    have hstart : ∀ ts, Shown (openSign :: deepest room ++ [closeSign]) ts →
        StartsWith startsPrimary ts := by
      rintro _ (_ | ⟨hl, _⟩)
      exact .cons (by rw [hl.kind]; rfl) _
    have hoperand := operandOf_builds heof hstart hgroup (Nat.le_refl (room + 1))
    have hheight : tallest (room + 2) = tallest (room + 1) + (room + 1) + 6 * (room + 1) := by
      rw [tallest_succ_succ]
      omega
    rw [hheight]
    exact expression_builds_ladder heof hoperand

end Parser

theorem startsExpression_deepest (room : Nat) {ts : List Token} (h : Shown (deepest room) ts) :
    StartsWith startsExpression ts := by
  cases room with
  | zero =>
    obtain ⟨t, rfl, ht⟩ := h.single
    exact .cons (by rw [ht.kind]; rfl) _
  | succ room =>
    have hcons : ∃ ps, deepest (room + 1) = openSign :: ps := ⟨_, rfl⟩
    obtain ⟨ps, hps⟩ := hcons
    rw [hps] at h
    obtain _ | ⟨hl, _⟩ := h
    exact .cons (by rw [hl.kind]; rfl) _

-- ============================================================================
-- Programs
-- ============================================================================

/-- The deepest expression as a source text. -/
def deepestSource (room : Nat) : String := String.ofList (flat (deepest room))

/-- A text that is all one expression is a program with one statement. -/
theorem parse_of_expression {body : List Token} {eof : Token} {room : Nat} {e : Expr}
    (heof : eof.kind = .eof) (hbody : ∀ t ∈ body, t.kind ≠ .eof)
    (hstart : StartsWith startsExpression body)
    (h : Parser.expression room ⟨eof, room + 1⟩ body = .ok (e, [])) :
    Program.parse (body ++ [eof]) (room + 1) = .ok ⟨[.expression e]⟩ := by
  have hctx : (⟨eof, room + 1⟩ : ParseContext).eof.kind = .eof := heof
  have hend : Parser.statementEnd ⟨eof, room + 1⟩ ([] ++ []) = .ok ((), []) :=
    Terminator.read hctx (.missing (.inr rfl)) rfl
  rw [List.nil_append] at hend
  have hstatement : Parser.statement false (room + 1) ⟨eof, room + 1⟩ body =
      .ok (.expression e, []) := statement_of_expression hstart h hend
  obtain ⟨t, us, rfl, -⟩ := hstart
  have hmore : ∀ bound, Parser.topLevel bound ⟨eof, room + 1⟩ [] = .ok ([], []) := by
    intro bound
    cases bound with
    | zero => rfl
    | succ bound => rw [Parser.topLevel, current_bind, List.headD_nil, if_pos heof, pure_apply]
  have hne : t.kind ≠ .eof := hbody t List.mem_cons_self
  rw [Program.parse, beforeEof_append heof hbody, eofOf_append heof hbody, List.length_cons,
    Parser.topLevel, current_bind, List.headD_cons, if_neg hne]
  rw [bind_of_ok (show Parser.maxNesting _ _ = .ok (room + 1, t :: us) from rfl),
    bind_of_ok hstatement, bind_of_ok (hmore us.length), pure_apply]
  rfl

/-- The deepest expression is a program that is as high as any. -/
theorem parse_deepest (room : Nat) :
    ∃ tokens p, Token.tokenize (deepestSource room) = .ok tokens ∧
      Program.parse tokens (room + 2) = .ok p ∧
      ∃ s ∈ p.statements, (Node.stmt s).HasPath (tallest (room + 1) + 1) := by
  have hsplits := splits_of_spaced (spaced_deepest room)
  obtain ⟨body, eof, htokens, heof, hshown⟩ := tokens_shown [] (deepest room) []
  have hbody : ∀ t ∈ body, t.kind ≠ .eof := fun t ht => (hshown.spelled hsplits t ht).kind_ne_eof
  have htokenize : Token.tokenize (deepestSource room) = .ok (body ++ [eof]) := by
    rw [← htokens]
    rw [← String.toList_ofList (l := flat (deepest room))] at hsplits
    exact hsplits.tokensFrom (Nat.le_refl _) []
  have hctx : (⟨eof, room + 2⟩ : ParseContext).eof.kind = .eof := heof
  have hends : endsExpression (headKind [] .eof) = true := rfl
  obtain ⟨e, hread, hpath⟩ := Parser.expression_builds hctx room hshown hends
  rw [List.append_nil] at hread
  refine ⟨_, _, htokenize,
    parse_of_expression heof hbody (startsExpression_deepest room hshown) hread, ?_⟩
  exact ⟨_, List.mem_singleton_self _, hpath.step (List.mem_singleton_self _)⟩

/-- **How high a program is.** Under a limit `n` of at least two, no way from a statement of a
    program down to a leaf has more than `2 + 7 * (n - 1) * (n - 2) / 2` statements and expressions,
    and there is a source text with a program that has a way with just as many. -/
theorem parse_height_bound_tight {limit : Nat} (hlimit : 2 ≤ limit) :
    (∀ tokens p, Program.parse tokens limit = .ok p → ∀ s ∈ p.statements, ∀ path,
      (Node.stmt s).Path path → path.length ≤ 2 + 7 * (limit - 1) * (limit - 2) / 2) ∧
    ∃ source tokens p, Token.tokenize source = .ok tokens ∧ Program.parse tokens limit = .ok p ∧
      ∃ s ∈ p.statements, ∃ path, (Node.stmt s).Path path ∧
        path.length = 2 + 7 * (limit - 1) * (limit - 2) / 2 := by
  obtain ⟨room, rfl⟩ : ∃ room, limit = room + 2 := ⟨limit - 2, by omega⟩
  have hheight : tallest (room + 1) + 1 = 2 + 7 * (room + 2 - 1) * (room + 2 - 2) / 2 := by
    rw [tallest_succ_eq, Nat.add_sub_cancel, show room + 2 - 1 = room + 1 by omega]
    omega
  rw [← hheight]
  constructor
  · exact fun tokens p hparse s hs => Program.within_of_parse hparse s hs
  · obtain ⟨tokens, p, htokens, hparse, hdeep⟩ := parse_deepest room
    exact ⟨deepestSource room, tokens, p, htokens, hparse, hdeep⟩

theorem parse_height_bound_tight_three :
    2 ≤ 3 ∧
    (∀ tokens p, Program.parse tokens 3 = .ok p → ∀ s ∈ p.statements, ∀ path,
      (Node.stmt s).Path path → path.length ≤ 9) ∧
    ∃ source tokens p, Token.tokenize source = .ok tokens ∧ Program.parse tokens 3 = .ok p ∧
      ∃ s ∈ p.statements, ∃ path, (Node.stmt s).Path path ∧ path.length = 9 := by
  have hlimit : 2 ≤ 3 := by decide
  exact ⟨hlimit, parse_height_bound_tight hlimit⟩

end Lexiscope
