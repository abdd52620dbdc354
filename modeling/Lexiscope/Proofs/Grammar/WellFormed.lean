/-
  Lexiscope.Proofs.Grammar.WellFormed

  What can be relied on in every program that was read.

  The trees allow more than the syntax does: any token may mark an operator, a
  `return` may stand anywhere, and the numbers of parameters and arguments are not
  bounded. `WellFormed` says of a tree, at every depth, what the rules of the grammar
  leave of that. It speaks of kinds of tokens and of numbers only, so it holds of any
  row of tokens that is read, whether or not a text has these tokens.
-/
import Lexiscope.Proofs.Grammar.Soundness

namespace Lexiscope

open Grammar

-- ============================================================================
-- Well-formed trees
-- ============================================================================

/-- The kinds of tokens that mark an operator between two operands. -/
def binaryKinds : List Kind :=
  [.orWord, .orSign, .andWord, .andSign, .equal, .notEqual, .less, .lessEqual, .greater,
    .greaterEqual, .plus, .minus, .star, .slash]

mutual

/-- Operators are marked by tokens that stand for them, calls do not have too many arguments, and
    only names are assigned to. -/
def Expr.WellFormed : Expr → Prop
  | .number _ | .string _ | .boolean _ | .nil => True
  | .identifier name => name.kind = .identifier
  | .unary op mark operand =>
    (mark.kind = .minus ∨ mark.kind = .not) ∧ UnaryOp.ofKind? mark.kind = some op ∧
      operand.WellFormed
  | .binary op mark left right =>
    mark.kind ∈ binaryKinds ∧ BinaryOp.ofKind? mark.kind = some op ∧
      left.WellFormed ∧ right.WellFormed
  | .assign target value => target.kind = .identifier ∧ value.WellFormed
  | .call callee paren args =>
    paren.kind = .leftParen ∧ args.length ≤ mostArguments ∧ callee.WellFormed ∧
      Expr.AllWellFormed args

/-- All of the expressions are well formed. -/
def Expr.AllWellFormed : List Expr → Prop
  | [] => True
  | e :: rest => e.WellFormed ∧ Expr.AllWellFormed rest

end

mutual

/-- A `return` stands in the body of a function only, functions have different names for their
    parameters and not too many of them, only names are declared, and no statement before an `else`
    ends in an `if` that the `else` would belong to. -/
def Stmt.WellFormed (inside : Bool) : Stmt → Prop
  | .expression e => e.WellFormed
  | .letVar name value => name.kind = .identifier ∧ value.elim True Expr.WellFormed
  | .block _ body => Stmt.AllWellFormed inside body
  | .ifThen _ condition yes => condition.WellFormed ∧ yes.WellFormed inside
  | .ifThenElse _ condition yes no =>
    condition.WellFormed ∧ yes.WellFormed inside ∧ endsOpen yes = false ∧ no.WellFormed inside
  | .whileLoop _ condition body => condition.WellFormed ∧ body.WellFormed inside
  | .function _ name params body =>
    name.kind = .identifier ∧ params.length ≤ mostArguments ∧
      (∀ p ∈ params, p.kind = .identifier) ∧ (params.map Token.lexeme).Nodup ∧
      Stmt.AllWellFormed true body
  | .returnStmt _ value => inside = true ∧ value.elim True Expr.WellFormed

/-- All of the statements are well formed. -/
def Stmt.AllWellFormed (inside : Bool) : List Stmt → Prop
  | [] => True
  | s :: rest => s.WellFormed inside ∧ Stmt.AllWellFormed inside rest

end

/-- The top level stands in no function. -/
def Program.WellFormed (p : Program) : Prop := Stmt.AllWellFormed false p.statements

-- ============================================================================
-- What the grammar derives
-- ============================================================================

namespace Grammar

theorem mem_binaryKinds {kind : Kind} {op : BinaryOp} (h : BinaryOp.ofKind? kind = some op) :
    kind ∈ binaryKinds := by
  revert h
  cases kind <;> simp [BinaryOp.ofKind?, binaryKinds]

theorem minus_or_not {kind : Kind} {op : UnaryOp} (h : UnaryOp.ofKind? kind = some op) :
    kind = .minus ∨ kind = .not := by
  revert h
  cases kind <;> simp [UnaryOp.ofKind?]

theorem Target.kind {ts : List Token} {t : Token} (h : Target ts t) : t.kind = .identifier := by
  induction h with
  | name hname => exact hname
  | group _ _ _ ih => exact ih

theorem Names.kinds {ts names : List Token} (h : Names ts names) :
    ∀ t ∈ names, t.kind = .identifier := by
  induction h with
  | last hname => simpa using hname
  | more hname _ _ ih => exact List.forall_mem_cons.mpr ⟨hname, ih⟩

theorem Parameters.kinds {ts params : List Token} (h : Parameters ts params) :
    ∀ t ∈ params, t.kind = .identifier := by
  rcases h.row with ⟨-, rfl⟩ | hrow
  · exact List.forall_mem_nil _
  · exact hrow.kinds

mutual

theorem Expression.wellFormed {ts : List Token} {e : Expr} : Expression ts e → e.WellFormed
  | .operators h => h.wellFormed
  | .assign htarget _ hvalue => ⟨htarget.kind, hvalue.wellFormed⟩

theorem Binary.wellFormed {n : Nat} {ts : List Token} {e : Expr} : Binary n ts e → e.WellFormed
  | .operand h => h.wellFormed
  | .tighter h => h.wellFormed
  | .join hleft hmark _ hright =>
    ⟨mem_binaryKinds hmark, hmark, hleft.wellFormed, hright.wellFormed⟩

theorem Unary.wellFormed {ts : List Token} {e : Expr} : Unary ts e → e.WellFormed
  | .call h => h.wellFormed
  | .mark hmark h => ⟨minus_or_not hmark, hmark, h.wellFormed⟩

theorem Call.wellFormed {ts : List Token} {e : Expr} : Call ts e → e.WellFormed
  | .primary h => h.wellFormed
  | .apply hcallee hl hargs hcount _ => ⟨hl, hcount, hcallee.wellFormed, hargs.wellFormed⟩

theorem Primary.wellFormed {ts : List Token} {e : Expr} : Primary ts e → e.WellFormed
  | .number .. | .string .. | .yes _ | .no _ | .nil _ => trivial
  | .name hkind => hkind
  | .group _ h _ => h.wellFormed

theorem Arguments.wellFormed {ts : List Token} {es : List Expr} :
    Arguments ts es → Expr.AllWellFormed es
  | .none => trivial
  | .row h => h.wellFormed

theorem Row.wellFormed {ts : List Token} {es : List Expr} : Row ts es → Expr.AllWellFormed es
  | .last h => ⟨h.wellFormed, trivial⟩
  | .more h _ hrest => ⟨h.wellFormed, hrest.wellFormed⟩

end

mutual

theorem Statement.wellFormed {inside : Bool} {ts : List Token} {next : Kind} {s : Stmt} :
    Statement inside ts next s → s.WellFormed inside
  | .letBare _ hname _ => ⟨hname, trivial⟩
  | .letValue _ hname _ hvalue _ => ⟨hname, hvalue.wellFormed⟩
  | .function _ hname _ hparams _ _ hbody _ =>
    ⟨hname, hparams.few, hparams.kinds, hparams.distinct, hbody.wellFormed⟩
  | .ifThen _ _ hcondition _ hyes => ⟨hcondition.wellFormed, hyes.wellFormed⟩
  | .ifThenElse _ _ hcondition _ hyes hclosed _ hno =>
    ⟨hcondition.wellFormed, hyes.wellFormed, hclosed, hno.wellFormed⟩
  | .whileLoop _ _ hcondition _ hbody => ⟨hcondition.wellFormed, hbody.wellFormed⟩
  | .returnBare _ _ => ⟨rfl, trivial⟩
  | .returnValue _ hvalue _ => ⟨rfl, hvalue.wellFormed⟩
  | .block _ hbody _ => hbody.wellFormed
  | .expression h _ => h.wellFormed

theorem Statements.wellFormed {inside : Bool} {ts : List Token} {next : Kind} {ss : List Stmt} :
    Statements inside ts next ss → Stmt.AllWellFormed inside ss
  | .nil => trivial
  | .cons h hrest => ⟨h.wellFormed, hrest.wellFormed⟩

end

theorem kind_eofOf (tokens : List Token) : (eofOf tokens).kind = .eof := by
  unfold eofOf
  split
  · next t hfound => simpa using List.find?_some hfound
  · rfl

theorem kind_of_mem_beforeEof {tokens : List Token} {t : Token} (h : t ∈ beforeEof tokens) :
    t.kind ≠ .eof := by
  have hall := List.all_eq_true.mp (List.all_takeWhile (p := fun t => t.kind ≠ .eof) (l := tokens))
  simpa using hall t h

/-- Whatever tokens a program is read from, the grammar derives it from those before the first end
    marker. -/
theorem derives_beforeEof {tokens : List Token} {limit : Nat} {p : Program}
    (h : Program.parse tokens limit = .ok p) : Derives (beforeEof tokens) p := by
  unfold Program.parse at h
  dsimp only at h
  cases hread : Parser.topLevel (beforeEof tokens).length ⟨eofOf tokens, limit⟩
      (beforeEof tokens) with
  | error e =>
    rw [hread] at h
    cases h
  | ok r =>
    rw [hread] at h
    cases h
    have hkinds := fun t (ht : t ∈ beforeEof tokens) => kind_of_mem_beforeEof ht
    exact (topLevel_read (kind_eofOf tokens) hkinds (Nat.le_refl _) hread).2

end Grammar

theorem Program.WellFormed.of_parse {tokens : List Token} {limit : Nat} {p : Program}
    (h : Program.parse tokens limit = .ok p) : p.WellFormed :=
  Statements.wellFormed (derives_beforeEof h)

-- ============================================================================
-- Labels
-- ============================================================================

theorem endsOpen_relabel (next : Nat) : (s : Stmt) → endsOpen (s.relabel next).1 = endsOpen s
  | .expression _ | .letVar _ _ | .returnStmt _ _ | .block _ _ | .ifThen _ _ _
  | .function _ _ _ _ => rfl
  | .ifThenElse _ _ yes no => endsOpen_relabel (yes.relabel next).2 no
  | .whileLoop _ _ body => endsOpen_relabel next body

mutual

theorem Stmt.wellFormed_relabel (inside : Bool) (next : Nat) :
    (s : Stmt) → ((s.relabel next).1.WellFormed inside ↔ s.WellFormed inside)
  | .expression _ | .letVar _ _ | .returnStmt _ _ => Iff.rfl
  | .block _ body => Stmt.allWellFormed_relabelAll inside next body
  | .ifThen _ _ yes => and_congr_right' (yes.wellFormed_relabel inside next)
  | .ifThenElse _ condition yes no => by
    have hno := no.wellFormed_relabel inside (yes.relabel next).2
    rw [Stmt.relabel, Stmt.WellFormed, Stmt.WellFormed, yes.wellFormed_relabel inside next,
      endsOpen_relabel, hno]
  | .whileLoop _ _ body => and_congr_right' (body.wellFormed_relabel inside next)
  | .function _ name params body => by
    have hbody := Stmt.allWellFormed_relabelAll true (next + 1) body
    rw [Stmt.relabel, Stmt.WellFormed, Stmt.WellFormed, hbody]

theorem Stmt.allWellFormed_relabelAll (inside : Bool) (next : Nat) :
    (ss : List Stmt) →
      (Stmt.AllWellFormed inside (Stmt.relabelAll next ss).1 ↔ Stmt.AllWellFormed inside ss)
  | [] => Iff.rfl
  | s :: rest =>
    and_congr (s.wellFormed_relabel inside next)
      (Stmt.allWellFormed_relabelAll inside (s.relabel next).2 rest)

end

/-- How the functions of a program are numbered makes no difference. -/
theorem Program.wellFormed_relabel (p : Program) (next : Nat) :
    (p.relabel next).1.WellFormed ↔ p.WellFormed :=
  Stmt.allWellFormed_relabelAll false next p.statements

end Lexiscope
