/-
  Lexiscope.Proofs.Printing.Formed

  What is known of a tree that was read from a source text.

  Its tokens are of the kinds that the syntax asks for and spelled as their
  kinds are, its numbers are doubles nearest to decimals, and what the syntax
  counts or forbids is kept to (`Formed`, `FormedStmt`). Where the tokens were
  and how operators were grouped no longer matters. Constants stand in the tree
  in the order in which their tokens were read.
-/
import Lexiscope.Proofs.Decimal.ReadBack
import Lexiscope.Proofs.Grammar.Basic
import Lexiscope.Proofs.Syntax.Tokens

namespace Lexiscope.Printing

open Grammar Lexical

-- ============================================================================
-- Formed trees
-- ============================================================================

/-- The lexeme of the token is one of its kind. -/
def Spelled (t : Token) : Prop := Lexeme t.kind t.lexeme.toList

/-- The token is a name, and spelled as one. -/
structure IsName (t : Token) : Prop where
  kind : t.kind = .identifier
  spelled : Spelled t

mutual

/-- An expression as it is read from a source text. -/
inductive Formed : Expr → Prop where
  | number (d : Decimal) : Formed (.number d.toFloat)
  | string {s : String} : Formed (.string s)
  | boolean {b : Bool} : Formed (.boolean b)
  | nil : Formed .nil
  | identifier {t : Token} (hname : IsName t) : Formed (.identifier t)
  | unary {op : UnaryOp} {mark : Token} {e : Expr}
      (hmark : UnaryOp.ofKind? mark.kind = some op) (hspelled : Spelled mark) (h : Formed e) :
      Formed (.unary op mark e)
  | binary {op : BinaryOp} {mark : Token} {l r : Expr}
      (hmark : BinaryOp.ofKind? mark.kind = some op) (hspelled : Spelled mark)
      (hleft : Formed l) (hright : Formed r) : Formed (.binary op mark l r)
  | assign {t : Token} {v : Expr} (hname : IsName t) (h : Formed v) : Formed (.assign t v)
  | call {f : Expr} {paren : Token} {args : List Expr} (hparen : paren.kind = .leftParen)
      (hspelled : Spelled paren) (hcallee : Formed f) (hargs : FormedAll args)
      (hcount : args.length ≤ mostArguments) : Formed (.call f paren args)

/-- Expressions as they are read from a source text. -/
inductive FormedAll : List Expr → Prop where
  | nil : FormedAll []
  | cons {e : Expr} {es : List Expr} (h : Formed e) (hrest : FormedAll es) : FormedAll (e :: es)

end

mutual

/-- A statement as it is read from a source text, inside of a function or not. -/
inductive FormedStmt : Bool → Stmt → Prop where
  | expression {inside : Bool} {e : Expr} (h : Formed e) : FormedStmt inside (.expression e)
  | letBare {inside : Bool} {name : Token} (hname : IsName name) :
      FormedStmt inside (.letVar name none)
  | letValue {inside : Bool} {name : Token} {v : Expr} (hname : IsName name) (h : Formed v) :
      FormedStmt inside (.letVar name (some v))
  | block {inside : Bool} {brace : Token} {body : List Stmt} (hbrace : brace.kind = .leftBrace)
      (hspelled : Spelled brace) (h : FormedStmts inside body) :
      FormedStmt inside (.block brace body)
  | ifThen {inside : Bool} {word : Token} {c : Expr} {yes : Stmt} (hword : word.kind = .ifWord)
      (hspelled : Spelled word) (hcondition : Formed c) (hyes : FormedStmt inside yes) :
      FormedStmt inside (.ifThen word c yes)
  | ifThenElse {inside : Bool} {word : Token} {c : Expr} {yes no : Stmt}
      (hword : word.kind = .ifWord) (hspelled : Spelled word) (hcondition : Formed c)
      (hyes : FormedStmt inside yes) (hclosed : endsOpen yes = false)
      (hno : FormedStmt inside no) : FormedStmt inside (.ifThenElse word c yes no)
  | whileLoop {inside : Bool} {word : Token} {c : Expr} {body : Stmt}
      (hword : word.kind = .whileWord) (hspelled : Spelled word) (hcondition : Formed c)
      (hbody : FormedStmt inside body) : FormedStmt inside (.whileLoop word c body)
  | function {inside : Bool} {name : Token} {params : List Token} {body : List Stmt}
      (hname : IsName name) (hparams : ∀ t ∈ params, IsName t)
      (hcount : params.length ≤ mostArguments) (hdistinct : (params.map Token.lexeme).Nodup)
      (h : FormedStmts true body) : FormedStmt inside (.function 0 name params body)
  | returnBare {word : Token} (hword : word.kind = .returnWord) (hspelled : Spelled word) :
      FormedStmt true (.returnStmt word none)
  | returnValue {word : Token} {v : Expr} (hword : word.kind = .returnWord)
      (hspelled : Spelled word) (h : Formed v) : FormedStmt true (.returnStmt word (some v))

/-- Statements as they are read from a source text. -/
inductive FormedStmts : Bool → List Stmt → Prop where
  | nil {inside : Bool} : FormedStmts inside []
  | cons {inside : Bool} {s : Stmt} {rest : List Stmt} (h : FormedStmt inside s)
      (hrest : FormedStmts inside rest) : FormedStmts inside (s :: rest)

end

-- ============================================================================
-- What is read is formed
-- ============================================================================

theorem isName_of_target {ts : List Token} {t : Token} (h : Target ts t)
    (hs : ∀ u ∈ ts, Spelled u) : IsName t := by
  induction h with
  | name hname => exact ⟨hname, hs _ (by simp)⟩
  | group _ _ _ ih => exact ih fun u hu => hs u (by simp [hu])

theorem isName_of_names {ts params : List Token} (h : Names ts params)
    (hs : ∀ u ∈ ts, Spelled u) : ∀ t ∈ params, IsName t := by
  induction h with
  | last hname =>
    intro t ht
    obtain rfl := List.mem_singleton.mp ht
    exact ⟨hname, hs t (by simp)⟩
  | more hname _ _ ih =>
    intro t ht
    obtain rfl | ht := List.mem_cons.mp ht
    · exact ⟨hname, hs t (by simp)⟩
    · exact ih (fun u hu => hs u (by simp [hu])) t ht

mutual

theorem formed_of_expression {ts : List Token} {e : Expr} :
    Expression ts e → (∀ t ∈ ts, Spelled t) → Formed e
  | .operators h, hs => formed_of_binary h hs
  | .assign htarget _ hvalue, hs =>
    .assign (isName_of_target htarget fun t ht => hs t (by simp [ht]))
      (formed_of_expression hvalue fun t ht => hs t (by simp [ht]))

theorem formed_of_binary {n : Nat} {ts : List Token} {e : Expr} :
    Binary n ts e → (∀ t ∈ ts, Spelled t) → Formed e
  | .operand h, hs => formed_of_unary h hs
  | .tighter h, hs => formed_of_binary h hs
  | .join hleft hmark _ hright, hs =>
    .binary hmark (hs _ (by simp)) (formed_of_binary hleft fun t ht => hs t (by simp [ht]))
      (formed_of_binary hright fun t ht => hs t (by simp [ht]))

theorem formed_of_unary {ts : List Token} {e : Expr} :
    Unary ts e → (∀ t ∈ ts, Spelled t) → Formed e
  | .call h, hs => formed_of_call h hs
  | .mark hmark h, hs =>
    .unary hmark (hs _ (by simp)) (formed_of_unary h fun t ht => hs t (by simp [ht]))

theorem formed_of_call {ts : List Token} {e : Expr} :
    Call ts e → (∀ t ∈ ts, Spelled t) → Formed e
  | .primary h, hs => formed_of_primary h hs
  | .apply hcallee hl hargs hcount _, hs =>
    .call hl (hs _ (by simp)) (formed_of_call hcallee fun t ht => hs t (by simp [ht]))
      (formed_of_arguments hargs fun t ht => hs t (by simp [ht])) hcount

theorem formed_of_primary {ts : List Token} {e : Expr} :
    Primary ts e → (∀ t ∈ ts, Spelled t) → Formed e
  | @Primary.number t x hkind hvalue, hs => by
    have hlexeme : Lexeme .number t.lexeme.toList := hkind ▸ hs t (by simp)
    rw [← String.ofList_toList (s := t.lexeme)] at hvalue
    obtain ⟨d, rfl⟩ := Number.exists_decimal hlexeme hvalue
    exact .number d
  | .string _ _, _ => .string
  | .yes _, _ => .boolean
  | .no _, _ => .boolean
  | .nil _, _ => .nil
  | .name hkind, hs => .identifier ⟨hkind, hs _ (by simp)⟩
  | .group _ h _, hs => formed_of_expression h fun t ht => hs t (by simp [ht])

theorem formed_of_arguments {ts : List Token} {es : List Expr} :
    Arguments ts es → (∀ t ∈ ts, Spelled t) → FormedAll es
  | .none, _ => .nil
  | .row h, hs => formed_of_row h hs

theorem formed_of_row {ts : List Token} {es : List Expr} :
    Row ts es → (∀ t ∈ ts, Spelled t) → FormedAll es
  | .last h, hs => .cons (formed_of_expression h hs) .nil
  | .more h _ hrest, hs =>
    .cons (formed_of_expression h fun t ht => hs t (by simp [ht]))
      (formed_of_row hrest fun t ht => hs t (by simp [ht]))

end

mutual

theorem formed_of_statement {inside : Bool} {ts : List Token} {next : Kind} {s : Stmt} :
    Statement inside ts next s → (∀ t ∈ ts, Spelled t) → FormedStmt inside s
  | .letBare _ hname _, hs => .letBare ⟨hname, hs _ (by simp)⟩
  | .letValue _ hname _ hvalue _, hs =>
    .letValue ⟨hname, hs _ (by simp)⟩
      (formed_of_expression hvalue fun t ht => hs t (by simp [ht]))
  | .function _ hname _ hparams _ _ hbody _, hs => by
    refine .function ⟨hname, hs _ (by simp)⟩ ?_ hparams.few hparams.distinct
      (formed_of_statements hbody fun t ht => hs t (by simp [ht]))
    obtain ⟨-, rfl⟩ | hnames := hparams.row
    · simp
    · exact isName_of_names hnames fun t ht => hs t (by simp [ht])
  | .ifThen hword _ hcondition _ hyes, hs =>
    .ifThen hword (hs _ (by simp)) (formed_of_expression hcondition fun t ht => hs t (by simp [ht]))
      (formed_of_statement hyes fun t ht => hs t (by simp [ht]))
  | .ifThenElse hword _ hcondition _ hyes hclosed _ hno, hs =>
    .ifThenElse hword (hs _ (by simp))
      (formed_of_expression hcondition fun t ht => hs t (by simp [ht]))
      (formed_of_statement hyes fun t ht => hs t (by simp [ht])) hclosed
      (formed_of_statement hno fun t ht => hs t (by simp [ht]))
  | .whileLoop hword _ hcondition _ hbody, hs =>
    .whileLoop hword (hs _ (by simp))
      (formed_of_expression hcondition fun t ht => hs t (by simp [ht]))
      (formed_of_statement hbody fun t ht => hs t (by simp [ht]))
  | .returnBare hword _, hs => .returnBare hword (hs _ (by simp))
  | .returnValue hword hvalue _, hs =>
    .returnValue hword (hs _ (by simp))
      (formed_of_expression hvalue fun t ht => hs t (by simp [ht]))
  | .block hopen hbody _, hs =>
    .block hopen (hs _ (by simp)) (formed_of_statements hbody fun t ht => hs t (by simp [ht]))
  | .expression h _, hs =>
    .expression (formed_of_expression h fun t ht => hs t (by simp [ht]))

theorem formed_of_statements {inside : Bool} {ts : List Token} {next : Kind} {ss : List Stmt} :
    Statements inside ts next ss → (∀ t ∈ ts, Spelled t) → FormedStmts inside ss
  | .nil, _ => .nil
  | .cons h hrest, hs =>
    .cons (formed_of_statement h fun t ht => hs t (by simp [ht]))
      (formed_of_statements hrest fun t ht => hs t (by simp [ht]))

end

-- ============================================================================
-- Constants are read in order
-- ============================================================================

/-- The constant that a token stands for, if it stands for one. -/
def constant? (t : Token) : Option Constant :=
  match t.kind with
  | .number => (Number.ofText? t.lexeme).map .number
  | .string => t.stringValue?.map .string
  | _ => none

theorem constant?_eq_none {t : Token} (hnumber : t.kind ≠ .number) (hstring : t.kind ≠ .string) :
    constant? t = none := by
  rw [constant?]
  split
  · next h => exact absurd h hnumber
  · next h => exact absurd h hstring
  · rfl

theorem constant?_of_unary {t : Token} {op : UnaryOp} (h : UnaryOp.ofKind? t.kind = some op) :
    constant? t = none := by
  apply constant?_eq_none <;> intro hkind <;> rw [hkind] at h <;> exact nomatch h

theorem constant?_of_binary {t : Token} {op : BinaryOp} (h : BinaryOp.ofKind? t.kind = some op) :
    constant? t = none := by
  apply constant?_eq_none <;> intro hkind <;> rw [hkind] at h <;> exact nomatch h

theorem constants_of_target {ts : List Token} {t : Token} (h : Target ts t) :
    ts.filterMap constant? = [] := by
  induction h with
  | name hname => simp [constant?, hname]
  | group hl _ hr ih => simp [constant?, hl, hr, ih]

theorem constants_of_names {ts params : List Token} (h : Names ts params) :
    ts.filterMap constant? = [] := by
  induction h with
  | last hname => simp [constant?, hname]
  | more hname hcomma _ ih => simp [constant?, hname, hcomma, ih]

theorem constants_of_terminator {ts : List Token} {next : Kind} (h : Terminator ts next) :
    ts.filterMap constant? = [] := by
  cases h with
  | semicolon hkind => simp [constant?, hkind]
  | missing _ => rfl

mutual

theorem constants_of_expression {ts : List Token} {e : Expr} :
    Expression ts e → ts.filterMap constant? = e.constants
  | .operators h => constants_of_binary h
  | .assign htarget hmark hvalue => by
    simp [constant?, hmark, constants_of_target htarget, constants_of_expression hvalue,
      Expr.constants]

theorem constants_of_binary {n : Nat} {ts : List Token} {e : Expr} :
    Binary n ts e → ts.filterMap constant? = e.constants
  | .operand h => constants_of_unary h
  | .tighter h => constants_of_binary h
  | .join hleft hmark _ hright => by
    simp [constant?_of_binary hmark, constants_of_binary hleft, constants_of_binary hright,
      Expr.constants]

theorem constants_of_unary {ts : List Token} {e : Expr} :
    Unary ts e → ts.filterMap constant? = e.constants
  | .call h => constants_of_call h
  | .mark hmark h => by
    simp [constant?_of_unary hmark, constants_of_unary h, Expr.constants]

theorem constants_of_call {ts : List Token} {e : Expr} :
    Call ts e → ts.filterMap constant? = e.constants
  | .primary h => constants_of_primary h
  | .apply hcallee hl hargs _ hr => by
    simp [constant?, hl, hr, constants_of_call hcallee, constants_of_arguments hargs,
      Expr.constants]

theorem constants_of_primary {ts : List Token} {e : Expr} :
    Primary ts e → ts.filterMap constant? = e.constants
  | .number hkind hvalue => by simp [constant?, hkind, hvalue, Expr.constants]
  | .string hkind hvalue => by simp [constant?, hkind, hvalue, Expr.constants]
  | .yes hkind | .no hkind | .nil hkind | .name hkind => by
    simp [constant?, hkind, Expr.constants]
  | .group hl h hr => by simp [constant?, hl, hr, constants_of_expression h]

theorem constants_of_arguments {ts : List Token} {es : List Expr} :
    Arguments ts es → ts.filterMap constant? = Expr.constantsAll es
  | .none => rfl
  | .row h => constants_of_row h

theorem constants_of_row {ts : List Token} {es : List Expr} :
    Row ts es → ts.filterMap constant? = Expr.constantsAll es
  | .last h => by simp [constants_of_expression h, Expr.constantsAll]
  | .more h hcomma hrest => by
    simp [constant?, hcomma, constants_of_expression h, constants_of_row hrest,
      Expr.constantsAll]

end

mutual

theorem constants_of_statement {inside : Bool} {ts : List Token} {next : Kind} {s : Stmt} :
    Statement inside ts next s → ts.filterMap constant? = s.constants
  | .letBare hword hname hstop => by
    simp [constant?, hword, hname, constants_of_terminator hstop, Stmt.constants]
  | .letValue hword hname hmark hvalue hstop => by
    simp [constant?, hword, hname, hmark, constants_of_expression hvalue,
      constants_of_terminator hstop, Stmt.constants]
  | @Statement.function _ _ _ _ _ _ _ ps _ _ _ _ hword hname hl hparams hr hopen hbody hclose => by
    have hps : ps.filterMap constant? = [] := by
      obtain ⟨rfl, -⟩ | hnames := hparams.row
      · rfl
      · exact constants_of_names hnames
    simp [constant?, hword, hname, hl, hps, hr, hopen, hclose, constants_of_statements hbody,
      Stmt.constants]
  | .ifThen hword hl hcondition hr hyes => by
    simp [constant?, hword, hl, hr, constants_of_expression hcondition,
      constants_of_statement hyes, Stmt.constants]
  | .ifThenElse hword hl hcondition hr hyes _ hmark hno => by
    simp [constant?, hword, hl, hr, hmark, constants_of_expression hcondition,
      constants_of_statement hyes, constants_of_statement hno, Stmt.constants]
  | .whileLoop hword hl hcondition hr hbody => by
    simp [constant?, hword, hl, hr, constants_of_expression hcondition,
      constants_of_statement hbody, Stmt.constants]
  | .returnBare hword hstop => by
    simp [constant?, hword, constants_of_terminator hstop, Stmt.constants]
  | .returnValue hword hvalue hstop => by
    simp [constant?, hword, constants_of_expression hvalue, constants_of_terminator hstop,
      Stmt.constants]
  | .block hopen hbody hclose => by
    simp [constant?, hopen, hclose, constants_of_statements hbody, Stmt.constants]
  | .expression h hstop => by
    simp [constants_of_expression h, constants_of_terminator hstop, Stmt.constants]

theorem constants_of_statements {inside : Bool} {ts : List Token} {next : Kind} {ss : List Stmt} :
    Statements inside ts next ss → ts.filterMap constant? = Stmt.constantsAll ss
  | .nil => rfl
  | .cons h hrest => by
    simp [constants_of_statement h, constants_of_statements hrest, Stmt.constantsAll]

end

end Lexiscope.Printing
