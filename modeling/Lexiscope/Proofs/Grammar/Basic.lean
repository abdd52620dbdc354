/-
  Lexiscope.Proofs.Grammar.Basic

  The concrete syntax, as relations between rows of tokens and trees.

    program    := statement*
    statement  := "let" NAME ( "=" expression )? terminator
                | "fn" NAME "(" ( NAME ( "," NAME )* )? ")" "{" statement* "}"
                | "if" "(" expression ")" statement ( "else" statement )?
                | "while" "(" expression ")" statement
                | "return" expression? terminator
                | "{" statement* "}"
                | expression terminator
    terminator := ";" | nothing, before "}" and at the end
    expression := target "=" expression | binary 0
    target     := NAME | "(" target ")"
    binary n   := binary n OPERATOR-OF-LEVEL-n binary (n + 1) | binary (n + 1)
    binary 6   := unary
    unary      := ( "-" | "!" ) unary | call
    call       := call "(" ( expression ( "," expression )* )? ")" | primary
    primary    := NUMBER | STRING | "true" | "false" | "nil" | NAME | "(" expression ")"

  The relations know nothing of reading from left to right: a row of tokens is
  cut where the rules say, and nothing is looked up ahead but the kind of the
  token behind a statement, on which a missing terminator depends. An `else`
  belongs to the nearest `if`, because the statement before it may not end in
  an `if` that could still take it.
-/
import Lexiscope.Syntax.Parser

namespace Lexiscope.Grammar

-- ============================================================================
-- Tokens
-- ============================================================================

/-- The kind of the first of some tokens; behind them stands a token of kind `next`. -/
def headKind (ts : List Token) (next : Kind) : Kind := (ts.head?.map Token.kind).getD next

@[simp] theorem headKind_nil (next : Kind) : headKind [] next = next := rfl

@[simp] theorem headKind_cons (t : Token) (ts : List Token) (next : Kind) :
    headKind (t :: ts) next = t.kind := rfl

theorem headKind_append (ts us : List Token) (next : Kind) :
    headKind (ts ++ us) next = headKind ts (headKind us next) := by
  cases ts with
  | nil => rfl
  | cons t ts => rfl

/-- The level of a binary operator: operators of a higher level bind tighter. -/
def level : BinaryOp → Nat
  | .or => 0
  | .and => 1
  | .equal | .notEqual => 2
  | .less | .lessEqual | .greater | .greaterEqual => 3
  | .add | .subtract => 4
  | .multiply | .divide => 5

/-- The level of operands, above those of all operators. -/
def operandLevel : Nat := 6

/-- The most parameters of a function, and the most arguments of a call. -/
def mostArguments : Nat := 255

-- ============================================================================
-- Expressions
-- ============================================================================

/-- What an assignment assigns to: a name, in any number of parentheses. -/
inductive Target : List Token → Token → Prop where
  | name {t : Token} (hname : t.kind = .identifier) : Target [t] t
  | group {l r t : Token} {ts : List Token} (hl : l.kind = .leftParen) (h : Target ts t)
      (hr : r.kind = .rightParen) : Target (l :: ts ++ [r]) t

mutual

/-- An expression. Assignments group to the right. -/
inductive Expression : List Token → Expr → Prop where
  | operators {ts : List Token} {e : Expr} (h : Binary 0 ts e) : Expression ts e
  | assign {ts us : List Token} {t mark : Token} {v : Expr} (htarget : Target ts t)
      (hmark : mark.kind = .assign) (hvalue : Expression us v) :
      Expression (ts ++ mark :: us) (.assign t v)

/-- Operands joined by operators of at least the given level. Each level groups to the left. -/
inductive Binary : Nat → List Token → Expr → Prop where
  | operand {ts : List Token} {e : Expr} (h : Unary ts e) : Binary operandLevel ts e
  | tighter {n : Nat} {ts : List Token} {e : Expr} (h : Binary (n + 1) ts e) : Binary n ts e
  | join {n : Nat} {ts us : List Token} {op : BinaryOp} {mark : Token} {l r : Expr}
      (hleft : Binary n ts l) (hmark : BinaryOp.ofKind? mark.kind = some op)
      (hlevel : level op = n) (hright : Binary (n + 1) us r) :
      Binary n (ts ++ mark :: us) (.binary op mark l r)

/-- Prefix operators in front of a call. -/
inductive Unary : List Token → Expr → Prop where
  | call {ts : List Token} {e : Expr} (h : Call ts e) : Unary ts e
  | mark {mark : Token} {ts : List Token} {op : UnaryOp} {e : Expr}
      (hmark : UnaryOp.ofKind? mark.kind = some op) (h : Unary ts e) :
      Unary (mark :: ts) (.unary op mark e)

/-- A primary expression and the calls behind it. -/
inductive Call : List Token → Expr → Prop where
  | primary {ts : List Token} {e : Expr} (h : Primary ts e) : Call ts e
  | apply {ts us : List Token} {l r : Token} {f : Expr} {args : List Expr}
      (hcallee : Call ts f) (hl : l.kind = .leftParen) (hargs : Arguments us args)
      (hcount : args.length ≤ mostArguments) (hr : r.kind = .rightParen) :
      Call (ts ++ l :: us ++ [r]) (.call f l args)

/-- A constant whose text decodes, a name, or an expression in parentheses. -/
inductive Primary : List Token → Expr → Prop where
  | number {t : Token} {x : Float} (hkind : t.kind = .number)
      (hvalue : Number.ofText? t.lexeme = some x) : Primary [t] (.number x)
  | string {t : Token} {s : String} (hkind : t.kind = .string)
      (hvalue : t.stringValue? = some s) : Primary [t] (.string s)
  | yes {t : Token} (hkind : t.kind = .trueWord) : Primary [t] (.boolean true)
  | no {t : Token} (hkind : t.kind = .falseWord) : Primary [t] (.boolean false)
  | nil {t : Token} (hkind : t.kind = .nilWord) : Primary [t] .nil
  | name {t : Token} (hkind : t.kind = .identifier) : Primary [t] (.identifier t)
  | group {l r : Token} {ts : List Token} {e : Expr} (hl : l.kind = .leftParen)
      (h : Expression ts e) (hr : r.kind = .rightParen) : Primary (l :: ts ++ [r]) e

/-- Any number of expressions with commas between them. -/
inductive Arguments : List Token → List Expr → Prop where
  | none : Arguments [] []
  | row {ts : List Token} {es : List Expr} (h : Row ts es) : Arguments ts es

/-- One expression or more with commas between them. -/
inductive Row : List Token → List Expr → Prop where
  | last {ts : List Token} {e : Expr} (h : Expression ts e) : Row ts [e]
  | more {ts us : List Token} {comma : Token} {e : Expr} {es : List Expr}
      (h : Expression ts e) (hcomma : comma.kind = .comma) (hrest : Row us es) :
      Row (ts ++ comma :: us) (e :: es)

end

-- ============================================================================
-- Statements
-- ============================================================================

/-- What ends a statement before a token of kind `next`. -/
inductive Terminator : List Token → Kind → Prop where
  | semicolon {t : Token} {next : Kind} (hkind : t.kind = .semicolon) : Terminator [t] next
  | missing {next : Kind} (hnext : next = .rightBrace ∨ next = .eof) : Terminator [] next

/-- One name or more with commas between them. -/
inductive Names : List Token → List Token → Prop where
  | last {t : Token} (hname : t.kind = .identifier) : Names [t] [t]
  | more {t comma : Token} {us names : List Token} (hname : t.kind = .identifier)
      (hcomma : comma.kind = .comma) (hrest : Names us names) :
      Names (t :: comma :: us) (t :: names)

/-- The parameters of a function: different names, and not too many of them. -/
structure Parameters (ts params : List Token) : Prop where
  row : ts = [] ∧ params = [] ∨ Names ts params
  few : params.length ≤ mostArguments
  distinct : (params.map Token.lexeme).Nodup

/-- Does the statement end in an `if` that an `else` behind it would belong to? -/
def endsOpen : Stmt → Bool
  | .ifThen _ _ _ => true
  | .ifThenElse _ _ _ no => endsOpen no
  | .whileLoop _ _ body => endsOpen body
  | _ => false

mutual

/-- A statement before a token of kind `next`, inside of a function or not. -/
inductive Statement : Bool → List Token → Kind → Stmt → Prop where
  | letBare {inside : Bool} {word name : Token} {stop : List Token} {next : Kind}
      (hword : word.kind = .letWord) (hname : name.kind = .identifier)
      (hstop : Terminator stop next) :
      Statement inside (word :: name :: stop) next (.letVar name none)
  | letValue {inside : Bool} {word name mark : Token} {ts stop : List Token} {next : Kind}
      {v : Expr} (hword : word.kind = .letWord) (hname : name.kind = .identifier)
      (hmark : mark.kind = .assign) (hvalue : Expression ts v) (hstop : Terminator stop next) :
      Statement inside (word :: name :: mark :: ts ++ stop) next (.letVar name (some v))
  | function {inside : Bool} {word name l r open_ close : Token} {ps params ts : List Token}
      {next : Kind} {body : List Stmt} (hword : word.kind = .fnWord)
      (hname : name.kind = .identifier) (hl : l.kind = .leftParen)
      (hparams : Parameters ps params) (hr : r.kind = .rightParen)
      (hopen : open_.kind = .leftBrace) (hbody : Statements true ts .rightBrace body)
      (hclose : close.kind = .rightBrace) :
      Statement inside (word :: name :: l :: ps ++ r :: open_ :: ts ++ [close]) next
        (.function 0 name params body)
  | ifThen {inside : Bool} {word l r : Token} {cs ts : List Token} {next : Kind} {c : Expr}
      {yes : Stmt} (hword : word.kind = .ifWord) (hl : l.kind = .leftParen)
      (hcondition : Expression cs c) (hr : r.kind = .rightParen)
      (hyes : Statement inside ts next yes) :
      Statement inside (word :: l :: cs ++ r :: ts) next (.ifThen word c yes)
  | ifThenElse {inside : Bool} {word l r mark : Token} {cs ts us : List Token} {next : Kind}
      {c : Expr} {yes no : Stmt} (hword : word.kind = .ifWord) (hl : l.kind = .leftParen)
      (hcondition : Expression cs c) (hr : r.kind = .rightParen)
      (hyes : Statement inside ts .elseWord yes) (hclosed : endsOpen yes = false)
      (hmark : mark.kind = .elseWord) (hno : Statement inside us next no) :
      Statement inside (word :: l :: cs ++ r :: ts ++ mark :: us) next
        (.ifThenElse word c yes no)
  | whileLoop {inside : Bool} {word l r : Token} {cs ts : List Token} {next : Kind} {c : Expr}
      {body : Stmt} (hword : word.kind = .whileWord) (hl : l.kind = .leftParen)
      (hcondition : Expression cs c) (hr : r.kind = .rightParen)
      (hbody : Statement inside ts next body) :
      Statement inside (word :: l :: cs ++ r :: ts) next (.whileLoop word c body)
  | returnBare {word : Token} {stop : List Token} {next : Kind}
      (hword : word.kind = .returnWord) (hstop : Terminator stop next) :
      Statement true (word :: stop) next (.returnStmt word none)
  | returnValue {word : Token} {ts stop : List Token} {next : Kind} {v : Expr}
      (hword : word.kind = .returnWord) (hvalue : Expression ts v)
      (hstop : Terminator stop next) :
      Statement true (word :: ts ++ stop) next (.returnStmt word (some v))
  | block {inside : Bool} {open_ close : Token} {ts : List Token} {next : Kind}
      {body : List Stmt} (hopen : open_.kind = .leftBrace)
      (hbody : Statements inside ts .rightBrace body) (hclose : close.kind = .rightBrace) :
      Statement inside (open_ :: ts ++ [close]) next (.block open_ body)
  | expression {inside : Bool} {ts stop : List Token} {next : Kind} {e : Expr}
      (h : Expression ts e) (hstop : Terminator stop next) :
      Statement inside (ts ++ stop) next (.expression e)

/-- Statements one after the other, before a token of kind `next`. -/
inductive Statements : Bool → List Token → Kind → List Stmt → Prop where
  | nil {inside : Bool} {next : Kind} : Statements inside [] next []
  | cons {inside : Bool} {ts us : List Token} {next : Kind} {s : Stmt} {rest : List Stmt}
      (h : Statement inside ts (headKind us next) s) (hrest : Statements inside us next rest) :
      Statements inside (ts ++ us) next (s :: rest)

end

/-- The tokens, behind which the input ends, are the program. -/
def Derives (body : List Token) (p : Program) : Prop :=
  Statements false body .eof p.statements

-- ============================================================================
-- First tokens
-- ============================================================================

/-- Does a token of this kind begin primary expressions? -/
def startsPrimary : Kind → Bool
  | .number | .string | .trueWord | .falseWord | .nilWord | .identifier | .leftParen => true
  | _ => false

/-- Does a token of this kind begin expressions? -/
def startsExpression : Kind → Bool
  | .minus | .not => true
  | kind => startsPrimary kind

/-- Does a token of this kind begin statements? -/
def startsStatement : Kind → Bool
  | .letWord | .fnWord | .ifWord | .whileWord | .returnWord | .leftBrace => true
  | kind => startsExpression kind

/-- The tokens are not empty, and the first one is of a kind with the property. -/
def StartsWith (property : Kind → Bool) (ts : List Token) : Prop :=
  ∃ t us, ts = t :: us ∧ property t.kind = true

theorem StartsWith.append {property : Kind → Bool} {ts : List Token} (h : StartsWith property ts)
    (us : List Token) : StartsWith property (ts ++ us) := by
  obtain ⟨t, vs, rfl, ht⟩ := h
  exact ⟨t, vs ++ us, rfl, ht⟩

theorem StartsWith.cons {property : Kind → Bool} {t : Token} (h : property t.kind = true)
    (us : List Token) : StartsWith property (t :: us) := ⟨t, us, rfl, h⟩

theorem StartsWith.length_pos {property : Kind → Bool} {ts : List Token}
    (h : StartsWith property ts) : 0 < ts.length := by
  obtain ⟨t, us, rfl, -⟩ := h
  exact Nat.succ_pos _

theorem StartsWith.mono {weak strong : Kind → Bool} {ts : List Token} (h : StartsWith strong ts)
    (himp : ∀ kind, strong kind = true → weak kind = true) : StartsWith weak ts := by
  obtain ⟨t, us, rfl, ht⟩ := h
  exact ⟨t, us, rfl, himp _ ht⟩

theorem startsExpression_of_startsPrimary (kind : Kind) (h : startsPrimary kind = true) :
    startsExpression kind = true := by
  revert h
  cases kind <;> decide

theorem startsStatement_of_startsExpression (kind : Kind) (h : startsExpression kind = true) :
    startsStatement kind = true := by
  revert h
  cases kind <;> decide

theorem Target.starts {ts : List Token} {t : Token} (h : Target ts t) :
    StartsWith startsPrimary ts := by
  cases h with
  | name hname => exact .cons (by rw [hname]; rfl) _
  | group hl _ _ => exact .cons (by rw [hl]; rfl) _

theorem Primary.starts {ts : List Token} {e : Expr} (h : Primary ts e) :
    StartsWith startsPrimary ts := by
  cases h with
  | number hkind _ => exact .cons (by rw [hkind]; rfl) _
  | string hkind _ => exact .cons (by rw [hkind]; rfl) _
  | yes hkind => exact .cons (by rw [hkind]; rfl) _
  | no hkind => exact .cons (by rw [hkind]; rfl) _
  | nil hkind => exact .cons (by rw [hkind]; rfl) _
  | name hkind => exact .cons (by rw [hkind]; rfl) _
  | group hl _ _ => exact .cons (by rw [hl]; rfl) _

theorem Call.starts {ts : List Token} {e : Expr} : Call ts e → StartsWith startsPrimary ts
  | .primary h => h.starts
  | .apply hcallee _ _ _ _ => (hcallee.starts.append _).append _

theorem Unary.starts {ts : List Token} {e : Expr} (h : Unary ts e) :
    StartsWith startsExpression ts := by
  cases h with
  | call h => exact h.starts.mono startsExpression_of_startsPrimary
  | @mark mark _ _ _ hmark _ =>
    refine .cons ?_ _
    cases hk : mark.kind <;> simp_all [UnaryOp.ofKind?, startsExpression]

theorem Binary.starts {n : Nat} {ts : List Token} {e : Expr} :
    Binary n ts e → StartsWith startsExpression ts
  | .operand h => h.starts
  | .tighter h => h.starts
  | .join hleft _ _ _ => hleft.starts.append _

/-- No level is above that of operands. -/
theorem Binary.level_le {n : Nat} {ts : List Token} {e : Expr} : Binary n ts e → n ≤ operandLevel
  | .operand _ => Nat.le_refl _
  | .tighter h => Nat.le_of_succ_le h.level_le
  | .join hleft _ _ _ => hleft.level_le

/-- What stands on a level stands on every lower one. -/
theorem Binary.lower {m n : Nat} {ts : List Token} {e : Expr} (h : Binary n ts e) (hle : m ≤ n) :
    Binary m ts e := by
  induction n with
  | zero =>
    obtain rfl : m = 0 := by omega
    exact h
  | succ n ih =>
    obtain rfl | hlt : m = n + 1 ∨ m ≤ n := by omega
    · exact h
    · exact ih (.tighter h) hlt

theorem Expression.starts {ts : List Token} {e : Expr} (h : Expression ts e) :
    StartsWith startsExpression ts := by
  cases h with
  | operators h => exact h.starts
  | assign htarget _ _ =>
    exact (htarget.starts.mono startsExpression_of_startsPrimary).append _

theorem Row.starts {ts : List Token} {es : List Expr} (h : Row ts es) :
    StartsWith startsExpression ts := by
  cases h with
  | last h => exact h.starts
  | more h _ _ => exact h.starts.append _

theorem Row.length_pos {ts : List Token} {es : List Expr} (h : Row ts es) : 0 < es.length := by
  cases h with
  | last _ => exact Nat.succ_pos _
  | more _ _ _ => exact Nat.succ_pos _

theorem Statement.starts {inside : Bool} {ts : List Token} {next : Kind} {s : Stmt}
    (h : Statement inside ts next s) : StartsWith startsStatement ts := by
  cases h with
  | letBare hword _ _ => exact .cons (by rw [hword]; rfl) _
  | letValue hword _ _ _ _ => exact .cons (by rw [hword]; rfl) _
  | function hword _ _ _ _ _ _ _ => exact .cons (by rw [hword]; rfl) _
  | ifThen hword _ _ _ _ => exact .cons (by rw [hword]; rfl) _
  | ifThenElse hword _ _ _ _ _ _ _ => exact .cons (by rw [hword]; rfl) _
  | whileLoop hword _ _ _ _ => exact .cons (by rw [hword]; rfl) _
  | returnBare hword _ => exact .cons (by rw [hword]; rfl) _
  | returnValue hword _ _ => exact .cons (by rw [hword]; rfl) _
  | block hopen _ _ => exact .cons (by rw [hopen]; rfl) _
  | expression h _ =>
    exact (h.starts.mono startsStatement_of_startsExpression).append _

end Lexiscope.Grammar
