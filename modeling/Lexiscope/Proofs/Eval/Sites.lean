/-
  Lexiscope.Proofs.Eval.Sites

  The places of a program at which a run can fail.

  A run fails at a name, at an operator or at the parenthesis of a call. A tree
  keeps the token of every such place, and with it a `Site` says what the token does
  there and whether it stands in the body of a function, where it is left behind
  when the run that defined the function is over. What can go wrong at a site is
  known from its role alone (`Raises`).
-/
import Lexiscope.Eval.Operation
import Lexiscope.Syntax.Basic

namespace Lexiscope

-- ============================================================================
-- Sites
-- ============================================================================

/-- What a token does at a place where a run can fail. -/
inductive Role where
  /-- It is a name that is looked up or assigned to. -/
  | name
  /-- It marks a prefix operator. -/
  | sign (op : UnaryOp)
  /-- It marks an operator between two operands. -/
  | operator (op : BinaryOp)
  /-- It opens the arguments of a call. -/
  | call
deriving DecidableEq

/-- The token is of a kind that can do this. -/
def Role.Fits : Role → Token → Prop
  | name, t => t.kind = .identifier
  | sign op, t => UnaryOp.ofKind? t.kind = some op
  | operator op, t => BinaryOp.ofKind? t.kind = some op
  | call, t => t.kind = .leftParen

/-- A place of a program at which a run can fail. -/
structure Site where
  role : Role
  token : Token
  /-- Does the place stand in the body of a function? -/
  inside : Bool
deriving DecidableEq

mutual

/-- The sites of an expression. -/
def Expr.sites (inside : Bool) : Expr → List Site
  | .number _ | .string _ | .boolean _ | .nil => []
  | .identifier name => [⟨.name, name, inside⟩]
  | .unary op mark operand => ⟨.sign op, mark, inside⟩ :: operand.sites inside
  | .binary op mark left right =>
    ⟨.operator op, mark, inside⟩ :: (left.sites inside ++ right.sites inside)
  | .assign target value => ⟨.name, target, inside⟩ :: value.sites inside
  | .call callee paren args =>
    ⟨.call, paren, inside⟩ :: (callee.sites inside ++ Expr.sitesAll inside args)

/-- The sites of some expressions. -/
def Expr.sitesAll (inside : Bool) : List Expr → List Site
  | [] => []
  | e :: rest => e.sites inside ++ Expr.sitesAll inside rest

end

mutual

/-- The sites of a statement. -/
def Stmt.sites (inside : Bool) : Stmt → List Site
  | .expression e => e.sites inside
  | .letVar _ value => value.elim [] (Expr.sites inside)
  | .block _ body => Stmt.sitesAll inside body
  | .ifThen _ condition yes => condition.sites inside ++ yes.sites inside
  | .ifThenElse _ condition yes no =>
    condition.sites inside ++ (yes.sites inside ++ no.sites inside)
  | .whileLoop _ condition body => condition.sites inside ++ body.sites inside
  | .function _ _ _ body => Stmt.sitesAll true body
  | .returnStmt _ value => value.elim [] (Expr.sites inside)

/-- The sites of some statements. -/
def Stmt.sitesAll (inside : Bool) : List Stmt → List Site
  | [] => []
  | s :: rest => s.sites inside ++ Stmt.sitesAll inside rest

end

/-- The sites of a program. -/
def Program.sites (p : Program) : List Site := Stmt.sitesAll false p.statements

section Rows

variable {P : Site → Prop} {inside : Bool}

theorem Expr.forall_mem_sitesAll {es : List Expr} :
    (∀ site ∈ Expr.sitesAll inside es, P site) ↔ ∀ e ∈ es, ∀ site ∈ e.sites inside, P site := by
  induction es with
  | nil => exact iff_of_true (List.forall_mem_nil _) (List.forall_mem_nil _)
  | cons e rest ih => rw [Expr.sitesAll, List.forall_mem_append, List.forall_mem_cons, ih]

theorem Stmt.forall_mem_sitesAll {ss : List Stmt} :
    (∀ site ∈ Stmt.sitesAll inside ss, P site) ↔ ∀ s ∈ ss, ∀ site ∈ s.sites inside, P site := by
  induction ss with
  | nil => exact iff_of_true (List.forall_mem_nil _) (List.forall_mem_nil _)
  | cons s rest ih => rw [Stmt.sitesAll, List.forall_mem_append, List.forall_mem_cons, ih]

end Rows

-- ============================================================================
-- Bodies of functions
-- ============================================================================

mutual

theorem Expr.inside_of_mem_sites {site : Site} :
    (e : Expr) → site ∈ e.sites true → site.inside = true
  | .number _ | .string _ | .boolean _ | .nil => nofun
  | .identifier name => by
    intro h
    rw [Expr.sites, List.mem_singleton] at h
    rw [h]
  | .unary op mark operand => by
    intro h
    rw [Expr.sites, List.mem_cons] at h
    rcases h with rfl | h
    · rfl
    · exact operand.inside_of_mem_sites h
  | .binary op mark left right => by
    intro h
    rw [Expr.sites, List.mem_cons, List.mem_append] at h
    rcases h with rfl | h | h
    · rfl
    · exact left.inside_of_mem_sites h
    · exact right.inside_of_mem_sites h
  | .assign target value => by
    intro h
    rw [Expr.sites, List.mem_cons] at h
    rcases h with rfl | h
    · rfl
    · exact value.inside_of_mem_sites h
  | .call callee paren args => by
    intro h
    rw [Expr.sites, List.mem_cons, List.mem_append] at h
    rcases h with rfl | h | h
    · rfl
    · exact callee.inside_of_mem_sites h
    · exact Expr.inside_of_mem_sitesAll args h

theorem Expr.inside_of_mem_sitesAll {site : Site} :
    (es : List Expr) → site ∈ Expr.sitesAll true es → site.inside = true
  | [] => nofun
  | e :: rest => by
    intro h
    rw [Expr.sitesAll, List.mem_append] at h
    rcases h with h | h
    · exact e.inside_of_mem_sites h
    · exact Expr.inside_of_mem_sitesAll rest h

end

mutual

theorem Stmt.inside_of_mem_sites {site : Site} :
    (s : Stmt) → site ∈ s.sites true → site.inside = true
  | .expression e => e.inside_of_mem_sites
  | .letVar _ none => nofun
  | .letVar _ (some e) => e.inside_of_mem_sites
  | .block _ body => Stmt.inside_of_mem_sitesAll body
  | .ifThen _ condition yes => by
    intro h
    rw [Stmt.sites, List.mem_append] at h
    rcases h with h | h
    · exact condition.inside_of_mem_sites h
    · exact yes.inside_of_mem_sites h
  | .ifThenElse _ condition yes no => by
    intro h
    rw [Stmt.sites, List.mem_append, List.mem_append] at h
    rcases h with h | h | h
    · exact condition.inside_of_mem_sites h
    · exact yes.inside_of_mem_sites h
    · exact no.inside_of_mem_sites h
  | .whileLoop _ condition body => by
    intro h
    rw [Stmt.sites, List.mem_append] at h
    rcases h with h | h
    · exact condition.inside_of_mem_sites h
    · exact body.inside_of_mem_sites h
  | .function _ _ _ body => Stmt.inside_of_mem_sitesAll body
  | .returnStmt _ none => nofun
  | .returnStmt _ (some e) => e.inside_of_mem_sites

/-- All sites of the body of a function stand in the body of a function. -/
theorem Stmt.inside_of_mem_sitesAll {site : Site} :
    (ss : List Stmt) → site ∈ Stmt.sitesAll true ss → site.inside = true
  | [] => nofun
  | s :: rest => by
    intro h
    rw [Stmt.sitesAll, List.mem_append] at h
    rcases h with h | h
    · exact s.inside_of_mem_sites h
    · exact Stmt.inside_of_mem_sitesAll rest h

end

-- ============================================================================
-- Labels
-- ============================================================================

mutual

theorem Stmt.sites_relabel (inside : Bool) (next : Nat) :
    (s : Stmt) → (s.relabel next).1.sites inside = s.sites inside
  | .expression _ | .letVar _ _ | .returnStmt _ _ => rfl
  | .block brace body => Stmt.sitesAll_relabelAll inside next body
  | .ifThen word condition yes => by
    rw [Stmt.relabel, Stmt.sites, Stmt.sites, yes.sites_relabel]
  | .ifThenElse word condition yes no => by
    rw [Stmt.relabel, Stmt.sites, Stmt.sites, yes.sites_relabel, no.sites_relabel]
  | .whileLoop word condition body => by
    rw [Stmt.relabel, Stmt.sites, Stmt.sites, body.sites_relabel]
  | .function _ name params body => Stmt.sitesAll_relabelAll true (next + 1) body

theorem Stmt.sitesAll_relabelAll (inside : Bool) (next : Nat) :
    (ss : List Stmt) → Stmt.sitesAll inside (Stmt.relabelAll next ss).1 = Stmt.sitesAll inside ss
  | [] => rfl
  | s :: rest => by
    rw [Stmt.relabelAll, Stmt.sitesAll, Stmt.sitesAll, s.sites_relabel,
      Stmt.sitesAll_relabelAll inside _ rest]

end

/-- New labels leave the sites of a program as they are. -/
theorem Program.sites_relabel (p : Program) (next : Nat) : (p.relabel next).1.sites = p.sites :=
  Stmt.sitesAll_relabelAll false next p.statements

-- ============================================================================
-- What goes wrong at a site
-- ============================================================================

/-- The fault is one that comes up at a token in this role. -/
inductive Raises (t : Token) : Role → Fault → Prop where
  | undefined : Raises t .name (.undefined t.lexeme)
  | unassignable : Raises t .name (.unassignable t.lexeme)
  | sign {op : UnaryOp} {v : Value} {f : Fault} (h : op.apply t v = .error ⟨t, f⟩) :
      Raises t (.sign op) f
  | operator {op : BinaryOp} {a b : Value} {f : Fault} (h : op.apply t a b = .error ⟨t, f⟩) :
      Raises t (.operator op) f
  | notCallable {v : Value} (h : v.type ≠ .function) : Raises t .call (.notCallable v.type)
  | wrongArity (function : String) {expected given : Nat} (h : given ≠ expected) :
      Raises t .call (.wrongArity function expected given)
  | tooDeep (limit : Nat) (function : String) : Raises t .call (.tooDeep limit function)
  | outputFailed (reason : String) : Raises t .call (.outputFailed reason)

/-- The error stands at the token of the site, and its fault is one that comes up there. -/
structure RuntimeError.RaisedAt (e : RuntimeError) (site : Site) : Prop where
  token : site.token = e.token
  raises : Raises site.token site.role e.fault

/-- What an operator needs its operands to be, if it does not take all values. -/
def BinaryOp.needs? : BinaryOp → Option Operands
  | or | and | equal | notEqual => none
  | less | lessEqual | greater | greaterEqual | add => some .numbersOrStrings
  | subtract | multiply | divide => some .numbers

/-- Operands of these types are what is needed. -/
def Operands.Accept : Operands → ValueType → ValueType → Prop
  | numbers, left, right => left = .number ∧ right = .number
  | numbersOrStrings, left, right =>
    left = .number ∧ right = .number ∨ left = .string ∧ right = .string

/-- A prefix operator fails on an operand that is no number, and only the minus sign does. -/
theorem UnaryOp.eq_of_apply_error {op : UnaryOp} {mark : Token} {v : Value} {e : RuntimeError}
    (h : op.apply mark v = .error e) :
    op = .negate ∧ v.type ≠ .number ∧ e = ⟨mark, .badOperand v.type⟩ := by
  cases op with
  | not => cases h
  | negate =>
    cases v with
    | number x => cases h
    | string _ | boolean _ | nil | function _ _ | builtin _ =>
      cases h
      exact ⟨rfl, by simp [Value.type], rfl⟩

/-- A sign never gives a function. -/
theorem UnaryOp.ne_function_of_apply {op : UnaryOp} {mark : Token} {v w : Value}
    (h : op.apply mark v = .ok w) (f : FunctionDef) (c : ScopeId) : w ≠ .function f c := by
  rintro rfl
  cases op with
  | not => cases h
  | negate => cases v <;> cases h

theorem Value.exists_number_of_type {v : Value} (h : v.type = .number) : ∃ x, v = .number x := by
  cases v with
  | number x => exact ⟨x, rfl⟩
  | string _ | boolean _ | nil | function _ _ | builtin _ => cases h

theorem Value.exists_string_of_type {v : Value} (h : v.type = .string) : ∃ s, v = .string s := by
  cases v with
  | string s => exact ⟨s, rfl⟩
  | number _ | boolean _ | nil | function _ _ | builtin _ => cases h

namespace BinaryOp

variable {mark : Token} {a b : Value} {e : RuntimeError}

/-- The operands are not what is needed, and the error says so. -/
structure Rejects (mark : Token) (needed : Operands) (a b : Value) (e : RuntimeError) : Prop where
  wrong : ¬ needed.Accept a.type b.type
  error : e = ⟨mark, .badOperands mark.lexeme needed a.type b.type⟩

theorem rejects_of_numbers (hpair : ∀ x y, a = .number x → b = .number y → False)
    (h : mismatch mark .numbers a b = .error e) : Rejects mark .numbers a b e := by
  refine ⟨?_, (Except.error.inj h).symm⟩
  rintro ⟨ha, hb⟩
  obtain ⟨x, hx⟩ := Value.exists_number_of_type ha
  obtain ⟨y, hy⟩ := Value.exists_number_of_type hb
  exact hpair x y hx hy

theorem rejects_of_numbersOrStrings (hpair : ∀ x y, a = .number x → b = .number y → False)
    (hpair' : ∀ s t, a = .string s → b = .string t → False)
    (h : mismatch mark .numbersOrStrings a b = .error e) :
    Rejects mark .numbersOrStrings a b e := by
  refine ⟨?_, (Except.error.inj h).symm⟩
  rintro (⟨ha, hb⟩ | ⟨ha, hb⟩)
  · obtain ⟨x, hx⟩ := Value.exists_number_of_type ha
    obtain ⟨y, hy⟩ := Value.exists_number_of_type hb
    exact hpair x y hx hy
  · obtain ⟨s, hs⟩ := Value.exists_string_of_type ha
    obtain ⟨t, ht⟩ := Value.exists_string_of_type hb
    exact hpair' s t hs ht

theorem rejects_of_arithmetic {f : Float → Float → Float}
    (h : arithmetic mark f a b = .error e) : Rejects mark .numbers a b e := by
  unfold arithmetic at h
  split at h
  · cases h
  · next hpair => exact rejects_of_numbers hpair h

theorem rejects_of_compare {numbers : Float → Float → Bool} {strings : String → String → Bool}
    (h : compare mark numbers strings a b = .error e) :
    Rejects mark .numbersOrStrings a b e := by
  unfold compare at h
  split at h
  · cases h
  · cases h
  · next hpair hpair' => exact rejects_of_numbersOrStrings hpair hpair' h

/-- An operator fails because a divisor is zero, or because the operands are not what it needs. -/
theorem eq_of_apply_error {op : BinaryOp} (h : op.apply mark a b = .error e) :
    op = .divide ∧ e = ⟨mark, .divisionByZero⟩ ∨
      ∃ needed, op.needs? = some needed ∧ Rejects mark needed a b e := by
  cases op with
  | or | and | equal | notEqual => cases h
  | less | lessEqual | greater | greaterEqual => exact .inr ⟨_, rfl, rejects_of_compare h⟩
  | subtract | multiply => exact .inr ⟨_, rfl, rejects_of_arithmetic h⟩
  | add =>
    unfold apply at h
    dsimp only at h
    split at h
    · cases h
    · cases h
    · next hpair hpair' => exact .inr ⟨_, rfl, rejects_of_numbersOrStrings hpair hpair' h⟩
  | divide =>
    unfold apply at h
    dsimp only at h
    split at h
    · split at h
      · cases h
        exact .inl ⟨rfl, rfl⟩
      · cases h
    · next hpair => exact .inr ⟨_, rfl, rejects_of_numbers hpair h⟩

/-- An operator that is not a logical one never gives a function. -/
theorem apply_ne_function {op : BinaryOp} (hor : op ≠ .or) (hand : op ≠ .and) (mark : Token)
    (a b : Value) (f : FunctionDef) (c : ScopeId) : op.apply mark a b ≠ .ok (.function f c) := by
  intro h
  cases op with
  | or => exact hor rfl
  | and => exact hand rfl
  | equal | notEqual => cases h
  | less | lessEqual | greater | greaterEqual =>
    rw [apply] at h
    unfold compare at h
    split at h <;> cases h
  | subtract | multiply =>
    rw [apply] at h
    unfold arithmetic at h
    split at h <;> cases h
  | add =>
    unfold apply at h
    dsimp only at h
    split at h <;> cases h
  | divide =>
    unfold apply at h
    dsimp only at h
    split at h
    · split at h <;> cases h
    · cases h

/-- An operator gives one of its operands, or a value that is no function. -/
theorem eq_operand_of_apply {op : BinaryOp} {w : Value} (h : op.apply mark a b = .ok w) :
    w = a ∨ w = b ∨ ∀ f c, w ≠ .function f c := by
  by_cases hlogical : op = .or ∨ op = .and
  · rcases hlogical with rfl | rfl
    all_goals
      cases h
      split
      · simp
      · simp
  · obtain ⟨hor, hand⟩ := not_or.mp hlogical
    exact .inr (.inr fun f c hw => apply_ne_function hor hand mark a b f c (hw ▸ h))

end BinaryOp

end Lexiscope
