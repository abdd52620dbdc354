/-
  Lexiscope.Proofs.Eval.Comparison

  The order of strings, as a program sees it.

  Between two strings a comparison always has an answer, the same at every token
  (`Decides`). What the operators answer is one total order: that of the bytes, which
  is also that of the scalar values (`lex_bytes_iff`, `lex_scalars_iff`). Two strings
  compare in one of three ways, and each of `<`, `==` and `>` holds for one of them
  (`ofOrdering`).
-/
import Lexiscope.Eval.Operation
import Lexiscope.Proofs.Text.Utf8
import Mathlib.Order.Compare

namespace Lexiscope.BinaryOp

open Text (bytes scalars bytes_inj lex_bytes_iff lex_scalars_iff)

-- ============================================================================
-- Answers
-- ============================================================================

/-- Between two strings the operator answers whether they are related so, whatever token it stands
    at. -/
def Decides (op : BinaryOp) (related : String → String → Prop) : Prop :=
  ∀ mark a b, ∃ yes, op.apply mark (.string a) (.string b) = .ok (.boolean yes) ∧
    (yes = true ↔ related a b)

/-- Between these strings the operator answers yes, whatever token it stands at. -/
def Holds (op : BinaryOp) (a b : String) : Prop :=
  ∀ mark, op.apply mark (.string a) (.string b) = .ok (.boolean true)

namespace Decides

variable {op : BinaryOp} {related related' : String → String → Prop}

theorem holds_iff (h : op.Decides related) {a b : String} : op.Holds a b ↔ related a b := by
  constructor
  · intro hholds
    obtain ⟨yes, hanswer, hyes⟩ := h default a b
    have hsame : Value.boolean true = Value.boolean yes :=
      Except.ok.inj ((hholds default).symm.trans hanswer)
    exact hyes.mp (Value.boolean.inj hsame).symm
  · intro hrelated mark
    obtain ⟨yes, hanswer, hyes⟩ := h mark a b
    rw [hanswer, hyes.mpr hrelated]

theorem congr (h : op.Decides related) (hsame : ∀ {a b}, related' a b ↔ related a b) :
    op.Decides related' := by
  intro mark a b
  obtain ⟨yes, hanswer, hyes⟩ := h mark a b
  exact ⟨yes, hanswer, hyes.trans hsame.symm⟩

theorem less : BinaryOp.less.Decides fun a b => a < b :=
  fun _ _ _ => ⟨_, rfl, decide_eq_true_iff⟩

theorem lessEqual : BinaryOp.lessEqual.Decides fun a b => a ≤ b :=
  fun _ _ _ => ⟨_, rfl, decide_eq_true_iff⟩

theorem greater : BinaryOp.greater.Decides fun a b => b < a :=
  fun _ _ _ => ⟨_, rfl, decide_eq_true_iff⟩

theorem greaterEqual : BinaryOp.greaterEqual.Decides fun a b => b ≤ a :=
  fun _ _ _ => ⟨_, rfl, decide_eq_true_iff⟩

theorem equal : BinaryOp.equal.Decides fun a b => a = b :=
  fun _ a b => ⟨a == b, rfl, beq_iff_eq⟩

end Decides

theorem le_iff_bytes {a b : String} :
    List.Lex (· < ·) (bytes a) (bytes b) ∨ bytes a = bytes b ↔ a ≤ b := by
  rw [lex_bytes_iff, bytes_inj, le_iff_lt_or_eq]

-- ============================================================================
-- One of three
-- ============================================================================

/-- The operator that holds between strings which compare so. -/
def ofOrdering : Ordering → BinaryOp
  | .lt => less
  | .eq => equal
  | .gt => greater

theorem holds_ofOrdering_iff {o : Ordering} {a b : String} :
    (ofOrdering o).Holds a b ↔ cmp a b = o := by
  cases o with
  | lt => exact Decides.less.holds_iff.trans (cmp_eq_lt_iff a b).symm
  | eq => exact Decides.equal.holds_iff.trans (cmp_eq_eq_iff a b).symm
  | gt => exact Decides.greater.holds_iff.trans (cmp_eq_gt_iff a b).symm

theorem mem_iff_ofOrdering {op : BinaryOp} :
    op ∈ [less, equal, greater] ↔ ∃ o, ofOrdering o = op := by
  constructor
  · intro hop
    obtain ⟨o, -, ho⟩ : ∃ o ∈ [Ordering.lt, .eq, .gt], ofOrdering o = op := List.mem_map.mp hop
    exact ⟨o, ho⟩
  · rintro ⟨o, rfl⟩
    cases o <;> decide

theorem existsUnique_holds (a b : String) :
    ∃! op, op ∈ [less, equal, greater] ∧ op.Holds a b := by
  refine ⟨ofOrdering (cmp a b), ⟨mem_iff_ofOrdering.mpr ⟨_, rfl⟩, holds_ofOrdering_iff.mpr rfl⟩, ?_⟩
  rintro op ⟨hop, hholds⟩
  obtain ⟨o, rfl⟩ := mem_iff_ofOrdering.mp hop
  rw [holds_ofOrdering_iff.mp hholds]

-- ============================================================================
-- One order
-- ============================================================================

/-- The comparisons of two strings are those of one total order, which is the lexicographic order of
    their bytes in UTF-8 and also that of the scalar values of their characters. -/
theorem strings_totally_ordered :
    (less.Decides fun a b => List.Lex (· < ·) (bytes a) (bytes b)) ∧
      (lessEqual.Decides fun a b =>
        List.Lex (· < ·) (bytes a) (bytes b) ∨ bytes a = bytes b) ∧
      (greater.Decides fun a b => List.Lex (· < ·) (bytes b) (bytes a)) ∧
      (greaterEqual.Decides fun a b =>
        List.Lex (· < ·) (bytes b) (bytes a) ∨ bytes b = bytes a) ∧
      (equal.Decides fun a b => a = b) ∧
      (∀ a b, List.Lex (· < ·) (bytes a) (bytes b) ↔ List.Lex (· < ·) (scalars a) (scalars b)) ∧
      (∀ a b, ∃! op, op ∈ [less, equal, greater] ∧ op.Holds a b) ∧
      (∀ a b, lessEqual.Holds a b ↔ less.Holds a b ∨ equal.Holds a b) ∧
      (∀ a b, greaterEqual.Holds a b ↔ lessEqual.Holds b a) ∧
      ∀ a b c, less.Holds a b → less.Holds b c → less.Holds a c := by
  refine ⟨Decides.less.congr lex_bytes_iff, Decides.lessEqual.congr le_iff_bytes,
    Decides.greater.congr lex_bytes_iff, Decides.greaterEqual.congr le_iff_bytes, Decides.equal,
    fun _ _ => lex_bytes_iff.trans lex_scalars_iff.symm, existsUnique_holds, fun a b => ?_,
    fun a b => ?_, fun a b c hab hbc => ?_⟩
  · rw [Decides.lessEqual.holds_iff, Decides.less.holds_iff, Decides.equal.holds_iff,
      le_iff_lt_or_eq]
  · rw [Decides.greaterEqual.holds_iff, Decides.lessEqual.holds_iff]
  · rw [Decides.less.holds_iff] at hab hbc ⊢
    exact hab.trans hbc

/-- A character of two bytes, the last one of three, and one of four, where a comparison of 16-bit
    units would go the other way. -/
theorem strings_totally_ordered_wide :
    less.Holds "\u00e9" "\uffff" ∧ less.Holds "\uffff" "😀" ∧ less.Holds "\u00e9" "😀" := by
  have hnear : less.Holds "\u00e9" "\uffff" := Decides.less.holds_iff.mpr (by decide)
  have hfar : less.Holds "\uffff" "😀" := Decides.less.holds_iff.mpr (by decide)
  obtain ⟨-, -, -, -, -, -, -, -, -, htrans⟩ := strings_totally_ordered
  exact ⟨hnear, hfar, htrans _ _ _ hnear hfar⟩

end Lexiscope.BinaryOp
