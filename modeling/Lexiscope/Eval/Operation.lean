/-
  Lexiscope.Eval.Operation

  What operators do with values. Arithmetic is on numbers, addition also joins
  strings, and order is on two numbers or on two strings, character by character.
-/
import Lexiscope.Eval.Fault

namespace Lexiscope

namespace UnaryOp

/-- The result of a prefix operator, or the error at its token. -/
def apply (op : UnaryOp) (mark : Token) (v : Value) : Except RuntimeError Value :=
  match op with
  | negate =>
    match v with
    | .number x => .ok (.number (-x))
    | _ => .error ⟨mark, .badOperand v.type⟩
  | not => .ok (.boolean (!v.isTruthy))

end UnaryOp

namespace BinaryOp

/-- Does the left operand alone settle the result? -/
def settledBy (op : BinaryOp) (left : Value) : Bool :=
  match op with
  | and => !left.isTruthy
  | or => left.isTruthy
  | _ => false

/-- The error for operands of the wrong types. -/
def mismatch (mark : Token) (needed : Operands) (a b : Value) : Except RuntimeError Value :=
  .error ⟨mark, .badOperands mark.lexeme needed a.type b.type⟩

/-- Arithmetic on two numbers. -/
def arithmetic (mark : Token) (f : Float → Float → Float) (a b : Value) :
    Except RuntimeError Value :=
  match a, b with
  | .number x, .number y => .ok (.number (f x y))
  | _, _ => mismatch mark .numbers a b

/-- Order of two numbers or of two strings. -/
def compare (mark : Token) (numbers : Float → Float → Bool) (strings : String → String → Bool)
    (a b : Value) : Except RuntimeError Value :=
  match a, b with
  | .number x, .number y => .ok (.boolean (numbers x y))
  | .string s, .string t => .ok (.boolean (strings s t))
  | _, _ => mismatch mark .numbersOrStrings a b

/-- The result of an operator between two values, or the error at its token. -/
def apply (op : BinaryOp) (mark : Token) (a b : Value) : Except RuntimeError Value :=
  match op with
  | or => .ok (if a.isTruthy then a else b)
  | and => .ok (if a.isTruthy then b else a)
  | equal => .ok (.boolean (a == b))
  | notEqual => .ok (.boolean (a != b))
  | less => compare mark (fun x y => x < y) (fun s t => s < t) a b
  | lessEqual => compare mark (fun x y => x ≤ y) (fun s t => s ≤ t) a b
  | greater => compare mark (fun x y => y < x) (fun s t => t < s) a b
  | greaterEqual => compare mark (fun x y => y ≤ x) (fun s t => t ≤ s) a b
  | add =>
    match a, b with
    | .number x, .number y => .ok (.number (x + y))
    | .string s, .string t => .ok (.string (s ++ t))
    | _, _ => mismatch mark .numbersOrStrings a b
  | subtract => arithmetic mark (· - ·) a b
  | multiply => arithmetic mark (· * ·) a b
  | divide =>
    match a, b with
    | .number x, .number y =>
      if y == 0 then .error ⟨mark, .divisionByZero⟩ else .ok (.number (x / y))
    | _, _ => mismatch mark .numbers a b

end BinaryOp

end Lexiscope
