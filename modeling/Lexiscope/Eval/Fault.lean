/-
  Lexiscope.Eval.Fault

  What can go wrong when a program runs. A fault is a cause with the data its
  message shows; an error is a fault at a token.
-/
import Lexiscope.Value

namespace Lexiscope

/-- The kinds of error that a running program can end with. -/
inductive RuntimeKind where
  | name | type | arity | divisionByZero | stackOverflow | output
deriving DecidableEq, Inhabited

/-- The name of a kind of error. -/
def RuntimeKind.text : RuntimeKind → String
  | name => "NameError"
  | type => "TypeError"
  | arity => "ArityError"
  | divisionByZero => "DivisionByZeroError"
  | stackOverflow => "StackOverflow"
  | output => "OutputError"

/-- What the operands of an operator have to be. -/
inductive Operands where
  | numbers
  | numbersOrStrings
deriving DecidableEq, Inhabited

/-- What the operands have to be, in words. -/
def Operands.text : Operands → String
  | numbers => "numbers"
  | numbersOrStrings => "two numbers or two strings"

/-- Why a program cannot go on. -/
inductive Fault where
  /-- The name is not bound. -/
  | undefined (name : String)
  /-- The name is not bound, so it cannot be assigned to. -/
  | unassignable (name : String)
  /-- The operand of a minus sign has this type. -/
  | badOperand (found : ValueType)
  /-- The operands of an operator have these types. -/
  | badOperands (operator : String) (needed : Operands) (left right : ValueType)
  /-- A value of this type was called. -/
  | notCallable (found : ValueType)
  /-- A function was called with the wrong number of arguments. -/
  | wrongArity (function : String) (expected given : Nat)
  | divisionByZero
  /-- As many calls as may be are active already. -/
  | tooDeep (limit : Nat) (function : String)
  /-- The output could not be written. -/
  | outputFailed (reason : String)
deriving DecidableEq, Inhabited

namespace Fault

/-- The kind of error that a fault is. -/
def kind : Fault → RuntimeKind
  | undefined _ | unassignable _ => .name
  | badOperand _ | badOperands .. | notCallable _ => .type
  | wrongArity .. => .arity
  | divisionByZero => .divisionByZero
  | tooDeep .. => .stackOverflow
  | outputFailed _ => .output

/-- What is wrong, in words. -/
def message : Fault → String
  | undefined name => "Undefined variable '" ++ name ++ "'"
  | unassignable name => "Cannot assign to undefined variable '" ++ name ++ "'"
  | badOperand found => "Operand of '-' must be a number, found " ++ found.name
  | badOperands operator needed left right =>
    "Operands of '" ++ operator ++ "' must be " ++ needed.text ++ ", found " ++ left.name
      ++ " and " ++ right.name
  | notCallable found => "Can only call functions, found " ++ found.name
  | wrongArity function expected given =>
    "'" ++ function ++ "' expects " ++ toString expected ++ " argument(s), got " ++ toString given
  | divisionByZero => "Division by zero"
  | tooDeep limit function =>
    "Maximum call depth of " ++ toString limit ++ " exceeded calling '" ++ function ++ "'"
  | outputFailed reason => reason

end Fault

/-- A fault and the token at which it happened. -/
structure RuntimeError where
  token : Token
  fault : Fault
deriving DecidableEq, Inhabited

namespace RuntimeError

/-- The place of the error. -/
def pos (e : RuntimeError) : Pos := e.token.start

/-- The kind of the error. -/
def kind (e : RuntimeError) : RuntimeKind := e.fault.kind

/-- What is wrong, in words. -/
def message (e : RuntimeError) : String := e.fault.message

end RuntimeError

end Lexiscope
