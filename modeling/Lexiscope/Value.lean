/-
  Lexiscope.Value

  Values, their types, and how they look. A function value is a definition
  together with the scope in which it was made; two of them are equal when both
  agree, so the same definition met in two scopes makes two different functions.
-/
import Lexiscope.Syntax.Print
import Lexiscope.Text.Escape

namespace Lexiscope

/-- Scopes are known by the number they got when they were made. -/
abbrev ScopeId := Nat

/-- Functions that the language brings with it. -/
inductive Builtin where
  /-- Writes its arguments on one line, with blanks between them. -/
  | print
deriving DecidableEq, Inhabited

namespace Builtin

/-- All builtin functions. -/
def all : List Builtin := [print]

/-- The name under which a builtin function is bound. -/
def name : Builtin → String
  | print => "print"

end Builtin

/-- Values of the language. -/
inductive Value where
  | number (value : Float)
  | string (value : String)
  | boolean (value : Bool)
  | nil
  | function (definition : FunctionDef) (closure : ScopeId)
  | builtin (which : Builtin)
deriving Inhabited

/-- The types of values. -/
inductive ValueType where
  | number | string | boolean | nil | function
deriving DecidableEq, Inhabited

/-- The name of a type. -/
def ValueType.name : ValueType → String
  | number => "number"
  | string => "string"
  | boolean => "boolean"
  | nil => "nil"
  | function => "function"

namespace Value

/-- The type of a value. -/
def type : Value → ValueType
  | number _ => .number
  | string _ => .string
  | boolean _ => .boolean
  | nil => .nil
  | function _ _ => .function
  | builtin _ => .function

/-- Does the value count as true? Only `nil` and `false` do not. -/
def isTruthy : Value → Bool
  | nil => false
  | boolean b => b
  | _ => true

/-- Are the values equal? Values of different types never are; numbers compare as numbers, so one
    that is not a number differs from itself; functions compare by definition and scope. -/
def same : Value → Value → Bool
  | number a, number b => a == b
  | string a, string b => a == b
  | boolean a, boolean b => a == b
  | nil, nil => true
  | function f s, function g t => f.label == g.label && s == t
  | builtin a, builtin b => a == b
  | _, _ => false

instance : BEq Value := ⟨same⟩

/-- The value as it is printed. -/
def text : Value → String
  | number x => Number.text x
  | string s => s
  | boolean b => if b then "true" else "false"
  | nil => "nil"
  | function f _ => "<fn " ++ f.name.lexeme ++ ">"
  | builtin b => "<builtin " ++ b.name ++ ">"

/-- The value as it is echoed: as printed, but a string is quoted and escaped. -/
def echo : Value → String
  | string s => Text.echo s
  | v => v.text

end Value

end Lexiscope
