/-
  Lexiscope.Diagnostic

  All errors of the language under one roof, and their texts. A diagnostic is
  an error with the name of the source unit in which it came up.
-/
import Lexiscope.Eval.Fault
import Lexiscope.Syntax.Parser
import Lexiscope.Token.Lexer

namespace Lexiscope

/-- The stages that a source text goes through. -/
inductive Stage where
  | lex | parse | runtime
deriving DecidableEq, Inhabited

/-- An error of any stage. -/
inductive Error where
  | lex (e : LexError)
  | parse (e : ParseError)
  | runtime (e : RuntimeError)
deriving Inhabited

namespace Error

/-- The stage that failed. -/
def stage : Error → Stage
  | lex _ => .lex
  | parse _ => .parse
  | runtime _ => .runtime

/-- The kind of the error, if it came up while the program ran. -/
def runtimeKind? : Error → Option RuntimeKind
  | runtime e => some e.kind
  | _ => none

/-- The name of the kind of error. -/
def kindName : Error → String
  | lex _ => "LexError"
  | parse _ => "ParseError"
  | runtime e => e.kind.text

/-- The place of the error. -/
def pos : Error → Pos
  | lex e => e.pos
  | parse e => e.pos
  | runtime e => e.pos

/-- What is wrong, in words. -/
def message : Error → String
  | lex e => e.message
  | parse e => e.message
  | runtime e => e.message

/-- The error with its place. The kind is named for errors of a running program only. -/
def text (e : Error) : String :=
  "[line " ++ toString e.pos.line ++ " column " ++ toString e.pos.column ++ "] "
    ++ (match e.runtimeKind? with
      | some kind => kind.text ++ ": "
      | none => "")
    ++ e.message

end Error

/-- An error and the source unit it came up in. -/
structure Diagnostic where
  unit : String
  error : Error
deriving Inhabited

/-- The diagnostic on one line: unit and place, kind, message. -/
def Diagnostic.text (d : Diagnostic) : String :=
  let p := d.error.pos
  "[" ++ d.unit ++ ":" ++ toString p.line ++ ":" ++ toString p.column ++ "] "
    ++ d.error.kindName ++ ": " ++ d.error.message

end Lexiscope
