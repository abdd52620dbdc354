/-
  Lexiscope.CommandLine.Options

  What the command line asks for.

  Arguments are read from left to right. A setting that takes a value, and the
  script, are kept back until the next argument has been recognised, because
  only then is it known whether a value follows; what is wrong with them comes
  up at that moment, and not at all if the next argument is refused itself.
  A value begins with a minus sign only when it is attached to its setting.
-/
import Lexiscope.Session
import Lexiscope.Text.Digits

namespace Lexiscope

/-- Why the program does not run as it was called. -/
inductive Refusal where
  /-- Not an argument of this program. -/
  | unknownArgument
  /-- A setting has no value, or an empty one where there has to be a path. -/
  | missingValue
  /-- A limit is not a number, or too large. -/
  | badNumber
  /-- Given twice, or beside something that rules it out. -/
  | conflict
  /-- A value is attached to something that takes none. -/
  | unwantedValue
  /-- Help was asked for. -/
  | help
  /-- The version was asked for. -/
  | version
deriving DecidableEq, Inhabited

/-- The exit code with which the program ends at once. -/
def Refusal.exitCode : Refusal → Nat
  | help | version => 0
  | _ => 2

/-- What the command line asks for. -/
structure Options where
  script : Option String
  command : Option String
  verbosity : Nat
  log : Option String
  noColor : Bool
  maxDepth : Option Nat
  maxNesting : Option Nat
deriving DecidableEq, Inhabited

namespace Options

/-- Nothing special is asked for. -/
def initial : Options := ⟨none, none, 0, none, false, none, none⟩

/-- The limits that are asked for. -/
def limits (o : Options) : Limits :=
  ⟨o.maxNesting.getD Limits.default.nesting, o.maxDepth.getD Limits.default.calls⟩

end Options

-- ============================================================================
-- Arguments
-- ============================================================================

/-- What takes a value. -/
inductive Setting where
  | script | command | log | maxDepth | maxNesting
deriving DecidableEq, Inhabited

/-- What takes none. -/
inductive Switch where
  | verbose | noColor | help | version
deriving DecidableEq, Inhabited

/-- What a name on the command line stands for. -/
inductive Argument where
  | setting (s : Setting)
  | switch (s : Switch)
deriving DecidableEq, Inhabited

namespace Argument

/-- What the name behind two minus signs stands for. -/
def ofLong? : String → Option Argument
  | "command" => some (.setting .command)
  | "log" => some (.setting .log)
  | "max-depth" => some (.setting .maxDepth)
  | "max-nesting" => some (.setting .maxNesting)
  | "verbose" => some (.switch .verbose)
  | "no-color" => some (.switch .noColor)
  | "help" => some (.switch .help)
  | "version" => some (.switch .version)
  | _ => none

/-- What the letter behind one minus sign stands for. -/
def ofShort? : Char → Option Argument
  | 'c' => some (.setting .command)
  | 'v' => some (.switch .verbose)
  | 'h' => some (.switch .help)
  | 'V' => some (.switch .version)
  | _ => none

end Argument

-- ============================================================================
-- Reading
-- ============================================================================

/-- How far the command line has been read. -/
structure Reading where
  options : Options
  /-- A setting that is kept back, with its value if that has been read. -/
  pending : Option (Setting × Option String)
  /-- May the next argument be the value of the setting kept back? -/
  awaiting : Bool
  /-- Has the mark been read behind which everything is a path? -/
  pathsOnly : Bool
  /-- Has the place of the script been taken? -/
  scriptRead : Bool
deriving Inhabited

namespace Reading

/-- Nothing has been read. -/
def start : Reading := ⟨Options.initial, none, false, false, false⟩

/-- A path, which may not be empty. -/
def path (value : String) : Except Refusal String :=
  if value = "" then .error .missingValue else .ok value

/-- A limit. -/
def number (value : String) : Except Refusal Nat :=
  match Text.word? value with
  | some n => .ok n
  | none => .error .badNumber

/-- Fills a place that has to be free. -/
def fill {α : Type} (place : Option α) (value : Except Refusal α) : Except Refusal (Option α) :=
  match place with
  | some _ => .error .conflict
  | none => value.map some

/-- Gives a setting its value. -/
def set (o : Options) (s : Setting) (value : String) : Except Refusal Options :=
  match s with
  | .script => (fill o.script (path value)).map fun v => { o with script := v }
  | .command => (fill o.command (.ok value)).map fun v => { o with command := v }
  | .log => (fill o.log (path value)).map fun v => { o with log := v }
  | .maxDepth => (fill o.maxDepth (number value)).map fun v => { o with maxDepth := v }
  | .maxNesting => (fill o.maxNesting (number value)).map fun v => { o with maxNesting := v }

/-- Deals with the setting that was kept back. -/
def settle (r : Reading) : Except Refusal Reading :=
  match r.pending with
  | none => .ok r
  | some (_, none) => .error .missingValue
  | some (s, some value) =>
    (set r.options s value).map fun o => { r with options := o, pending := none, awaiting := false }

/-- Keeps a setting back until its value is known. -/
def await (r : Reading) (s : Setting) : Except Refusal Reading :=
  r.settle.map fun r => { r with pending := some (s, none), awaiting := true }

/-- Gives a setting the value attached to it. -/
def attach (r : Reading) (s : Setting) (value : String) : Except Refusal Reading := do
  let r ← r.settle
  let o ← set r.options s value
  .ok { r with options := o, awaiting := false }

/-- Throws a switch. -/
def throwSwitch (r : Reading) (s : Switch) : Except Refusal Reading := do
  let r ← r.settle
  let r := { r with awaiting := false }
  match s with
  | .verbose => .ok { r with options := { r.options with verbosity := r.options.verbosity + 1 } }
  | .noColor =>
    if r.options.noColor then .error .conflict
    else .ok { r with options := { r.options with noColor := true } }
  | .help => .error .help
  | .version => .error .version

/-- Reads the name behind two minus signs, with the value behind an equals sign if there is one. -/
def long (r : Reading) (name : String) (value : Option String) : Except Refusal Reading :=
  match Argument.ofLong? name, value with
  | some (.setting s), some v => r.attach s v
  | some (.setting s), none => r.await s
  | some (.switch _), some _ => .error .unwantedValue
  | some (.switch s), none => r.throwSwitch s
  | none, _ => .error .unknownArgument

/-- Reads the letters behind one minus sign. What follows a setting's letter is its value, with or
    without an equals sign between them. -/
def short (r : Reading) : List Char → Except Refusal Reading
  | [] => .ok r
  | c :: rest =>
    match Argument.ofShort? c with
    | some (.switch s) =>
      match r.throwSwitch s with
      | .ok r => short r rest
      | .error e => .error e
    | some (.setting s) =>
      match rest with
      | [] => r.await s
      | '=' :: value => r.attach s (String.ofList value)
      | value => r.attach s (String.ofList value)
    | none => .error .unknownArgument

/-- Reads an argument that is not named: the script, of which there is one. -/
def plain (r : Reading) (value : String) : Except Refusal Reading :=
  if r.scriptRead then .error .unknownArgument
  else r.settle.map fun r =>
    { r with pending := some (.script, some value), awaiting := false, scriptRead := true }

/-- Reads an argument that is not named, or the value of the setting kept back. -/
def valueOrPlain (r : Reading) (value : String) : Except Refusal Reading :=
  if r.awaiting then
    .ok { r with pending := r.pending.map fun p => (p.1, some value), awaiting := false }
  else r.plain value

/-- Cuts a text at the first equals sign. -/
def cutAtEquals (text : List Char) : String × Option String :=
  let name := String.ofList (text.takeWhile (· ≠ '='))
  match text.dropWhile (· ≠ '=') with
  | _ :: value => (name, some (String.ofList value))
  | [] => (name, none)

/-- Reads one argument. -/
def next (r : Reading) (arg : String) : Except Refusal Reading :=
  if r.pathsOnly then r.plain arg
  else match arg.toList with
    | ['-', '-'] => .ok { r with pathsOnly := true }
    | '-' :: '-' :: rest =>
      let (name, value) := cutAtEquals rest
      r.long name value
    | ['-'] => r.valueOrPlain arg
    | '-' :: letters => r.short letters
    | _ => r.valueOrPlain arg

/-- Ends the command line. A script and a command rule each other out. -/
def finish (r : Reading) : Except Refusal Options := do
  let r ← r.settle
  if r.options.script.isSome ∧ r.options.command.isSome then .error .conflict
  else .ok r.options

end Reading

/-- Reads the arguments of the command line. -/
def Options.parse (args : List String) : Except Refusal Options := do
  let r ← args.foldlM Reading.next Reading.start
  r.finish

end Lexiscope
