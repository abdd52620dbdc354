/-
  Lexiscope.Journal.Filter

  Which events the log takes. A filter is a row of directives, each with the
  least important level it lets through and, if it is for a part of the program
  only, the beginning of that part's name. The most specific directive that an
  event meets decides about it.

  As text, directives stand between commas. A directive is a level, or a target
  with an optional level, or either of them with a span in brackets between
  them; levels are words or the numbers 0 to 5. A span may have fields in
  braces, and a field a number or a pattern for its value.
-/
import Lexiscope.Decimal.Text
import Lexiscope.Journal.Event
import Lexiscope.Journal.Pattern
import Lexiscope.Text.Alphanumeric
import Lexiscope.Text.Blank
import Lexiscope.Text.Digits
import Lexiscope.Text.Utf8

namespace Lexiscope

/-- One rule of a filter. -/
structure Directive where
  /-- The largest rank that is let through. -/
  rank : Nat
  /-- Only events from targets that begin like this are meant. -/
  target : Option String
  /-- Only events inside spans with this name are meant. -/
  span : Option String
  /-- Only events with these fields are meant; some may ask for a value. -/
  fields : List (String × Option String)
deriving DecidableEq, Inhabited

/-- Why a text is not a filter. -/
inductive FilterError where
  | malformed
  | badLevel
  | badPattern (flaw : Pattern.Flaw)
deriving DecidableEq, Inhabited

/-- The reason in words. -/
def FilterError.message : FilterError → String
  | malformed => "invalid filter directive"
  | badLevel => "error parsing level filter: expected one of \"off\", \"error\", \"warn\", "
      ++ "\"info\", \"debug\", \"trace\", or a number 0-5"
  | badPattern flaw => "invalid field filter: " ++ flaw.message

namespace Directive

-- ============================================================================
-- Reading
-- ============================================================================

/-- The rank that a level's name or number stands for. -/
def rankOfText? (text : String) : Option Nat :=
  match Text.word? text with
  | some n => if n ≤ 5 then some n else none
  | none =>
    match String.ofList (text.toList.map Char.toLower) with
    | "off" => some 0
    | "error" => some 1
    | "warn" => some 2
    | "info" => some 3
    | "debug" => some 4
    | "trace" => some 5
    | _ => none

/-- Where in a directive a character stands. The numbers are the byte offsets at which the part
    being read begins. -/
inductive Part where
  | start
  | levelOrTarget (from_ : Nat)
  | span (from_ : Nat)
  | field (from_ : Nat)
  | fields
  | target
  | level (from_ : Nat)
deriving DecidableEq, Inhabited

/-- A field to be met: its name, and its value if an equals sign follows. The value is a number or
    a pattern. -/
def fieldOfText (text : String) : Except FilterError (String × Option String) :=
  match text.splitOn "=" with
  | name :: value :: _ =>
    if (Number.ofText? value).isSome then .ok (name, some value)
    else
      match Pattern.flaw? value with
      | some flaw => .error (.badPattern flaw)
      | none => .ok (name, some value)
  | _ => .ok (text, none)

/-- The level behind an equals sign; none at all lets everything through. -/
def levelOfText (text : String) : Except FilterError Nat :=
  if text = "" then .ok 5
  else match rankOfText? text with
    | some rank => .ok rank
    | none => .error .badLevel

/-- May the character begin a directive? -/
def beginsDirective (c : Char) : Bool :=
  c == '-' || c == ':' || c == '_' || Text.isAlphanumeric c

/-- One character of a directive, at byte offset `i` of the text without blanks around it. Parts
    are cut with `slice` out of the text as it was given. -/
def step (slice : Nat → Nat → String) (d : Directive) (part : Part) (i : Nat) (c : Char) :
    Except FilterError (Directive × Part) :=
  match part with
  | .start =>
    if c = '[' then .ok (d, .span (i + 1))
    else if beginsDirective c then .ok (d, .levelOrTarget i)
    else .error .malformed
  | .levelOrTarget j =>
    if c = '=' then .ok ({ d with target := some (slice j i) }, .level (i + 1))
    else if c = '[' then .ok ({ d with target := some (slice j i) }, .span (i + 1))
    else .ok (d, part)
  | .span j =>
    if c = ']' then .ok ({ d with span := some (slice j i) }, .target)
    else if c = '\x7b' then
      let name := slice j i
      .ok ({ d with span := if name = "" then none else some name }, .field (i + 1))
    else .ok (d, part)
  | .field j =>
    if c = '\x7d' then
      let field := slice j i
      if field = "" then .error .malformed
      else (fieldOfText field).map fun f => ({ d with fields := d.fields ++ [f] }, .fields)
    else .ok (d, part)
  | .fields => if c = ']' then .ok (d, .target) else .error .malformed
  | .target => if c = '=' then .ok (d, .level (i + 1)) else .error .malformed
  | .level _ => .ok (d, part)

/-- All characters of a directive from byte offset `i` on. -/
def steps (slice : Nat → Nat → String) (d : Directive) (part : Part) (i : Nat) :
    List Char → Except FilterError (Directive × Part)
  | [] => .ok (d, part)
  | c :: rest =>
    match step slice d part i c with
    | .ok (d', part') => steps slice d' part' (i + c.utf8Size) rest
    | .error e => .error e

/-- Reads one directive. -/
def ofText (text : String) : Except FilterError Directive := do
  let bytes := text.toUTF8
  let slice := fun (i j : Nat) => Text.decodeLossy (bytes.extract i j).toList
  let trimmed := Text.trimEnd (text.toList.dropWhile Text.isBlank)
  let (d, part) ← steps slice ⟨5, none, none, []⟩ .start 0 trimmed
  match part with
  | .levelOrTarget i =>
    let rest := slice i bytes.size
    match rankOfText? rest with
    | some rank => .ok { d with rank := rank }
    | none => .ok { d with target := some rest }
  | .level i =>
    let rank ← levelOfText (slice i bytes.size)
    .ok { d with rank := rank }
  | .target => .ok d
  | _ => .error .malformed

-- ============================================================================
-- Order and meaning
-- ============================================================================

/-- Can the directive concern events outside of any span? -/
def isStatic (d : Directive) : Bool := d.span.isNone && d.fields.all fun f => f.2.isNone

/-- The names of the fields that are asked for. -/
def fieldNames (d : Directive) : List String := d.fields.map Prod.fst

/-- Is the first text before the second in the order of their characters? -/
def before (a b : List String) : Bool := decide (a < b)

/-- Is the first directive more specific than the second? A longer target is, then more fields,
    then what comes later in the order of the alphabet. -/
def moreSpecific (a b : Directive) : Bool :=
  let size := fun (d : Directive) => match d.target with
    | some t => t.utf8ByteSize + 1
    | none => 0
  if size a ≠ size b then size b < size a
  else if a.fields.length ≠ b.fields.length then b.fields.length < a.fields.length
  else if a.target ≠ b.target then before b.target.toList a.target.toList
  else before b.fieldNames a.fieldNames

/-- Are the directives for the same events? -/
def sameScope (a b : Directive) : Bool := a.target == b.target && a.fieldNames == b.fieldNames

/-- Does the directive concern the event? -/
def concerns (d : Directive) (e : Event) : Bool :=
  (match d.target with
    | some t => t.toList.isPrefixOf e.target.toList
    | none => true)
    && d.fieldNames.all e.hasField

end Directive

/-- A row of directives, the most specific first. -/
structure Filter where
  directives : List Directive
deriving DecidableEq, Inhabited

namespace Filter

/-- Takes nothing. -/
def off : Filter := ⟨[]⟩

/-- Adds a directive at its place; it stands for one that is for the same events. -/
def add (d : Directive) : List Directive → List Directive
  | [] => [d]
  | e :: rest =>
    if d.sameScope e then d :: rest
    else if d.moreSpecific e then d :: e :: rest
    else e :: add d rest

/-- A filter of directives in any order. Those about spans never let an event through, since no
    event of this program is inside a span. Without any directive, only errors pass. -/
def ofDirectives (ds : List Directive) : Filter :=
  if ds.isEmpty then ⟨[⟨Level.error.rank, none, none, []⟩]⟩
  else ⟨(ds.filter Directive.isStatic).foldl (fun sorted d => add d sorted) []⟩

/-- Lets events of this rank and below through, wherever they come from. -/
def ofRank (rank : Nat) : Filter := ofDirectives [⟨rank, none, none, []⟩]

/-- Reads directives between commas. -/
def ofText (text : String) : Except FilterError Filter := do
  let ds ← ((text.splitOn ",").filter fun part => part ≠ "").mapM Directive.ofText
  .ok (ofDirectives ds)

/-- Does the filter let the event through? -/
def admits (f : Filter) (e : Event) : Bool :=
  match f.directives.find? fun d => d.concerns e with
  | some d => e.level.rank ≤ d.rank
  | none => false

end Filter

-- ============================================================================
-- The journal
-- ============================================================================

/-- The events that a filter has let through, the latest first. -/
structure Journal where
  filter : Filter
  entries : List Event
deriving DecidableEq, Inhabited

namespace Journal

/-- A journal that takes nothing. -/
def silent : Journal := ⟨Filter.off, []⟩

/-- Enters an event, if the filter lets it through. -/
def note (j : Journal) (e : Event) : Journal :=
  if j.filter.admits e then { j with entries := e :: j.entries } else j

/-- The events in the order they happened. -/
def toList (j : Journal) : List Event := j.entries.reverse

end Journal

end Lexiscope
