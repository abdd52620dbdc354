/-
  Lexiscope.Journal.Pattern

  Patterns for the value of a field: regular expressions over text. No event of
  this program is matched against one, so all that counts is whether a text is
  a pattern at all, and if not, why. The reader below goes through it once, from
  left to right, and keeps the groups and classes that are open together with
  the height of the syntax tree that belongs to each.

  Characters are code points unless a flag says that they are bytes. The only
  letters and digits that a pattern can speak of are those of ASCII, and only
  where characters are bytes; a pattern never matches a part of a code point.
  Borders of words are understood everywhere, but those between code points
  cannot be looked for by a matcher that sees one byte at a time.
-/
import Lexiscope.Text.Alphanumeric
import Lexiscope.Text.Blank

namespace Lexiscope.Pattern

/-- Why a text is not a pattern for a field. -/
inductive Flaw where
  /-- It does not follow the rules for patterns. -/
  | malformed
  /-- It does, but it asks for the border of a word of code points. -/
  | wordBorder
deriving DecidableEq, Inhabited

/-- The reason in words. -/
def Flaw.message : Flaw → String
  | malformed => "error building NFA"
  | wordBorder => "unsupported regex feature for DFAs: cannot build DFAs for regexes with "
      ++ "Unicode word boundaries; switch to ASCII word boundaries, or heuristically enable "
      ++ "Unicode word boundaries or use a different regex engine"

-- ============================================================================
-- Flags
-- ============================================================================

/-- How a part of a pattern is read. -/
structure Flags where
  /-- Characters are code points, not bytes. -/
  unicode : Bool
  /-- Upper and lower case are the same. -/
  foldCase : Bool
  /-- Blanks and comments are skipped. -/
  spaced : Bool
deriving DecidableEq, Inhabited

namespace Flags

/-- The flags at the beginning of a pattern. -/
def initial : Flags := ⟨true, false, false⟩

/-- Sets the flag with this letter. Some flags do not matter here. -/
def set? (f : Flags) (letter : Char) (value : Bool) : Option Flags :=
  match letter with
  | 'u' => some { f with unicode := value }
  | 'i' => some { f with foldCase := value }
  | 'x' => some { f with spaced := value }
  | 'm' | 's' | 'U' | 'R' => some f
  | _ => none

/-- Reads flags up to the colon or parenthesis behind them. Letters behind a minus sign unset their
    flags; `seen` has the characters that were read, the latest first, and none of them may come
    twice. Gives the flags, whether a parenthesis came, and the rest. -/
def read (f : Flags) (seen : List Char) : List Char → Option (Flags × Bool × List Char)
  | [] => none
  | c :: rest =>
    if c = ':' ∨ c = ')' then
      if seen.head? = some '-' ∨ (c = ')' ∧ seen = []) then none
      else some (f, c = ')', rest)
    else if seen.contains c then none
    else if c = '-' then read f (c :: seen) rest
    else
      match f.set? c (!seen.contains '-') with
      | some f' => read f' (c :: seen) rest
      | none => none

end Flags

/-- The text behind blanks and comments. A comment is from a number sign to the end of its line. -/
def skip (inComment : Bool) : List Char → List Char
  | [] => []
  | c :: rest =>
    if inComment then skip (c ≠ '\n') rest
    else if Text.isBlank c then skip false rest
    else if c = '#' then skip true rest
    else c :: rest

/-- The text from the next character that counts. -/
def Flags.next (f : Flags) (text : List Char) : List Char :=
  if f.spaced then skip false text else text

/-- The character behind the blanks, or at the beginning of a comment that comes first. -/
def Flags.peek? (f : Flags) (text : List Char) : Option Char :=
  if f.spaced then
    match text.dropWhile Text.isBlank with
    | '#' :: comment => (comment.dropWhile Text.isBlank).head?
    | other => other.head?
  else text.head?

-- ============================================================================
-- Atoms
-- ============================================================================

/-- The smallest parts of a pattern. -/
inductive Atom where
  /-- A character; `raw` if it is written as the number of a byte. -/
  | literal (c : Char) (raw : Bool)
  /-- The digits, blanks or word characters, or all others. -/
  | shorthand (negated : Bool)
  /-- A condition on the place, on the borders of words if `word` is set. -/
  | assertion (word : Bool)
  /-- Any character. -/
  | any
deriving DecidableEq, Inhabited

namespace Atom

/-- Can the atom stand in a pattern with these flags? Where characters are bytes, one that is not of
    ASCII stands for all of its bytes and has no other case, but the number of a byte is no
    character. -/
def isAllowed (f : Flags) : Atom → Bool
  | literal c raw => if f.unicode then !f.foldCase else c.toNat < 0x80 || !raw
  | shorthand negated => !f.unicode && !negated
  | assertion _ => true
  | any => f.unicode

/-- Is the atom the border of a word of code points? -/
def isWordBorder (f : Flags) : Atom → Bool
  | assertion word => word && f.unicode
  | _ => false

/-- Can the atom be a member of a class with these flags? -/
def isMember (f : Flags) : Atom → Bool
  | literal c _ => if f.unicode then !f.foldCase else c.toNat < 0x80
  | shorthand negated => !f.unicode && !negated
  | _ => false

/-- Are the atoms two ends of a range? -/
def isRange : Atom → Atom → Bool
  | literal a _, literal b _ => a ≤ b
  | _, _ => false

/-- The value of a hexadecimal digit. -/
def hexValue? (c : Char) : Option Nat :=
  if c.isDigit then some (c.toNat - '0'.toNat)
  else if 'a' ≤ c ∧ c ≤ 'f' then some (c.toNat - 'a'.toNat + 10)
  else if 'A' ≤ c ∧ c ≤ 'F' then some (c.toNat - 'A'.toNat + 10)
  else none

/-- Reads so many more hexadecimal digits of a number that has begun with `value`, and gives its
    character. -/
def readHex (f : Flags) (value : Nat) : Nat → List Char → Option (Char × List Char)
  | 0, text => if value.isValidChar then some (Char.ofNat value, text) else none
  | count + 1, text =>
    match f.next text with
    | [] => none
    | c :: rest =>
      match hexValue? c with
      | some digit => readHex f (16 * value + digit) count rest
      | none => none

/-- Reads what is behind a backslash. -/
def readEscape (f : Flags) : List Char → Option (Atom × List Char)
  | [] => none
  | c :: rest =>
    match c with
    | 'x' => (readHex f 0 2 rest).map fun r => (literal r.1 true, r.2)
    | 'u' => (readHex f 0 4 rest).map fun r => (literal r.1 false, r.2)
    | 'U' => (readHex f 0 8 rest).map fun r => (literal r.1 false, r.2)
    | 'd' | 's' | 'w' => some (shorthand false, rest)
    | 'D' | 'S' | 'W' => some (shorthand true, rest)
    | 'a' => some (literal '\x07' false, rest)
    | 'f' => some (literal '\x0c' false, rest)
    | 't' => some (literal '\t' false, rest)
    | 'n' => some (literal '\n' false, rest)
    | 'r' => some (literal '\r' false, rest)
    | 'v' => some (literal '\x0b' false, rest)
    | 'A' | 'z' => some (assertion false, rest)
    | 'b' | 'B' | '<' | '>' => some (assertion true, rest)
    | _ => if c.isAlphanum || 0x80 ≤ c.toNat then none else some (literal c false, rest)

/-- Reads an atom that begins with `c`, where all characters but the backslash are plain. -/
def readMember (f : Flags) (c : Char) (rest : List Char) : Option (Atom × List Char) :=
  if c = '\\' then readEscape f rest else some (literal c false, rest)

/-- Reads an atom that begins with `c`, outside of classes. -/
def read (f : Flags) (c : Char) (rest : List Char) : Option (Atom × List Char) :=
  match c with
  | '.' => some (any, rest)
  | '^' | '$' => some (assertion false, rest)
  | _ => readMember f c rest

end Atom

-- ============================================================================
-- Rows and their heights
-- ============================================================================

/-- A syntax tree, as far as it matters here. -/
structure Item where
  height : Nat
  /-- Can the item be repeated? -/
  repeatable : Bool
deriving DecidableEq, Inhabited

/-- Items next to each other. -/
structure Row where
  /-- The greatest height of all but the last, if there are any. -/
  earlier : Option Nat
  last : Option Item
deriving DecidableEq, Inhabited

namespace Row

/-- No items. -/
def empty : Row := ⟨none, none⟩

/-- Puts an item at the end. -/
def push (r : Row) (i : Item) : Row :=
  match r.last with
  | none => ⟨none, some i⟩
  | some l => ⟨some (max (r.earlier.getD 0) l.height), some i⟩

/-- Repeats the last item. -/
def repeat? (r : Row) : Option Row :=
  match r.last with
  | some ⟨height, true⟩ => some { r with last := some ⟨height + 1, true⟩ }
  | _ => none

/-- The height of the tree: one item is a tree itself, more have a node above them. -/
def height (r : Row) : Nat :=
  match r.earlier, r.last with
  | _, none => 0
  | none, some l => l.height
  | some e, some l => max e l.height + 1

end Row

-- ============================================================================
-- Classes
-- ============================================================================

/-- A class of characters that is open. -/
structure ClassFrame where
  /-- Nothing but minus signs has come. -/
  fresh : Bool
  /-- The height of what stands before the last operator. -/
  operand : Option Nat
  row : Row
deriving DecidableEq, Inhabited

namespace ClassFrame

/-- A class that begins. -/
def initial : ClassFrame := ⟨true, none, Row.empty⟩

/-- The height of what is in the class. Operators group to the left. -/
def height (k : ClassFrame) : Nat :=
  match k.operand with
  | none => k.row.height
  | some h => max h k.row.height + 1

/-- Puts a member into the class. -/
def push (k : ClassFrame) (height : Nat) : ClassFrame :=
  { k with fresh := false, row := k.row.push ⟨height, true⟩ }

/-- Puts an operator behind what is in the class. -/
def operate (k : ClassFrame) : ClassFrame := ⟨false, some k.height, Row.empty⟩

end ClassFrame

/-- The names of the classes that can be members of others. -/
def classNames : List String :=
  ["alnum", "alpha", "ascii", "blank", "cntrl", "digit", "graph", "lower", "print", "punct", "space",
   "upper", "word", "xdigit"]

/-- Reads a class by its name, between colons, from behind its first bracket. Gives whether it is
    negated. -/
def readNamed? (text : List Char) : Option (Bool × List Char) :=
  match text with
  | ':' :: more =>
    let negated := more.head? = some '^'
    let named := if negated then more.drop 1 else more
    match named.dropWhile (· ≠ ':') with
    | ':' :: ']' :: rest =>
      if classNames.contains (String.ofList (named.takeWhile (· ≠ ':'))) then some (negated, rest)
      else none
    | _ => none
  | _ => none

/-- Reads the beginning of a class behind its bracket. Where characters are bytes, the others would
    be parts of code points. -/
def openClass (f : Flags) (text : List Char) : Option (List Char) :=
  match f.next text with
  | '^' :: rest => if f.unicode then some rest else none
  | other => some other

/-- Reads a character or a range in a class. A minus sign before another one or before the end of
    the class is not for a range. -/
def readRange (f : Flags) (c : Char) (rest : List Char) : Option (List Char) :=
  match Atom.readMember f c rest with
  | none => none
  | some (first, afterFirst) =>
    match f.next afterFirst with
    | '-' :: more =>
      if f.peek? more = some ']' ∨ f.peek? more = some '-' then
        if first.isMember f then some ('-' :: more) else none
      else
        match f.next more with
        | [] => none
        | d :: behind =>
          match Atom.readMember f d behind with
          | none => none
          | some (last, afterLast) =>
            if Atom.isRange first last && first.isMember f && last.isMember f then some afterLast
            else none
    | other => if first.isMember f then some other else none

/-- Reads classes to the end of the outermost, in at most `bound` steps. Gives its height. -/
def readClass (f : Flags) :
    Nat → ClassFrame → List ClassFrame → List Char → Option (Nat × List Char)
  | 0, _, _, _ => none
  | bound + 1, k, outer, text =>
    match f.next text with
    | [] => none
    | c :: rest =>
      if k.fresh && (c = '-' || (c = ']' && k.row = Row.empty)) then
        if (Atom.literal c false).isMember f then
          readClass f bound { k.push 0 with fresh := c = '-' } outer rest
        else none
      else if c = '[' then
        match readNamed? rest with
        | some (negated, after) =>
          if (if f.unicode then !f.foldCase else !negated) then
            readClass f bound (k.push 0) outer after
          else none
        | none =>
          match openClass f rest with
          | some after =>
            readClass f bound ClassFrame.initial ({ k with fresh := false } :: outer) after
          | none => none
      else if c = ']' then
        match outer with
        | [] => some (k.height + 1, rest)
        | around :: more => readClass f bound (around.push (k.height + 1)) more rest
      else if (c = '&' || c = '-' || c = '~') && rest.head? = some c then
        readClass f bound k.operate outer (rest.drop 1)
      else
        match readRange f c rest with
        | some after => readClass f bound (k.push 0) outer after
        | none => none

-- ============================================================================
-- Groups
-- ============================================================================

/-- A group that is open. The whole pattern is one, too. -/
structure GroupFrame where
  /-- The flags around the group. -/
  around : Flags
  /-- The greatest height of the alternatives before this one, if there are any. -/
  alternatives : Option Nat
  row : Row
deriving DecidableEq, Inhabited

namespace GroupFrame

/-- A group that begins. -/
def initial (around : Flags) : GroupFrame := ⟨around, none, Row.empty⟩

/-- The height of what is in the group. -/
def height (g : GroupFrame) : Nat :=
  match g.alternatives with
  | none => g.row.height
  | some h => max h g.row.height + 1

/-- Puts an item into the group. -/
def push (g : GroupFrame) (i : Item) : GroupFrame := { g with row := g.row.push i }

/-- Begins another alternative. -/
def alternate (g : GroupFrame) : GroupFrame :=
  { g with alternatives := some (max (g.alternatives.getD 0) g.row.height), row := Row.empty }

end GroupFrame

/-- What has been read of a pattern. -/
structure State where
  flags : Flags
  group : GroupFrame
  outer : List GroupFrame
  /-- The names of groups. -/
  names : List (List Char)
  /-- Has there been a border of a word of code points? -/
  wordBorder : Bool
deriving DecidableEq, Inhabited

/-- The greatest height of the syntax tree of a pattern. -/
def maxHeight : Nat := 250

/-- Reads the name of a group up to the bracket behind it. -/
def readName? (text : List Char) : Option (List Char × List Char) :=
  match text.takeWhile (· ≠ '>'), text.dropWhile (· ≠ '>') with
  | c :: more, _ :: rest =>
    if (c = '_' || Text.isAlphabetic c)
        && more.all (fun d => d = '_' || d = '.' || d = '[' || d = ']' || Text.isAlphanumeric d)
    then some (c :: more, rest)
    else none
  | _, _ => none

namespace State

/-- A pattern that begins. -/
def initial : State := ⟨Flags.initial, GroupFrame.initial Flags.initial, [], [], false⟩

/-- Puts an item into the innermost group. -/
def push (s : State) (i : Item) : State := { s with group := s.group.push i }

/-- Puts an atom into the innermost group, if it can stand there. -/
def pushAtom (s : State) (atom : Atom) : Option State :=
  if atom.isAllowed s.flags then
    some { s.push ⟨0, true⟩ with wordBorder := s.wordBorder || atom.isWordBorder s.flags }
  else none

/-- Begins a group, with flags of its own. -/
def openWith (s : State) (f : Flags) : State :=
  { s with flags := f, group := GroupFrame.initial s.flags, outer := s.group :: s.outer }

/-- Begins a group with a name. -/
def openNamed (s : State) (text : List Char) : Option (State × List Char) :=
  match readName? text with
  | some (name, rest) =>
    if s.names.contains name then none
    else some ({ s.openWith s.flags with names := name :: s.names }, rest)
  | none => none

/-- Reads what is behind the parenthesis that opens a group. Flags without a group are for what
    follows. -/
def openGroup (s : State) (text : List Char) : Option (State × List Char) :=
  match s.flags.next text with
  | '?' :: 'P' :: '<' :: rest => s.openNamed rest
  | '?' :: '<' :: rest => s.openNamed rest
  | '?' :: rest =>
    match s.flags.read [] rest with
    | some (f, true, after) => some ({ s.push ⟨0, false⟩ with flags := f }, after)
    | some (f, false, after) => some (s.openWith f, after)
    | none => none
  | rest => some (s.openWith s.flags, rest)

/-- Ends the innermost group. -/
def closeGroup (s : State) : Option State :=
  match s.outer with
  | [] => none
  | around :: more =>
    some { s with
      flags := s.group.around, group := around.push ⟨s.group.height + 1, true⟩, outer := more }

/-- Repeats what came last. A question mark behind the sign belongs to it. -/
def repeatLast (s : State) (rest : List Char) : Option (State × List Char) :=
  match s.group.row.repeat? with
  | none => none
  | some row =>
    some ({ s with group := { s.group with row := row } },
      if rest.head? = some '?' then rest.drop 1 else rest)

/-- Reads one part of a pattern that begins with `c`. A brace would have to be closed, and the
    text of a field cannot have a brace that closes. -/
def step (s : State) (c : Char) (rest : List Char) : Option (State × List Char) :=
  match c with
  | '(' => s.openGroup rest
  | ')' => s.closeGroup.map fun s' => (s', rest)
  | '|' => some ({ s with group := s.group.alternate }, rest)
  | '[' =>
    match openClass s.flags rest with
    | none => none
    | some after =>
      (readClass s.flags (after.length + 1) ClassFrame.initial [] after).map fun r =>
        (s.push ⟨r.1, true⟩, r.2)
  | '?' | '*' | '+' => s.repeatLast rest
  | '\x7b' => none
  | _ =>
    match Atom.read s.flags c rest with
    | some (atom, after) => (s.pushAtom atom).map fun s' => (s', after)
    | none => none

/-- What is wrong with a pattern that ends here. -/
def flaw? (s : State) : Option Flaw :=
  if !s.outer.isEmpty || maxHeight < s.group.height then some .malformed
  else if s.wordBorder then some .wordBorder
  else none

end State

/-- Reads to the end, in at most `bound` steps, and gives what is wrong. A flaw in the rules goes
    before a border of a word, wherever the two are. -/
def scan : Nat → State → List Char → Option Flaw
  | 0, _, _ => some .malformed
  | bound + 1, s, text =>
    match s.flags.next text with
    | [] => s.flaw?
    | c :: rest =>
      match s.step c rest with
      | some (s', after) => scan bound s' after
      | none => some .malformed

/-- What keeps the text from being a pattern, if anything does. Every step reads a character at
    least. -/
def flaw? (text : String) : Option Flaw := scan (text.length + 1) State.initial text.toList

end Lexiscope.Pattern
