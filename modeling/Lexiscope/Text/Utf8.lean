/-
  Lexiscope.Text.Utf8

  Text from bytes. `decode?` is strict. `decodeLossy` shows broken text: each
  longest run of bytes that begins a character without completing it, and each
  byte that begins none, becomes one replacement character.
-/

namespace Lexiscope.Text

/-- The text that these bytes encode, if they are well-formed UTF-8. -/
def decode? (bytes : List UInt8) : Option String :=
  String.fromUTF8? bytes.toByteArray

/-- Length of the character that a byte begins, if it begins one. -/
def sequenceLength? (lead : UInt8) : Option Nat :=
  if lead < 0x80 then some 1
  else if 0xC2 ≤ lead && lead ≤ 0xDF then some 2
  else if 0xE0 ≤ lead && lead ≤ 0xEF then some 3
  else if 0xF0 ≤ lead && lead ≤ 0xF4 then some 4
  else none

/-- May `next` be the second byte of a character that `lead` begins? Overlong forms, surrogates
    and code points past the last one are ruled out here. -/
def isSecond (lead next : UInt8) : Bool :=
  if lead == 0xE0 then 0xA0 ≤ next && next ≤ 0xBF
  else if lead == 0xED then 0x80 ≤ next && next ≤ 0x9F
  else if lead == 0xF0 then 0x90 ≤ next && next ≤ 0xBF
  else if lead == 0xF4 then 0x80 ≤ next && next ≤ 0x8F
  else 0x80 ≤ next && next ≤ 0xBF

/-- Bytes of the character that `lead` begins, as far as they are there. -/
def continuation (lead : UInt8) (wanted : Nat) (rest : List UInt8) : List UInt8 :=
  match wanted, rest with
  | wanted + 1, next :: more =>
    if isSecond lead next then
      next :: (more.take wanted).takeWhile fun b => 0x80 ≤ b && b ≤ 0xBF
    else []
  | _, _ => []

/-- The character with these continuation bytes. -/
def assemble (lead : UInt8) (more : List UInt8) : Char :=
  let keep := match more.length with
    | 0 => lead.toNat
    | 1 => lead.toNat % 0x20
    | 2 => lead.toNat % 0x10
    | _ => lead.toNat % 0x08
  Char.ofNat (more.foldl (fun n b => n * 0x40 + b.toNat % 0x40) keep)

/-- The first character of nonempty bytes, complete or replaced, and how many bytes it takes
    besides the first. -/
def firstChar (lead : UInt8) (rest : List UInt8) : Char × Nat :=
  match sequenceLength? lead with
  | none => (Char.ofNat 0xFFFD, 0)
  | some n =>
    let more := continuation lead (n - 1) rest
    (if more.length = n - 1 then assemble lead more else Char.ofNat 0xFFFD, more.length)

/-- Decodes at most `bound` characters. -/
def lossyChars : Nat → List UInt8 → List Char
  | bound + 1, lead :: rest =>
    let (c, used) := firstChar lead rest
    c :: lossyChars bound (rest.drop used)
  | _, _ => []

/-- The text that these bytes show; what is not well-formed is replaced. -/
def decodeLossy (bytes : List UInt8) : String :=
  (decode? bytes).getD (String.ofList (lossyChars bytes.length bytes))

end Lexiscope.Text
