/-
  Lexiscope.Sink

  Where output goes. A sink keeps the bytes written to it and may be bounded;
  of what no longer fits, the part that does is kept and the write fails.
-/

namespace Lexiscope

/-- The bytes written so far, and how many there may be. -/
structure Sink where
  bytes : ByteArray
  limit : Option Nat
deriving Inhabited

namespace Sink

/-- An empty sink that takes everything. -/
def unbounded : Sink := ⟨ByteArray.empty, none⟩

/-- An empty sink with an optional bound. -/
def ofLimit (limit : Option Nat) : Sink := ⟨ByteArray.empty, limit⟩

/-- What a write that does not fit fails with. -/
def fullMessage : String := "sink full"

/-- Writes bytes, as many as fit, and says whether all of them did. -/
def writeBytes : Sink → ByteArray → Sink × Bool
  | ⟨bytes, none⟩, data => (⟨bytes ++ data, none⟩, true)
  | ⟨bytes, some limit⟩, data =>
    let room := limit - bytes.size
    if data.size ≤ room then (⟨bytes ++ data, some limit⟩, true)
    else (⟨bytes ++ data.extract 0 room, some limit⟩, false)

/-- Writes a text in UTF-8, as much as fits, and says whether all of it did. -/
def write (s : Sink) (text : String) : Sink × Bool := s.writeBytes text.toUTF8

end Sink

end Lexiscope
