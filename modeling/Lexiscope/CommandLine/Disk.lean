/-
  Lexiscope.CommandLine.Disk

  What a path leads to. Paths begin in the folder that the program works in or,
  with a slash in front, in the outermost folder of the system. All names but
  the last have to lead to folders; two dots lead to the folder around, also out
  of the folder that the program works in. Nothing is known of the folders there
  but that they exist.
-/
import Lexiscope.CommandLine.Folder

namespace Lexiscope

-- ============================================================================
-- Paths
-- ============================================================================

/-- A path, by its names. -/
structure Path where
  /-- Does it begin in the outermost folder of the system? -/
  rooted : Bool
  /-- The names before the last one. -/
  folders : List String
  last : Option String
  /-- Is there a slash at the end, so that only a folder can be meant? -/
  slash : Bool
deriving DecidableEq, Inhabited

namespace Path

/-- Paths have fewer bytes than this. -/
def sizeLimit : Nat := 4096

/-- Names have at most so many bytes. -/
def maxNameSize : Nat := 255

/-- Reads a path. It does not matter how many slashes are between names. -/
def ofText (text : String) : Except FileError Path :=
  if text = "" then .error .notFound
  else if sizeLimit ≤ text.utf8ByteSize then .error .nameTooLong
  else
    let names := (text.splitOn "/").filter fun name => name ≠ ""
    .ok ⟨text.toList.head? = some '/', names.dropLast, names.getLast?,
      text.toList.getLast? = some '/'⟩

end Path

-- ============================================================================
-- Looking up
-- ============================================================================

/-- Where names lead. -/
inductive Spot where
  /-- In the folder that the program works in, or that folder itself. -/
  | inside (p : Place)
  /-- In the outermost folder of the system, or that folder itself. -/
  | rooted (p : Place)
  /-- A folder around the one that the program works in. -/
  | around
  /-- Something in such a folder. -/
  | aside
deriving DecidableEq, Inhabited

namespace Spot

/-- The folder around. The outermost one is around itself. -/
def up : Spot → Spot
  | inside (_ :: p) => inside p
  | rooted (_ :: p) => rooted p
  | rooted [] => rooted []
  | inside [] | around | aside => around

/-- Something in a folder. -/
def child (name : String) : Spot → Spot
  | inside p => inside (name :: p)
  | rooted p => rooted (name :: p)
  | around | aside => aside

/-- Where a name leads from a folder. -/
def next (s : Spot) (name : String) : Except FileError Spot :=
  if name = "." then .ok s
  else if name = ".." then .ok s.up
  else if Path.maxNameSize < name.utf8ByteSize then .error .nameTooLong
  else .ok (s.child name)

end Spot

/-- All the files that there are for the program. -/
structure Disk where
  /-- The folder that the program works in. -/
  folder : Folder
  /-- The outermost folder of the system. -/
  root : Folder
deriving DecidableEq, Inhabited

namespace Disk

/-- What names have led to. -/
def get? (d : Disk) : Spot → Option FolderEntry
  | .inside p => d.folder.get? p
  | .rooted p => d.root.get? p
  | .around => some .folder
  | .aside => none

/-- Goes along names that all have to lead to folders. -/
def walk (d : Disk) (s : Spot) : List String → Except FileError Spot
  | [] => .ok s
  | name :: rest =>
    match s.next name with
    | .error e => .error e
    | .ok t =>
      match d.get? t with
      | some .folder => walk d t rest
      | some (.file _) => .error .notDirectory
      | none => .error .notFound

/-- The folder that the last name of a path is for. -/
def enter (d : Disk) (path : Path) : Except FileError Spot :=
  d.walk (if path.rooted then .rooted [] else .inside []) path.folders

/-- The contents of the file with this path. -/
def read (d : Disk) (text : String) : Except FileError (List UInt8) := do
  let path ← Path.ofText text
  let s ← d.enter path
  match path.last with
  | none => .error .isDirectory
  | some name =>
    let t ← s.next name
    match d.get? t with
    | none => .error .notFound
    | some .folder => .error .isDirectory
    | some (.file bytes) => if path.slash then .error .notDirectory else .ok bytes

/-- Makes an empty file, if the spot is in the folder that the program works in. -/
def create (d : Disk) : Spot → Disk
  | .inside p => { d with folder := d.folder.put p [] }
  | _ => d

/-- Opens the file with this path for appending, and makes it if it is not there. A last name that
    only a folder can have is refused before it is looked up. -/
def openForAppending (d : Disk) (text : String) : Except FileError (Disk × Spot) := do
  let path ← Path.ofText text
  let s ← d.enter path
  match path.last with
  | none => .error .isDirectory
  | some name =>
    if path.slash ∨ name = "." ∨ name = ".." then .error .isDirectory
    else
      let t ← s.next name
      match d.get? t with
      | none => .ok (d.create t, t)
      | some .folder => .error .isDirectory
      | some (.file _) => .ok (d, t)

/-- Appends to the file at a spot. What is appended elsewhere is not seen again. -/
def append (d : Disk) (s : Spot) (bytes : List UInt8) : Disk :=
  match s with
  | .inside p => { d with folder := d.folder.append p bytes }
  | _ => d

end Disk

end Lexiscope
