/-
  Lexiscope.CommandLine.Folder

  A folder with what is in it, as far as the program can tell: files that it can
  read and append to, and folders inside.
-/

namespace Lexiscope

/-- Why a file cannot be used. -/
inductive FileError where
  | notFound
  | notDirectory
  | isDirectory
  | nameTooLong
deriving DecidableEq, Inhabited

/-- The error in the words of the operating system. -/
def FileError.message : FileError → String
  | notFound => "No such file or directory (os error 2)"
  | notDirectory => "Not a directory (os error 20)"
  | isDirectory => "Is a directory (os error 21)"
  | nameTooLong => "File name too long (os error 36)"

/-- What a name in a folder stands for. -/
inductive FolderEntry where
  | file (bytes : List UInt8)
  | folder
deriving DecidableEq, Inhabited

/-- A place in a folder: the names on the way to it, the last one first. -/
abbrev Place := List String

/-- Files and folders with their places. The folder itself is the empty place. -/
structure Folder where
  entries : List (Place × FolderEntry)
deriving DecidableEq, Inhabited

namespace Folder

/-- What stands at a place. -/
def get? (f : Folder) (p : Place) : Option FolderEntry :=
  if p = [] then some .folder else f.entries.lookup p

/-- Puts a file at a place, instead of one that is there. -/
def put (f : Folder) (p : Place) (bytes : List UInt8) : Folder :=
  ⟨(p, .file bytes) :: f.entries.filter fun e => e.1 ≠ p⟩

/-- Appends to the file at a place. -/
def append (f : Folder) (p : Place) (bytes : List UInt8) : Folder :=
  match f.get? p with
  | some (.file old) => f.put p (old ++ bytes)
  | _ => f

/-- The outermost folder of a system, as far as it is the same everywhere. The program's input can
    be found there, and a file that is always empty. -/
def system (input : List UInt8) : Folder :=
  ⟨[(["dev"], .folder), (["null", "dev"], .file []), (["stdin", "dev"], .file input),
    (["etc"], .folder), (["proc"], .folder), (["tmp"], .folder), (["usr"], .folder)]⟩

end Folder

end Lexiscope
