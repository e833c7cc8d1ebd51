import FrontEnd.Session

/-!
A working folder with some files in it, as a command sees it: a path text leads step by step to a
file, to a folder or to nothing, and the answer to a failed attempt is a message of the system.
-/

namespace FrontEnd

/-- What a command can read: the text of a file by its path, or the system's message. -/
structure Disk where
  read : String → Except String String

namespace Disk

/-- Whether a path leads to a file. -/
def isFile (d : Disk) (path : String) : Bool :=
  match d.read path with
  | .ok _ => true
  | .error _ => false

/-- The files of a disk as sources of a program. -/
def sources (d : Disk) : Sources :=
  ⟨fun path => (d.read path).mapError fun reason => "Can't open file " ++ path ++ ": " ++ reason⟩

end Disk

structure Folder where
  /-- The files by their collapsed path. -/
  files : List (Path × String)
deriving Repr, Inhabited

namespace Folder

def missing : String := "No such file or directory (os error 2)"

def notAFolder : String := "Not a directory (os error 20)"

def isAFolder : String := "Is a directory (os error 21)"

def tooLong : String := "File name too long (os error 36)"

def zeroInside : String := "file name contained an unexpected NUL byte"

/-- The bytes that a name can have at most. -/
def maxName : Nat := 255

/-- The bytes that a path can have at most. -/
def maxPath : Nat := 4095

def ofList (files : List (String × String)) : Folder :=
  ⟨files.map fun (path, text) => (Path.normalize path, text)⟩

/-- A place that a path leads to: names below the folder, innermost first, or a folder above it. -/
inductive Spot
  | below (names : List String)
  | above
deriving Repr

def file? (f : Folder) (names : List String) : Option String :=
  (f.files.find? (·.1 = ⟨false, names.reverse⟩)).map (·.2)

/-- Whether some file lies below these names. -/
def isFolder (f : Folder) (names : List String) : Bool :=
  names.isEmpty || f.files.any fun (path, _) =>
    !path.rooted && names.reverse.isPrefixOf path.parts && names.length < path.parts.length

/-- The spot that one piece of a path leads to. Only a folder can be left again. -/
def step (f : Folder) (spot : Spot) (piece : String) : Except String Spot :=
  match spot with
  | .above =>
    if Path.isIdle piece || piece = ".." then .ok .above
    else if maxName < piece.utf8ByteSize then .error tooLong
    else .error missing
  | .below names =>
    if f.isFolder names then
      if Path.isIdle piece then .ok spot
      else if piece = ".." then
        match names with
        | [] => .ok .above
        | _ :: outer => .ok (.below outer)
      else if maxName < piece.utf8ByteSize then .error tooLong
      else .ok (.below (piece :: names))
    else if (f.file? names).isSome then .error notAFolder
    else .error missing

/-- Follows a path from the folder, or from the root. -/
def follow (f : Folder) (path : String) : Except String Spot :=
  let pieces := (Path.pieces path.toList).map String.ofList
  if path.contains '\x00' then .error zeroInside
  else if maxPath < path.utf8ByteSize then .error tooLong
  else if Path.isRooted path then (pieces.drop 1).foldlM f.step .above
  else if path = "" then .error missing
  else pieces.foldlM f.step (.below [])

def disk (f : Folder) : Disk :=
  ⟨fun path => do
    match ← f.follow path with
    | .above => .error isAFolder
    | .below names =>
      if f.isFolder names then .error isAFolder
      else
        match f.file? names with
        | some text => .ok text
        | none => .error missing⟩

end Folder

end FrontEnd
