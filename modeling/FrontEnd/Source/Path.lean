/-!
Slash-separated paths. A path text is read as a list of parts; `Path.normalize` collapses the parts
`.` and `..` without looking at any folder, and its result is the identity of a source file.

Parents, stems and extensions are taken from the text itself, so that a path is shown as it was
written.
-/

namespace FrontEnd

/-- A path with no empty part and no part `.`; the parts are file and folder names or `..`. -/
structure Path where
  rooted : Bool
  parts : List String
deriving DecidableEq, Repr, Inhabited

namespace Path

/-- The pieces of a text between slashes; a text without a slash is one piece. -/
def pieces : List Char → List (List Char)
  | [] => [[]]
  | c :: cs =>
    if c = '/' then [] :: pieces cs
    else
      match pieces cs with
      | [] => [[c]]
      | p :: ps => (c :: p) :: ps

/-- A text that starts with a slash names a place from the root. -/
def isRooted (text : String) : Bool :=
  text.toList.head? = some '/'

/-- Empty pieces and pieces `.` stay where they are. -/
def isIdle (piece : String) : Bool :=
  piece = "" || piece = "."

/-- Adds one part to a collapsed list kept in reverse: `..` takes back a name, is dropped at the
root, and stays where nothing is left to take back. -/
def collapse (rooted : Bool) (done : List String) (part : String) : List String :=
  if part = ".." then
    match done with
    | [] => if rooted then [] else [part]
    | last :: rest => if last = ".." then part :: done else rest
  else part :: done

/-- The parts of a text that move: neither empty nor `.`. -/
def movingParts (text : String) : List String :=
  ((pieces text.toList).map String.ofList).filter (!isIdle ·)

/-- Collapses `.` and `..`; a leading `..` of an unrooted path is kept. -/
def normalize (text : String) : Path :=
  let rooted := isRooted text
  ⟨rooted, ((movingParts text).foldl (collapse rooted) []).reverse⟩

def toText (p : Path) : String :=
  (if p.rooted then "/" else "") ++ "/".intercalate p.parts

/-- Drops the idle pieces at the end, but keeps a `.` that starts an unrooted text. -/
def trimIdle : List String → List String
  | [] => []
  | piece :: rest =>
    match trimIdle rest with
    | [] => if isIdle piece then [] else [piece]
    | kept => piece :: kept

/-- The pieces of a text up to its last part; a leading `.` of an unrooted text counts as a part. -/
def trimmedPieces (text : String) : List String :=
  match (pieces text.toList).map String.ofList with
  | [] => []
  | piece :: rest =>
    if piece = "" then "" :: trimIdle rest
    else if piece = "." then "." :: trimIdle rest
    else trimIdle (piece :: rest)

/-- The last part of a text if it is a name. -/
def fileName? (text : String) : Option String :=
  match (trimmedPieces text).getLast? with
  | some name => if isIdle name || name = ".." then none else some name
  | none => none

/-- The text before the last part, without the slashes and idle pieces that end it. The root and the
empty text have no parent. -/
def parent? (text : String) : Option String :=
  let pieces := trimmedPieces text
  if isRooted text then
    match pieces.drop 1 with
    | [] => none
    | below =>
      match trimIdle below.dropLast with
      | [] => some "/"
      | kept => some ("/" ++ "/".intercalate kept)
  else
    match pieces with
    | [] => none
    | [""] => none
    | first :: _ =>
      let kept := pieces.dropLast
      some ("/".intercalate
        (if first = "." then kept.take 1 ++ trimIdle (kept.drop 1) else trimIdle kept))

/-- Whether two texts have the same parts, whatever slashes and idle pieces stand between them. A
leading `.` is a part of its own. -/
def sameParts (a b : String) : Bool :=
  isRooted a = isRooted b && movingParts a = movingParts b &&
    ((trimmedPieces a).head? = some ".") = ((trimmedPieces b).head? = some ".")

/-- Splits a file name at its last dot; a dot that starts the name does not count. -/
def splitName (name : String) : String × Option String :=
  let cs := name.toList
  let ending := cs.reverse.takeWhile (· ≠ '.')
  let stem := cs.take (cs.length - ending.length - 1)
  if ending.length = cs.length || stem.isEmpty then (name, none)
  else (String.ofList stem, some (String.ofList ending.reverse))

/-- The file name without its extension, by which other files name this one. -/
def stem (text : String) : String :=
  match fileName? text with
  | some name => (splitName name).1
  | none => ""

def extension (text : String) : String :=
  match fileName? text with
  | some name => (splitName name).2.getD ""
  | none => ""

/-- The folder of a file with a slash behind it; empty for a file in the working folder. -/
def folder (text : String) : String :=
  match parent? text with
  | some parent => if parent = "" then "" else parent ++ "/"
  | none => ""

/-- An import literal is appended to the importing file's folder as it stands. -/
def ofImport (folder literal : String) : Path :=
  normalize (folder ++ literal)

/-- A file name inside a folder. -/
def join (folder name : String) : String :=
  if folder = "" || folder.toList.getLast? = some '/' then folder ++ name else folder ++ "/" ++ name

end Path

end FrontEnd
