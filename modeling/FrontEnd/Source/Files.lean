import FrontEnd.Session

/-!
Sources that are held in memory. Files are kept under their collapsed path, a later file under the
same path replaces the earlier one.
-/

namespace FrontEnd

structure Files where
  entries : List (Path × String)
deriving Repr, Inhabited

namespace Files

def empty : Files := ⟨[]⟩

def find? (f : Files) (path : Path) : Option String :=
  (f.entries.find? (·.1 = path)).map (·.2)

def add (f : Files) (path text : String) : Files :=
  let path := Path.normalize path
  ⟨(path, text) :: f.entries.filter (·.1 ≠ path)⟩

def ofList (files : List (String × String)) : Files :=
  files.foldl (fun f (path, text) => f.add path text) empty

def sources (f : Files) : Sources :=
  ⟨fun path =>
    match f.find? (Path.normalize path) with
    | some text => .ok text
    | none => .error ("Can't open file " ++ path)⟩

end Files

/-- The text of a file, or the fault that it cannot be read. -/
def Sources.textOf (sources : Sources) (path : String) : Except Diagnostic String :=
  match sources.read path with
  | .ok text => .ok text
  | .error message => .error (.ofFile path (.unreadable message))

end FrontEnd
