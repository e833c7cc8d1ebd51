import FrontEnd.NameTable
import FrontEnd.Types.Spelling
import FrontEnd.Types.Equivalence
import FrontEnd.Symbols.Blocks
import FrontEnd.Symbols.Module
import FrontEnd.Code
import FrontEnd.Host
import FrontEnd.Settings

/-!
What the front end knows while it reads a program, and what stays the same meanwhile.
-/

namespace FrontEnd

/-- Where source files come from: the text of a file by its path, or a message that says why there
is none. -/
structure Sources where
  read : String → Except String String

/-- What stays the same during a compilation. -/
structure Setup where
  settings : Settings
  sources : Sources
  hosts : Hosts

/-- A global variable; its initial value is computed by the front end. -/
structure Global where
  name : String
  type : TypeId
  value? : Option Constant
deriving Inhabited, Repr

/-- The file being read, and the function in it. -/
structure Place where
  file : String
  function? : Option String
deriving DecidableEq, Repr, Inhabited

structure Session where
  names : NameTable
  types : TypeTable
  idents : IdentTable
  modules : ModuleTable
  blocks : Blocks
  code : Code
  globals : Array Global
  place : Place
  importDepth : Nat
deriving Inhabited

namespace Session

/-- The predeclared constants with their types. -/
def predeclaredConstants : List (String × TypeId × Constant) :=
  [("true", .bool, .bool true), ("false", .bool, .bool false), ("null", .null, .null)]

/-- A predeclared name is exported and has no place in any file. -/
def predeclared (name : String) (kind : IdentKind) (type : TypeId) (payload : Payload) : Ident :=
  { name, kind, exported := true, type, payload, module := .predeclared, block := .moduleScope,
    receiver? := none, span := .origin }

def predeclaredIdents : List Ident :=
  TypeTable.builtinNames.map (fun (name, type) => predeclared name .type type .none) ++
    predeclaredConstants.map fun (name, type, value) =>
      predeclared name .constant type (.constant value)

/-- The names that are in the table of names from the start. -/
def reservedNames (settings : Settings) : List String :=
  [selfName, resultName, settings.entryFunction, predeclaredPath] ++ predeclaredIdents.map (·.name)

/-- Before any file is read: the reserved names and the module of predeclared names. -/
def initial (settings : Settings) : Session :=
  { names := NameTable.empty.addAll (reservedNames settings)
    types := .initial
    idents := ⟨predeclaredIdents.toArray⟩
    modules := (ModuleTable.add ⟨#[], []⟩ predeclaredPath "" predeclaredPath).2
    blocks := .initial
    code := .empty
    globals := #[]
    place := ⟨predeclaredPath, none⟩
    importDepth := 0 }

def typeName (s : Session) (type : TypeId) : String := s.types.spelling type

/-- What is put aside while an imported file is read. -/
structure Frame where
  module : ModuleId
  place : Place
deriving DecidableEq, Repr, Inhabited

def frame (s : Session) : Frame := ⟨s.blocks.module, s.place⟩

/-- Goes into another file: one import deeper and with no function open. -/
def enterFile (s : Session) (path : String) : Session :=
  { s with importDepth := s.importDepth + 1, place := ⟨path, none⟩ }

/-- Comes back to the module and the place that were put aside. -/
def leaveFile (s : Session) (outer : Frame) : Session :=
  { s with
    importDepth := s.importDepth - 1
    blocks := { s.blocks with module := outer.module }
    place := outer.place }

end Session

end FrontEnd
