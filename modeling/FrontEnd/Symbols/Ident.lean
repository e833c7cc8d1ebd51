import FrontEnd.Types.Basic
import FrontEnd.Source.Position

/-!
Identifiers: what a name stands for and where it is visible. A name belongs to one scope, which is a
block of a module; methods are kept apart by the type of their receiver.
-/

namespace FrontEnd

structure ModuleId where
  index : Nat
deriving DecidableEq, Repr, Inhabited

namespace ModuleId

/-- The module of the predeclared names. -/
def predeclared : ModuleId := ⟨0⟩

/-- The module of the root file. -/
def root : ModuleId := ⟨1⟩

end ModuleId

structure BlockId where
  index : Nat
deriving DecidableEq, Repr, Inhabited

/-- The scope of a whole module. -/
def BlockId.moduleScope : BlockId := ⟨0⟩

inductive IdentKind
  | type
  | constant
  | function
  | var
deriving DecidableEq, Repr, Inhabited

def IdentKind.name : IdentKind → String
  | type => "type"
  | constant => "constant"
  | function => "function"
  | var => "variable"

/-- What the front end knows about an identifier besides its type. -/
inductive Payload
  | none
  | constant (value : Constant)
  /-- The address of the first instruction. A function without a body has reserved an
  instruction. -/
  | function (entry : Nat) (reserved? : Option Nat)
  | global (slot : Nat)
  | local (offset : Int64)
deriving Inhabited, Repr

structure Ident where
  name : String
  kind : IdentKind
  exported : Bool
  type : TypeId
  payload : Payload
  module : ModuleId
  block : BlockId
  /-- The type that a method's receiver points at. -/
  receiver? : Option TypeId
  span : Span
deriving Inhabited, Repr

namespace Ident

/-- The reserved instruction of a function without a body. -/
def reserved? (i : Ident) : Option Nat :=
  match i.payload with
  | .function _ reserved? => reserved?
  | _ => none

/-- Whether the identifier is what a name stands for in a scope. -/
def isNamed (i : Ident) (module : ModuleId) (block : BlockId) (receiver? : Option TypeId)
    (name : String) : Bool :=
  i.module = module && i.block = block && i.receiver? = receiver? && i.name = name

end Ident

/-- All identifiers in the order of their declaration. -/
structure IdentTable where
  idents : Array Ident
deriving Inhabited, Repr

namespace IdentTable

def size (t : IdentTable) : Nat := t.idents.size

def get? (t : IdentTable) (id : IdentId) : Option Ident := t.idents[id.index]?

def toList (t : IdentTable) : List Ident := t.idents.toList

def findNamed? (t : IdentTable) (module : ModuleId) (block : BlockId) (receiver? : Option TypeId)
    (name : String) : Option IdentId :=
  (t.idents.findIdx? (·.isNamed module block receiver? name)).map IdentId.mk

/-- Looks into one scope only. -/
def findInScope? (t : IdentTable) (module : ModuleId) (block : BlockId) (name : String) :
    Option IdentId :=
  t.findNamed? module block none name

def findInModule? (t : IdentTable) (module : ModuleId) (name : String) : Option IdentId :=
  t.findInScope? module .moduleScope name

def findMethod? (t : IdentTable) (module : ModuleId) (receiver : TypeId) (name : String) :
    Option IdentId :=
  t.findNamed? module .moduleScope (some receiver) name

/-- Adds an identifier unless its name is taken in its scope. -/
def insert? (t : IdentTable) (i : Ident) : Option (IdentId × IdentTable) :=
  match t.findNamed? i.module i.block i.receiver? i.name with
  | some _ => none
  | none => some (⟨t.size⟩, ⟨t.idents.push i⟩)

def modify (t : IdentTable) (id : IdentId) (f : Ident → Ident) : IdentTable :=
  ⟨t.idents.modify id.index f⟩

end IdentTable

end FrontEnd
