import FrontEnd.Constant

/-!
Types and the table that holds them. Types refer to each other by number, so a name that was used
before its declaration can be completed in place, and everything built on it sees the completed
type.
-/

namespace FrontEnd

/-- The number of a type in the type table. -/
structure TypeId where
  index : Nat
deriving DecidableEq, Hashable, Repr, Inhabited

/-- The number of an identifier in the identifier table. -/
structure IdentId where
  index : Nat
deriving DecidableEq, Hashable, Repr, Inhabited

/-- The types that every program starts with. -/
inductive Builtin
  | void
  | null
  | int8
  | int16
  | int32
  | int
  | uint8
  | uint16
  | uint32
  | uint
  | bool
  | char
  | real32
  | real
deriving DecidableEq, Repr

namespace Builtin

/-- In the order of their numbers. -/
def all : List Builtin :=
  [void, null, int8, int16, int32, int, uint8, uint16, uint32, uint, bool, char, real32, real]

def spelling : Builtin → String
  | void => "void"
  | null => "null"
  | int8 => "int8"
  | int16 => "int16"
  | int32 => "int32"
  | int => "int"
  | uint8 => "uint8"
  | uint16 => "uint16"
  | uint32 => "uint32"
  | uint => "uint"
  | bool => "bool"
  | char => "char"
  | real32 => "real32"
  | real => "real"

def isInteger : Builtin → Bool
  | int8 | int16 | int32 | int | uint8 | uint16 | uint32 | uint => true
  | _ => false

def isReal : Builtin → Bool
  | real32 | real => true
  | _ => false

/-- The type has no name of its own in a program; it is the type of the null pointer. -/
def isNameless : Builtin → Bool
  | null => true
  | _ => false

end Builtin

structure Field where
  name : String
  type : TypeId
  offset : Int64
deriving Inhabited, Repr

structure Parameter where
  name : String
  type : TypeId
  offset : Int64
  default? : Option Constant
deriving Inhabited, Repr

structure Signature where
  parameters : List Parameter
  /-- The number of parameters with default values. -/
  defaults : Nat
  isMethod : Bool
  /-- The offset of an interface method's field. -/
  offsetFromSelf : Int64
  /-- One type, once the signature has been read. -/
  results : List TypeId
  /-- The bytes that all parameters take. -/
  parametersSize : Int64
deriving Inhabited, Repr

namespace Signature

def empty : Signature := ⟨[], 0, false, 0, [], 0⟩

def result? (s : Signature) : Option TypeId := s.results.head?

end Signature

inductive TypeKind
  | builtin (type : Builtin)
  | pointer (base : TypeId)
  /-- The length `-1` stands for an open array. -/
  | array (base : TypeId) (length : Int64)
  | text (capacity : Int64)
  | struct (fields : List Field)
  /-- The first field is a pointer to the object itself. -/
  | interface (fields : List Field)
  | function (signature : Signature)
  /-- A name used before its declaration, once its identifier is known. -/
  | forward (ident? : Option IdentId)
deriving Inhabited, Repr

namespace TypeId

def void : TypeId := ⟨0⟩
def null : TypeId := ⟨1⟩
def int : TypeId := ⟨5⟩
def bool : TypeId := ⟨10⟩
def char : TypeId := ⟨11⟩
def real : TypeId := ⟨13⟩
/-- The pointer to `void`, the type of an object seen through an interface. -/
def anyPointer : TypeId := ⟨14⟩

end TypeId

structure TypeTable where
  kinds : Array TypeKind
  /-- The forward types that have not been completed, oldest first. -/
  pending : List TypeId
deriving Inhabited, Repr

namespace TypeTable

/-- The builtin types and the pointer to `void`. -/
def initial : TypeTable :=
  ⟨(Builtin.all.map TypeKind.builtin ++ [TypeKind.pointer .void]).toArray, []⟩

/-- The names under which a program finds the builtin types. -/
def builtinNames : List (String × TypeId) :=
  (Builtin.all.zipIdx.filter (!·.1.isNameless)).map fun (b, i) => (b.spelling, ⟨i⟩)

def size (t : TypeTable) : Nat := t.kinds.size

/-- The kind of a type; every number that the front end hands out is in the table. -/
def kind (t : TypeTable) (id : TypeId) : TypeKind :=
  t.kinds[id.index]?.getD (.builtin .void)

def isForward (t : TypeTable) (id : TypeId) : Bool :=
  match t.kind id with
  | .forward _ => true
  | _ => false

/-- Adds a type. A forward type is pending until it is completed. -/
def add (t : TypeTable) (kind : TypeKind) : TypeId × TypeTable :=
  let id : TypeId := ⟨t.size⟩
  let pending :=
    match kind with
    | .forward _ => t.pending ++ [id]
    | _ => t.pending
  (id, ⟨t.kinds.push kind, pending⟩)

/-- Puts the kind of `concrete` into the place of `forward`. -/
def complete (t : TypeTable) (forward concrete : TypeId) : TypeTable :=
  ⟨t.kinds.setIfInBounds forward.index (t.kind concrete), t.pending.filter (· ≠ forward)⟩

/-- Gives a forward type its identifier; any other type stays as it is. -/
def bind (t : TypeTable) (forward : TypeId) (ident : IdentId) : TypeTable :=
  if t.isForward forward then
    { t with kinds := t.kinds.setIfInBounds forward.index (.forward (some ident)) }
  else t

/-- The identifier of the oldest forward type that is still waiting. -/
def firstForward? (t : TypeTable) : Option (Option IdentId) :=
  t.pending.findSome? fun id =>
    match t.kind id with
    | .forward ident? => some ident?
    | _ => none

def fields (t : TypeTable) (id : TypeId) : List Field :=
  match t.kind id with
  | .struct fields | .interface fields => fields
  | _ => []

def findField? (t : TypeTable) (id : TypeId) (name : String) : Option Field :=
  (t.fields id).find? (·.name = name)

def signature? (t : TypeTable) (id : TypeId) : Option Signature :=
  match t.kind id with
  | .function signature => some signature
  | _ => none

def pointerBase? (t : TypeTable) (id : TypeId) : Option TypeId :=
  match t.kind id with
  | .pointer base => some base
  | _ => none

/-! ### Families of types -/

/-- Values of structured types are passed by reference and cannot be defaults. -/
def isStructured (t : TypeTable) (id : TypeId) : Bool :=
  match t.kind id with
  | .array .. | .text _ | .struct _ | .interface _ => true
  | _ => false

def isInteger (t : TypeTable) (id : TypeId) : Bool :=
  match t.kind id with
  | .builtin b => b.isInteger
  | _ => false

def isReal (t : TypeTable) (id : TypeId) : Bool :=
  match t.kind id with
  | .builtin b => b.isReal
  | _ => false

def isNumeric (t : TypeTable) (id : TypeId) : Bool :=
  t.isInteger id || t.isReal id

def isOrdinal (t : TypeTable) (id : TypeId) : Bool :=
  match t.kind id with
  | .builtin b => b.isInteger || b = .bool || b = .char
  | _ => false

def isPointer (t : TypeTable) (id : TypeId) : Bool :=
  match t.kind id with
  | .pointer _ | .builtin .null => true
  | _ => false

def isText (t : TypeTable) (id : TypeId) : Bool :=
  match t.kind id with
  | .text _ => true
  | _ => false

end TypeTable

end FrontEnd
