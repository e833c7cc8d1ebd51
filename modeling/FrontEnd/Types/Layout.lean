import FrontEnd.Types.Basic

/-!
How many bytes a type takes and where its parts lie. Fields and parameters follow each other without
gaps; a layout that does not fit into a word is refused.
-/

namespace FrontEnd

def pointerSize : Int64 := 8

/-- A data pointer and a length. -/
def openArraySize : Int64 := 16

def openLength : Int64 := -1

def Builtin.size : Builtin → Int64
  | void => 0
  | int8 | uint8 | bool | char => 1
  | int16 | uint16 => 2
  | int32 | uint32 | real32 => 4
  | int | uint | real => 8
  | null => pointerSize

namespace TypeTable

/-- The size of a type by the sizes of its contents. Forward types stand only behind pointers and
take no room. -/
def sizeFrom (t : TypeTable) (size : TypeId → Option Int64) (id : TypeId) : Option Int64 :=
  match t.kind id with
  | .builtin b => some b.size
  | .forward _ => some 0
  | .pointer _ | .function _ => some pointerSize
  | .array base length =>
    if length = openLength then some openArraySize else (size base).bind (Word.mul? length)
  | .text capacity => some capacity
  | .struct fields | .interface fields =>
    match fields.getLast? with
    | none => some 0
    | some last => (size last.type).bind (Word.add? last.offset)

/-- The size of a type whose contents are nested at most `depth` deep. -/
def sizeWithin (t : TypeTable) : Nat → TypeId → Option Int64
  | 0, _ => none
  | depth + 1, id => t.sizeFrom (t.sizeWithin depth) id

/-- The bytes that a type takes, if their number is a word. No type contains itself, so nesting goes
no deeper than the table has types. -/
def size? (t : TypeTable) (id : TypeId) : Option Int64 :=
  t.sizeWithin (t.size + 1) id

/-- Adds a field behind the others and answers its offset; a type without fields stays as it is. -/
def addField (t : TypeTable) (owner : TypeId) (name : String) (type : TypeId) :
    Option (Int64 × TypeTable) := do
  let offset ← t.size? owner
  let size ← t.size? type
  let _ ← Word.add? offset size
  let field : Field := ⟨name, type, offset⟩
  match t.kind owner with
  | .struct fields =>
    let kind := .struct (fields ++ [field])
    return (offset, { t with kinds := t.kinds.setIfInBounds owner.index kind })
  | .interface fields =>
    let kind := .interface (fields ++ [field])
    return (offset, { t with kinds := t.kinds.setIfInBounds owner.index kind })
  | _ => return (offset, t)

/-- Adds a parameter behind the others. -/
def addParameter? (t : TypeTable) (s : Signature) (name : String) (type : TypeId)
    (default? : Option Constant) : Option Signature := do
  let size ← t.size? type
  let total ← Word.add? s.parametersSize size
  return { s with
    parameters := s.parameters ++ [⟨name, type, s.parametersSize, default?⟩]
    parametersSize := total }

end TypeTable

end FrontEnd
