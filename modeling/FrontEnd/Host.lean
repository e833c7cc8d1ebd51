/-!
Functions that the surroundings of a program provide. A function declared without a body is matched
against them by name when a program is linked.
-/

namespace FrontEnd

structure HostFunction where
  name : String
  /-- The number of parameters, a hidden result pointer included. -/
  arity : Nat
  description : String
deriving DecidableEq, Repr

/-- The host functions, each name once. -/
structure Hosts where
  functions : List HostFunction
deriving Repr, Inhabited

namespace Hosts

def empty : Hosts := ⟨[]⟩

def size (h : Hosts) : Nat := h.functions.length

def find? (h : Hosts) (name : String) : Option HostFunction :=
  h.functions.find? (·.name = name)

/-- A later function of the same name replaces the earlier one. -/
def register (h : Hosts) (f : HostFunction) : Hosts :=
  ⟨f :: h.functions.filter (·.name ≠ f.name)⟩

end Hosts

end FrontEnd
