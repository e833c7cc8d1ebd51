import FrontEnd.Types.Basic

/-!
Instructions of a stack machine, and the code that is emitted for it. Emitting only appends; the one
thing that is changed afterwards is an instruction reserved for a jump.
-/

namespace FrontEnd

inductive Instruction
  | nop
  | goto (target : Nat)
  | push (value : Constant)
  /-- Pushes the address of a global variable. -/
  | globalAddress (slot : Nat)
  /-- Pushes the address of a variable in the frame of the current function. -/
  | localAddress (offset : Int64)
  /-- Replaces the address on top of the stack by the value stored there. -/
  | load (type : TypeId)
  /-- Pops a value and the address below it, and stores the value there. -/
  | store (type : TypeId)
  /-- Pops an address and the value below it, and stores the value there. -/
  | storeSwapped (type : TypeId)
  | unary (op : UnaryOperator)
  | binary (op : Operator)
  /-- Turns the integer on top of the stack into a real. -/
  | convert (source target : TypeId)
  | callHost (name : String)
  /-- Returns to the caller and drops the bytes of the parameters. -/
  | leave (parametersSize : Int64)
deriving Inhabited, Repr

def Instruction.toText : Instruction → String
  | nop => "NOP"
  | goto target => "GOTO " ++ toString target
  | push value => "PUSH " ++ value.toText
  | globalAddress slot => "PUSH_GLOBAL_PTR " ++ toString slot
  | localAddress offset => "PUSH_LOCAL_PTR " ++ toString offset.toInt
  | load type => "DEREF #" ++ toString type.index
  | store type => "ASSIGN #" ++ toString type.index
  | storeSwapped type => "SWAP_ASSIGN #" ++ toString type.index
  | unary op => "UNARY " ++ op.spelling
  | binary op => "BINARY " ++ op.spelling
  | convert source target => "CONVERT #" ++ toString source.index ++ " #" ++ toString target.index
  | callHost name => "CALL_EXTERN " ++ name
  | leave parametersSize => "RETURN " ++ toString parametersSize.toInt

structure Code where
  instructions : Array Instruction
  /-- Whether the entry function has been given a body. -/
  entryDefined : Bool
deriving Inhabited, Repr

namespace Code

def empty : Code := ⟨#[], false⟩

/-- The address of the next instruction. -/
def size (c : Code) : Nat := c.instructions.size

def emit (c : Code) (i : Instruction) : Code :=
  { c with instructions := c.instructions.push i }

/-- Changes an emitted instruction; there is nothing to change at an address not reached yet. -/
def patch? (c : Code) (address : Nat) (i : Instruction) : Option Code :=
  if address < c.size then some { c with instructions := c.instructions.setIfInBounds address i }
  else none

end Code

end FrontEnd
