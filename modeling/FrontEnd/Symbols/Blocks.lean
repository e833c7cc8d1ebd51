import FrontEnd.Symbols.Ident
import FrontEnd.Number.Word

/-!
The open blocks of the function being read. No open block means module scope, where initial values
are folded instead of being computed by code.
-/

namespace FrontEnd

structure Block where
  id : BlockId
  /-- Set on the outermost block of a function body. -/
  function? : Option IdentId
  /-- The bytes that the variables of a function take so far. -/
  frameSize : Int64
deriving Inhabited, Repr

structure Blocks where
  /-- The open blocks, innermost first. -/
  stack : List Block
  /-- The number of the next block. -/
  next : Nat
  /-- The module being read. -/
  module : ModuleId
deriving Inhabited, Repr

namespace Blocks

def initial : Blocks := ⟨[], 1, .predeclared⟩

def depth (b : Blocks) : Nat := b.stack.length

def atModuleScope (b : Blocks) : Bool := b.stack.isEmpty

/-- The scopes in which a name is looked up, innermost first. -/
def scopes (b : Blocks) : List BlockId :=
  b.stack.map (·.id) ++ [.moduleScope]

def current (b : Blocks) : BlockId :=
  match b.stack with
  | block :: _ => block.id
  | [] => .moduleScope

/-- Opens a block; the body of a function starts a new frame. -/
def enter (b : Blocks) (function? : Option IdentId) : Blocks :=
  { b with stack := ⟨⟨b.next⟩, function?, 0⟩ :: b.stack, next := b.next + 1 }

/-- Closes the innermost block; module scope is never closed. -/
def leave (b : Blocks) : Blocks :=
  { b with stack := b.stack.drop 1 }

/-- The function whose body is being read. -/
def function? (b : Blocks) : Option IdentId :=
  b.stack.findSome? (·.function?)

/-- Takes `size` bytes in the frame of the innermost function. -/
def allocateIn (size : Int64) : List Block → Option (Int64 × List Block)
  | [] => some (0, [])
  | block :: rest =>
    if block.function?.isSome then
      (Word.add? block.frameSize size).map fun total =>
        (block.frameSize, { block with frameSize := total } :: rest)
    else (allocateIn size rest).map fun (offset, rest) => (offset, block :: rest)

/-- Reserves room for a variable and answers its offset. Offsets only grow, so variables lie in the
order of their declaration. Outside of functions nothing is reserved. -/
def allocate? (b : Blocks) (size : Int64) : Option (Int64 × Blocks) :=
  (allocateIn size b.stack).map fun (offset, stack) => (offset, { b with stack })

end Blocks

namespace IdentTable

/-- What a name stands for: the innermost open block of the current module that declares it, then
its module scope, then the predeclared names. -/
def find? (t : IdentTable) (b : Blocks) (name : String) : Option IdentId :=
  (b.scopes.findSome? fun block => t.findInScope? b.module block name) <|>
    t.findInModule? .predeclared name

end IdentTable

end FrontEnd
