/-!
Places in a source text: a position counts lines and columns from zero, a span runs from one
position to another. Columns count characters, not bytes.
-/

namespace FrontEnd

structure Position where
  line : Nat
  column : Nat
deriving DecidableEq, Repr, Inhabited

namespace Position

/-- The start of every text. -/
def origin : Position := ⟨0, 0⟩

/-- A newline ends its line; any other character takes one column. -/
def step (p : Position) (c : Char) : Position :=
  if c = '\n' then ⟨p.line + 1, 0⟩ else ⟨p.line, p.column + 1⟩

/-- The position behind the characters `cs` when they start at `p`. -/
def after (p : Position) (cs : List Char) : Position :=
  cs.foldl step p

@[simp] theorem after_nil (p : Position) : p.after [] = p := rfl

@[simp] theorem after_cons (p : Position) (c : Char) (cs : List Char) :
    p.after (c :: cs) = (p.step c).after cs := rfl

theorem after_append (p : Position) (as bs : List Char) :
    p.after (as ++ bs) = (p.after as).after bs := by
  simp [after, List.foldl_append]

end Position

/-- A piece of text from `first` up to, not including, `last`. -/
structure Span where
  first : Position
  last : Position
deriving DecidableEq, Repr, Inhabited

namespace Span

/-- The empty span at the start of a text, where anything without a place of its own is put. -/
def origin : Span := ⟨.origin, .origin⟩

end Span

end FrontEnd
