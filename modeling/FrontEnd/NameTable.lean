import Std.Data.HashMap
import FrontEnd.Token.Stream

/-!
The table of all names and string literals of a program. Each text has one number; numbers are given
out in order of first appearance and never change.
-/

namespace FrontEnd

structure NameTable where
  /-- The texts by number. -/
  texts : Array String
  /-- The numbers by text. -/
  numbers : Std.HashMap String Nat

namespace NameTable

def empty : NameTable := ⟨#[], {}⟩

instance : Inhabited NameTable := ⟨empty⟩

def size (t : NameTable) : Nat := t.texts.size

/-- The number of a text that is in the table. -/
def find? (t : NameTable) (text : String) : Option Nat := t.numbers[text]?

/-- The text with a given number. -/
def text? (t : NameTable) (number : Nat) : Option String := t.texts[number]?

/-- The number of a text, which is added if it is new. -/
def intern (t : NameTable) (text : String) : Nat × NameTable :=
  match t.find? text with
  | some number => (number, t)
  | none => (t.size, ⟨t.texts.push text, t.numbers.insert text t.size⟩)

def add (t : NameTable) (text : String) : NameTable := (t.intern text).2

def addAll (t : NameTable) (texts : List String) : NameTable := texts.foldl add t

/-- Adds the names and string literals of a text in the order of its words. -/
def addWords (t : NameTable) (s : Stream) : NameTable :=
  t.addAll (s.ahead.filterMap (·.kind.name?))

end NameTable

end FrontEnd
