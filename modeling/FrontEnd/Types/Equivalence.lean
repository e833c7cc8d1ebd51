import FrontEnd.Types.Basic

/-!
When two types are the same by structure, and when a value of one type can be assigned to another.
-/

namespace FrontEnd

/-- Equality of default values; two missing ones are equal. -/
def sameDefault : Option Constant → Option Constant → Bool
  | some a, some b => a.same b
  | none, none => true
  | _, _ => false

namespace TypeTable

/-- Pairs of types taken to be the same. -/
abbrev Assumed := List (TypeId × TypeId)

/-- A comparison that may assume pairs met before: its verdict and all pairs met so far. -/
abbrev Comparison := Assumed → Bool × Assumed

namespace Comparison

def accept : Comparison := fun assumed => (true, assumed)

def refuse : Comparison := fun assumed => (false, assumed)

/-- The second comparison is made only if the first one succeeds. -/
def and (first second : Comparison) : Comparison := fun assumed =>
  match first assumed with
  | (true, assumed) => second assumed
  | (false, assumed) => (false, assumed)

def test (verdict : Bool) : Comparison := fun assumed => (verdict, assumed)

/-- Compares two lists of equal length entry by entry. -/
def lists {α : Type} (compare : α → α → Comparison) : List α → List α → Comparison
  | [], [] => accept
  | a :: as, b :: bs => (compare a b).and (lists compare as bs)
  | _, _ => refuse

end Comparison

/-- Whether two kinds match, where `compare` decides about the types they refer to. The receiver of
a method is not compared. -/
def sameKind (compare : TypeId → TypeId → Comparison) : TypeKind → TypeKind → Comparison
  | .pointer a, .pointer b => compare a b
  | .array a m, .array b n => (Comparison.test (m = n)).and (compare a b)
  | .text m, .text n => .test (m = n)
  | .struct as, .struct bs | .interface as, .interface bs =>
    (Comparison.test (as.length = bs.length)).and
      (.lists (fun a b => (Comparison.test (a.name = b.name)).and (compare a.type b.type)) as bs)
  | .function f, .function g =>
    let skipped := if f.isMethod then 1 else 0
    (Comparison.test (f.isMethod = g.isMethod && f.parameters.length = g.parameters.length)).and
      ((Comparison.lists
          (fun a b => (compare a.type b.type).and (.test (sameDefault a.default? b.default?)))
          (f.parameters.drop skipped) (g.parameters.drop skipped)).and
        ((Comparison.test (f.results.length = g.results.length)).and
          (.lists compare f.results g.results)))
  | .forward a, .forward b => .test (a = b)
  | .builtin a, .builtin b => .test (a = b)
  | _, _ => .refuse

/-- Compares two types through at most `depth` nested pairs. A pair met before is assumed to match,
so types that contain themselves through pointers can be compared. -/
def sameWithin (t : TypeTable) : Nat → TypeId → TypeId → Comparison
  | 0, _, _ => .refuse
  | depth + 1, a, b => fun assumed =>
    if a = b || assumed.contains (a, b) then (true, assumed)
    else sameKind (t.sameWithin depth) (t.kind a) (t.kind b) ((a, b) :: assumed)

/-- Structural equivalence. There are no more nested pairs than pairs of types in the table. -/
def equivalent (t : TypeTable) (a b : TypeId) : Bool :=
  (t.sameWithin (t.size * t.size + 2) a b []).1

/-- The null pointer and pointers to `void`, which stand for a pointer of any type. -/
def isAnyPointer (t : TypeTable) (id : TypeId) : Bool :=
  match t.kind id with
  | .builtin .null => true
  | .pointer base => base = .void
  | _ => false

/-- Whether a value of type `source` can be assigned to a place of type `target`. Integers, reals
and strings convert among themselves, and any pointer to and from the pointer to `void`. -/
def compatible (t : TypeTable) (target source : TypeId) : Bool :=
  t.equivalent target source ||
    (t.isInteger target && t.isInteger source) ||
    (t.isReal target && t.isReal source) ||
    (if t.isPointer target && t.isPointer source then t.isAnyPointer target || t.isAnyPointer source
     else t.isText target && t.isText source)

end TypeTable

end FrontEnd
