import FrontEnd.Proofs.Expression.Modes
import FrontEnd.Proofs.Symbols.Scopes
import FrontEnd.Proofs.Types.Alike

/-!
Sessions in which every name stands for the same, but for types that no check tells apart. An
expression has the same value in both of them, and the one accepts what the other accepts.
-/

namespace FrontEnd

/-- The identifiers differ in their types only, and no check tells these apart. -/
structure Ident.Resembles (types : TypeTable) (i j : Ident) : Prop where
  others : j = { i with type := j.type }
  type : types.Alike i.type j.type

/-- The values are the same, and no check tells their types apart. -/
structure TypedValue.Resembles (types : TypeTable) (v w : TypedValue) : Prop where
  type : types.Alike v.type w.type
  constant : w.constant? = v.constant?

namespace Session

variable {s s' : Session}

/-- Each name stands for the same in both sessions, as far as checks can tell. -/
structure Resembles (s s' : Session) : Prop where
  types : s'.types = s.types
  modules : s'.modules = s.modules
  blocks : s'.blocks = s.blocks
  idents : List.Forall₂ (Ident.Resembles s.types) s.idents.toList s'.idents.toList

namespace Resembles

theorem symm (h : s.Resembles s') : s'.Resembles s where
  types := h.types.symm
  modules := h.modules.symm
  blocks := h.blocks.symm
  idents := by
    rw [h.types]
    refine .flip (h.idents.imp fun i j hij => ⟨?_, hij.type.symm⟩)
    rw [hij.others]

theorem get? (h : s.Resembles s') {id : IdentId} {i : Ident} (hi : s.idents.get? id = some i) :
    ∃ j, s'.idents.get? id = some j ∧ i.Resembles s.types j := by
  rw [← IdentTable.getElem?_toList] at hi ⊢
  obtain ⟨bound, rfl⟩ := List.getElem?_eq_some_iff.1 hi
  have bound' : id.index < s'.idents.toList.length := h.idents.length_eq ▸ bound
  exact ⟨_, List.getElem?_eq_getElem bound', h.idents.get bound bound'⟩

/-- Names are looked up alike. -/
theorem findInScope? (h : s.Resembles s') :
    s'.idents.findInScope? = s.idents.findInScope? := by
  have keys : List.Forall₂ Eq (s'.idents.toList.map Ident.key) (s.idents.toList.map Ident.key) := by
    refine List.forall₂_map_left_iff.2 (List.forall₂_map_right_iff.2 ?_)
    refine h.symm.idents.imp fun i j hij => ?_
    rw [hij.others]
    rfl
  rw [List.forall₂_eq_eq_eq] at keys
  funext module block name
  rw [← IdentTable.find?_scope, ← IdentTable.find?_scope, IdentTable.scope_congr keys]

theorem code (h : s.Resembles s') (c c' : Code) :
    Session.Resembles { s with code := c } { s' with code := c' } :=
  ⟨h.types, h.modules, h.blocks, h.idents⟩

theorem add (h : s.Resembles s') (closed : s.types.IsClosed) (kind : TypeKind) :
    Session.Resembles { s with types := (s.types.add kind).2 }
      { s' with types := (s'.types.add kind).2 } where
  types := by rw [h.types]
  modules := h.modules
  blocks := h.blocks
  idents := h.idents.imp fun _ _ hij => ⟨hij.others, hij.type.add closed kind⟩

end Resembles

end Session

namespace Action

open Session

variable {setup : Setup} {mode : Mode} {s s' t : Session} {v w : TypedValue}

/-- What was alike before a step is alike behind it. -/
structure Keeps (s t : Session) : Prop where
  closed : t.types.IsClosed
  alike : ∀ a b, s.types.Alike a b → t.types.Alike a b

theorem Keeps.trans {u : Session} (h : Keeps s t) (h' : Keeps t u) : Keeps s u :=
  ⟨h'.closed, fun a b hab => h'.alike a b (h.alike a b hab)⟩

end Action

end FrontEnd
