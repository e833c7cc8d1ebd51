import FrontEnd.Session
import FrontEnd.Proofs.Types.Table

/-!
How a session grows. Nothing that has been stored goes away: types keep their kinds, except that
structures gain fields at their end and forward types are completed; identifiers keep all but their
export marks and spans, variables all but their values, and modules all but their imports.
-/

namespace FrontEnd

theorem size_le_of_getElem? {α : Type} {xs ys : Array α}
    (h : ∀ (i : Nat) (x : α), xs[i]? = some x → ∃ y, ys[i]? = some y) : xs.size ≤ ys.size := by
  apply Nat.le_of_not_lt
  intro hlt
  obtain ⟨y, hy⟩ := h ys.size xs[ys.size] (Array.getElem?_eq_getElem hlt)
  simp at hy

namespace TypeKind

/-- What a type that is not a forward type can become. -/
inductive Grows : TypeKind → TypeKind → Prop
  | refl (kind : TypeKind) : Grows kind kind
  | struct (fields more : List Field) : Grows (.struct fields) (.struct (fields ++ more))
  | interface (fields more : List Field) : Grows (.interface fields) (.interface (fields ++ more))

theorem Grows.trans {k l m : TypeKind} (h : k.Grows l) (h' : l.Grows m) : k.Grows m := by
  cases h with
  | refl => exact h'
  | struct fields more =>
    cases h' with
    | refl => exact .struct fields more
    | struct _ rest => rw [List.append_assoc]; exact .struct fields (more ++ rest)
  | interface fields more =>
    cases h' with
    | refl => exact .interface fields more
    | interface _ rest => rw [List.append_assoc]; exact .interface fields (more ++ rest)

theorem Grows.isForward {k l : TypeKind} (h : k.Grows l) (hk : k.isForward = false) :
    l.isForward = false := by
  cases h <;> exact hk

end TypeKind

namespace TypeTable

/-- All types of `t` are types of `u`. -/
structure Grows (t u : TypeTable) : Prop where
  size : t.size ≤ u.size
  kind : ∀ id : TypeId, id.index < t.size → t.isForward id = false → (t.kind id).Grows (u.kind id)

namespace Grows

theorem refl (t : TypeTable) : t.Grows t :=
  ⟨Nat.le_refl _, fun id _ _ => .refl (t.kind id)⟩

theorem isForward {t u : TypeTable} (h : t.Grows u) {id : TypeId} (hi : id.index < t.size)
    (hf : t.isForward id = false) : u.isForward id = false := by
  rw [isForward_eq] at hf ⊢
  exact (h.kind id hi (by rw [isForward_eq, hf])).isForward hf

theorem trans {t u v : TypeTable} (h : t.Grows u) (h' : u.Grows v) : t.Grows v where
  size := Nat.le_trans h.size h'.size
  kind id hi hf :=
    (h.kind id hi hf).trans (h'.kind id (Nat.lt_of_lt_of_le hi h.size) (h.isForward hi hf))

end Grows

end TypeTable

namespace Session

/-- All that is stored in `s` is stored in `t`. -/
structure Grows (s t : Session) : Prop where
  types : s.types.Grows t.types
  idents : ∀ id i, s.idents.get? id = some i →
    ∃ exported span, t.idents.get? id = some { i with exported, span }
  names : ∀ name ∈ s.names.texts, name ∈ t.names.texts
  globals : ∀ (slot : Nat) g, s.globals[slot]? = some g →
    ∃ value?, t.globals[slot]? = some { g with value? }
  modules : ∀ id m, s.modules.get? id = some m →
    ∃ imports, t.modules.get? id = some { m with imports }
  code : s.code.size ≤ t.code.size
  blocks : s.blocks.next ≤ t.blocks.next

namespace Grows

theorem refl (s : Session) : s.Grows s where
  types := .refl s.types
  idents _ i h := ⟨i.exported, i.span, h⟩
  names _ h := h
  globals _ g h := ⟨g.value?, h⟩
  modules _ m h := ⟨m.imports, h⟩
  code := Nat.le_refl _
  blocks := Nat.le_refl _

theorem trans {s t u : Session} (h : s.Grows t) (h' : t.Grows u) : s.Grows u where
  types := h.types.trans h'.types
  idents id i hi := by
    obtain ⟨e, p, hj⟩ := h.idents id i hi
    obtain ⟨e', p', hk⟩ := h'.idents id _ hj
    exact ⟨e', p', hk⟩
  names name hn := h'.names name (h.names name hn)
  globals slot g hg := by
    obtain ⟨v, hv⟩ := h.globals slot g hg
    obtain ⟨w, hw⟩ := h'.globals slot _ hv
    exact ⟨w, hw⟩
  modules id m hm := by
    obtain ⟨i, hi⟩ := h.modules id m hm
    obtain ⟨j, hj⟩ := h'.modules id _ hi
    exact ⟨j, hj⟩
  code := Nat.le_trans h.code h'.code
  blocks := Nat.le_trans h.blocks h'.blocks

theorem ident {s t : Session} (h : s.Grows t) {id : IdentId} {i : Ident}
    (hi : s.idents.get? id = some i) :
    ∃ j, t.idents.get? id = some j ∧ j.kind = i.kind ∧ j.type = i.type := by
  obtain ⟨e, p, hj⟩ := h.idents id i hi
  exact ⟨_, hj, rfl, rfl⟩

theorem idents_size {s t : Session} (h : s.Grows t) : s.idents.size ≤ t.idents.size :=
  size_le_of_getElem? fun id i hi => by
    obtain ⟨_, _, hj⟩ := h.idents ⟨id⟩ i hi
    exact ⟨_, hj⟩

theorem modules_size {s t : Session} (h : s.Grows t) : s.modules.size ≤ t.modules.size :=
  size_le_of_getElem? fun id m hm => by
    obtain ⟨imports, hi⟩ := h.modules ⟨id⟩ m hm
    exact ⟨_, hi⟩

theorem globals_size {s t : Session} (h : s.Grows t) : s.globals.size ≤ t.globals.size :=
  size_le_of_getElem? fun slot g hg => by
    obtain ⟨value?, hv⟩ := h.globals slot g hg
    exact ⟨_, hv⟩

end Grows

end Session

end FrontEnd
