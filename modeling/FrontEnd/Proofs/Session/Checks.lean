import FrontEnd.Proofs.Session.InUse
import FrontEnd.Proofs.Types.Checks

/-!
What a check of types has accepted is accepted later on as well, as long as the types that were
checked are in use.
-/

namespace FrontEnd.Session

variable {U : Set TypeId} {s u : Session} {a b : TypeId}

/-- A type that is in use and has been declared. -/
structure Settles (s : Session) (id : TypeId) : Prop where
  inUse : s.InUse id
  solid : s.types.isForward id = false

theorem Fixes.settles (f : s.Fixes u) (h : s.Settles a) : u.Settles a where
  inUse := f.inUse a h.inUse
  solid := (TypeTable.isForward_congr (congrArg _ (f.kind a h.inUse h.solid))).trans h.solid

theorem Fixes.kind_eq (f : s.Fixes u) (h : s.Settles a) : u.types.kind a = s.types.kind a :=
  f.kind a h.inUse h.solid

theorem Fixes.outline_eq (f : s.Fixes u) (h : s.Settles a) :
    (u.types.kind a).outline = (s.types.kind a).outline :=
  congrArg _ (f.kind_eq h)

/-- Different forward types have different names. -/
theorem Valid.eq_of_forward (h : s.Valid U) {ident? : Option IdentId}
    (ha : s.types.kind a = .forward ident?) (hb : s.types.kind b = .forward ident?) : a = b := by
  cases ident? with
  | none => exact TypeId.ext (Nat.succ_inj.1 ((h.newest a ha).trans (h.newest b hb).symm))
  | some ident =>
    obtain ⟨i, hi, _, rfl⟩ := h.forwards a ident ha
    obtain ⟨j, hj, _, rfl⟩ := h.forwards b ident hb
    rw [hi] at hj
    rw [Option.some_inj.1 hj]

/-- Equivalent types are equivalent in any table in which whatever they refer to has kept its kind,
forward types apart. -/
theorem Valid.equivalent_of_kinds (h : s.Valid U) {types : TypeTable} {P : TypeId → Prop}
    (closed : ∀ id, P id → ∀ r ∈ (s.types.kind id).refs, P r)
    (kept : ∀ id, P id → s.types.isForward id = false → types.kind id = s.types.kind id)
    (ha : P a) (hb : P b) (he : s.types.equivalent a b = true) : types.equivalent a b = true := by
  obtain ⟨R, hab, hR⟩ := TypeTable.equivalent_iff.1 he
  refine TypeTable.equivalent_iff.2 ⟨fun x y => R x y ∧ P x ∧ P y, ⟨hab, ha, hb⟩, ?_⟩
  rintro x y ⟨hxy, hx, hy⟩ hne
  have same := hR x y hxy hne
  -- Forward types that match are one type; any others have kept their kinds.
  have solid : s.types.isForward x = false ∧ s.types.isForward y = false := by
    rw [TypeTable.isForward_eq, TypeTable.isForward_eq]
    cases hkx : s.types.kind x <;> cases hky : s.types.kind y <;> rw [hkx, hky] at same <;>
      first | exact same.elim | exact ⟨rfl, rfl⟩ | skip
    obtain rfl : _ = _ := same
    exact absurd (h.eq_of_forward hkx hky) hne
  rw [kept x hx solid.1, kept y hy solid.2]
  refine (same.inter (closed x hx) (closed y hy)).mono ?_
  rintro v w ⟨rfl | hvw, hv, hw⟩
  · exact .inl rfl
  · exact .inr ⟨hvw, hv, hw⟩

theorem Fixes.equivalent (f : s.Fixes u) (h : s.Valid U) (ha : s.InUse a) (hb : s.InUse b)
    (he : s.types.equivalent a b = true) : u.types.equivalent a b = true :=
  h.equivalent_of_kinds (fun _ _ _ hr => h.inUse_ref hr) f.kind ha hb he

theorem Fixes.compatible (f : s.Fixes u) (h : s.Valid U) (ha : s.Settles a) (hb : s.Settles b)
    (hc : s.types.compatible a b = true) : u.types.compatible a b = true :=
  TypeTable.compatible_of_kinds (f.kind_eq ha) (f.kind_eq hb)
    (f.equivalent h ha.inUse hb.inUse) hc

theorem Fixes.hasOperator (f : s.Fixes u) (h : s.Settles a) (op : Operator) :
    u.types.hasOperator op a = s.types.hasOperator op a :=
  TypeTable.hasOperator_congr (f.outline_eq h) Iff.rfl Iff.rfl op

theorem Fixes.hasUnaryOperator (f : s.Fixes u) (h : s.Settles a) (op : UnaryOperator) :
    u.types.hasUnaryOperator op a = s.types.hasUnaryOperator op a :=
  TypeTable.hasUnaryOperator_congr (f.outline_eq h) Iff.rfl op

theorem Fixes.widens (f : s.Fixes u) (ha : s.Settles a) (hb : s.Settles b) :
    u.types.widens a b = s.types.widens a b :=
  TypeTable.widens_congr (f.outline_eq ha) (f.outline_eq hb)

end FrontEnd.Session
