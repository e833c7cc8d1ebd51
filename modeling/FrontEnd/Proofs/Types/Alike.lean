import FrontEnd.Proofs.Types.Checks

/-!
Types that no check tells apart: they are equivalent, and none of them is told by its number where
the other one is not. Types that are made of such types alike are not told apart either.
-/

namespace FrontEnd

/-- The kinds of the types that some checks tell by their numbers. -/
def TypeKind.isTold : TypeKind → Bool
  | .builtin b => b = .void || b = .null || b = .bool || b = .char
  | _ => false

theorem TypeKind.Matches.isTold {R : TypeId → TypeId → Prop} {k l : TypeKind}
    (h : k.Matches R l) : k.isTold = l.isTold := by
  cases k <;> cases l <;> first | rfl | exact h.elim | exact congrArg TypeKind.isTold (congrArg _ h)

namespace TypeTable

variable {t : TypeTable} {a b c d : TypeId}

/-- No check tells the types apart. -/
structure Alike (t : TypeTable) (a b : TypeId) : Prop where
  known : a.index < t.size ∧ b.index < t.size
  equivalent : t.equivalent a b = true
  void : a = .void ↔ b = .void
  null : a = .null ↔ b = .null
  bool : a = .bool ↔ b = .bool
  char : a = .char ↔ b = .char
  anyPointer : t.isAnyPointer a = t.isAnyPointer b

theorem equivalent_symm (h : t.equivalent a b = true) : t.equivalent b a = true := by
  obtain ⟨R, hab, hR⟩ := equivalent_iff.1 h
  exact equivalent_iff.2 ⟨_, hab, hR.flip⟩

theorem equivalent_trans (h : t.equivalent a b = true) (h' : t.equivalent b c = true) :
    t.equivalent a c = true := by
  obtain ⟨R, hab, hR⟩ := equivalent_iff.1 h
  obtain ⟨S, hbc, hS⟩ := equivalent_iff.1 h'
  exact equivalent_iff.2 ⟨_, ⟨b, .inr hab, .inr hbc⟩, hR.comp hS⟩

theorem equivalent_congr (h : t.equivalent a b = true) (h' : t.equivalent c d = true) :
    t.equivalent a c = t.equivalent b d :=
  Bool.eq_iff_iff.2
    ⟨fun he => equivalent_trans (equivalent_symm h) (equivalent_trans he h'),
      fun he => equivalent_trans h (equivalent_trans he (equivalent_symm h'))⟩

/-- The kinds of equivalent types bear them out. -/
theorem matches_of_equivalent (h : t.equivalent a b = true) (hne : a ≠ b) :
    (t.kind a).Matches (fun x y => t.equivalent x y = true) (t.kind b) := by
  obtain ⟨R, hab, hR⟩ := equivalent_iff.1 h
  refine (hR a b hab hne).mono fun x y hxy => ?_
  rcases hxy with rfl | hxy
  · exact t.equivalent_refl x
  · exact equivalent_iff.2 ⟨R, hxy, hR⟩

namespace Alike

theorem refl (known : a.index < t.size) : t.Alike a a :=
  ⟨⟨known, known⟩, t.equivalent_refl a, Iff.rfl, Iff.rfl, Iff.rfl, Iff.rfl, rfl⟩

theorem symm (h : t.Alike a b) : t.Alike b a :=
  ⟨h.known.symm, equivalent_symm h.equivalent, h.void.symm, h.null.symm, h.bool.symm, h.char.symm,
    h.anyPointer.symm⟩

theorem trans (h : t.Alike a b) (h' : t.Alike b c) : t.Alike a c :=
  ⟨⟨h.known.1, h'.known.2⟩, equivalent_trans h.equivalent h'.equivalent, h.void.trans h'.void,
    h.null.trans h'.null, h.bool.trans h'.bool, h.char.trans h'.char,
    h.anyPointer.trans h'.anyPointer⟩

/-! ### Checks -/

theorem outline (h : t.Alike a b) : (t.kind a).outline = (t.kind b).outline := by
  by_cases he : a = b
  · rw [he]
  · exact (matches_of_equivalent h.equivalent he).outline

theorem hasOperator (h : t.Alike a b) (op : Operator) : t.hasOperator op a = t.hasOperator op b :=
  hasOperator_congr h.outline h.bool h.char op

theorem hasUnaryOperator (h : t.Alike a b) (op : UnaryOperator) :
    t.hasUnaryOperator op a = t.hasUnaryOperator op b :=
  hasUnaryOperator_congr h.outline h.bool op

theorem widens (h : t.Alike a b) (h' : t.Alike c d) : t.widens a c = t.widens b d :=
  widens_congr h.outline h'.outline

theorem compatible (h : t.Alike a b) (h' : t.Alike c d) : t.compatible a c = t.compatible b d :=
  compatible_congr h.outline h'.outline h.anyPointer h'.anyPointer
    (equivalent_congr h.equivalent h'.equivalent)

end Alike

/-! ### Types that are alike -/

/-- The builtin types are there, and types refer to types of the table only. -/
structure IsClosed (t : TypeTable) : Prop where
  builtins : initial.size ≤ t.size
  refs : ∀ id, ∀ r ∈ (t.kind id).refs, r.index < t.size

theorem IsClosed.add (h : t.IsClosed) {kind : TypeKind} (hr : ∀ r ∈ kind.refs, r.index < t.size) :
    (t.add kind).2.IsClosed := by
  refine ⟨by rw [size_add]; exact Nat.le_succ_of_le h.builtins, fun id r hm => ?_⟩
  rw [size_add]
  rw [kind_add] at hm
  split at hm
  · exact Nat.lt_succ_of_lt (hr r hm)
  · exact Nat.lt_succ_of_lt (h.refs id r hm)

theorem Alike.resultType (h : t.Alike a b) (closed : t.IsClosed) (op : Operator) :
    t.Alike (op.resultType a) (op.resultType b) := by
  unfold Operator.resultType
  split
  · exact .refl (Nat.lt_of_lt_of_le (by decide) closed.builtins)
  · exact h

/-- Types that are added later make no difference. -/
theorem Alike.add (h : t.Alike a b) (closed : t.IsClosed) (kind : TypeKind) :
    (t.add kind).2.Alike a b := by
  have kept {id : TypeId} (known : id.index < t.size) : (t.add kind).2.kind id = t.kind id :=
    kind_add_of_ne kind (Nat.ne_of_lt known)
  have known {id : TypeId} (hk : id.index < t.size) : id.index < (t.add kind).2.size := by
    rw [size_add]
    exact Nat.lt_succ_of_lt hk
  refine ⟨h.known.imp known known, ?_, h.void, h.null, h.bool, h.char, ?_⟩
  · refine equivalent_iff.2 ⟨fun x y => t.equivalent x y = true ∧ x.index < t.size ∧
      y.index < t.size, ⟨h.equivalent, h.known⟩, ?_⟩
    rintro x y ⟨hxy, hx, hy⟩ hne
    rw [kept hx, kept hy]
    exact ((matches_of_equivalent hxy hne).inter (closed.refs x) (closed.refs y)).mono
      fun _ _ hvw => .inr hvw
  · rw [isAnyPointer_congr (kept h.known.1), isAnyPointer_congr (kept h.known.2)]
    exact h.anyPointer

end TypeTable

end FrontEnd
