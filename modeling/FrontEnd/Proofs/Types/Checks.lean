import FrontEnd.Proofs.Types.Equivalence
import FrontEnd.Proofs.Types.References
import FrontEnd.Expression.Evaluation

/-!
What the checks of types look at. Most of them see the outline of a kind only, also where two types
of different tables are compared; truth values, characters and the pointer to `void` are told by
their numbers.
-/

namespace FrontEnd

/-- What most checks see of a kind: what the type is made of, but not the parts. -/
def TypeKind.outline : TypeKind → TypeKind
  | .builtin b => .builtin b
  | .pointer _ => .pointer .void
  | .array .. => .array .void 0
  | .text _ => .text 0
  | .struct _ => .struct []
  | .interface _ => .interface []
  | .function _ => .function .empty
  | .forward _ => .forward none

/-- What sees outlines only does not tell kinds with the same outline apart. -/
theorem TypeKind.eq_of_outline {α : Type} (f : TypeKind → α) (hf : ∀ k : TypeKind, f k.outline = f k)
    {k l : TypeKind} (h : k.outline = l.outline) : f k = f l := by
  rw [← hf k, h, hf l]

theorem TypeKind.Matches.outline {R : TypeId → TypeId → Prop} {k l : TypeKind}
    (h : k.Matches R l) : k.outline = l.outline := by
  cases k <;> cases l <;> first | rfl | exact h.elim | exact congrArg TypeKind.builtin h

/-- Types that match, each of which is one that `P` or `Q` holds of. -/
theorem TypeKind.Matches.inter {R : TypeId → TypeId → Prop} {P Q : TypeId → Prop} {k l : TypeKind}
    (h : k.Matches R l) (hk : ∀ r ∈ k.refs, P r) (hl : ∀ r ∈ l.refs, Q r) :
    k.Matches (fun a b => R a b ∧ P a ∧ Q b) l := by
  have both {α : Type} {S : α → α → Prop} (f : α → TypeId) {as bs : List α}
      (hp : ∀ a ∈ as, P (f a)) (hq : ∀ b ∈ bs, Q (f b)) (h : List.Forall₂ S as bs) :
      List.Forall₂ (fun a b => S a b ∧ P (f a) ∧ Q (f b)) as bs := by
    induction h with
    | nil => exact .nil
    | cons hab _ ih =>
      refine .cons ⟨hab, hp _ List.mem_cons_self, hq _ List.mem_cons_self⟩ ?_
      exact ih (fun a ha => hp a (List.mem_cons_of_mem _ ha)) fun b hb =>
        hq b (List.mem_cons_of_mem _ hb)
  cases k <;> cases l <;> simp only [Matches] at h ⊢
  case pointer.pointer a b => exact ⟨h, hk a (List.mem_singleton_self a), hl b (List.mem_singleton_self b)⟩
  case array.array a _ b _ =>
    exact ⟨h.1, h.2, hk a (List.mem_singleton_self a), hl b (List.mem_singleton_self b)⟩
  case struct.struct as bs =>
    refine (both Field.type (fun a ha => hk _ (List.mem_map_of_mem ha))
      (fun b hb => hl _ (List.mem_map_of_mem hb)) h).imp ?_
    exact fun a b hab => ⟨hab.1.1, hab.1.2, hab.2⟩
  case interface.interface as bs =>
    refine (both Field.type (fun a ha => hk _ (List.mem_map_of_mem ha))
      (fun b hb => hl _ (List.mem_map_of_mem hb)) h).imp ?_
    exact fun a b hab => ⟨hab.1.1, hab.1.2, hab.2⟩
  case function.function f g =>
    have parameter {s : Signature} {p : Parameter} (hp : p ∈ s.compared) :
        p.type ∈ (TypeKind.function s).refs :=
      List.mem_append_left _ (List.mem_map_of_mem (List.mem_of_mem_drop hp))
    refine ⟨h.1, h.2.1, (both Parameter.type (fun a ha => hk _ (parameter ha))
      (fun b hb => hl _ (parameter hb)) h.2.2.1).imp fun a b hab => ⟨⟨hab.1.1, hab.2⟩, hab.1.2⟩, ?_⟩
    exact both id (fun a ha => hk a (List.mem_append_right _ ha))
      (fun b hb => hl b (List.mem_append_right _ hb)) h.2.2.2
  all_goals exact h

namespace TypeTable

variable {t u : TypeTable} {a b : TypeId}

/-- Structures are structured. -/
theorem isStructure_eq_false (h : t.isStructured a = false) : (t.kind a).isStructure = false := by
  unfold isStructured at h
  cases hk : t.kind a with
  | struct _ => rw [hk] at h; cases h
  | interface _ => rw [hk] at h; cases h
  | _ => rfl

/-- The table of one type. -/
def single (kind : TypeKind) : TypeTable := ⟨#[kind], []⟩

section Outlines

variable (h : (u.kind b).outline = (t.kind a).outline)
include h

theorem isForward_congr : u.isForward b = t.isForward a :=
  TypeKind.eq_of_outline (fun k => (single k).isForward ⟨0⟩) (by rintro ⟨⟩ <;> rfl) h

theorem isStructured_congr : u.isStructured b = t.isStructured a :=
  TypeKind.eq_of_outline (fun k => (single k).isStructured ⟨0⟩) (by rintro ⟨⟩ <;> rfl) h

theorem isInteger_congr : u.isInteger b = t.isInteger a :=
  TypeKind.eq_of_outline (fun k => (single k).isInteger ⟨0⟩) (by rintro ⟨⟩ <;> rfl) h

theorem isReal_congr : u.isReal b = t.isReal a :=
  TypeKind.eq_of_outline (fun k => (single k).isReal ⟨0⟩) (by rintro ⟨⟩ <;> rfl) h

theorem isNumeric_congr : u.isNumeric b = t.isNumeric a := by
  unfold isNumeric
  rw [isInteger_congr h, isReal_congr h]

theorem isOrdinal_congr : u.isOrdinal b = t.isOrdinal a :=
  TypeKind.eq_of_outline (fun k => (single k).isOrdinal ⟨0⟩) (by rintro ⟨⟩ <;> rfl) h

theorem isPointer_congr : u.isPointer b = t.isPointer a :=
  TypeKind.eq_of_outline (fun k => (single k).isPointer ⟨0⟩) (by rintro ⟨⟩ <;> rfl) h

theorem isText_congr : u.isText b = t.isText a :=
  TypeKind.eq_of_outline (fun k => (single k).isText ⟨0⟩) (by rintro ⟨⟩ <;> rfl) h

theorem hasOperator_congr (hb : b = .bool ↔ a = .bool) (hc : b = .char ↔ a = .char)
    (op : Operator) : u.hasOperator op b = t.hasOperator op a := by
  have bool : decide (b = .bool) = decide (a = .bool) := decide_eq_decide.2 hb
  have char : decide (b = .char) = decide (a = .char) := decide_eq_decide.2 hc
  unfold hasOperator
  rw [isNumeric_congr h, isText_congr h, isInteger_congr h, isOrdinal_congr h, isReal_congr h,
    isPointer_congr h, bool, char]

theorem hasUnaryOperator_congr (hb : b = .bool ↔ a = .bool) (op : UnaryOperator) :
    u.hasUnaryOperator op b = t.hasUnaryOperator op a := by
  have bool : decide (b = .bool) = decide (a = .bool) := decide_eq_decide.2 hb
  unfold hasUnaryOperator
  rw [isNumeric_congr h, bool]

end Outlines

theorem isAnyPointer_congr (h : u.kind b = t.kind a) : u.isAnyPointer b = t.isAnyPointer a := by
  unfold isAnyPointer
  rw [h]

theorem widens_congr {target source target' source' : TypeId}
    (ht : (u.kind target').outline = (t.kind target).outline)
    (hs : (u.kind source').outline = (t.kind source).outline) :
    u.widens target' source' = t.widens target source := by
  unfold widens
  rw [isReal_congr ht, isInteger_congr hs]

/-- Whether a value can be assigned depends on the structure of the types and on their families. -/
theorem compatible_congr {target source target' source' : TypeId}
    (ht : (u.kind target').outline = (t.kind target).outline)
    (hs : (u.kind source').outline = (t.kind source).outline)
    (ht' : u.isAnyPointer target' = t.isAnyPointer target)
    (hs' : u.isAnyPointer source' = t.isAnyPointer source)
    (he : u.equivalent target' source' = t.equivalent target source) :
    u.compatible target' source' = t.compatible target source := by
  unfold compatible
  rw [he, isInteger_congr ht, isInteger_congr hs, isReal_congr ht, isReal_congr hs,
    isPointer_congr ht, isPointer_congr hs, ht', hs', isText_congr ht, isText_congr hs]

/-- Equivalent types can be assigned to each other. -/
theorem compatible_of_equivalent (h : t.equivalent a b = true) : t.compatible a b = true := by
  unfold compatible
  rw [h]
  rfl

/-- Types that keep their kinds can still be assigned to each other, unless they are equivalent no
more. -/
theorem compatible_of_kinds (ha : u.kind a = t.kind a) (hb : u.kind b = t.kind b)
    (he : t.equivalent a b = true → u.equivalent a b = true) (hc : t.compatible a b = true) :
    u.compatible a b = true := by
  cases hu : u.equivalent a b with
  | true => exact compatible_of_equivalent hu
  | false =>
    have ht : t.equivalent a b = false := Bool.eq_false_iff.2 fun ht => by
      rw [he ht] at hu
      cases hu
    rw [compatible_congr (congrArg _ ha) (congrArg _ hb) (isAnyPointer_congr ha)
      (isAnyPointer_congr hb) (hu.trans ht.symm)]
    exact hc

/-- A forward type belongs to no family, so only equivalent types can be assigned to it. -/
theorem solid_of_compatible (h : t.compatible a b = true) :
    t.equivalent a b = true ∨ t.isForward a = false ∧ t.isForward b = false := by
  unfold compatible at h
  simp only [Bool.or_eq_true, Bool.and_eq_true] at h
  unfold isInteger isReal isPointer isText at h
  rw [isForward_eq, isForward_eq]
  cases ha : t.kind a <;> cases hb : t.kind b <;> simp_all [TypeKind.isForward]

end TypeTable

end FrontEnd
