import FrontEnd.Constant
import Mathlib.Order.Basic

/-!
Reals as numbers: their equality is symmetric and transitive, and two reals have an order unless one
of them is no number.
-/

namespace FrontEnd

/-- Finite reals of one sign are equal if their mantissas and exponents are. -/
theorem compare_finite_iff (s : Float.Model.UnpackedFloat.Sign) {m n : Nat} (e f : Int)
    (hm : 0 < m) (hn : 0 < n) :
    (Float.Model.UnpackedFloat.finite s m e hm).compare (.finite s n f hn) = some .eq ↔
      m = n ∧ e = f := by
  have lexicographic : (compare e f).then (compare m n) = .eq ↔ m = n ∧ e = f := by
    rw [Ordering.then_eq_eq, Int.compare_eq_eq, Nat.compare_eq_eq, and_comm]
  cases s with
  | positive => exact (Option.some_inj).trans lexicographic
  | negative => exact (Option.some_inj).trans (Ordering.swap_eq_eq.trans lexicographic)

/-- Reals are equal if they are the same and a number, or if both are zeros. -/
theorem unpacked_beq_iff (a b : Float.Model.UnpackedFloat) :
    a.beq b = true ↔ (a = b ∧ a ≠ .notANumber) ∨ ∃ r s, a = .zero r ∧ b = .zero s := by
  show (a.compare b == some .eq) = true ↔ _
  rw [beq_iff_eq]
  constructor
  · intro h
    cases a with
    | infinity s =>
      cases s <;> cases b with
      | infinity r => cases r <;> first | exact .inl ⟨rfl, nofun⟩ | cases h
      | _ => cases h
    | notANumber => cases h
    | zero s =>
      cases b with
      | zero r => exact .inr ⟨s, r, rfl, rfl⟩
      | infinity r | finite r => cases r <;> cases h
      | notANumber => cases h
    | finite s m e hm =>
      cases b with
      | finite r n f hn =>
        have same : s = r := by cases s <;> cases r <;> first | rfl | cases h
        subst same
        obtain ⟨rfl, rfl⟩ := (compare_finite_iff s e f hm hn).1 h
        exact .inl ⟨rfl, nofun⟩
      | infinity r => cases s <;> cases r <;> cases h
      | zero r => cases s <;> cases h
      | notANumber => cases s <;> cases h
  · rintro (⟨rfl, number⟩ | ⟨r, s, rfl, rfl⟩)
    · cases a with
      | infinity s => cases s <;> rfl
      | notANumber => exact absurd rfl number
      | zero s => rfl
      | finite s m e hm => exact (compare_finite_iff s e e hm hm).2 ⟨rfl, rfl⟩
    · rfl

theorem real_beq_symm {a b : Float} (h : (a == b) = true) : (b == a) = true := by
  have hab := (unpacked_beq_iff _ _).1 h
  apply (unpacked_beq_iff _ _).2
  grind

theorem real_beq_trans {a b c : Float} (hab : (a == b) = true) (hbc : (b == c) = true) :
    (a == c) = true := by
  have h₁ := (unpacked_beq_iff _ _).1 hab
  have h₂ := (unpacked_beq_iff _ _).1 hbc
  apply (unpacked_beq_iff _ _).2
  grind

/-- The order of two reals from the other side. -/
theorem unpacked_compare_swap (a b : Float.Model.UnpackedFloat) :
    b.compare a = (a.compare b).map Ordering.swap := by
  cases a with
  | infinity s =>
    cases s <;> cases b with
    | infinity r => cases r <;> rfl
    | _ => rfl
  | notANumber => cases b with
    | infinity r => cases r <;> rfl
    | _ => rfl
  | zero s => cases b with
    | infinity r => cases r <;> rfl
    | finite r => cases r <;> rfl
    | _ => rfl
  | finite s m e =>
    cases s <;> cases b with
    | infinity r => cases r <;> rfl
    | finite r n f =>
      have back : (compare f e).then (compare n m) = ((compare e f).then (compare m n)).swap := by
        rw [Ordering.swap_then, Int.compare_swap, Nat.compare_swap]
      cases r <;> first | rfl | exact congrArg some back | exact congrArg (some ·.swap) back
    | _ => rfl

theorem isNaN_of_compare {a b : Float.Model.UnpackedFloat} (h : a.compare b = none) :
    a.isNaN = true ∨ b.isNaN = true := by
  cases a with
  | notANumber => exact .inl rfl
  | infinity s =>
    cases s <;> cases b with
    | notANumber => exact .inr rfl
    | infinity r => cases r <;> cases h
    | _ => cases h
  | zero s =>
    cases b with
    | notANumber => exact .inr rfl
    | zero r => cases h
    | _ r => cases r <;> cases h
  | finite s =>
    cases s <;> cases b with
    | notANumber => exact .inr rfl
    | zero r => cases h
    | _ r => cases r <;> cases h

theorem real_lt_iff (x y : Float) :
    x < y ↔ x.toModel.unpack.compare y.toModel.unpack = some .lt := by
  show decide (x.toModel.unpack.lt y.toModel.unpack = true) = true ↔ _
  simp [Float.Model.UnpackedFloat.lt]

theorem real_beq_iff (x y : Float) :
    (x == y) = true ↔ x.toModel.unpack.compare y.toModel.unpack = some .eq := by
  show (x.toModel.unpack.compare y.toModel.unpack == some .eq) = true ↔ _
  rw [beq_iff_eq]

theorem Constant.realOrder?_eq_none {x y : Float} (h : realOrder? x y = none) :
    x.isNaN = true ∨ y.isNaN = true := by
  apply isNaN_of_compare
  unfold realOrder? at h
  simp only [real_lt_iff, real_beq_iff] at h
  rw [unpacked_compare_swap x.toModel.unpack] at h
  generalize x.toModel.unpack.compare y.toModel.unpack = order? at h
  rcases order? with _ | _ | _ | _ <;> simp_all

end FrontEnd
