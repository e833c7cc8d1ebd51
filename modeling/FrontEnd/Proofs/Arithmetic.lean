import FrontEnd.Constant
import FrontEnd.Proofs.Number.Word

/-!
Arithmetic on integer constants. A constant expression folds to the exact result of the operator if
that is a word, and says so if it is none. Only a remainder goes by its quotient: where that is no
word, the remainder does not fold either, although it would be zero.
-/

namespace FrontEnd

/-- `q` is the quotient of `a` by `b` toward zero, and `r` what is left, with the sign of `a`. -/
structure IsDivision (a b q r : Int) : Prop where
  whole : a = b * q + r
  smaller : r.natAbs < b.natAbs
  nonneg : 0 ≤ a → 0 ≤ r
  nonpos : a ≤ 0 → r ≤ 0

theorem isDivision_iff {a b q r : Int} :
    IsDivision a b q r ↔ b ≠ 0 ∧ a.tdiv b = q ∧ a.tmod b = r := by
  constructor
  · rintro ⟨whole, smaller, nonneg, nonpos⟩
    have divisor : b ≠ 0 := by
      rintro rfl
      exact Nat.not_lt_zero _ smaller
    refine ⟨divisor, ?_⟩
    rcases Int.le_total 0 a with ha | ha
    · exact (Int.tdiv_tmod_unique ha divisor).2 ⟨by omega, nonneg ha, by omega⟩
    · exact (Int.tdiv_tmod_unique' ha divisor).2 ⟨by omega, by have := nonpos ha; omega, nonpos ha⟩
  · rintro ⟨divisor, rfl, rfl⟩
    refine ⟨(Int.mul_tdiv_add_tmod a b).symm, ?_, Int.tmod_nonneg b, fun ha => ?_⟩
    · rw [Int.natAbs_tmod]
      exact Nat.mod_lt _ (Int.natAbs_pos.2 divisor)
    · exact ((Int.tdiv_tmod_unique' ha divisor).1 ⟨rfl, rfl⟩).2.2

namespace Operator

/-- The exact result of an operator on two integers. -/
inductive Exact : Operator → Int → Int → Int → Prop
  | add (a b : Int) : Exact .add a b (a + b)
  | subtract (a b : Int) : Exact .subtract a b (a - b)
  | multiply (a b : Int) : Exact .multiply a b (a * b)
  | divide {a b q r : Int} (h : IsDivision a b q r) : Exact .divide a b q
  | modulus {a b q r : Int} (h : IsDivision a b q r) : Exact .modulus a b r

/-- The operators that have an integer for a result. -/
def isArithmetic : Operator → Bool
  | add | subtract | multiply | divide | modulus => true
  | _ => false

/-- Whether an operator divides by its right operand. -/
def divides : Operator → Bool
  | divide | modulus => true
  | _ => false

end Operator

namespace Word

/-- Only the smallest word divided by `-1` has a quotient that is no word. -/
theorem fits_tdiv_iff {a b : Int64} (hb : b.toInt ≠ 0) :
    Fits (a.toInt.tdiv b.toInt) ↔ ¬ (a = Int64.minValue ∧ b = -1) := by
  obtain ⟨low, high⟩ := fits_toInt a
  have least : a = Int64.minValue ↔ a.toInt = -0x8000000000000000 := Int64.toInt_inj.symm
  have minusOne : b = -1 ↔ b.toInt = -1 := Int64.toInt_inj.symm
  rw [least, minusOne]
  rcases Nat.lt_or_ge 1 b.toInt.natAbs with large | small
  · -- The quotient has at most half the size of the dividend.
    have half : (a.toInt.tdiv b.toInt).natAbs ≤ a.toInt.natAbs / 2 := by
      rw [Int.natAbs_tdiv]
      exact Nat.div_le_div_left large (by decide)
    unfold Fits
    omega
  · obtain one | minusOne : b.toInt = 1 ∨ b.toInt = -1 := by omega
    · rw [one, Int.tdiv_one]
      unfold Fits
      omega
    · rw [minusOne, Int.tdiv_neg, Int.tdiv_one]
      unfold Fits
      omega

theorem fits_tmod {a b : Int64} (hb : b.toInt ≠ 0) : Fits (a.toInt.tmod b.toInt) := by
  obtain ⟨low, high⟩ := fits_toInt b
  have smaller := (isDivision_iff.2 ⟨hb, rfl, rfl⟩ : IsDivision a.toInt b.toInt _ _).smaller
  unfold Fits
  omega

/-- What has been divided is a word again when it is multiplied back. -/
theorem fits_tdiv_mul (a b : Int64) : Fits (a.toInt.tdiv b.toInt * b.toInt) := by
  obtain ⟨low, high⟩ := fits_toInt a
  have whole := Int.tdiv_mul_add_tmod a.toInt b.toInt
  have rest : (a.toInt.tmod b.toInt).natAbs ≤ a.toInt.natAbs := by
    rw [Int.natAbs_tmod]
    exact Nat.mod_le _ _
  have product : (a.toInt.tdiv b.toInt * b.toInt).natAbs ≤ a.toInt.natAbs := by
    rw [Int.natAbs_mul, Int.natAbs_tdiv]
    exact Nat.div_mul_le_self _ _
  unfold Fits
  omega

end Word

namespace Constant

open Word

/-- The words of which the quotient is no word, so that the remainder, which is zero, is not taken. -/
def IsLostRemainder (op : Operator) (a b : Int64) : Prop :=
  op = .modulus ∧ a = Int64.minValue ∧ b = -1

theorem ofWord?_ofInt? (n : Int) : ofWord? (ofInt? n) =
    if Fits n then .ok (int (Int64.ofInt n)) else .error .overflow := by
  unfold ofInt?
  split <;> rfl

variable {op : Operator} {a b : Int64} {n : Int}

theorem foldInt_zero (h : op.divides = true) (a : Int64) :
    foldInt op a 0 = .error .divisionByZero := by
  cases op <;> first | rfl | cases h

theorem foldInt_of_lost (h : IsLostRemainder op a b) : foldInt op a b = .error .overflow := by
  obtain ⟨rfl, rfl, rfl⟩ := h
  have none : rem? Int64.minValue (-1) = none := by decide
  unfold foldInt
  rw [if_neg (by decide), none]
  rfl

theorem foldInt_of_exact (h : op.Exact a.toInt b.toInt n) (kept : ¬ IsLostRemainder op a b) :
    foldInt op a b = if Fits n then .ok (int (Int64.ofInt n)) else .error .overflow := by
  have nonzero (hb : b.toInt ≠ 0) : b ≠ 0 := fun he => hb (he ▸ rfl)
  generalize ha : a.toInt = x at h
  generalize hb : b.toInt = y at h
  cases h with
  | add => exact hb ▸ ha ▸ ofWord?_ofInt? _
  | subtract => exact hb ▸ ha ▸ ofWord?_ofInt? _
  | multiply => exact hb ▸ ha ▸ ofWord?_ofInt? _
  | divide division =>
    obtain ⟨divisor, rfl, -⟩ := isDivision_iff.1 division
    subst ha hb
    exact (if_neg (nonzero divisor)).trans (ofWord?_ofInt? _)
  | modulus division =>
    obtain ⟨divisor, -, rfl⟩ := isDivision_iff.1 division
    subst ha hb
    have quotient := (fits_tdiv_iff divisor).2 fun lost => kept ⟨rfl, lost⟩
    refine (if_neg (nonzero divisor)).trans ?_
    unfold rem?
    rw [if_pos quotient, ofWord?_ofInt?]

/-- An arithmetic operator has an exact result, unless it divides by zero. -/
theorem exists_exact (arithmetic : op.isArithmetic = true) (a b : Int64) :
    op.divides = true ∧ b = 0 ∨ ∃ n, op.Exact a.toInt b.toInt n := by
  have division (hb : b ≠ 0) : IsDivision a.toInt b.toInt _ _ :=
    isDivision_iff.2 ⟨fun he => hb (Int64.toInt_inj.1 he), rfl, rfl⟩
  by_cases zero : b = 0
  · cases op with
    | add => exact .inr ⟨_, .add _ _⟩
    | subtract => exact .inr ⟨_, .subtract _ _⟩
    | multiply => exact .inr ⟨_, .multiply _ _⟩
    | divide => exact .inl ⟨rfl, zero⟩
    | modulus => exact .inl ⟨rfl, zero⟩
    | _ => cases arithmetic
  · cases op with
    | add => exact .inr ⟨_, .add _ _⟩
    | subtract => exact .inr ⟨_, .subtract _ _⟩
    | multiply => exact .inr ⟨_, .multiply _ _⟩
    | divide => exact .inr ⟨_, .divide (division zero)⟩
    | modulus => exact .inr ⟨_, .modulus (division zero)⟩
    | _ => cases arithmetic

theorem foldInt_eq_ok_iff (arithmetic : op.isArithmetic = true) {c : Constant} :
    foldInt op a b = .ok c ↔ ∃ n, op.Exact a.toInt b.toInt n ∧ Fits n ∧ ¬ IsLostRemainder op a b ∧
      c = int (Int64.ofInt n) := by
  constructor
  · intro folds
    rcases exists_exact arithmetic a b with ⟨divides, rfl⟩ | ⟨n, exact⟩
    · cases (foldInt_zero divides a).symm.trans folds
    · by_cases lost : IsLostRemainder op a b
      · cases (foldInt_of_lost lost).symm.trans folds
      · rw [foldInt_of_exact exact lost] at folds
        split at folds
        · rename_i fits
          cases folds
          exact ⟨n, exact, fits, lost, rfl⟩
        · cases folds
  · rintro ⟨n, exact, fits, kept, rfl⟩
    rw [foldInt_of_exact exact kept, if_pos fits]

theorem foldInt_eq_error_iff (arithmetic : op.isArithmetic = true) {fault : FoldFault} :
    foldInt op a b = .error fault ↔ fault = .divisionByZero ∧ op.divides = true ∧ b = 0 ∨
      fault = .overflow ∧
        ((∃ n, op.Exact a.toInt b.toInt n ∧ ¬ Fits n) ∨ IsLostRemainder op a b) := by
  constructor
  · intro fails
    rcases exists_exact arithmetic a b with ⟨divides, rfl⟩ | ⟨n, exact⟩
    · cases (foldInt_zero divides a).symm.trans fails
      exact .inl ⟨rfl, divides, rfl⟩
    · by_cases lost : IsLostRemainder op a b
      · cases (foldInt_of_lost lost).symm.trans fails
        exact .inr ⟨rfl, .inr lost⟩
      · rw [foldInt_of_exact exact lost] at fails
        split at fails
        · cases fails
        · rename_i large
          cases fails
          exact .inr ⟨rfl, .inl ⟨n, exact, large⟩⟩
  · rintro (⟨rfl, divides, rfl⟩ | ⟨rfl, ⟨n, exact, large⟩ | lost⟩)
    · exact foldInt_zero divides a
    · by_cases lost : IsLostRemainder op a b
      · exact foldInt_of_lost lost
      · rw [foldInt_of_exact exact lost, if_neg large]
    · exact foldInt_of_lost lost

/-- Quotient and remainder that fold make up the dividend again. -/
theorem folds_back {q r : Constant} (quotient : foldInt .divide a b = .ok q)
    (remainder : foldInt .modulus a b = .ok r) :
    ∃ p, foldBinary .multiply q (int b) = .ok p ∧ foldBinary .add p r = .ok (int a) := by
  obtain ⟨n, exact, fits, -, rfl⟩ := (foldInt_eq_ok_iff rfl).1 quotient
  obtain ⟨m, exact', fits', -, rfl⟩ := (foldInt_eq_ok_iff rfl).1 remainder
  have product : (Int64.ofInt n).toInt * b.toInt + (Int64.ofInt m).toInt = a.toInt ∧
      Fits ((Int64.ofInt n).toInt * b.toInt) := by
    rw [toInt_ofInt fits, toInt_ofInt fits']
    cases exact with
    | divide division =>
      cases exact' with
      | modulus division' =>
        obtain ⟨-, rfl, -⟩ := isDivision_iff.1 division
        obtain ⟨-, -, rfl⟩ := isDivision_iff.1 division'
        exact ⟨Int.tdiv_mul_add_tmod _ _, fits_tdiv_mul a b⟩
  refine ⟨int (Int64.ofInt ((Int64.ofInt n).toInt * b.toInt)), ?_, ?_⟩
  · exact (foldInt_eq_ok_iff rfl).2 ⟨_, .multiply _ _, product.2, nofun, rfl⟩
  · have sum : (Int64.ofInt ((Int64.ofInt n).toInt * b.toInt)).toInt + (Int64.ofInt m).toInt =
        a.toInt := by
      rw [toInt_ofInt product.2, product.1]
    refine (foldInt_eq_ok_iff rfl).2 ⟨_, .add _ _, sum ▸ fits_toInt a, nofun, ?_⟩
    rw [sum, Int64.ofInt_toInt]

theorem foldUnary_negate (a : Int64) : foldUnary .negate (int a) =
    if Fits (-a.toInt) then .ok (int (Int64.ofInt (-a.toInt))) else .error .overflow :=
  ofWord?_ofInt? _

/-- Integers fold to the exact result of an arithmetic operator, if that is a word. They fold to a
division by zero just when something is divided by zero, and to an overflow where the exact result is
no word, and for a remainder also where the quotient is none; so does the negation of an integer. A
quotient and a remainder that fold make up the dividend again. -/
theorem foldBinary_exact (a b : Int64) :
    (∀ op : Operator, op.isArithmetic = true →
      (∀ c, foldBinary op (int a) (int b) = .ok c ↔
        ∃ n, op.Exact a.toInt b.toInt n ∧ Fits n ∧ ¬ IsLostRemainder op a b ∧
          c = int (Int64.ofInt n)) ∧
      ∀ fault, foldBinary op (int a) (int b) = .error fault ↔
        fault = .divisionByZero ∧ op.divides = true ∧ b = 0 ∨
        fault = .overflow ∧
          ((∃ n, op.Exact a.toInt b.toInt n ∧ ¬ Fits n) ∨ IsLostRemainder op a b)) ∧
    ((∀ c, foldUnary .negate (int a) = .ok c ↔
        Fits (-a.toInt) ∧ c = int (Int64.ofInt (-a.toInt))) ∧
      ∀ fault, foldUnary .negate (int a) = .error fault ↔
        fault = .overflow ∧ ¬ Fits (-a.toInt)) ∧
    ∀ q r, foldBinary .divide (int a) (int b) = .ok q →
      foldBinary .modulus (int a) (int b) = .ok r →
      ∃ p, foldBinary .multiply q (int b) = .ok p ∧ foldBinary .add p r = .ok (int a) := by
  refine ⟨fun op arithmetic => ⟨fun c => foldInt_eq_ok_iff arithmetic,
    fun fault => foldInt_eq_error_iff arithmetic⟩, ?_, fun q r => folds_back⟩
  rw [foldUnary_negate]
  by_cases fits : Fits (-a.toInt)
  · simp [fits, eq_comm]
  · simp [fits, eq_comm]

/-- A negative dividend has a negative remainder, and the quotient is cut off toward zero. -/
theorem foldBinary_negative_dividend :
    foldBinary .divide (int (-7)) (int 2) = .ok (int (-3)) ∧
    foldBinary .modulus (int (-7)) (int 2) = .ok (int (-1)) ∧
    ∃ p, foldBinary .multiply (int (-3)) (int 2) = .ok p ∧
      foldBinary .add p (int (-1)) = .ok (int (-7)) :=
  ⟨rfl, rfl, (foldBinary_exact (-7) 2).2.2 _ _ rfl rfl⟩

/-- The smallest integer has the remainder zero when it is divided by `-1`, which is a word; but that
remainder does not fold. -/
theorem foldBinary_smallest_modulus :
    ¬ (foldBinary .modulus (int Int64.minValue) (int (-1)) = .error .overflow ↔
      ∃ n, Operator.Exact .modulus Int64.minValue.toInt (-1 : Int64).toInt n ∧ ¬ Fits n) := by
  intro claimed
  obtain ⟨n, exact, large⟩ := claimed.1 (foldInt_of_lost ⟨rfl, rfl, rfl⟩)
  cases exact with
  | modulus division =>
    obtain ⟨divisor, -, rfl⟩ := isDivision_iff.1 division
    exact large (fits_tmod divisor)

end Constant

end FrontEnd
