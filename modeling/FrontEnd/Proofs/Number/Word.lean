import FrontEnd.Number.Word

/-!
What sums of words say about the words.
-/

namespace FrontEnd.Word

theorem add?_eq_some_iff {a b c : Int64} : add? a b = some c ↔ c.toInt = a.toInt + b.toInt :=
  ofInt?_eq_some_iff

/-- There is no sum of words where the exact one is no word. -/
theorem add?_eq_none_iff {a b : Int64} : add? a b = none ↔ ¬ Fits (a.toInt + b.toInt) := by
  unfold add? ofInt?
  split
  · rename_i fits
    exact ⟨nofun, fun h => absurd fits h⟩
  · rename_i fits
    exact ⟨fun _ => fits, fun _ => rfl⟩

theorem mul?_eq_some_iff {a b c : Int64} : mul? a b = some c ↔ c.toInt = a.toInt * b.toInt :=
  ofInt?_eq_some_iff

/-- A sum that is a word is the sum of words that wraps around. -/
theorem eq_add_of_add? {a b c : Int64} (h : add? a b = some c) : c = a + b := by
  have fits : Fits (a.toInt + b.toInt) := by
    rw [← add?_eq_some_iff.1 h]
    exact fits_toInt c
  apply Int64.toInt_inj.1
  rw [add?_eq_some_iff.1 h, Int64.toInt_add]
  obtain ⟨h₁, h₂⟩ := fits
  exact (Int.bmod_eq_of_le (by omega) (by omega)).symm

theorem nonneg_iff {a : Int64} : 0 ≤ a ↔ 0 ≤ a.toInt :=
  Int64.le_iff_toInt_le

theorem toInt_add_one {a : Int64} (h : a < Int64.maxValue) : (a + 1).toInt = a.toInt + 1 := by
  have h := Int64.lt_iff_toInt_lt.1 h
  have max : Int64.maxValue.toInt = 0x7FFFFFFFFFFFFFFF := rfl
  have one : (1 : Int64).toInt = 1 := rfl
  obtain ⟨low, _⟩ := fits_toInt a
  rw [Int64.toInt_add, one]
  exact Int.bmod_eq_of_le (by omega) (by omega)

end FrontEnd.Word
