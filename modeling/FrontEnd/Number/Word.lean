/-!
Exact arithmetic on 64-bit signed words: every operation answers `none` where the exact result is
not a word, instead of wrapping around.
-/

namespace FrontEnd.Word

/-- The integers that a word holds, `2^63` of them on either side of zero. -/
def Fits (n : Int) : Prop :=
  -0x8000000000000000 ≤ n ∧ n < 0x8000000000000000

instance (n : Int) : Decidable (Fits n) :=
  inferInstanceAs (Decidable (_ ∧ _))

def ofInt? (n : Int) : Option Int64 :=
  if Fits n then some (Int64.ofInt n) else none

def add? (a b : Int64) : Option Int64 := ofInt? (a.toInt + b.toInt)

def sub? (a b : Int64) : Option Int64 := ofInt? (a.toInt - b.toInt)

def mul? (a b : Int64) : Option Int64 := ofInt? (a.toInt * b.toInt)

def neg? (a : Int64) : Option Int64 := ofInt? (-a.toInt)

/-- The quotient toward zero; `b` is not zero. -/
def quot? (a b : Int64) : Option Int64 := ofInt? (a.toInt.tdiv b.toInt)

/-- The remainder with the sign of `a`; there is none where the quotient is not a word. -/
def rem? (a b : Int64) : Option Int64 :=
  if Fits (a.toInt.tdiv b.toInt) then ofInt? (a.toInt.tmod b.toInt) else none

theorem fits_toInt (a : Int64) : Fits a.toInt := by
  have h₁ := a.le_toInt
  have h₂ := a.toInt_lt
  exact ⟨by simpa using h₁, by simpa using h₂⟩

theorem toInt_ofInt {n : Int} (h : Fits n) : (Int64.ofInt n).toInt = n := by
  obtain ⟨h₁, h₂⟩ := h
  have size : (Int64.size : Int) = 0x10000000000000000 := rfl
  rw [Int64.toInt_ofInt]
  exact Int.bmod_eq_of_le (by omega) (by omega)

theorem ofInt?_eq_some_iff {n : Int} {a : Int64} : ofInt? n = some a ↔ a.toInt = n := by
  unfold ofInt?
  constructor
  · intro h
    split at h
    · rename_i hn
      cases h
      exact toInt_ofInt hn
    · cases h
  · rintro rfl
    simp [fits_toInt, Int64.ofInt_toInt]

end FrontEnd.Word
