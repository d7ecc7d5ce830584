import Mathlib.Algebra.Order.Floor.Div

/-! Conversion between units by a ratio, rounded down, and what is lost on the way
there and back. Quotients are exact naturals; `mod_div_eq_iff` says when a word of
limited width computes them. -/
namespace MonitoringDemos.Rounding

/-- A product reduced to a word has the quotient of the product only if it fits. -/
theorem mod_div_eq_iff (pos : 0 < den) (small : den ≤ modulus) :
    product % modulus / den = product / den ↔ product < modulus := by
  constructor
  · intro same
    by_contra wraps
    have lost : product % modulus + modulus ≤ product := by
      have parts := Nat.mod_add_div product modulus
      have once : 1 ≤ product / modulus := (Nat.one_le_div_iff (by omega)).mpr (by omega)
      have turns := Nat.mul_le_mul_left modulus once
      omega
    have less : (product % modulus + den) / den ≤ product / den :=
      Nat.div_le_div_right (by omega)
    rw [Nat.add_div_right _ pos] at less
    omega
  · intro fits
    rw [Nat.mod_eq_of_lt fits]

def convert (num den x : Nat) : Nat := x * num / den

theorem convert_mono (num den : Nat) (le : x ≤ y) : convert num den x ≤ convert num den y :=
  Nat.div_le_div_right (Nat.mul_le_mul_right num le)

theorem convert_back_le (num den x : Nat) : convert num den (convert den num x) ≤ x := by
  have there : x * den / num * num ≤ x * den := Nat.div_mul_le_self _ _
  exact Nat.div_le_of_le_mul (there.trans_eq (Nat.mul_comm x den))

/-- The remainder of the first division is below `num`; it costs that many parts of `den`. -/
theorem convert_back_loss (positive : 0 < num) (pos : 0 < den) (x : Nat) :
    x - convert num den (convert den num x) ≤ (num - 1) ⌈/⌉ den := by
  have remainder : x * den < x * den / num * num + num := Nat.lt_div_mul_add positive
  have covered : num - 1 ≤ den * ((num - 1) ⌈/⌉ den) := le_smul_ceilDiv pos
  have back : (x - (num - 1) ⌈/⌉ den) * den ≤ x * den / num * num := by
    rw [Nat.sub_mul, Nat.mul_comm (_ ⌈/⌉ _)]
    omega
  have kept : x - (num - 1) ⌈/⌉ den ≤ convert num den (convert den num x) :=
    (Nat.le_div_iff_mul_le pos).mpr back
  omega

theorem convert_back_exact (pos : 0 < den) (divides : num ∣ x * den) :
    convert num den (convert den num x) = x := by
  rw [convert, convert, Nat.div_mul_cancel divides, Nat.mul_div_cancel x pos]

end MonitoringDemos.Rounding
