import Mathlib.Data.Nat.Bitwise

/-! Fields of a machine word, over the naturals: a word is joined from its fields and
masking keeps the bits from `shift` on. -/
namespace MonitoringDemos.Bits

theorem shiftLeft_or (high : Nat) (small : low < 2 ^ shift) :
    high <<< shift ||| low = high * 2 ^ shift + low := by
  rw [← Nat.shiftLeft_add_eq_or_of_lt small, Nat.shiftLeft_eq]

theorem and_field (x width shift : Nat) :
    x &&& ((2 ^ width - 1) * 2 ^ shift) = x / 2 ^ shift % 2 ^ width * 2 ^ shift := by
  rw [← Nat.shiftLeft_eq, ← Nat.shiftLeft_eq, ← Nat.shiftRight_eq_div_pow]
  apply Nat.eq_of_testBit_eq
  intro i
  simp only [Nat.testBit_and, Nat.testBit_shiftLeft, Nat.testBit_two_pow_sub_one,
    Nat.testBit_mod_two_pow, Nat.testBit_shiftRight]
  by_cases low : shift ≤ i
  · rw [Nat.add_sub_cancel' low]
    simp [low, Bool.and_comm]
  · simp [low]

theorem toNat_and_field (word mask : UInt32) (width shift : Nat)
    (field : mask.toNat = (2 ^ width - 1) * 2 ^ shift) :
    (word &&& mask).toNat = word.toNat / 2 ^ shift % 2 ^ width * 2 ^ shift := by
  rw [UInt32.toNat_and, field, and_field]

/-- Two words agree behind a mask exactly when the field it selects agrees. -/
theorem and_field_eq_iff (word word' mask : UInt32) (width shift : Nat)
    (field : mask.toNat = (2 ^ width - 1) * 2 ^ shift) :
    word &&& mask = word' &&& mask ↔
      word.toNat / 2 ^ shift % 2 ^ width = word'.toNat / 2 ^ shift % 2 ^ width := by
  rw [← UInt32.toNat_inj, toNat_and_field word mask width shift field,
    toNat_and_field word' mask width shift field]
  exact Nat.mul_right_cancel_iff (Nat.two_pow_pos shift)

/-! ### Signed words -/

theorem toInt32_inj {word word' : UInt32} : word.toInt32 = word'.toInt32 ↔ word = word' := by
  constructor
  · intro same
    rw [← UInt32.toUInt32_toInt32 word, same, UInt32.toUInt32_toInt32]
  · exact congrArg _

/-- Below the sign bit a word keeps its value. -/
theorem toInt_toInt32 {word : UInt32} (small : word.toNat < 2 ^ 31) :
    word.toInt32.toInt = word.toNat := by
  rw [← Int32.toInt_toBitVec, UInt32.toBitVec_toInt32, BitVec.toInt_eq_toNat_of_lt]
  · rfl
  · rw [UInt32.toNat_toBitVec]
    omega

/-- A size that an `int` can hold is stored in it unchanged. -/
theorem toInt_truncated {size : UInt64} (small : size.toNat < 2 ^ 31) :
    size.toUInt32.toInt32.toInt = size.toNat := by
  have kept : size.toUInt32.toNat = size.toNat := by
    rw [UInt64.toNat_toUInt32]
    omega
  rw [toInt_toInt32 (kept ▸ small), kept]

theorem toInt_add_size {n : Int32} {size : UInt64} (nonneg : 0 ≤ n.toInt)
    (small : n.toInt + size.toNat < 2 ^ 31) :
    (n + size.toUInt32.toInt32).toInt = n.toInt + size.toNat := by
  rw [Int32.toInt_add, toInt_truncated (by omega)]
  apply Int.bmod_eq_of_le
  · omega
  · omega

theorem toInt_sub_size {n : Int32} {size : UInt64} (enough : size.toNat ≤ n.toInt) :
    (n - size.toUInt32.toInt32).toInt = n.toInt - size.toNat := by
  have small := n.toInt_lt
  rw [Int32.toInt_sub, toInt_truncated (by omega)]
  apply Int.bmod_eq_of_le
  · omega
  · omega

/-- A number that is not negative keeps its value when it is widened and read as unsigned. -/
theorem toNat_widened {n : Int32} (nonneg : 0 ≤ n.toInt) :
    n.toInt64.toUInt64.toNat = n.toInt.toNat := by
  have same := n.toInt_toInt64
  have bounded := n.toInt64.toBitVec.isLt
  rw [← Int64.toInt_toBitVec, BitVec.toInt_eq_toNat_cond] at same
  change n.toInt64.toBitVec.toNat = _
  split at same
  · omega
  · omega

/-- Counting up to a bound does not overflow. -/
theorem toInt_succ {i bound : Int32} (less : i < bound) : (i + 1).toInt = i.toInt + 1 := by
  have above := bound.toInt_lt
  have small := i.le_toInt
  have less := Int32.lt_iff_toInt_lt.mp less
  rw [Int32.toInt_add]
  change Int.bmod (i.toInt + 1) (2 ^ 32) = _
  apply Int.bmod_eq_of_le
  · omega
  · omega

end MonitoringDemos.Bits
