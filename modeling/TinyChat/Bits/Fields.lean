import Mathlib.Algebra.Group.Int.Defs
import Mathlib.Algebra.Group.Nat.Defs
import Mathlib.Data.Nat.Bits

/-! Words of three bit fields joined by shift and or. While the two lower fields
stay inside their widths the word is a positional numeral, so it can be taken
apart again and is ordered by its fields. -/
namespace TinyChat.Bits

variable {midBits lowBits high mid low : Nat}

/-- The fields from the top: `high`, then `midBits` of `mid`, then `lowBits` of `low`. -/
def packFields (midBits lowBits high mid low : Nat) : Nat :=
  high <<< (midBits + lowBits) ||| mid <<< lowBits ||| low

/-- The value of a word whose lower fields stay inside their widths. -/
theorem packFields_eq_add (midFits : mid < 2 ^ midBits) (lowFits : low < 2 ^ lowBits) :
    packFields midBits lowBits high mid low =
      (high * 2 ^ midBits + mid) * 2 ^ lowBits + low := by
  have lower : mid <<< lowBits ||| low = mid * 2 ^ lowBits + low := by
    rw [← Nat.shiftLeft_add_eq_or_of_lt lowFits, Nat.shiftLeft_eq]
  have lowerFits : mid * 2 ^ lowBits + low < 2 ^ (midBits + lowBits) := by
    calc mid * 2 ^ lowBits + low < (mid + 1) * 2 ^ lowBits := by rw [Nat.add_mul]; omega
      _ ≤ 2 ^ midBits * 2 ^ lowBits := Nat.mul_le_mul_right _ midFits
      _ = 2 ^ (midBits + lowBits) := (Nat.pow_add 2 midBits lowBits).symm
  rw [packFields, Nat.or_assoc, lower, ← Nat.shiftLeft_add_eq_or_of_lt lowerFits,
    Nat.shiftLeft_eq, Nat.pow_add, Nat.add_mul, Nat.mul_assoc, Nat.add_assoc]

theorem packFields_low (midFits : mid < 2 ^ midBits) (lowFits : low < 2 ^ lowBits) :
    packFields midBits lowBits high mid low % 2 ^ lowBits = low := by
  rw [packFields_eq_add midFits lowFits, Nat.mul_add_mod_of_lt lowFits]

private theorem packFields_upper (midFits : mid < 2 ^ midBits) (lowFits : low < 2 ^ lowBits) :
    packFields midBits lowBits high mid low >>> lowBits = high * 2 ^ midBits + mid := by
  have positive : 0 < 2 ^ lowBits := Nat.two_pow_pos lowBits
  rw [packFields_eq_add midFits lowFits, Nat.shiftRight_eq_div_pow, Nat.mul_comm,
    Nat.mul_add_div positive, Nat.div_eq_of_lt lowFits, Nat.add_zero]

theorem packFields_mid (midFits : mid < 2 ^ midBits) (lowFits : low < 2 ^ lowBits) :
    packFields midBits lowBits high mid low >>> lowBits % 2 ^ midBits = mid := by
  rw [packFields_upper midFits lowFits, Nat.mul_add_mod_of_lt midFits]

theorem packFields_high (midFits : mid < 2 ^ midBits) (lowFits : low < 2 ^ lowBits) :
    packFields midBits lowBits high mid low >>> lowBits >>> midBits = high := by
  have positive : 0 < 2 ^ midBits := Nat.two_pow_pos midBits
  rw [packFields_upper midFits lowFits, Nat.shiftRight_eq_div_pow, Nat.mul_comm,
    Nat.mul_add_div positive, Nat.div_eq_of_lt midFits, Nat.add_zero]

/-- A greater high field outweighs any two low ones. -/
theorem packFields_lt_of_high_lt {high' low' : Nat} (midFits : mid < 2 ^ midBits)
    (lowFits : low < 2 ^ lowBits) (lowFits' : low' < 2 ^ lowBits) (less : high < high') :
    packFields midBits lowBits high mid low < packFields midBits lowBits high' mid low' := by
  rw [packFields_eq_add midFits lowFits, packFields_eq_add midFits lowFits']
  have upper : high * 2 ^ midBits + mid + 1 ≤ high' * 2 ^ midBits + mid := by
    have step := Nat.mul_le_mul_right (2 ^ midBits) less
    have positive := Nat.two_pow_pos midBits
    rw [Nat.succ_mul] at step
    omega
  have scaled := Nat.mul_le_mul_right (2 ^ lowBits) upper
  rw [Nat.add_mul _ 1] at scaled
  omega

/-- With the middle field shared, words are ordered first by the high field and
then by the low one. -/
theorem packFields_lt_iff {high' low' : Nat} (midFits : mid < 2 ^ midBits)
    (lowFits : low < 2 ^ lowBits) (lowFits' : low' < 2 ^ lowBits) :
    packFields midBits lowBits high mid low < packFields midBits lowBits high' mid low' ↔
      high < high' ∨ high = high' ∧ low < low' := by
  rcases Nat.lt_trichotomy high high' with less | same | greater
  · simp [less, packFields_lt_of_high_lt midFits lowFits lowFits' less]
  · subst same
    rw [packFields_eq_add midFits lowFits, packFields_eq_add midFits lowFits']
    omega
  · have reversed := packFields_lt_of_high_lt midFits lowFits' lowFits greater
    omega

/-- Truncating a shifted value to the word drops the bits shifted out of it. -/
theorem shiftLeft_mod_two_pow (value shift bits : Nat) :
    value <<< shift % 2 ^ (bits + shift) = (value % 2 ^ bits) <<< shift := by
  rw [Nat.shiftLeft_eq, Nat.shiftLeft_eq, Nat.pow_add, Nat.mul_mod_mul_right]

end TinyChat.Bits
