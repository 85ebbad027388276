import Mathlib.Data.Nat.Bitwise

/-! A number marked with one bit: how much of it can be read back from the low
bits below the mark. -/
namespace Lib.Bits

/-- Below the mark, setting it is adding it. -/
theorem or_two_pow_of_lt {n low : Nat} (below : low < 2 ^ n) : 2 ^ n ||| low = 2 ^ n + low := by
  have added := Nat.two_pow_add_eq_or_of_lt below 1
  rw [Nat.mul_one] at added
  exact added.symm

/-- A number that already has the mark is not changed by it. -/
theorem or_two_pow_of_testBit {n low : Nat} (marked : low.testBit n = true) : 2 ^ n ||| low = low := by
  apply Nat.eq_of_testBit_eq
  intro i
  rw [Nat.testBit_or, Nat.testBit_two_pow]
  by_cases here : n = i
  · subst here
    simp [marked]
  · simp [here]

/-- The bits above the low `k` are the mark alone exactly when the marked number
fits in the low `k`. -/
theorem or_two_pow_div {n k low : Nat} (room : k ≤ n) (unmarked : 2 ^ n ||| low ≠ low) :
    (2 ^ n ||| low) / 2 ^ k = 2 ^ (n - k) ↔ low < 2 ^ k := by
  have split : 2 ^ n = 2 ^ k * 2 ^ (n - k) := by rw [← Nat.pow_add, Nat.add_sub_cancel' room]
  constructor
  · intro short
    have free : low.testBit n = false := by
      cases marked : low.testBit n with
      | false => rfl
      | true => exact absurd (or_two_pow_of_testBit marked) unmarked
    apply Nat.lt_pow_two_of_testBit
    intro i high
    by_cases here : n = i
    · rw [← here]
      exact free
    · have high' : (2 ^ n ||| low).testBit i = (2 ^ (n - k)).testBit (i - k) := by
        rw [← short, ← Nat.shiftRight_eq_div_pow, Nat.testBit_shiftRight, Nat.add_sub_cancel' high]
      have elsewhere : n - k ≠ i - k := by omega
      rw [Nat.testBit_or, Nat.testBit_two_pow, Nat.testBit_two_pow] at high'
      simpa [here, elsewhere] using high'
  · intro small
    have below : low < 2 ^ n := lt_of_lt_of_le small (Nat.pow_le_pow_right (by decide) room)
    rw [or_two_pow_of_lt below, split, Nat.mul_add_div (Nat.two_pow_pos k), Nat.div_eq_of_lt small, Nat.add_zero]

/-- A number that fits in the low `k` bits is read back from them. -/
theorem or_two_pow_mod {n k low : Nat} (room : k ≤ n) (small : low < 2 ^ k) : (2 ^ n ||| low) % 2 ^ k = low := by
  have below : low < 2 ^ n := lt_of_lt_of_le small (Nat.pow_le_pow_right (by decide) room)
  have split : 2 ^ n = 2 ^ k * 2 ^ (n - k) := by rw [← Nat.pow_add, Nat.add_sub_cancel' room]
  rw [or_two_pow_of_lt below, split, Nat.mul_add_mod, Nat.mod_eq_of_lt small]

end Lib.Bits
