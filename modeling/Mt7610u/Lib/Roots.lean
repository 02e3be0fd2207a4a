import Mathlib.Tactic.Ring

/-! # Whole roots of natural numbers

The greatest number whose power does not exceed a given one, found bit by bit. -/

namespace Mt7610u.Lib

/-- The `k`-th root of `n`, of which `bits` bits below `r` are not yet known. -/
def rootBelow (k n : ℕ) : ℕ → ℕ → ℕ
  | 0, r => r
  | bits + 1, r => rootBelow k n bits (if (r + 2 ^ bits) ^ k ≤ n then r + 2 ^ bits else r)

theorem rootBelow_pow_le {k n : ℕ} (bits : ℕ) {r : ℕ} (hr : r ^ k ≤ n) : rootBelow k n bits r ^ k ≤ n := by
  induction bits generalizing r with
  | zero => exact hr
  | succ bits ih =>
    unfold rootBelow
    split_ifs with h
    · exact ih h
    · exact ih hr

theorem lt_rootBelow_succ_pow {k n : ℕ} (bits : ℕ) {r : ℕ} (hr : n < (r + 2 ^ bits) ^ k) :
    n < (rootBelow k n bits r + 1) ^ k := by
  induction bits generalizing r with
  | zero => exact hr
  | succ bits ih =>
    unfold rootBelow
    split_ifs with h
    · refine ih ?_
      have htwo : r + 2 ^ bits + 2 ^ bits = r + 2 ^ (bits + 1) := by ring
      rw [htwo]
      exact hr
    · exact ih (Nat.lt_of_not_le h)

end Mt7610u.Lib
