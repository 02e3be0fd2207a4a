import Mathlib.Algebra.GroupWithZero.Nat
import Mathlib.Data.Nat.Basic

/-! # Words in wider words

A computation on words of `n` bits, made in words of `w ≥ n` bits whose upper bits are not reduced. What the low bits
are behind each operation depends on the low bits before it. -/

namespace Mt7610u.Lib

variable {n w : ℕ}

theorem setWidth_shiftLeft (h : n ≤ w) (x : BitVec w) (s : ℕ) : (x <<< s).setWidth n = x.setWidth n <<< s := by
  refine BitVec.eq_of_getLsbD_eq fun i hi => ?_
  have hw : i < w := by omega
  have hsub : i - s < n := by omega
  simp only [BitVec.getLsbD_setWidth, BitVec.getLsbD_shiftLeft, hi, hw, hsub, decide_true, Bool.true_and]

theorem setWidth_and_ushiftRight (h : n ≤ w) (x : BitVec w) {c : ℕ} (hc : c < 2 ^ n) (s : ℕ) :
    ((x &&& BitVec.ofNat w c) >>> s).setWidth n = (x.setWidth n &&& BitVec.ofNat n c) >>> s := by
  refine BitVec.eq_of_getLsbD_eq fun i hi => ?_
  rcases Nat.lt_or_ge (s + i) n with hlt | hge
  · have hw : s + i < w := by omega
    simp only [BitVec.getLsbD_setWidth, BitVec.getLsbD_ushiftRight, BitVec.getLsbD_and, BitVec.getLsbD_ofNat, hi, hlt,
      hw, decide_true, Bool.true_and]
  · have hbit : c.testBit (s + i) = false :=
      Nat.testBit_lt_two_pow (Nat.lt_of_lt_of_le hc (Nat.pow_le_pow_right (by decide) hge))
    simp only [BitVec.getLsbD_setWidth, BitVec.getLsbD_ushiftRight, BitVec.getLsbD_and, BitVec.getLsbD_ofNat, hbit,
      Bool.and_false]

theorem getLsbD_mask {r : ℕ} (h : r < w) (i : ℕ) : (1#w <<< r - 1#w).getLsbD i = decide (i < r) := by
  have hpow : 2 ^ r < 2 ^ w := Nat.pow_lt_pow_right (by decide) h
  have hpos : 0 < 2 ^ r := Nat.two_pow_pos r
  have hone : 1 < 2 ^ w := by omega
  have hmask : (1#w <<< r - 1#w).toNat = 2 ^ r - 1 := by
    rw [BitVec.toNat_sub, BitVec.toNat_shiftLeft, BitVec.toNat_ofNat, Nat.mod_eq_of_lt hone, Nat.shiftLeft_eq,
      Nat.one_mul, Nat.mod_eq_of_lt hpow]
    have hsum : 2 ^ w - 1 + 2 ^ r = 2 ^ r - 1 + 2 ^ w := by omega
    rw [hsum, Nat.add_mod_right, Nat.mod_eq_of_lt (by omega)]
  rw [BitVec.getLsbD, hmask, Nat.testBit_two_pow_sub_one]

/-- **The rotation** by two shifts: the mask keeps off what lies above the word. -/
theorem setWidth_rotate (h : n ≤ w) (x : BitVec w) {r : ℕ} (hpos : 0 < r) (hr : r < n) :
    (x <<< r ||| (x >>> (n - r) &&& (1#w <<< r - 1#w))).setWidth n = (x.setWidth n).rotateLeft r := by
  refine BitVec.eq_of_getLsbD_eq fun i hi => ?_
  have hw : i < w := by omega
  have hmask := getLsbD_mask (by omega : r < w) i
  rw [BitVec.getLsbD_rotateLeft, Nat.mod_eq_of_lt hr]
  simp only [BitVec.getLsbD_setWidth, BitVec.getLsbD_or, BitVec.getLsbD_and, BitVec.getLsbD_shiftLeft,
    BitVec.getLsbD_ushiftRight, hmask, hi, hw]
  rcases Nat.lt_or_ge i r with hlt | hge
  · have hin : n - r + i < n := by omega
    simp [hlt, hin]
  · have hin : i - r < n := by omega
    have hnot : ¬i < r := by omega
    simp [hnot, hin]

theorem setWidth_signExtend (h : n ≤ w) (x : BitVec n) : (x.signExtend w).setWidth n = x := by
  refine BitVec.eq_of_getLsbD_eq fun i hi => ?_
  have hw : i < w := by omega
  simp only [BitVec.getLsbD_setWidth, BitVec.getLsbD_signExtend, hi, hw, decide_true, Bool.true_and, if_true]

end Mt7610u.Lib
