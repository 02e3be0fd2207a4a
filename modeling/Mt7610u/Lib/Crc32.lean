import Mt7610u.Lib.Bytes

/-! # Cyclic redundancy codes of 32 bits

A reflected code, for any generator `poly`: the remainder is shifted down one place at a time, and the
generator is added whenever a one falls out. -/

namespace Mt7610u.Lib

section Remainder

variable (poly : BitVec 32)

def crcShift (c : BitVec 32) : BitVec 32 := c >>> 1 ^^^ (if c.getLsbD 0 then poly else 0)

/-- The remainder shifted down `n` places. -/
def crcShifts : ℕ → BitVec 32 → BitVec 32
  | 0, c => c
  | n + 1, c => crcShifts n (crcShift poly c)

def crcByte (c : BitVec 32) (b : Byte) : BitVec 32 := crcShifts poly 8 (c ^^^ b.setWidth 32)

def crcRemainder (c : BitVec 32) (bs : List Byte) : BitVec 32 := bs.foldl (crcByte poly) c

def crc32 (bs : List Byte) : BitVec 32 := crcRemainder poly (~~~0) bs ^^^ ~~~0

theorem crcShift_xor (a b : BitVec 32) : crcShift poly (a ^^^ b) = crcShift poly a ^^^ crcShift poly b := by
  have hadd : (if (a ^^^ b).getLsbD 0 then poly else 0) =
      (if a.getLsbD 0 then poly else 0) ^^^ (if b.getLsbD 0 then poly else 0) := by
    rw [BitVec.getLsbD_xor]
    cases a.getLsbD 0 <;> cases b.getLsbD 0 <;> simp
  unfold crcShift
  rw [BitVec.ushiftRight_xor_distrib, hadd]
  ac_rfl

theorem crcShifts_xor (n : ℕ) (a b : BitVec 32) :
    crcShifts poly n (a ^^^ b) = crcShifts poly n a ^^^ crcShifts poly n b := by
  induction n generalizing a b with
  | zero => rfl
  | succ n ih => rw [crcShifts, crcShift_xor, ih, ← crcShifts, ← crcShifts]

theorem crcShifts_high (n : ℕ) (c : BitVec 32) (h : ∀ i < n, c.getLsbD i = false) :
    crcShifts poly n c = c >>> n := by
  induction n generalizing c with
  | zero => rfl
  | succ n ih =>
    have h0 : crcShift poly c = c >>> 1 := by
      unfold crcShift
      rw [h 0 (by omega)]
      simp
    rw [crcShifts, h0, ih]
    · rw [← BitVec.shiftRight_add, Nat.add_comm]
    · intro i hi
      rw [BitVec.getLsbD_ushiftRight]
      exact h (1 + i) (by omega)

theorem split_octet (c : BitVec 32) : c = (c >>> 8) <<< 8 ^^^ (c.setWidth 8).setWidth 32 := by
  refine BitVec.eq_of_getLsbD_eq fun i hi => ?_
  simp only [BitVec.getLsbD_xor, BitVec.getLsbD_shiftLeft, BitVec.getLsbD_ushiftRight, BitVec.getLsbD_setWidth]
  by_cases h : i < 8
  · simp [h, hi]
  · simp [h, hi, show 8 + (i - 8) = i by omega]

/-- **A byte at a time.** Only the low octet of remainder and byte decides what is added. -/
theorem crcByte_eq (c : BitVec 32) (b : Byte) :
    crcByte poly c b =
      c >>> 8 ^^^ crcShifts poly 8 (((c ^^^ b.setWidth 32).setWidth 8).setWidth 32) := by
  have hb : (b.setWidth 32) >>> 8 = 0#32 := by
    refine BitVec.eq_of_getLsbD_eq fun i hi => ?_
    rw [BitVec.getLsbD_ushiftRight, BitVec.getLsbD_setWidth, BitVec.getLsbD_of_ge b (8 + i) (by omega)]
    simp
  have hhigh : ((c ^^^ b.setWidth 32) >>> 8) = c >>> 8 := by
    rw [BitVec.ushiftRight_xor_distrib, hb, BitVec.xor_zero]
  have hmove : crcShifts poly 8 ((c >>> 8) <<< 8) = c >>> 8 := by
    rw [crcShifts_high]
    · refine BitVec.eq_of_getLsbD_eq fun i hi => ?_
      simp only [BitVec.getLsbD_ushiftRight, BitVec.getLsbD_shiftLeft]
      by_cases h : 8 + i < 32
      · simp [h]
      · simp [h, BitVec.getLsbD_of_ge c (8 + i) (by omega)]
    · intro i hi
      simp [BitVec.getLsbD_shiftLeft, hi]
  unfold crcByte
  nth_rewrite 1 [split_octet (c ^^^ b.setWidth 32)]
  rw [hhigh, crcShifts_xor, hmove]

end Remainder

end Mt7610u.Lib
