import Mathlib.Data.BitVec
import Mt7610u.Lib.Bytes

/-! # Memories of 32-bit words

A memory that is addressed by words and read and written in bit fields, bytes, halves and words,
little endian. -/

namespace Mt7610u.Lib

/-! ### Bit fields -/

/-- The word `w` with the `n` bits from `start` on replaced by `v`. -/
def setField {k n : ℕ} (w : BitVec k) (start : ℕ) (v : BitVec n) : BitVec k :=
  (w &&& ~~~((BitVec.allOnes n).setWidth k <<< start)) ||| (v.setWidth k <<< start)

section fields

variable {k n : ℕ} {w : BitVec k} {start : ℕ} {v : BitVec n}

theorem getLsbD_setField {i : ℕ} (hi : i < k) :
    (setField w start v).getLsbD i =
      if start ≤ i ∧ i < start + n then v.getLsbD (i - start) else w.getLsbD i := by
  unfold setField
  simp only [BitVec.getLsbD_or, BitVec.getLsbD_and, BitVec.getLsbD_not, BitVec.getLsbD_shiftLeft,
    BitVec.getLsbD_setWidth, BitVec.getLsbD_allOnes, hi, decide_true, Bool.true_and]
  by_cases hle : start ≤ i
  · by_cases hlt : i < start + n
    · have hn : i - start < n := by omega
      simp [hle, hlt, hn, show ¬ i < start by omega, show i - start < k by omega]
    · have hn : ¬ i - start < n := by omega
      simp [hlt, hn, BitVec.getLsbD_of_ge v _ (by omega : n ≤ i - start)]
  · simp [hle, show i < start by omega]

theorem extract_setField_self (h : start + n ≤ k) : (setField w start v).extractLsb' start n = v := by
  refine BitVec.eq_of_getLsbD_eq fun i hi => ?_
  rw [BitVec.getLsbD_extractLsb', getLsbD_setField (by omega)]
  simp [hi]

theorem extract_setField_of_disjoint {s len : ℕ} (hk : s + len ≤ k) (h : s + len ≤ start ∨ start + n ≤ s) :
    (setField w start v).extractLsb' s len = w.extractLsb' s len := by
  refine BitVec.eq_of_getLsbD_eq fun i hi => ?_
  rw [BitVec.getLsbD_extractLsb', BitVec.getLsbD_extractLsb', getLsbD_setField (by omega), if_neg (by omega)]

end fields

/-! ### Words, halves and bytes -/

/-- A memory of words, by word address: the byte address divided by four. -/
abbrev WordMem := ℕ → BitVec 32

namespace WordMem

def byte (m : WordMem) (addr : ℕ) : Byte := (m (addr / 4)).extractLsb' (8 * (addr % 4)) 8

def writeWord (m : WordMem) (addr : ℕ) (v : BitVec 32) : WordMem := Function.update m (addr / 4) v

def writeHalf (m : WordMem) (addr : ℕ) (v : BitVec 16) : WordMem :=
  Function.update m (addr / 4) (setField (m (addr / 4)) (8 * (addr % 4)) v)

def writeHalves (m : WordMem) (addr : ℕ) : List Byte → WordMem
  | b :: b' :: bs => writeHalves (m.writeHalf addr (b' ++ b)) (addr + 2) bs
  | [b] => m.writeHalf addr (0#8 ++ b)
  | [] => m

variable {m : WordMem} {addr a : ℕ}

theorem word_ext {m' : WordMem} {w w' : ℕ} (h : ∀ j < 4, m.byte (4 * w + j) = m'.byte (4 * w' + j)) :
    m w = m' w' := by
  refine BitVec.eq_of_getLsbD_eq fun i hi => ?_
  have hj := h (i / 8) (by omega)
  unfold byte at hj
  rw [show (4 * w + i / 8) / 4 = w by omega, show (4 * w' + i / 8) / 4 = w' by omega,
    show (4 * w + i / 8) % 4 = i / 8 by omega, show (4 * w' + i / 8) % 4 = i / 8 by omega] at hj
  have hbit := congrArg (fun b => BitVec.getLsbD b (i % 8)) hj
  simp only [BitVec.getLsbD_extractLsb'] at hbit
  have hlt : i % 8 < 8 := by omega
  simpa [hlt, show 8 * (i / 8) + i % 8 = i by omega] using hbit

theorem writeWord_self (h : a = addr / 4) {v : BitVec 32} : m.writeWord addr v a = v := by
  subst h
  exact Function.update_self _ _ _

theorem writeWord_of_ne (h : a ≠ addr / 4) (v : BitVec 32) : m.writeWord addr v a = m a :=
  Function.update_of_ne h _ _

theorem byte_writeWord_of_ne (h : a / 4 ≠ addr / 4) (v : BitVec 32) : (m.writeWord addr v).byte a = m.byte a := by
  unfold byte
  rw [writeWord_of_ne h]

theorem byte_writeWord_self (h : a / 4 = addr / 4) (v : BitVec 32) :
    (m.writeWord addr v).byte a = v.extractLsb' (8 * (a % 4)) 8 := by
  unfold byte
  rw [writeWord_self h]

theorem byte_writeHalf (heven : addr % 2 = 0) (b b' : Byte) :
    (m.writeHalf addr (b' ++ b)).byte a =
      if a = addr then b else if a = addr + 1 then b' else m.byte a := by
  unfold byte writeHalf
  by_cases hword : a / 4 = addr / 4
  · rw [hword, Function.update_self]
    by_cases h0 : a = addr
    · subst h0
      rw [if_pos rfl]
      refine BitVec.eq_of_getLsbD_eq fun i hi => ?_
      rw [BitVec.getLsbD_extractLsb', getLsbD_setField (by omega), if_pos (by omega), BitVec.getLsbD_append]
      simp [hi]
    · by_cases h1 : a = addr + 1
      · subst h1
        rw [if_neg (by omega), if_pos rfl]
        refine BitVec.eq_of_getLsbD_eq fun i hi => ?_
        rw [BitVec.getLsbD_extractLsb', getLsbD_setField (by omega), if_pos (by omega), BitVec.getLsbD_append]
        have hpos : 8 * ((addr + 1) % 4) + i - 8 * (addr % 4) = 8 + i := by omega
        simp [hi, hpos]
      · rw [if_neg h0, if_neg h1, extract_setField_of_disjoint (by omega) (by omega)]
  · rw [Function.update_of_ne hword, if_neg (by rintro rfl; exact hword rfl), if_neg (by omega)]

/-- **What a string leaves**: its bytes where it was written, the old bytes elsewhere. -/
theorem byte_writeHalves (heven : addr % 2 = 0) (bs : List Byte) (hbs : bs.length % 2 = 0) :
    (m.writeHalves addr bs).byte a =
      if h : addr ≤ a ∧ a < addr + bs.length then bs[a - addr] else m.byte a := by
  induction bs using List.twoStepInduction generalizing m addr with
  | nil => simp [writeHalves, show ¬ (addr ≤ a ∧ a < addr) by omega]
  | singleton b => simp at hbs
  | cons_cons b b' bs ih _ =>
    simp only [List.length_cons] at hbs ⊢
    rw [writeHalves, ih (by omega) (by omega), byte_writeHalf heven]
    by_cases h2 : addr + 2 ≤ a ∧ a < addr + 2 + bs.length
    · rw [dif_pos h2, dif_pos (by omega)]
      obtain ⟨j, rfl⟩ : ∃ j, a = addr + 2 + j := ⟨a - (addr + 2), by omega⟩
      simp [show addr + 2 + j - addr = j + 2 by omega]
    · rw [dif_neg h2]
      by_cases h0 : a = addr
      · subst h0
        simp
      · by_cases h1 : a = addr + 1
        · subst h1
          simp
        · rw [if_neg h0, if_neg h1, dif_neg (by omega)]

theorem writeHalves_of_lt {bs : List Byte} (heven : addr % 2 = 0) (hbs : bs.length % 2 = 0)
    (h : 4 * a + 4 ≤ addr ∨ addr + bs.length ≤ 4 * a) : m.writeHalves addr bs a = m a := by
  refine word_ext fun j hj => ?_
  rw [byte_writeHalves heven bs hbs, dif_neg (by omega)]

end WordMem

end Mt7610u.Lib
