import Mt7610u.Lib.BlockMode

/-! # Message authentication by a block cipher (CMAC)

The code over any cipher of 16-byte blocks. Two keys come from the cipher by doubling in GF(2^128), and the last
block of a message is masked with one or the other. -/

namespace Mt7610u.Lib

/-! ### Definition -/

def bitsOf (bs : List Byte) : BitVec 128 := BitVec.ofNat 128 (bigEndian bs)

def blockOf (x : BitVec 128) : List Byte := (List.range 16).map fun i => (x >>> (8 * (15 - i))).setWidth 8

/-- Twice the element: shifted to the left, and reduced by `x^128 + x^7 + x^2 + x + 1` if a bit fell out. -/
def double (x : BitVec 128) : BitVec 128 := if x.msb then x <<< 1 ^^^ 0x87#128 else x <<< 1

section Code

variable (E : List Byte → List Byte)

def subKey1 : List Byte := blockOf (double (bitsOf (E (List.replicate 16 0))))

def subKey2 : List Byte := blockOf (double (bitsOf (subKey1 E)))

/-- Block `i` of a message, counted from `0`. -/
def messageBlock (message : List Byte) (i : ℕ) : List Byte := (message.drop (16 * i)).take 16

/-- The blocks in front of block `n`, chained. -/
def chain (message : List Byte) (n : ℕ) : List Byte :=
  (List.range n).foldl (fun x i => E (xorBlock x (messageBlock message i))) (List.replicate 16 0)

/-- **The code of a message.** An empty message has one block, which is padded. -/
def cmac (message : List Byte) : List Byte :=
  let n := if message.length = 0 then 1 else (message.length + 15) / 16
  let last := messageBlock message (n - 1)
  let masked :=
    if message.length ≠ 0 ∧ message.length % 16 = 0 then xorBlock last (subKey1 E)
    else xorBlock (padBlock (last ++ [0x80])) (subKey2 E)
  E (xorBlock masked (chain E message (n - 1)))

end Code

section Chain

variable {E : List Byte → List Byte}

theorem chain_succ (message : List Byte) (n : ℕ) :
    chain E message (n + 1) = E (xorBlock (chain E message n) (messageBlock message n)) := by
  rw [chain, List.range_succ, List.foldl_append]
  rfl

theorem length_chain (hE : ∀ b, (E b).length = 16) (message : List Byte) (n : ℕ) :
    (chain E message n).length = 16 := by
  cases n with
  | zero => rfl
  | succ n => rw [chain_succ, hE]

end Chain

/-! ### Bits and bytes -/

theorem div_bigEndian (bs : List Byte) {i : ℕ} (h : i < bs.length) :
    bigEndian bs / 256 ^ (bs.length - 1 - i) % 256 = (bs.getD i 0).toNat := by
  induction bs generalizing i with
  | nil => exact absurd h (Nat.not_lt_zero i)
  | cons b bs ih =>
    have hlt := bigEndian_lt bs
    have hb := b.isLt
    rw [bigEndian_cons, List.length_cons]
    cases i with
    | zero =>
      have hdiv : (b.toNat * 256 ^ bs.length + bigEndian bs) / 256 ^ bs.length = b.toNat := by
        rw [Nat.add_comm, Nat.add_mul_div_right _ _ (pow_pos (by decide) _), Nat.div_eq_of_lt hlt, Nat.zero_add]
      rw [Nat.add_sub_cancel, Nat.sub_zero, hdiv, List.getD_cons_zero]
      omega
    | succ i =>
      rw [List.length_cons] at h
      have hexp : bs.length + 1 - 1 - (i + 1) = bs.length - 1 - i := by omega
      have hpow : b.toNat * 256 ^ bs.length =
          256 ^ (bs.length - 1 - i) * (256 * (b.toNat * 256 ^ i)) := by
        have hlen : bs.length = bs.length - 1 - i + 1 + i := by omega
        calc b.toNat * 256 ^ bs.length = b.toNat * 256 ^ (bs.length - 1 - i + 1 + i) := by rw [← hlen]
          _ = 256 ^ (bs.length - 1 - i) * (256 * (b.toNat * 256 ^ i)) := by rw [pow_add, pow_add]; ring
      rw [hexp, hpow, Nat.mul_add_div (pow_pos (by decide) _), Nat.mul_add_mod, ih (by omega), List.getD_cons_succ]

theorem blockOf_bitsOf {bs : List Byte} (h : bs.length = 16) : blockOf (bitsOf bs) = bs := by
  refine List.ext_getElem (by simp [blockOf, h]) fun i h1 h2 => BitVec.eq_of_toNat_eq ?_
  have hlt := bigEndian_lt bs
  have hdiv := div_bigEndian bs h2
  have hpow : 2 ^ (8 * (15 - i)) = 256 ^ (15 - i) := pow_mul 2 8 _
  rw [h] at hlt hdiv
  rw [List.getD_eq_getElem _ _ h2] at hdiv
  have hbits : bigEndian bs < 2 ^ 128 := hlt
  simp only [blockOf, bitsOf, List.getElem_map, List.getElem_range, BitVec.toNat_setWidth, BitVec.toNat_ushiftRight,
    BitVec.toNat_ofNat]
  rw [Nat.mod_eq_of_lt hbits, Nat.shiftRight_eq_div_pow, hpow]
  exact hdiv

def carryBit (bs : List Byte) : Byte := if bs.headD 0 &&& 0x80 ≠ 0 then 1 else 0

def shiftBytes : List Byte → List Byte
  | [] => []
  | b :: bs => (b <<< 1 ||| carryBit bs) :: shiftBytes bs

@[simp] theorem length_shiftBytes (bs : List Byte) : (shiftBytes bs).length = bs.length := by
  induction bs with
  | nil => rfl
  | cons b bs ih => rw [shiftBytes, List.length_cons, ih, List.length_cons]

theorem getD_shiftBytes (bs : List Byte) {i : ℕ} (h : i < bs.length) :
    (shiftBytes bs).getD i 0 = bs.getD i 0 <<< 1 ||| carryBit (bs.drop (i + 1)) := by
  induction bs generalizing i with
  | nil => exact absurd h (Nat.not_lt_zero i)
  | cons b bs ih =>
    cases i with
    | zero => rfl
    | succ i => exact ih (Nat.lt_of_succ_lt_succ h)

theorem toNat_carryBit (bs : List Byte) : (carryBit bs).toNat = (bs.headD 0).toNat / 128 := by
  have hbyte : ∀ c : Byte, (if c &&& 0x80 ≠ 0 then 1 else 0 : Byte).toNat = c.toNat / 128 := by decide
  exact hbyte _

theorem toNat_shift_or (b : Byte) (bs : List Byte) :
    (b <<< 1 ||| carryBit bs).toNat = 2 * b.toNat % 256 + (carryBit bs).toNat := by
  have hzero : ∀ b : Byte, (b <<< 1 ||| 0).toNat = 2 * b.toNat % 256 := by decide
  have hone : ∀ b : Byte, (b <<< 1 ||| 1).toNat = 2 * b.toNat % 256 + 1 := by decide
  unfold carryBit
  split_ifs
  · exact hone b
  · exact hzero b

theorem two_mul_div (bs : List Byte) : 2 * bigEndian bs / 256 ^ bs.length = (carryBit bs).toNat := by
  rw [toNat_carryBit]
  cases bs with
  | nil => rfl
  | cons c bs =>
    have hlt := bigEndian_lt bs
    have hpos : 0 < 256 ^ bs.length := pow_pos (by decide) _
    have htwo : 2 * bigEndian bs / 256 ^ bs.length < 2 := (Nat.div_lt_iff_lt_mul hpos).2 (by omega)
    have hsplit : 2 * (c.toNat * 256 ^ bs.length + bigEndian bs) / 256 ^ bs.length =
        2 * c.toNat + 2 * bigEndian bs / 256 ^ bs.length := by
      rw [Nat.mul_add, ← Nat.mul_assoc, Nat.add_comm, Nat.add_mul_div_right _ _ hpos, Nat.add_comm]
    rw [bigEndian_cons, List.length_cons, List.headD_cons, pow_succ, ← Nat.div_div_eq_div_mul, hsplit]
    generalize 2 * bigEndian bs / 256 ^ bs.length = low at *
    omega

/-- **Shifting byte by byte** doubles the number, less the bit that falls out. -/
theorem bigEndian_shiftBytes (bs : List Byte) : bigEndian (shiftBytes bs) = 2 * bigEndian bs % 256 ^ bs.length := by
  induction bs with
  | nil => rfl
  | cons b bs ih =>
    have hpos : 0 < 256 ^ bs.length := pow_pos (by decide) _
    have hcarry := two_mul_div bs
    have hbit : (carryBit bs).toNat < 2 := by
      rw [toNat_carryBit]
      have := (bs.headD 0).isLt
      omega
    have hmod : 2 * (b.toNat * 256 ^ bs.length + bigEndian bs) % 256 ^ bs.length =
        2 * bigEndian bs % 256 ^ bs.length := by
      rw [Nat.mul_add, ← Nat.mul_assoc, Nat.mul_add_mod_self_right]
    have hdiv : 2 * (b.toNat * 256 ^ bs.length + bigEndian bs) / 256 ^ bs.length =
        2 * b.toNat + (carryBit bs).toNat := by
      rw [Nat.mul_add, ← Nat.mul_assoc, Nat.add_comm, Nat.add_mul_div_right _ _ hpos, Nat.add_comm, hcarry]
    have hhigh : 2 * b.toNat % 256 + (carryBit bs).toNat = (2 * b.toNat + (carryBit bs).toNat) % 256 := by omega
    rw [shiftBytes, bigEndian_cons, bigEndian_cons, length_shiftBytes, ih, toNat_shift_or, List.length_cons, pow_succ,
      Nat.mod_mul, hmod, hdiv, hhigh, Nat.add_comm, Nat.mul_comm (256 ^ bs.length)]

theorem bigEndian_zipWith_xor {xs ys : List Byte} (h : xs.length = ys.length) :
    bigEndian (List.zipWith (· ^^^ ·) xs ys) = bigEndian xs ^^^ bigEndian ys := by
  induction xs generalizing ys with
  | nil =>
    rw [List.eq_nil_of_length_eq_zero h.symm]
    rfl
  | cons x xs ih =>
    cases ys with
    | nil => exact absurd h (Nat.succ_ne_zero _)
    | cons y ys =>
      have hlen : xs.length = ys.length := Nat.succ.inj h
      have hzip : (List.zipWith (· ^^^ ·) xs ys).length = ys.length := by
        rw [List.length_zipWith, hlen, Nat.min_self]
      have hpow : 256 ^ ys.length = 2 ^ (8 * ys.length) := (pow_mul 2 8 _).symm
      have hx := bigEndian_lt xs
      have hy := bigEndian_lt ys
      rw [hlen, hpow] at hx
      rw [hpow] at hy
      rw [List.zipWith_cons_cons, bigEndian_cons, bigEndian_cons, bigEndian_cons, hzip, hlen, ih hlen, hpow,
        BitVec.toNat_xor, Nat.mul_comm, Nat.mul_comm x.toNat, Nat.mul_comm y.toNat]
      refine Nat.eq_of_testBit_eq fun j => ?_
      rw [Nat.testBit_xor, Nat.testBit_two_pow_mul_add _ (Nat.xor_lt_two_pow hx hy),
        Nat.testBit_two_pow_mul_add _ hx, Nat.testBit_two_pow_mul_add _ hy]
      split_ifs <;> rw [Nat.testBit_xor]

theorem xorBlock_eq_zipWith {xs ys : List Byte} (hx : xs.length = 16) (hy : ys.length = 16) :
    xorBlock xs ys = List.zipWith (· ^^^ ·) xs ys := by
  refine List.ext_getElem (by simp [hx, hy]) fun i h1 h2 => ?_
  rw [length_xorBlock] at h1
  simp [xorBlock, hx, hy, h1]

/-- **Sums byte by byte.** -/
theorem bitsOf_xorBlock {xs ys : List Byte} (hx : xs.length = 16) (hy : ys.length = 16) :
    bitsOf (xorBlock xs ys) = bitsOf xs ^^^ bitsOf ys := by
  unfold bitsOf
  rw [xorBlock_eq_zipWith hx hy, bigEndian_zipWith_xor (hx.trans hy.symm)]
  exact BitVec.ofNat_xor

/-! ### Doubling on bytes -/

def reduction : List Byte := List.replicate 15 0 ++ [0x87]

def doubleBytes (bs : List Byte) : List Byte :=
  if bs.headD 0 &&& 0x80 ≠ 0 then xorBlock (shiftBytes bs) reduction else shiftBytes bs

theorem bitsOf_shiftBytes {bs : List Byte} (h : bs.length = 16) : bitsOf (shiftBytes bs) = bitsOf bs <<< 1 := by
  refine BitVec.eq_of_toNat_eq ?_
  unfold bitsOf
  rw [bigEndian_shiftBytes, h, BitVec.toNat_shiftLeft, BitVec.toNat_ofNat, BitVec.toNat_ofNat, Nat.shiftLeft_eq]
  omega

theorem msb_bitsOf {bs : List Byte} (h : bs.length = 16) : (bitsOf bs).msb = true ↔ bs.headD 0 &&& 0x80 ≠ 0 := by
  have hlt := bigEndian_lt bs
  have hcarry := two_mul_div bs
  rw [h] at hlt hcarry
  rw [BitVec.msb_eq_decide, decide_eq_true_iff, bitsOf, BitVec.toNat_ofNat]
  unfold carryBit at hcarry
  split_ifs at hcarry with hbit
  · simp only [hbit, ne_eq, not_false_eq_true, iff_true]
    have : (1 : Byte).toNat = 1 := rfl
    omega
  · simp only [hbit, iff_false]
    have : (0 : Byte).toNat = 0 := rfl
    omega

/-- **Doubling on bytes is doubling in the field.** -/
theorem blockOf_double {bs : List Byte} (h : bs.length = 16) : blockOf (double (bitsOf bs)) = doubleBytes bs := by
  have hshift := bitsOf_shiftBytes h
  have hlen : (shiftBytes bs).length = 16 := by rw [length_shiftBytes, h]
  have hred : bitsOf reduction = 0x87#128 := by decide
  unfold double doubleBytes
  by_cases hbit : bs.headD 0 &&& 0x80 ≠ 0
  · rw [if_pos hbit, if_pos ((msb_bitsOf h).2 hbit), ← hshift, ← hred, ← bitsOf_xorBlock hlen rfl,
      blockOf_bitsOf (length_xorBlock _ _)]
  · rw [if_neg hbit, if_neg (hbit ∘ (msb_bitsOf h).1), ← hshift, blockOf_bitsOf hlen]

end Mt7610u.Lib
