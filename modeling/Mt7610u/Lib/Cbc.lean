import Mt7610u.Lib.BlockMode

/-! # Cipher block chaining

The chaining mode over any cipher of 16-byte blocks, with the padding that spells its own length. -/

namespace Mt7610u.Lib

theorem xorBlock_xorBlock {a : List Byte} (h : a.length = 16) (b : List Byte) : xorBlock (xorBlock a b) b = a := by
  refine List.ext_getElem (by rw [length_xorBlock, h]) fun i h1 h2 => ?_
  rw [length_xorBlock] at h1
  simp [xorBlock, h1, h2, BitVec.xor_assoc]

/-! ### The mode -/

section Mode

variable (E D : List Byte → List Byte)

def cbcEncrypt : ℕ → List Byte → List Byte → List Byte
  | 0, _, _ => []
  | n + 1, prev, bs =>
    let out := E (xorBlock (bs.take 16) prev)
    out ++ cbcEncrypt n out (bs.drop 16)

def cbcDecrypt : ℕ → List Byte → List Byte → List Byte
  | 0, _, _ => []
  | n + 1, prev, bs => xorBlock (D (bs.take 16)) prev ++ cbcDecrypt n (bs.take 16) (bs.drop 16)

variable {E D}

theorem length_cbcEncrypt (hE : ∀ b, (E b).length = 16) (n : ℕ) (prev bs : List Byte) :
    (cbcEncrypt E n prev bs).length = 16 * n := by
  induction n generalizing prev bs with
  | zero => rfl
  | succ n ih => rw [cbcEncrypt, List.length_append, hE, ih, Nat.mul_succ, Nat.add_comm]

/-- **Decryption undoes encryption.** Every block comes back on top of the one before it, which the receiver
has seen. -/
theorem cbcDecrypt_cbcEncrypt (hE : ∀ b, (E b).length = 16) (hD : ∀ b, b.length = 16 → D (E b) = b) (n : ℕ)
    (prev : List Byte) {bs : List Byte} (h : bs.length = 16 * n) :
    cbcDecrypt D n prev (cbcEncrypt E n prev bs) = bs := by
  induction n generalizing prev bs with
  | zero => exact (List.eq_nil_of_length_eq_zero h).symm
  | succ n ih =>
    have hblock : (bs.take 16).length = 16 := by rw [List.length_take]; omega
    have hout := hE (xorBlock (bs.take 16) prev)
    rw [cbcEncrypt, cbcDecrypt, List.take_left' hout, List.drop_left' hout, hD _ (length_xorBlock _ _),
      xorBlock_xorBlock hblock, ih _ (by rw [List.length_drop]; omega), List.take_append_drop]

theorem getD_cbcDecrypt {n k i : ℕ} (prev bs : List Byte) (hk : k < n) (hi : i < 16) :
    (cbcDecrypt D n prev bs).getD (16 * k + i) 0 =
      (D ((bs.drop (16 * k)).take 16)).getD i 0 ^^^
        (if k = 0 then prev else (bs.drop (16 * (k - 1))).take 16).getD i 0 := by
  induction n generalizing k prev bs with
  | zero => omega
  | succ n ih =>
    have hlen := length_xorBlock (D (bs.take 16)) prev
    cases k with
    | zero =>
      rw [cbcDecrypt, List.getD_append _ _ _ _ (by omega), Nat.mul_zero, Nat.zero_add, getD_xorBlock _ _ hi,
        if_pos rfl, List.drop_zero]
    | succ k =>
      have hplace : 16 * (k + 1) + i - 16 = 16 * k + i := by omega
      rw [cbcDecrypt, List.getD_append_right _ _ _ _ (by omega), hlen, hplace, ih _ _ (by omega), List.drop_drop,
        if_neg (Nat.succ_ne_zero k), Nat.add_sub_cancel, Nat.mul_succ, Nat.add_comm 16]
      cases k with
      | zero => rfl
      | succ k =>
        rw [if_neg (Nat.succ_ne_zero k), Nat.add_sub_cancel, List.drop_drop, Nat.mul_succ, Nat.add_comm 16]

end Mode

/-! ### Padding -/

/-- The number of bytes behind a string of `n` bytes, at least one. -/
def padding (n : ℕ) : ℕ := 16 - n % 16

def padded (bs : List Byte) : List Byte := bs ++ List.replicate (padding bs.length) (BitVec.ofNat 8 (padding bs.length))

theorem padding_pos (n : ℕ) : 0 < padding n := by unfold padding; omega

theorem padding_le (n : ℕ) : padding n ≤ 16 := by unfold padding; omega

theorem length_padded (bs : List Byte) : (padded bs).length = bs.length + padding bs.length := by
  rw [padded, List.length_append, List.length_replicate]

theorem length_padded_eq (bs : List Byte) : (padded bs).length = 16 * (bs.length / 16 + 1) := by
  rw [length_padded, padding]
  omega

theorem padded_of_le {bs : List Byte} (h : 16 ≤ bs.length) : padded bs = bs.take 16 ++ padded (bs.drop 16) := by
  have hlen : padding (bs.drop 16).length = padding bs.length := by
    rw [List.length_drop]
    unfold padding
    omega
  rw [padded, padded, hlen, ← List.append_assoc, List.take_append_drop]

theorem getD_padded_last (bs : List Byte) :
    (padded bs).getD ((padded bs).length - 1) 0 = BitVec.ofNat 8 (padding bs.length) := by
  have hpos := padding_pos bs.length
  rw [length_padded]
  unfold padded
  rw [List.getD_append_right _ _ _ _ (by omega), List.getD_replicate]
  omega

end Mt7610u.Lib
