import Mt7610u.Crypto.Aes
import Mathlib.Data.Set.Finite.List
import Mathlib.Tactic.IntervalCases

/-! # Decryption undoes encryption

The tables of `common/crypt_aes.c` fit each other, and so do the two directions of the cipher. -/

namespace Mt7610u.Crypto

open Lib

/-! ### Substitution -/

theorem lookup_of_eq {table : List Byte} {f : Byte → Byte}
    (h : table = (List.range 256).map fun i => f (BitVec.ofNat 8 i)) (b : Byte) : lookup table b = f b := by
  subst h
  simp [lookup, b.isLt]

theorem lookup_map {table : List Byte} (f : Byte → Byte) (h : table.length = 256) (b : Byte) :
    lookup (table.map f) b = f (lookup table b) := by
  have hlt : b.toNat < table.length := h ▸ b.isLt
  simp [lookup, hlt]

set_option maxRecDepth 2000 in
theorem lookup_dec_enc (b : Byte) : lookup aesSboxDec (lookup aesSboxEnc b) = b := by
  have htable : aesSboxEnc.map (lookup aesSboxDec) = (List.range 256).map fun i => BitVec.ofNat 8 i := by
    decide
  rw [← lookup_map (lookup aesSboxDec) (by decide), lookup_of_eq (f := id) htable]
  rfl

theorem subBytes_dec_enc (s : AesState) : subBytes aesSboxDec (subBytes aesSboxEnc s) = s := by
  simp only [subBytes, AesState.map, Word.sub, lookup_dec_enc]

/-! ### Multiplication -/

def xtime (b : Byte) : Byte := b <<< 1 ^^^ (if b.getLsbD 7 then 0x1b else 0)

theorem ite_xor (p q : Bool) (c : Byte) :
    (if (p ^^ q) then c else 0) = (if p then c else 0) ^^^ (if q then c else 0) := by
  cases p <;> cases q <;> simp

theorem xtime_xor (a b : Byte) : xtime (a ^^^ b) = xtime a ^^^ xtime b := by
  rw [xtime, xtime, xtime, BitVec.shiftLeft_xor_distrib, BitVec.getLsbD_xor, ite_xor]
  ac_rfl

set_option maxRecDepth 2000 in
theorem lookup_mul2 : ∀ b : Byte, lookup aesMul2 b = xtime b := lookup_of_eq (by decide)

set_option maxRecDepth 2000 in
theorem lookup_mul3 : ∀ b : Byte, lookup aesMul3 b = xtime b ^^^ b := lookup_of_eq (by decide)

set_option maxRecDepth 2000 in
theorem lookup_mul9 : ∀ b : Byte, lookup aesMul9 b = xtime (xtime (xtime b)) ^^^ b := lookup_of_eq (by decide)

set_option maxRecDepth 2000 in
theorem lookup_mulB : ∀ b : Byte, lookup aesMulB b = xtime (xtime (xtime b)) ^^^ xtime b ^^^ b :=
  lookup_of_eq (by decide)

set_option maxRecDepth 2000 in
theorem lookup_mulD : ∀ b : Byte, lookup aesMulD b = xtime (xtime (xtime b)) ^^^ xtime (xtime b) ^^^ b :=
  lookup_of_eq (by decide)

set_option maxRecDepth 2000 in
theorem lookup_mulE : ∀ b : Byte, lookup aesMulE b = xtime (xtime (xtime b)) ^^^ xtime (xtime b) ^^^ xtime b :=
  lookup_of_eq (by decide)

theorem lookup_mul9_xor (a b : Byte) : lookup aesMul9 (a ^^^ b) = lookup aesMul9 a ^^^ lookup aesMul9 b := by
  simp only [lookup_mul9, xtime_xor]
  ac_rfl

theorem lookup_mulB_xor (a b : Byte) : lookup aesMulB (a ^^^ b) = lookup aesMulB a ^^^ lookup aesMulB b := by
  simp only [lookup_mulB, xtime_xor]
  ac_rfl

theorem lookup_mulD_xor (a b : Byte) : lookup aesMulD (a ^^^ b) = lookup aesMulD a ^^^ lookup aesMulD b := by
  simp only [lookup_mulD, xtime_xor]
  ac_rfl

theorem lookup_mulE_xor (a b : Byte) : lookup aesMulE (a ^^^ b) = lookup aesMulE a ^^^ lookup aesMulE b := by
  simp only [lookup_mulE, xtime_xor]
  ac_rfl

/-! ### Mixing the columns

The product of the two circulant matrices: a coefficient on the diagonal is `1`, the other three
vanish. -/

theorem coefficient_diagonal (b : Byte) : lookup aesMulE (lookup aesMul2 b) ^^^ lookup aesMulB b ^^^
    lookup aesMulD b ^^^ lookup aesMul9 (lookup aesMul3 b) = b := by
  simp only [lookup_mul2, lookup_mul3, lookup_mul9, lookup_mulB, lookup_mulD, lookup_mulE, xtime_xor]
  ext i
  simp only [BitVec.getElem_xor]
  grind

theorem coefficient_one (b : Byte) : lookup aesMulE (lookup aesMul3 b) ^^^
    lookup aesMulB (lookup aesMul2 b) ^^^ lookup aesMulD b ^^^ lookup aesMul9 b = 0 := by
  simp only [lookup_mul2, lookup_mul3, lookup_mul9, lookup_mulB, lookup_mulD, lookup_mulE, xtime_xor]
  ext i
  simp only [BitVec.getElem_xor]
  grind

theorem coefficient_two (b : Byte) : lookup aesMulE b ^^^ lookup aesMulB (lookup aesMul3 b) ^^^
    lookup aesMulD (lookup aesMul2 b) ^^^ lookup aesMul9 b = 0 := by
  simp only [lookup_mul2, lookup_mul3, lookup_mul9, lookup_mulB, lookup_mulD, lookup_mulE, xtime_xor]
  ext i
  simp only [BitVec.getElem_xor]
  grind

theorem coefficient_three (b : Byte) : lookup aesMulE b ^^^ lookup aesMulB b ^^^
    lookup aesMulD (lookup aesMul3 b) ^^^ lookup aesMul9 (lookup aesMul2 b) = 0 := by
  simp only [lookup_mul2, lookup_mul3, lookup_mul9, lookup_mulB, lookup_mulD, lookup_mulE, xtime_xor]
  ext i
  simp only [BitVec.getElem_xor]
  grind

theorem invMix_row (a b c d : Byte) :
    lookup aesMulE (lookup aesMul2 a ^^^ lookup aesMul3 b ^^^ c ^^^ d) ^^^
      lookup aesMulB (a ^^^ lookup aesMul2 b ^^^ lookup aesMul3 c ^^^ d) ^^^
      lookup aesMulD (a ^^^ b ^^^ lookup aesMul2 c ^^^ lookup aesMul3 d) ^^^
      lookup aesMul9 (lookup aesMul3 a ^^^ b ^^^ c ^^^ lookup aesMul2 d) = a := by
  simp only [lookup_mulE_xor, lookup_mulB_xor, lookup_mulD_xor, lookup_mul9_xor]
  calc
    _ = (lookup aesMulE (lookup aesMul2 a) ^^^ lookup aesMulB a ^^^ lookup aesMulD a ^^^
          lookup aesMul9 (lookup aesMul3 a)) ^^^
        ((lookup aesMulE (lookup aesMul3 b) ^^^ lookup aesMulB (lookup aesMul2 b) ^^^
          lookup aesMulD b ^^^ lookup aesMul9 b) ^^^
        ((lookup aesMulE c ^^^ lookup aesMulB (lookup aesMul3 c) ^^^
          lookup aesMulD (lookup aesMul2 c) ^^^ lookup aesMul9 c) ^^^
        (lookup aesMulE d ^^^ lookup aesMulB d ^^^ lookup aesMulD (lookup aesMul3 d) ^^^
          lookup aesMul9 (lookup aesMul2 d)))) := by ac_rfl
    _ = a := by
      rw [coefficient_diagonal, coefficient_one, coefficient_two, coefficient_three]
      exact BitVec.xor_zero

theorem invMixColumn_mixColumn (w : Word) : invMixColumn (mixColumn w) = w := by
  obtain ⟨a, b, c, d⟩ := w
  refine Word.ext (invMix_row a b c d) ?_ ?_ ?_
  · refine Eq.trans ?_ (invMix_row b c d a)
    simp only [invMixColumn, mixColumn]
    ac_rfl
  · refine Eq.trans ?_ (invMix_row c d a b)
    simp only [invMixColumn, mixColumn]
    ac_rfl
  · refine Eq.trans ?_ (invMix_row d a b c)
    simp only [invMixColumn, mixColumn]
    ac_rfl

/-! ### The cipher -/

theorem invShiftRows_shiftRows (s : AesState) : invShiftRows (shiftRows s) = s := rfl

theorem map_invMixColumn_mixColumn (s : AesState) : (s.map mixColumn).map invMixColumn = s := by
  simp only [AesState.map, invMixColumn_mixColumn]

theorem Word.xor_xor (v w : Word) : (v.xor w).xor w = v := by
  simp only [Word.xor, BitVec.xor_assoc, BitVec.xor_self, BitVec.xor_zero]

theorem addRoundKey_addRoundKey (words : List Word) (r : ℕ) (s : AesState) :
    addRoundKey words r (addRoundKey words r s) = s := by
  simp only [addRoundKey, Word.xor_xor]

/-- The decryption rounds undo the encryption rounds, seen through the substitution and the shift
with which the next round of either begins. -/
theorem decryptRounds_encryptRounds (words : List Word) : ∀ (n : ℕ) (s : AesState),
    decryptRounds words n (shiftRows (subBytes aesSboxEnc (encryptRounds words n s))) =
      shiftRows (subBytes aesSboxEnc s)
  | 0, _ => rfl
  | n + 1, s => by
    rw [decryptRounds, encryptRounds, invShiftRows_shiftRows, subBytes_dec_enc,
      addRoundKey_addRoundKey, map_invMixColumn_mixColumn]
    exact decryptRounds_encryptRounds words n s

theorem toState_toBlock (s : AesState) : toState (toBlock s) = s := rfl

theorem toBlock_toState {block : List Byte} (h : block.length = 16) : toBlock (toState block) = block := by
  refine List.ext_getElem (by rw [h]; rfl) fun i hi hi' => ?_
  rw [h] at hi'
  simp only [toBlock, toState]
  interval_cases i <;> simp [h]

@[simp] theorem length_rtAesEncrypt (key block : List Byte) : (rtAesEncrypt key block).length = 16 := rfl

theorem rtAesDecrypt_encrypt (key : List Byte) {block : List Byte} (h : block.length = 16) :
    rtAesDecrypt key (rtAesEncrypt key block) = block := by
  simp only [rtAesDecrypt, rtAesEncrypt, toState_toBlock, addRoundKey_addRoundKey,
    decryptRounds_encryptRounds, invShiftRows_shiftRows, subBytes_dec_enc, toBlock_toState h]

@[simp] theorem length_rtAesDecrypt (key block : List Byte) : (rtAesDecrypt key block).length = 16 := rfl

theorem finite_byte : Finite Byte := Finite.of_injective BitVec.toFin fun _ _ h => BitVec.eq_of_toFin_eq h

/-- **Encryption undoes decryption.** The cipher of one key maps a finite set of blocks into itself without
collisions, so it reaches every block. -/
theorem rtAesEncrypt_decrypt (key : List Byte) {block : List Byte} (h : block.length = 16) :
    rtAesEncrypt key (rtAesDecrypt key block) = block := by
  have := finite_byte
  have hmaps : Set.MapsTo (rtAesEncrypt key) {l | l.length = 16} {l | l.length = 16} :=
    fun b _ => length_rtAesEncrypt key b
  have hinj : Set.InjOn (rtAesEncrypt key) {l | l.length = 16} := by
    intro b hb c hc hbc
    rw [← rtAesDecrypt_encrypt key hb, hbc, rtAesDecrypt_encrypt key hc]
  have hbij := ((List.finite_length_eq Byte 16).injOn_iff_bijOn_of_mapsTo hmaps).1 hinj
  obtain ⟨b, hb, rfl⟩ := hbij.surjOn h
  rw [rtAesDecrypt_encrypt key hb]

theorem rtAesEncryptCall_eq {key block : List Byte} (hkey : keyLengthOk key) (hblock : block.length = 16)
    (cipherBlock : List Byte) {n : ℕ} (hn : 16 ≤ n) :
    rtAesEncryptCall true block key cipherBlock n = (rtAesEncrypt key block ++ cipherBlock.drop 16, 16) := by
  unfold rtAesEncryptCall
  rw [if_neg (not_not.2 hblock), if_neg (not_not.2 hkey), if_neg (by omega), if_pos rfl]

theorem rtAesDecryptCall_eq {key block : List Byte} (hkey : keyLengthOk key) (hblock : block.length = 16)
    (plainBlock : List Byte) {n : ℕ} (hn : 16 ≤ n) :
    rtAesDecryptCall true block key plainBlock n = (rtAesDecrypt key block ++ plainBlock.drop 16, 16) := by
  unfold rtAesDecryptCall
  rw [if_neg (by omega), if_neg (not_not.2 hkey), if_neg (not_not.2 hblock), if_pos rfl]

/-- **The inverse cipher**, from call to call: the block comes back in the buffer of the second. -/
theorem rtAesDecryptCall_encryptCall {key block : List Byte} (hkey : keyLengthOk key)
    (hblock : block.length = 16) (cipherBlock plainBlock : List Byte) {n n' : ℕ} (hn : 16 ≤ n) (hn' : 16 ≤ n') :
    let sent := rtAesEncryptCall true block key cipherBlock n
    rtAesDecryptCall true (sent.1.take sent.2) key plainBlock n' = (block ++ plainBlock.drop 16, 16) := by
  intro sent
  have hsent : sent = (rtAesEncrypt key block ++ cipherBlock.drop 16, 16) :=
    rtAesEncryptCall_eq hkey hblock cipherBlock hn
  have htake : sent.1.take sent.2 = rtAesEncrypt key block := by
    rw [hsent]
    exact List.take_left' (length_rtAesEncrypt key block)
  rw [htake, rtAesDecryptCall_eq hkey (length_rtAesEncrypt key block) plainBlock hn',
    rtAesDecrypt_encrypt key hblock]

theorem rtAesDecryptCall_encryptCall_zeros : let key := List.replicate 24 0x2b#8
    let block := List.replicate 16 0x00#8
    keyLengthOk key ∧ block.length = 16 ∧
      rtAesDecryptCall true ((rtAesEncryptCall true block key [] 16).1.take
        (rtAesEncryptCall true block key [] 16).2) key [] 16 = (block ++ [], 16) :=
  ⟨by decide, rfl, rtAesDecryptCall_encryptCall (by decide) rfl [] [] le_rfl le_rfl⟩

end Mt7610u.Crypto
