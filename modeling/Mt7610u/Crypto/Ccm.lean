import Mt7610u.Crypto.AesInverse
import Mt7610u.Lib.BlockMode

/-! # AES in CCM mode (`common/crypt_aes.c`) -/

namespace Mt7610u.Crypto

open Lib

/-! ### The code -/

section Code

variable (key : List Byte)

/-- The first block of `AES_CCM_MAC`: flags, nonce and length of the payload. -/
def ccmFirstBlock (nonce : List Byte) (payloadLength aadLength macLength : ℕ) : List Byte :=
  let flags := (if 0 < aadLength then 0x40#8 else 0x00#8) ||| BitVec.ofNat 8 ((macLength - 2) / 2 * 8) |||
    BitVec.ofNat 8 (15 - nonce.length - 1)
  let block := padBlock (flags :: nonce)
  let block := if nonce.length < 12 then block.set 12 (BitVec.ofNat 8 (payloadLength / 2 ^ 24)) else block
  let block := if nonce.length < 13 then block.set 13 (BitVec.ofNat 8 (payloadLength / 2 ^ 16)) else block
  (block.set 14 (BitVec.ofNat 8 (payloadLength / 2 ^ 8))).set 15 (BitVec.ofNat 8 payloadLength)

/-- The loop over the additional data. `head` are the bytes of `Block` in front of `Block_Index`; the
turns are as many as there are bytes. -/
def ccmAadLoop : ℕ → List Byte → List Byte → List Byte → List Byte
  | 0, _, _, blockMac => blockMac
  | n + 1, head, aad, blockMac =>
    match aad with
    | [] => blockMac
    | a :: rest =>
      let aad := a :: rest
      let copyLength := min aad.length 16
      let copyLength := if 16 < copyLength + head.length then 16 - head.length else copyLength
      ccmAadLoop n [] (aad.drop copyLength)
        (rtAesEncrypt key (xorBlock blockMac (head ++ aad.take copyLength)))

def ccmAad (aad blockMac : List Byte) : List Byte :=
  let aadLength := aad.length
  if 0 < aadLength ∧ aadLength < 0xFF00 then
    ccmAadLoop key aadLength [BitVec.ofNat 8 (aadLength / 2 ^ 8), BitVec.ofNat 8 aadLength] aad blockMac
  else
    ccmAadLoop key aadLength [0x00#8, 0x00#8, BitVec.ofNat 8 (aadLength / 2 ^ 24),
      BitVec.ofNat 8 (aadLength / 2 ^ 16), BitVec.ofNat 8 (aadLength / 2 ^ 8), BitVec.ofNat 8 aadLength]
      aad blockMac

def aesCcmMac (payload nonce aad : List Byte) (macLength : ℕ) : List Byte :=
  let blockMac := rtAesEncrypt key (ccmFirstBlock nonce payload.length aad.length macLength)
  (absorb (rtAesEncrypt key) payload.length (ccmAad key aad blockMac) payload).take macLength

/-- `Block_CTR` as it is formatted. -/
def ccmBlockCtr (nonce : List Byte) : List Byte := padBlock (BitVec.ofNat 8 (15 - nonce.length - 1) :: nonce)

/-- `Block_CTR[15] += 1`. -/
def incBlockCtr (blockCtr : List Byte) : List Byte := blockCtr.set 15 (blockCtr.getD 15 0 + 1)

/-- The loop that encrypts or decrypts the payload of `n` bytes from `src` to `dst`; no more turns are made
than there are bytes. -/
def ccmPayloadLoop (dst src n : ℕ) : ℕ → (ℕ → Byte) → List Byte → ℕ → ℕ → Byte
  | 0, m, _, _ => m
  | fuel + 1, m, blockCtr, index =>
    if index < n then
      let blockCtr := incBlockCtr blockCtr
      let copyLength := min (n - index) 16
      ccmPayloadLoop dst src n fuel
        (xorInto m (dst + index) (src + index) ((rtAesEncrypt key blockCtr).take copyLength)) blockCtr
        (index + copyLength)
    else m

/-- The checks that `AES_CCM_Encrypt` and `AES_CCM_Decrypt` begin with: the negative value that is
returned, or zero. -/
def ccmCheck (nonce : List Byte) (macLength : ℕ) : ℤ :=
  if key.length ≠ 16 then -1
  else if nonce.length < 7 ∨ 13 < nonce.length then -2
  else if macLength ∉ [4, 6, 8, 10, 12, 14, 16] then -3
  else 0

structure CcmResult where
  status : ℤ
  mem : ℕ → Byte
  length : ℕ

/-- `AES_CCM_Encrypt`, from `plainText` to `cipherText`. -/
def aesCcmEncrypt (m : ℕ → Byte) (plainText plainTextLength : ℕ) (nonce aad : List Byte) (macLength : ℕ)
    (cipherText cipherTextLength : ℕ) : CcmResult :=
  if ccmCheck key nonce macLength ≠ 0 then ⟨ccmCheck key nonce macLength, m, cipherTextLength⟩
  else if cipherTextLength < (plainTextLength + macLength) % 2 ^ 32 then ⟨-4, m, cipherTextLength⟩
  else
    let blockCtr := ccmBlockCtr nonce
    let blockMac := (xorBlock (aesCcmMac key (readAt m plainText plainTextLength) nonce aad macLength)
      (rtAesEncrypt key blockCtr)).take macLength
    let m := ccmPayloadLoop key cipherText plainText plainTextLength plainTextLength m blockCtr 0
    ⟨0, copy m (cipherText + plainTextLength) blockMac, plainTextLength + macLength⟩

/-- `AES_CCM_Decrypt`, from `cipherText` to `plainText`. The length of the payload is computed in 32 bits;
one that wrapped does not pass the check against `plainTextLength`, which is the size of a buffer. -/
def aesCcmDecrypt (m : ℕ → Byte) (cipherText cipherTextLength : ℕ) (nonce aad : List Byte) (macLength : ℕ)
    (plainText plainTextLength : ℕ) : CcmResult :=
  let n := (cipherTextLength + (2 ^ 32 - macLength)) % 2 ^ 32
  if ccmCheck key nonce macLength ≠ 0 then ⟨ccmCheck key nonce macLength, m, plainTextLength⟩
  else if plainTextLength < n then ⟨-4, m, plainTextLength⟩
  else
    let blockCtr := ccmBlockCtr nonce
    let blockMacFromCipher :=
      (xorBlock (readAt m (cipherText + n) macLength) (rtAesEncrypt key blockCtr)).take macLength
    let m := ccmPayloadLoop key plainText cipherText n n m blockCtr 0
    if blockMacFromCipher ≠ aesCcmMac key (readAt m plainText n) nonce aad macLength then ⟨-5, m, n⟩
    else ⟨0, m, n⟩

end Code

/-! ### The payload -/

section Payload

variable (key : List Byte)

/-- The counter block `i`, of which the last byte counts. -/
def ctrBlock (nonce : List Byte) (i : ℕ) : List Byte := (ccmBlockCtr nonce).set 15 (BitVec.ofNat 8 i)

def ccmStream (nonce : List Byte) (i : ℕ) : Byte := (rtAesEncrypt key (ctrBlock nonce (i / 16 + 1))).getD (i % 16) 0

theorem length_ccmBlockCtr (nonce : List Byte) : (ccmBlockCtr nonce).length = 16 := by
  simp [ccmBlockCtr, padBlock]

theorem ctrBlock_zero {nonce : List Byte} (h : nonce.length ≤ 13) : ctrBlock nonce 0 = ccmBlockCtr nonce := by
  have hlt : 15 < (ccmBlockCtr nonce).length := by rw [length_ccmBlockCtr]; decide
  have hlast : (ccmBlockCtr nonce)[15] = 0x00#8 := by
    have : nonce[14]? = none := List.getElem?_eq_none (by omega)
    simp [ccmBlockCtr, padBlock, this]
  have hset := List.set_getElem_self hlt
  rw [hlast] at hset
  exact hset

theorem incBlockCtr_ctrBlock (nonce : List Byte) (i : ℕ) :
    incBlockCtr (ctrBlock nonce i) = ctrBlock nonce (i + 1) := by
  have hlen := length_ccmBlockCtr nonce
  unfold incBlockCtr ctrBlock
  rw [List.set_set]
  congr 1
  rw [List.getD_eq_getElem _ _ (by rw [List.length_set, hlen]; decide), List.getElem_set_self, BitVec.ofNat_add]
  rfl

/-- **The payload loop.** It leaves the payload under the keystream in its target. -/
theorem ccmPayloadLoop_eq (nonce : List Byte) {dst src n fuel : ℕ} (h : Clear dst src n) (index : ℕ)
    (m : ℕ → Byte) {blockCtr : List Byte} (hfuel : n - index ≤ fuel) (hindex : index ≤ n)
    (hctr : index < n → index % 16 = 0 ∧ blockCtr = ctrBlock nonce (index / 16)) :
    ccmPayloadLoop key dst src n fuel m blockCtr index =
      copy m (dst + index) (xorFrom (ccmStream key nonce) index (readAt m (src + index) (n - index))) := by
  -- where nothing is left, nothing is written
  have hdone : ∀ (m : ℕ → Byte) (d i s : ℕ), m = copy m d (xorFrom (ccmStream key nonce) i (readAt m s 0)) :=
    fun m d _ _ => (copy_of_holdsAt (holdsAt_nil m d)).symm
  induction fuel generalizing index m blockCtr with
  | zero =>
    have hzero : n - index = 0 := by omega
    rw [hzero]
    exact hdone m _ _ _
  | succ fuel ih =>
    rw [ccmPayloadLoop]
    by_cases hlt : index < n
    · obtain ⟨hmod, rfl⟩ := hctr hlt
      rw [if_pos hlt, incBlockCtr_ctrBlock]
      obtain ⟨len, hlen⟩ : ∃ len, len = min (n - index) 16 := ⟨_, rfl⟩
      simp only [← hlen]
      have hle : len ≤ n - index ∧ len ≤ 16 := by omega
      -- one block of the keystream
      have htake : ((rtAesEncrypt key (ctrBlock nonce (index / 16 + 1))).take len).length = len := by
        rw [List.length_take, length_rtAesEncrypt]
        omega
      have hks : ∀ i < ((rtAesEncrypt key (ctrBlock nonce (index / 16 + 1))).take len).length,
          ((rtAesEncrypt key (ctrBlock nonce (index / 16 + 1))).take len).getD i 0 =
            ccmStream key nonce (index + i) := by
        intro i hi
        rw [htake] at hi
        have hdiv : (index + i) / 16 = index / 16 := by omega
        have hrem : (index + i) % 16 = i := by omega
        unfold ccmStream
        rw [hdiv, hrem, List.getD_eq_getElem?_getD, List.getElem?_take_of_lt hi, List.getD_eq_getElem?_getD]
      have hclear : Clear (dst + index) (src + index)
          ((rtAesEncrypt key (ctrBlock nonce (index / 16 + 1))).take len).length := by
        unfold Clear at h ⊢
        omega
      have hxor := xorInto_eq_of_clear (ccmStream key nonce) m index hclear hks
      rw [htake] at hxor
      -- what is still to be read has not been written
      have hread : readAt (copy m (dst + index) (xorFrom (ccmStream key nonce) index
          (readAt m (src + index) len))) (src + (index + len)) (n - (index + len)) =
          readAt m (src + (index + len)) (n - (index + len)) := by
        refine readAt_congr fun i h1 h2 => ?_
        rcases h with h | h
        · refine copy_of_ge ?_
          rw [length_xorFrom, length_readAt]
          omega
        · exact copy_of_lt (by omega)
      have hnext : index + len < n → (index + len) % 16 = 0 ∧
          ctrBlock nonce (index / 16 + 1) = ctrBlock nonce ((index + len) / 16) := by
        intro hlt'
        have hdiv : index / 16 + 1 = (index + len) / 16 := by omega
        exact ⟨by omega, by rw [hdiv]⟩
      have hsplit : readAt m (src + index) (n - index) =
          readAt m (src + index) len ++ readAt m (src + (index + len)) (n - (index + len)) := by
        rw [← Nat.add_assoc, ← readAt_add]
        congr 1
        omega
      rw [hxor, ih _ _ (by omega) (by omega) hnext, hread, hsplit, xorFrom_append, copy_append, length_xorFrom,
        length_readAt, Nat.add_assoc]
    · have hzero : n - index = 0 := by omega
      rw [if_neg hlt, hzero]
      exact hdone m _ _ _

theorem ccmPayloadLoop_all {nonce : List Byte} (hnonce : nonce.length ≤ 13) {dst src n : ℕ}
    (h : Clear dst src n) (m : ℕ → Byte) :
    ccmPayloadLoop key dst src n n m (ccmBlockCtr nonce) 0 =
      copy m dst (xorFrom (ccmStream key nonce) 0 (readAt m src n)) :=
  ccmPayloadLoop_eq key nonce h 0 m le_rfl (Nat.zero_le n)
    fun _ => ⟨rfl, (ctrBlock_zero hnonce).symm⟩

end Payload

/-! ### What is sent and what is accepted -/

section Mode

variable {key nonce : List Byte}

def maskMac (key nonce mac : List Byte) : List Byte := (xorBlock mac (rtAesEncrypt key (ccmBlockCtr nonce))).take 8

@[simp] theorem length_maskMac (key nonce mac : List Byte) : (maskMac key nonce mac).length = 8 := by
  simp [maskMac]

theorem maskMac_maskMac {mac : List Byte} (h : mac.length = 8) : maskMac key nonce (maskMac key nonce mac) = mac := by
  refine List.ext_getElem (by rw [length_maskMac, h]) fun i h1 h2 => ?_
  have hi : i < 8 := by omega
  simp [maskMac, xorBlock, hi, h2, BitVec.xor_assoc]

theorem length_absorb {E : List Byte → List Byte} (hE : ∀ bs, (E bs).length = 16) (n : ℕ) {x : List Byte}
    (hx : x.length = 16) (bs : List Byte) : (absorb E n x bs).length = 16 := by
  induction n generalizing x bs with
  | zero => exact hx
  | succ n ih =>
    cases bs with
    | nil => exact hx
    | cons b bs => exact ih (hE _) _

theorem length_ccmAadLoop (key : List Byte) (n : ℕ) (head aad : List Byte) {x : List Byte} (hx : x.length = 16) :
    (ccmAadLoop key n head aad x).length = 16 := by
  induction n generalizing head aad x with
  | zero => exact hx
  | succ n ih =>
    cases aad with
    | nil => exact hx
    | cons a aad => exact ih _ _ (length_rtAesEncrypt _ _)

theorem length_aesCcmMac (key payload nonce aad : List Byte) : (aesCcmMac key payload nonce aad 8).length = 8 := by
  have haad : (ccmAad key aad (rtAesEncrypt key (ccmFirstBlock nonce payload.length aad.length 8))).length =
      16 := by
    simp only [ccmAad]
    split_ifs
    · exact length_ccmAadLoop key _ _ _ (length_rtAesEncrypt _ _)
    · exact length_ccmAadLoop key _ _ _ (length_rtAesEncrypt _ _)
  unfold aesCcmMac
  rw [List.length_take, length_absorb (length_rtAesEncrypt key) _ haad]
  decide

theorem ccmCheck_eq_zero (hkey : key.length = 16) (hnonce : nonce.length = 13) : ccmCheck key nonce 8 = 0 := by
  unfold ccmCheck
  rw [if_neg (not_not.2 hkey), if_neg (by omega), if_neg (by decide)]

/-- **Encryption** leaves the payload under the keystream, with the masked code behind it. -/
theorem aesCcmEncrypt_eq (hkey : key.length = 16) (hnonce : nonce.length = 13) (aad : List Byte)
    (m : ℕ → Byte) (off n len : ℕ) (hlen : n + 8 ≤ len) :
    aesCcmEncrypt key m off n nonce aad 8 off len =
      ⟨0, copy m off (xorFrom (ccmStream key nonce) 0 (readAt m off n) ++
        maskMac key nonce (aesCcmMac key (readAt m off n) nonce aad 8)), n + 8⟩ := by
  have hmod : (n + 8) % 2 ^ 32 ≤ n + 8 := Nat.mod_le _ _
  unfold aesCcmEncrypt
  rw [if_neg (not_not.2 (ccmCheck_eq_zero hkey hnonce)), if_neg (by omega)]
  simp only [ccmPayloadLoop_all key hnonce.le (.inl le_rfl)]
  rw [copy_append, length_xorFrom, length_readAt]
  rfl

theorem aesCcmDecrypt_eq (hkey : key.length = 16) (hnonce : nonce.length = 13) (aad : List Byte)
    (m : ℕ → Byte) {dst src : ℕ} (h : dst ≤ src) (n len : ℕ) (hn : n + 8 < 2 ^ 32) (hlen : n ≤ len) :
    aesCcmDecrypt key m src (n + 8) nonce aad 8 dst len =
      let plain := xorFrom (ccmStream key nonce) 0 (readAt m src n)
      if maskMac key nonce (readAt m (src + n) 8) ≠ aesCcmMac key plain nonce aad 8 then
        ⟨-5, copy m dst plain, n⟩
      else ⟨0, copy m dst plain, n⟩ := by
  have hsub : (n + 8 + (2 ^ 32 - 8)) % 2 ^ 32 = n := by omega
  have hplain : readAt (copy m dst (xorFrom (ccmStream key nonce) 0 (readAt m src n))) dst n =
      xorFrom (ccmStream key nonce) 0 (readAt m src n) := by
    have hread := readAt_copy m dst (xorFrom (ccmStream key nonce) 0 (readAt m src n))
    rw [length_xorFrom, length_readAt] at hread
    exact hread
  simp only [aesCcmDecrypt, hsub, ccmPayloadLoop_all key hnonce.le (.inl h), hplain]
  rw [if_neg (not_not.2 (ccmCheck_eq_zero hkey hnonce)), if_neg (by omega)]
  rfl

theorem aesCcmDecrypt_short (hkey : key.length = 16) (hnonce : nonce.length = 13) (aad : List Byte)
    (m : ℕ → Byte) (dst src : ℕ) {ctl len : ℕ} (hlen : len + 16 < 2 ^ 32)
    (hctl : ctl < 8 ∨ 2 ^ 32 - 8 ≤ ctl ∧ ctl < 2 ^ 32) :
    (aesCcmDecrypt key m src ctl nonce aad 8 dst len).status = -4 := by
  simp only [aesCcmDecrypt]
  rw [if_neg (not_not.2 (ccmCheck_eq_zero hkey hnonce)), if_pos (by omega)]

end Mode

end Mt7610u.Crypto
