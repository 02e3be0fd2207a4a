import Mt7610u.Crypto.Ccm
import Mt7610u.Wpa.Eapol

/-! # CCMP in software (`common/cmm_aes.c`) -/

namespace Mt7610u.Data

open Lib Crypto Wpa

/-! ### The code -/

section Code

variable (hdr : ℕ → Byte)

def frameType : Byte := hdr 0 >>> 2 &&& 0x03#8

def frameSubtype : Byte := hdr 0 >>> 4 &&& 0x0f#8

def a4Exists : Bool := decide ((hdr 1 &&& 0x02#8) >>> 1 &&& (hdr 1 &&& 0x01#8) = 0x01#8)

/-- One of `SUBTYPE_QDATA`, `SUBTYPE_QDATA_CFACK`, `SUBTYPE_QDATA_CFPOLL`, `SUBTYPE_QDATA_CFACK_CFPOLL`. -/
def qosSubtype : Bool := decide (frameSubtype hdr ∈ [0x08#8, 0x09#8, 0x0a#8, 0x0b#8])

/-- `frame_type == BTYPE_DATA`. -/
def isDataFrame : Bool := decide (frameType hdr = 0x02#8)

/-- `qc_exists` of `RTMPSoftEncryptCCMP` and `RTMPSoftDecryptCCMP`. -/
def qcExists : Bool := isDataFrame hdr && qosSubtype hdr

/-- `RTMPConstructCCMPAAD`: the `aad_len` bytes of `aad_hdr`. -/
def rtmpConstructCCMPAAD (isData a4 qc : Bool) : List Byte :=
  -- subtype, retry, power management and more data are muted, the protected bit is set
  [if isData then hdr 0 &&& 0x8f#8 else hdr 0, hdr 1 &&& 0xc7#8 ||| 0x40#8] ++ readAt hdr 4 18 ++
    [hdr 22 &&& 0x0f#8, 0x00#8] ++ (if a4 then readAt hdr 24 6 else []) ++
    (if qc && a4 then [hdr 30 &&& 0x0f#8, 0x00#8]
      else if qc && !a4 then [hdr 24 &&& 0x0f#8, 0x00#8] else [])

/-- `RTMPConstructCCMPNonce`, on a `nonce_hdr` of zeros. -/
def rtmpConstructCCMPNonce (a4 qc : Bool) (pn : List Byte) : List Byte :=
  [if qc && a4 then hdr 30 &&& 0x0f#8 else if qc && !a4 then hdr 24 &&& 0x0f#8 else 0x00#8] ++
    readAt hdr 10 6 ++ [5, 4, 3, 2, 1, 0].map fun i => pn.getD i 0

def rtmpConstructCCMPHdr (keyIdx : Byte) (pn : List Byte) : List Byte :=
  [pn.getD 0 0, pn.getD 1 0, 0x00#8, keyIdx <<< 6 ||| 0x20#8, pn.getD 2 0, pn.getD 3 0, pn.getD 4 0, pn.getD 5 0]

/-- `RTMPSoftEncryptCCMP` of the `dataLen` bytes at `pData`: what it returns, and the memory. -/
def rtmpSoftEncryptCCMP (iv key : List Byte) (m : ℕ → Byte) (pData dataLen : ℕ) : Bool × (ℕ → Byte) :=
  let outLen := (dataLen + 8) % 2 ^ 32
  let aad := rtmpConstructCCMPAAD hdr (isDataFrame hdr) (a4Exists hdr) (qcExists hdr)
  let nonce := rtmpConstructCCMPNonce hdr (a4Exists hdr) (qcExists hdr) iv
  let r := aesCcmEncrypt key m pData dataLen nonce aad 8 pData outLen
  (decide (r.status = 0), r.mem)

/-- What `RTMPSoftDecryptCCMP` returns, the memory and `*DataLen`. -/
structure SoftDecrypt where
  ok : Bool
  mem : ℕ → Byte
  dataLen : ℕ

/-- The packet number in a CCMP header at `pData`. -/
def packetNumber (m : ℕ → Byte) (pData : ℕ) : List Byte :=
  [m pData, m (pData + 1), m (pData + 4), m (pData + 5), m (pData + 6), m (pData + 7)]

/-- The bytes of `Key`. -/
def keyBytes (key : CipherKey) : List Byte := List.ofFn key.key

/-- `RTMPSoftDecryptCCMP` of the `dataLen` bytes at `pData`. -/
def rtmpSoftDecryptCCMP (key : CipherKey) (m : ℕ → Byte) (pData dataLen : ℕ) : SoftDecrypt :=
  if key.keyLen = 0 then ⟨false, m, dataLen⟩
  else
    let pn := packetNumber m pData
    let cipherDataLen := (dataLen + (2 ^ 32 - 8)) % 2 ^ 32
    let aad := rtmpConstructCCMPAAD hdr (isDataFrame hdr) (a4Exists hdr) (qcExists hdr)
    let nonce := rtmpConstructCCMPNonce hdr (a4Exists hdr) (qcExists hdr) pn
    let r := aesCcmDecrypt (keyBytes key) m (pData + 8) cipherDataLen nonce aad 8 pData dataLen
    if r.status ≠ 0 then ⟨false, r.mem, dataLen⟩ else ⟨true, r.mem, r.length % 2 ^ 16⟩

end Code

/-! ### What is accepted -/

section Decrypt

variable (hdr : ℕ → Byte)

def ccmpAad : List Byte := rtmpConstructCCMPAAD hdr (isDataFrame hdr) (a4Exists hdr) (qcExists hdr)

def ccmpNonce (pn : List Byte) : List Byte := rtmpConstructCCMPNonce hdr (a4Exists hdr) (qcExists hdr) pn

@[simp] theorem length_keyBytes (key : CipherKey) : (keyBytes key).length = 16 := by
  simp [keyBytes]

@[simp] theorem length_ccmpNonce (pn : List Byte) : (ccmpNonce hdr pn).length = 13 := by
  simp [ccmpNonce, rtmpConstructCCMPNonce]

variable (key : CipherKey) (m : ℕ → Byte) (pData : ℕ)

/-- The payload of `n` bytes behind the CCMP header, decrypted. -/
def ccmpPlain (n : ℕ) : List Byte :=
  xorFrom (ccmStream (keyBytes key) (ccmpNonce hdr (packetNumber m pData))) 0 (readAt m (pData + 8) n)

/-- The MIC that was transmitted behind a payload of `n` bytes. -/
def transmittedMic (n : ℕ) : List Byte :=
  maskMac (keyBytes key) (ccmpNonce hdr (packetNumber m pData)) (readAt m (pData + 8 + n) 8)

def recomputedMic (n : ℕ) : List Byte :=
  aesCcmMac (keyBytes key) (ccmpPlain hdr key m pData n) (ccmpNonce hdr (packetNumber m pData)) (ccmpAad hdr) 8

variable {key}

theorem rtmpSoftDecryptCCMP_short {dataLen : ℕ} (h : dataLen < 16) :
    (rtmpSoftDecryptCCMP hdr key m pData dataLen).ok = false := by
  unfold rtmpSoftDecryptCCMP
  split_ifs with hk
  · rfl
  · have hst : (aesCcmDecrypt (keyBytes key) m (pData + 8) ((dataLen + (2 ^ 32 - 8)) % 2 ^ 32)
        (ccmpNonce hdr (packetNumber m pData)) (ccmpAad hdr) 8 pData dataLen).status = -4 :=
      aesCcmDecrypt_short (length_keyBytes key) (length_ccmpNonce hdr _) _ m _ _ (by omega) (by omega)
    unfold ccmpNonce ccmpAad at hst
    simp only [hst]
    rfl

theorem rtmpSoftDecryptCCMP_eq (hk : key.keyLen ≠ 0) {n : ℕ} (hn : n + 16 < 2 ^ 16) :
    rtmpSoftDecryptCCMP hdr key m pData (n + 16) =
      if transmittedMic hdr key m pData n ≠ recomputedMic hdr key m pData n then
        ⟨false, copy m pData (ccmpPlain hdr key m pData n), n + 16⟩
      else ⟨true, copy m pData (ccmpPlain hdr key m pData n), n⟩ := by
  have hlen : (n + 16 + (2 ^ 32 - 8)) % 2 ^ 32 = n + 8 := by omega
  have hmod : n % 2 ^ 16 = n := by omega
  have hdec := aesCcmDecrypt_eq (length_keyBytes key) (length_ccmpNonce hdr (packetNumber m pData))
    (ccmpAad hdr) m (show pData ≤ pData + 8 by omega) n (n + 16) (by omega) (by omega)
  simp only [rtmpSoftDecryptCCMP, if_neg hk, hlen]
  unfold ccmpNonce ccmpAad at hdec
  simp only [hdec]
  by_cases hmic : transmittedMic hdr key m pData n = recomputedMic hdr key m pData n
  · rw [if_neg (not_not.2 hmic)]
    unfold transmittedMic recomputedMic ccmpPlain ccmpNonce ccmpAad at hmic
    rw [if_neg (not_not.2 hmic), if_neg (fun h => h rfl), hmod]
    rfl
  · rw [if_pos hmic]
    unfold transmittedMic recomputedMic ccmpPlain ccmpNonce ccmpAad at hmic
    rw [if_pos hmic, if_pos (show (-5 : ℤ) ≠ 0 by decide)]
    rfl

/-- **What is accepted**: a frame with a key, room for header and MIC, and the MIC of what it carries. -/
theorem rtmpSoftDecryptCCMP_ok {dataLen : ℕ} (hlen : dataLen < 2 ^ 16) :
    (rtmpSoftDecryptCCMP hdr key m pData dataLen).ok = true ↔ key.keyLen ≠ 0 ∧ 16 ≤ dataLen ∧
      transmittedMic hdr key m pData (dataLen - 16) = recomputedMic hdr key m pData (dataLen - 16) := by
  by_cases hk : key.keyLen = 0
  · have hfail : (rtmpSoftDecryptCCMP hdr key m pData dataLen).ok = false := by
      rw [rtmpSoftDecryptCCMP, if_pos hk]
    rw [hfail]
    constructor
    · intro h
      cases h
    · intro h
      exact absurd hk h.1
  · by_cases hshort : dataLen < 16
    · rw [rtmpSoftDecryptCCMP_short hdr m pData hshort]
      constructor
      · intro h
        cases h
      · intro h
        omega
    · obtain ⟨n, rfl⟩ : ∃ n, dataLen = n + 16 := ⟨dataLen - 16, by omega⟩
      rw [rtmpSoftDecryptCCMP_eq hdr m pData hk hlen, Nat.add_sub_cancel]
      by_cases hmic : transmittedMic hdr key m pData n = recomputedMic hdr key m pData n
      · rw [if_neg (not_not.2 hmic)]
        exact ⟨fun _ => ⟨hk, by omega, hmic⟩, fun _ => rfl⟩
      · rw [if_pos hmic]
        constructor
        · intro h
          cases h
        · intro h
          exact absurd h.2.2 hmic

end Decrypt

/-! ### Round trip -/

section RoundTrip

variable (hdr : ℕ → Byte) (pn : List Byte) (keyIdx : Byte) (key : CipherKey) (m : ℕ → Byte) (pData n : ℕ)

/-- The memory with the CCMP header at `pData`, in front of the payload. -/
def withCcmpHdr : ℕ → Byte := copy m pData (rtmpConstructCCMPHdr keyIdx pn)

theorem rtmpSoftEncryptCCMP_eq (hn : n + 8 < 2 ^ 32) :
    rtmpSoftEncryptCCMP hdr pn (keyBytes key) m pData n =
      (true, copy m pData (xorFrom (ccmStream (keyBytes key) (ccmpNonce hdr pn)) 0 (readAt m pData n) ++
        maskMac (keyBytes key) (ccmpNonce hdr pn)
          (aesCcmMac (keyBytes key) (readAt m pData n) (ccmpNonce hdr pn) (ccmpAad hdr) 8))) := by
  have henc := aesCcmEncrypt_eq (length_keyBytes key) (length_ccmpNonce hdr pn) (ccmpAad hdr) m pData n
    ((n + 8) % 2 ^ 32) (by omega)
  unfold rtmpSoftEncryptCCMP
  unfold ccmpNonce ccmpAad at henc
  simp only [henc]
  rfl

theorem packetNumber_withCcmpHdr {m' : ℕ → Byte}
    (h : ∀ i, pData ≤ i → i < pData + 8 → m' i = withCcmpHdr pn keyIdx m pData i) :
    ccmpNonce hdr (packetNumber m' pData) = ccmpNonce hdr pn := by
  have hbyte : ∀ i < 8, m' (pData + i) = mem (rtmpConstructCCMPHdr keyIdx pn) i := by
    intro i hi
    have hhold := holdsAt_iff.1 (holdsAt_copy m pData (rtmpConstructCCMPHdr keyIdx pn)) i hi
    rw [h (pData + i) (by omega) (by omega)]
    exact hhold
  have hpn : packetNumber m' pData =
      [pn.getD 0 0, pn.getD 1 0, pn.getD 2 0, pn.getD 3 0, pn.getD 4 0, pn.getD 5 0] := by
    unfold packetNumber
    rw [hbyte 1 (by decide), hbyte 4 (by decide), hbyte 5 (by decide), hbyte 6 (by decide),
      hbyte 7 (by decide), ← Nat.add_zero pData, hbyte 0 (by decide)]
    rfl
  rw [hpn]
  rfl

theorem rtmpSoftDecryptCCMP_of_holdsAt {key : CipherKey} (hk : key.keyLen ≠ 0) {m' : ℕ → Byte}
    {nonce : List Byte} (plain : List Byte) (hn : plain.length + 16 < 2 ^ 16)
    (hnonce : ccmpNonce hdr (packetNumber m' pData) = nonce)
    (hholds : HoldsAt m' (pData + 8) (xorFrom (ccmStream (keyBytes key) nonce) 0 plain ++
      maskMac (keyBytes key) nonce (aesCcmMac (keyBytes key) plain nonce (ccmpAad hdr) 8))) :
    rtmpSoftDecryptCCMP hdr key m' pData (plain.length + 16) = ⟨true, copy m' pData plain, plain.length⟩ := by
  rw [holdsAt_append, length_xorFrom] at hholds
  obtain ⟨htext, hmac⟩ := hholds
  unfold HoldsAt at htext hmac
  rw [length_xorFrom] at htext
  rw [length_maskMac] at hmac
  have hplain : ccmpPlain hdr key m' pData plain.length = plain := by
    unfold ccmpPlain
    rw [hnonce, htext, xorFrom_xorFrom]
  have hmic : transmittedMic hdr key m' pData plain.length = recomputedMic hdr key m' pData plain.length := by
    unfold transmittedMic recomputedMic
    rw [hnonce, hmac, hplain, maskMac_maskMac (length_aesCcmMac _ _ _ _)]
  rw [rtmpSoftDecryptCCMP_eq hdr m' pData hk hn, if_neg (not_not.2 hmic), hplain]

theorem rtmpSoftDecryptCCMP_encrypt {key : CipherKey} (hk : key.keyLen ≠ 0) (hn : n + 16 < 2 ^ 16) :
    let sent := rtmpSoftEncryptCCMP hdr pn (keyBytes key) (withCcmpHdr pn keyIdx m pData) (pData + 8) n
    let got := rtmpSoftDecryptCCMP hdr key sent.2 pData (n + 16)
    sent.1 = true ∧ got.ok = true ∧ got.dataLen = n ∧ readAt got.mem pData n = readAt m (pData + 8) n := by
  intro sent got
  obtain ⟨plain, hplain⟩ : ∃ plain, plain = readAt m (pData + 8) n := ⟨_, rfl⟩
  have hlen : plain.length = n := by rw [hplain, length_readAt]
  have hread : readAt (withCcmpHdr pn keyIdx m pData) (pData + 8) n = plain := by
    rw [hplain]
    exact readAt_congr fun i h1 _ => copy_of_ge h1
  have hsent : sent = _ := rtmpSoftEncryptCCMP_eq hdr pn key (withCcmpHdr pn keyIdx m pData) (pData + 8) n
    (by omega)
  rw [hread] at hsent
  have hnonce : ccmpNonce hdr (packetNumber sent.2 pData) = ccmpNonce hdr pn := by
    refine packetNumber_withCcmpHdr hdr pn keyIdx m pData fun i _ h2 => ?_
    rw [hsent]
    exact copy_of_lt h2
  have hgot : got = ⟨true, copy sent.2 pData plain, n⟩ := by
    have hdec := rtmpSoftDecryptCCMP_of_holdsAt hdr pData hk plain (by omega) hnonce
      (by rw [hsent]; exact holdsAt_copy _ _ _)
    rw [hlen] at hdec
    exact hdec
  rw [hgot, ← hplain]
  refine ⟨by rw [hsent], rfl, rfl, ?_⟩
  rw [← hlen]
  exact readAt_copy _ _ _

end RoundTrip

/-- **CCMP in software.** Every frame that is encrypted in place decrypts to its payload and length, and no
frame is accepted whose MIC is not the one recomputed, or that has no room for header and MIC. -/
theorem ccmp_roundTrip_and_rejection (key : CipherKey) :
    (∀ (hdr : ℕ → Byte) (pn : List Byte) (keyIdx : Byte) (m : ℕ → Byte) (pData n : ℕ), key.keyLen ≠ 0 →
      n + 16 < 2 ^ 16 →
      let sent := rtmpSoftEncryptCCMP hdr pn (keyBytes key) (withCcmpHdr pn keyIdx m pData) (pData + 8) n
      let got := rtmpSoftDecryptCCMP hdr key sent.2 pData (n + 16)
      sent.1 = true ∧ got.ok = true ∧ got.dataLen = n ∧ readAt got.mem pData n = readAt m (pData + 8) n) ∧
    ∀ (hdr : ℕ → Byte) (m : ℕ → Byte) (pData dataLen : ℕ), dataLen < 2 ^ 16 →
      (dataLen < 16 ∨
        transmittedMic hdr key m pData (dataLen - 16) ≠ recomputedMic hdr key m pData (dataLen - 16)) →
      (rtmpSoftDecryptCCMP hdr key m pData dataLen).ok = false := by
  refine ⟨fun hdr pn keyIdx m pData n hk hn => rtmpSoftDecryptCCMP_encrypt hdr pn keyIdx m pData n hk hn, ?_⟩
  intro hdr m pData dataLen hlen hbad
  by_contra hok
  rw [Bool.not_eq_false, rtmpSoftDecryptCCMP_ok hdr m pData hlen] at hok
  rcases hbad with hshort | hmic
  · omega
  · exact hmic hok.2.2

def sampleKey : CipherKey := { CipherKey.zero with keyLen := 16 }

theorem ccmp_roundTrip_sample : let hdr := mem ([0x88, 0x41, 0x00, 0x00] ++ List.replicate 22 0x11)
    let sent := rtmpSoftEncryptCCMP hdr [1, 2, 3, 4, 5, 6] (keyBytes sampleKey)
      (withCcmpHdr [1, 2, 3, 4, 5, 6] 0 (mem (List.replicate 11 0x07)) 0) 8 3
    let got := rtmpSoftDecryptCCMP hdr sampleKey sent.2 0 19
    sent.1 = true ∧ got.ok = true ∧ got.dataLen = 3 ∧
      readAt got.mem 0 3 = readAt (mem (List.replicate 11 0x07)) 8 3 :=
  (ccmp_roundTrip_and_rejection sampleKey).1 _ [1, 2, 3, 4, 5, 6] 0 _ 0 3 (by decide) (by decide)

end Mt7610u.Data
