import Mt7610u.Data.Ccmp
import Mt7610u.Crypto.Aes128

/-! # The second CCMP decryptor (`RTMPSoftDecryptAES` of `common/cmm_aes.c`)

It is written out over `aes128k128d`, with its own headers and blocks. -/

namespace Mt7610u.Data

open Lib Crypto Wpa

/-! ### The code -/

section Code

variable (a4 qc : Bool) (mpdu : ℕ → Byte) (pn : List Byte)

/-- `PN[5]` to `PN[0]`. -/
def pnReversed : List Byte := [5, 4, 3, 2, 1, 0].map fun i => pn.getD i 0

def qosTc : Byte := if qc && a4 then mpdu 30 &&& 0x0f#8 else if qc && !a4 then mpdu 24 &&& 0x0f#8 else 0x00#8

def constructMicHeader1 (headerLength : ℕ) : List Byte :=
  [BitVec.ofNat 8 ((headerLength - 2) / 256), BitVec.ofNat 8 ((headerLength - 2) % 256), mpdu 0 &&& 0xcf#8,
    mpdu 1 &&& 0xc7#8] ++ readAt mpdu 4 12

def constructMicHeader2 : List Byte :=
  padBlock (readAt mpdu 16 6 ++ [mpdu 22 &&& 0x0f#8, 0x00#8] ++
    if !qc && a4 then readAt mpdu 24 6
    else if qc && !a4 then [mpdu 24 &&& 0x0f#8, mpdu 25 &&& 0x00#8]
    else if qc && a4 then readAt mpdu 24 6 ++ [mpdu 30 &&& 0x0f#8, mpdu 31 &&& 0x00#8] else [])

def constructMicIv (payloadLength : ℕ) : List Byte :=
  [0x59#8, qosTc a4 qc mpdu] ++ readAt mpdu 10 6 ++ pnReversed pn ++
    [BitVec.ofNat 8 (payloadLength / 256), BitVec.ofNat 8 (payloadLength % 256)]

def constructCtrPreload (c : ℕ) : List Byte :=
  [0x01#8, qosTc a4 qc mpdu] ++ readAt mpdu 10 6 ++ pnReversed pn ++
    [BitVec.ofNat 8 (c / 256), BitVec.ofNat 8 (c % 256)]

end Code

def headerLen (a4 qc : Bool) : ℕ := 24 + (if a4 then 6 else 0) + if qc then 2 else 0

section Loops

variable (key : List Byte) (a4 qc : Bool) (pn : List Byte) (pData : ℕ)

/-- `aes_out` for the counter `c`. -/
def ctrOut (m : ℕ → Byte) (c : ℕ) : List Byte :=
  aes128k128d key (constructCtrPreload a4 qc (fun i => m (pData + i)) pn c)

/-- The loop over the whole blocks: the memory and `payload_index` behind it. -/
def decryptBlocks : ℕ → (ℕ → Byte) → ℕ → ℕ → (ℕ → Byte) × ℕ
  | 0, m, payloadIndex, _ => (m, payloadIndex)
  | n + 1, m, payloadIndex, i =>
    let chainBuffer := xorBlock (ctrOut key a4 qc pn pData m (i + 1)) (readAt m (pData + payloadIndex) 16)
    decryptBlocks n (copy m (pData + payloadIndex - 8) chainBuffer) (payloadIndex + 16) (i + 1)

def decryptRest (m : ℕ → Byte) (payloadIndex numBlocks payloadRemainder : ℕ) : (ℕ → Byte) × ℕ :=
  if 0 < payloadRemainder then
    let paddedBuffer := padBlock (readAt m (pData + payloadIndex) payloadRemainder)
    let chainBuffer := xorBlock (ctrOut key a4 qc pn pData m (numBlocks + 1)) paddedBuffer
    (copy m (pData + payloadIndex - 8) (chainBuffer.take payloadRemainder), payloadIndex + payloadRemainder)
  else (m, payloadIndex)

/-- The MIC over the whole blocks of the payload: `payload_index` and `aes_out`. -/
def micBlocks (m : ℕ → Byte) : ℕ → ℕ → List Byte → ℕ × List Byte
  | 0, payloadIndex, aesOut => (payloadIndex, aesOut)
  | n + 1, payloadIndex, aesOut =>
    micBlocks m n (payloadIndex + 16) (aes128k128d key (xorBlock aesOut (readAt m (pData + payloadIndex) 16)))

end Loops

/-- The part of `RTMPSoftDecryptAES` that calculates the MIC. -/
def calculateMic (key : List Byte) (a4 qc : Bool) (pn : List Byte) (pData : ℕ) (m : ℕ → Byte)
    (payloadLen : ℕ) : List Byte :=
  let mpdu : ℕ → Byte := fun i => m (pData + i)
  let headerLen := headerLen a4 qc
  let aesOut := aes128k128d key (constructMicIv a4 qc mpdu pn payloadLen)
  let aesOut := aes128k128d key (xorBlock aesOut (constructMicHeader1 mpdu headerLen))
  let aesOut := aes128k128d key (xorBlock aesOut (constructMicHeader2 a4 qc mpdu))
  let r := micBlocks key pData m (payloadLen / 16) headerLen aesOut
  let aesOut := if 0 < payloadLen % 16 then
      aes128k128d key (xorBlock r.2 (padBlock (readAt m (pData + r.1) (payloadLen % 16))))
    else r.2
  aesOut.take 8

def forceProtected (m : ℕ → Byte) (pData : ℕ) : ℕ → Byte := copy m (pData + 1) [m (pData + 1) ||| 0x40#8]

/-- `RTMPSoftDecryptAES` of the frame of `dataByteCnt` bytes at `pData`: what it returns, and the memory. -/
def rtmpSoftDecryptAES (wpaKey : CipherKey) (m : ℕ → Byte) (pData dataByteCnt : ℕ) : Bool × (ℕ → Byte) :=
  let hdr : ℕ → Byte := fun i => m (pData + i)
  let a4 := a4Exists hdr
  let qc := qosSubtype hdr
  let headerLen := headerLen a4 qc
  if wpaKey.keyLen = 0 then (false, m)
  else
    let key := keyBytes wpaKey
    let pn := packetNumber m (pData + headerLen)
    let payloadLen := (dataByteCnt + (2 ^ 32 - (headerLen + 16))) % 2 ^ 32
    let payloadRemainder := payloadLen % 16
    let numBlocks := payloadLen / 16
    let r := decryptBlocks key a4 qc pn pData numBlocks m (headerLen + 8) 0
    let r := decryptRest key a4 qc pn pData r.1 r.2 numBlocks payloadRemainder
    let trailMic := (xorBlock (ctrOut key a4 qc pn pData r.1 0) (padBlock (readAt r.1 (pData + r.2) 8))).take 8
    let m := forceProtected r.1 pData
    (decide (calculateMic key a4 qc pn pData m payloadLen = trailMic), m)

/-! ### The payload -/

section Payload

variable (key : List Byte) {a4 qc : Bool} (pn : List Byte)

theorem qosTc_congr {mpdu mpdu' : ℕ → Byte} (h : ∀ i, 2 ≤ i → i < headerLen a4 qc → mpdu' i = mpdu i) :
    qosTc a4 qc mpdu' = qosTc a4 qc mpdu := by
  unfold qosTc
  unfold headerLen at h
  cases a4 with
  | true =>
    cases qc with
    | true => rw [h 30 (by decide) (by decide)]; rfl
    | false => rfl
  | false =>
    cases qc with
    | true => rw [h 24 (by decide) (by decide)]; rfl
    | false => rfl

theorem headerLen_ge (a4 qc : Bool) : 24 ≤ headerLen a4 qc := by
  unfold headerLen
  omega

theorem constructCtrPreload_congr {mpdu mpdu' : ℕ → Byte}
    (h : ∀ i, 2 ≤ i → i < headerLen a4 qc → mpdu' i = mpdu i) (c : ℕ) :
    constructCtrPreload a4 qc mpdu' pn c = constructCtrPreload a4 qc mpdu pn c := by
  have hge := headerLen_ge a4 qc
  have haddr : readAt mpdu' 10 6 = readAt mpdu 10 6 := readAt_congr fun i h1 h2 => h i (by omega) (by omega)
  unfold constructCtrPreload
  rw [qosTc_congr h, haddr]

variable (a4 qc) (hdr : ℕ → Byte)

def aesStream (i : ℕ) : Byte := (aes128k128d key (constructCtrPreload a4 qc hdr pn (i / 16 + 1))).getD (i % 16) 0

variable {a4 qc hdr} {pData : ℕ}

/-- The memory has the header at `pData`, apart from its first two bytes. -/
def HasHeader (a4 qc : Bool) (hdr : ℕ → Byte) (pData : ℕ) (m : ℕ → Byte) : Prop :=
  ∀ i, 2 ≤ i → i < headerLen a4 qc → m (pData + i) = hdr i

theorem HasHeader.copy {m : ℕ → Byte} (h : HasHeader a4 qc hdr pData m) {p : ℕ} (hp : pData + headerLen a4 qc ≤ p)
    (bs : List Byte) : HasHeader a4 qc hdr pData (copy m p bs) := by
  intro i h1 h2
  rw [copy_of_lt (by omega)]
  exact h i h1 h2

theorem HasHeader.ctrOut {m : ℕ → Byte} (h : HasHeader a4 qc hdr pData m) (c : ℕ) :
    ctrOut key a4 qc pn pData m c = aes128k128d key (constructCtrPreload a4 qc hdr pn c) := by
  unfold Data.ctrOut
  rw [constructCtrPreload_congr pn h]

theorem HasHeader.chain {m : ℕ → Byte} (h : HasHeader a4 qc hdr pData m) (i : ℕ) (bs : List Byte)
    (hbs : bs.length ≤ 16) :
    (xorBlock (Data.ctrOut key a4 qc pn pData m (i + 1)) bs).take bs.length =
      xorFrom (aesStream key a4 qc pn hdr) (16 * i) bs := by
  refine take_xorBlock hbs fun j hj => ?_
  have hdiv : (16 * i + j) / 16 = i := by omega
  have hmod : (16 * i + j) % 16 = j := by omega
  unfold aesStream
  rw [hdiv, hmod, h.ctrOut]

theorem decryptBlocks_eq {m : ℕ → Byte} (h : HasHeader a4 qc hdr pData m) (n i : ℕ) :
    decryptBlocks key a4 qc pn pData n m (headerLen a4 qc + 8 + 16 * i) i =
      (copy m (pData + headerLen a4 qc + 16 * i) (xorFrom (aesStream key a4 qc pn hdr) (16 * i)
        (readAt m (pData + headerLen a4 qc + 8 + 16 * i) (16 * n))), headerLen a4 qc + 8 + 16 * (i + n)) := by
  induction n generalizing m i with
  | zero => exact congrArg (·, _) (copy_of_holdsAt (holdsAt_nil m _)).symm
  | succ n ih =>
    obtain ⟨hl, hhl⟩ : ∃ hl, hl = headerLen a4 qc := ⟨_, rfl⟩
    rw [← hhl] at ih ⊢
    obtain ⟨bs, hbs⟩ : ∃ bs, bs = readAt m (pData + (hl + 8 + 16 * i)) 16 := ⟨_, rfl⟩
    have hlen : bs.length = 16 := by rw [hbs, length_readAt]
    have hchain : xorBlock (ctrOut key a4 qc pn pData m (i + 1)) bs =
        xorFrom (aesStream key a4 qc pn hdr) (16 * i) bs := by
      have htake := h.chain key pn i bs (by omega)
      rwa [hlen, List.take_of_length_le (by rw [length_xorBlock])] at htake
    have hpos : pData + (hl + 8 + 16 * i) - 8 = pData + hl + 16 * i := by omega
    have hidx : hl + 8 + 16 * i + 16 = hl + 8 + 16 * (i + 1) := by omega
    rw [decryptBlocks]
    simp only [← hbs]
    rw [hchain, hpos, hidx, ih (h.copy (by omega) _)]
    -- the next blocks are read behind what was written
    have hread : readAt (copy m (pData + hl + 16 * i) (xorFrom (aesStream key a4 qc pn hdr) (16 * i) bs))
        (pData + hl + 8 + 16 * (i + 1)) (16 * n) = readAt m (pData + hl + 8 + 16 * (i + 1)) (16 * n) := by
      refine readAt_congr fun j h1 _ => copy_of_ge ?_
      rw [length_xorFrom, hlen]
      omega
    have hsplit : readAt m (pData + hl + 8 + 16 * i) (16 * (n + 1)) =
        bs ++ readAt m (pData + hl + 8 + 16 * (i + 1)) (16 * n) := by
      have e1 : 16 * (n + 1) = 16 + 16 * n := by omega
      have e2 : pData + hl + 8 + 16 * i + 16 = pData + hl + 8 + 16 * (i + 1) := by omega
      have e3 : pData + (hl + 8 + 16 * i) = pData + hl + 8 + 16 * i := by omega
      rw [e1, readAt_add, e2, hbs, e3]
    have e4 : 16 * i + 16 = 16 * (i + 1) := by omega
    have e5 : pData + hl + 16 * i + 16 = pData + hl + 16 * (i + 1) := by omega
    have e6 : i + 1 + n = i + (n + 1) := by omega
    rw [hread, hsplit, xorFrom_append, copy_append, length_xorFrom, hlen, e4, e5, e6]

theorem decryptRest_eq {m : ℕ → Byte} (h : HasHeader a4 qc hdr pData m) (n : ℕ) :
    decryptRest key a4 qc pn pData (decryptBlocks key a4 qc pn pData (n / 16) m (headerLen a4 qc + 8) 0).1
      (decryptBlocks key a4 qc pn pData (n / 16) m (headerLen a4 qc + 8) 0).2 (n / 16) (n % 16) =
      (copy m (pData + headerLen a4 qc) (xorFrom (aesStream key a4 qc pn hdr) 0
        (readAt m (pData + headerLen a4 qc + 8) n)), headerLen a4 qc + 8 + n) := by
  have hblocks := decryptBlocks_eq key pn h (n / 16) 0
  simp only [Nat.mul_zero, Nat.add_zero, Nat.zero_add] at hblocks
  simp only [hblocks]
  obtain ⟨hl, hhl⟩ : ∃ hl, hl = headerLen a4 qc := ⟨_, rfl⟩
  have hcopy := h.copy (p := pData + headerLen a4 qc) le_rfl
  rw [← hhl] at hcopy ⊢
  have hn : 16 * (n / 16) + n % 16 = n := Nat.div_add_mod n 16
  unfold decryptRest
  by_cases hr : 0 < n % 16
  · rw [if_pos hr]
    -- the rest is read behind what was written
    obtain ⟨bs, hbs⟩ : ∃ bs, bs = readAt m (pData + hl + 8 + 16 * (n / 16)) (n % 16) := ⟨_, rfl⟩
    have hlen : bs.length = n % 16 := by rw [hbs, length_readAt]
    have hread : readAt (copy m (pData + hl) (xorFrom (aesStream key a4 qc pn hdr) 0
        (readAt m (pData + hl + 8) (16 * (n / 16))))) (pData + (hl + 8 + 16 * (n / 16))) (n % 16) = bs := by
      have e : pData + (hl + 8 + 16 * (n / 16)) = pData + hl + 8 + 16 * (n / 16) := by omega
      rw [hbs, e]
      refine readAt_congr fun j h1 _ => copy_of_ge ?_
      rw [length_xorFrom, length_readAt]
      omega
    have hchain := (hcopy (xorFrom (aesStream key a4 qc pn hdr) 0
      (readAt m (pData + hl + 8) (16 * (n / 16))))).chain key pn (n / 16) bs (by omega)
    have hpos : pData + (hl + 8 + 16 * (n / 16)) - 8 = pData + hl + 16 * (n / 16) := by omega
    have hsplit : readAt m (pData + hl + 8) n = readAt m (pData + hl + 8) (16 * (n / 16)) ++ bs := by
      rw [hbs, ← readAt_add, hn]
    have hend : hl + 8 + 16 * (n / 16) + n % 16 = hl + 8 + n := by omega
    rw [hlen] at hchain
    simp only [hread, xorBlock_padBlock, hchain, hpos, hend]
    rw [hsplit, xorFrom_append, copy_append, length_xorFrom, length_readAt, Nat.zero_add]
  · have hend : 16 * (n / 16) = n := by omega
    rw [if_neg hr, hend]

end Payload

/-! ### The MIC -/

section Mic

variable (key : List Byte) (m : ℕ → Byte) (pData : ℕ)

theorem micBlocks_eq_absorb (n payloadIndex : ℕ) (x : List Byte) {r : ℕ} (fuel : ℕ) (hr : r < 16)
    (hfuel : 16 * n + r ≤ fuel) :
    (if 0 < r then aes128k128d key (xorBlock (micBlocks key pData m n payloadIndex x).2
        (padBlock (readAt m (pData + (micBlocks key pData m n payloadIndex x).1) r)))
      else (micBlocks key pData m n payloadIndex x).2) =
      absorb (aes128k128d key) fuel x (readAt m (pData + payloadIndex) (16 * n + r)) := by
  induction n generalizing payloadIndex x fuel with
  | zero =>
    rw [Nat.mul_zero, Nat.zero_add]
    by_cases hpos : 0 < r
    · obtain ⟨f, rfl⟩ : ∃ f, fuel = f + 1 := ⟨fuel - 1, by omega⟩
      have hlen : (readAt m (pData + payloadIndex) r).length = r := length_readAt _ _ _
      have hne : readAt m (pData + payloadIndex) r ≠ [] := List.ne_nil_of_length_pos (by omega)
      rw [if_pos hpos, xorBlock_padBlock, absorb_succ _ f x hne, List.take_of_length_le (by omega),
        List.drop_of_length_le (by omega), absorb_nil]
      rfl
    · have hzero : r = 0 := by omega
      subst hzero
      rw [if_neg hpos]
      exact (absorb_nil _ fuel x).symm
  | succ n ih =>
    obtain ⟨f, rfl⟩ : ∃ f, fuel = f + 1 := ⟨fuel - 1, by omega⟩
    have hsplit : readAt m (pData + payloadIndex) (16 * (n + 1) + r) =
        readAt m (pData + payloadIndex) 16 ++ readAt m (pData + (payloadIndex + 16)) (16 * n + r) := by
      have e : 16 * (n + 1) + r = 16 + (16 * n + r) := by omega
      rw [e, readAt_add, Nat.add_assoc]
    have hlen : (readAt m (pData + payloadIndex) 16).length = 16 := length_readAt _ _ _
    have hne : readAt m (pData + payloadIndex) (16 * (n + 1) + r) ≠ [] :=
      List.ne_nil_of_length_pos (by rw [length_readAt]; omega)
    rw [absorb_succ _ f x hne, hsplit, List.take_left' hlen, List.drop_left' hlen]
    exact ih (payloadIndex + 16) _ f (by omega)

end Mic

section Spec

variable (wpaKey : CipherKey) (m : ℕ → Byte) (pData : ℕ)

/-- The memory as the header of the frame at `pData`. -/
def headerAt : ℕ → Byte := fun i => m (pData + i)

def protectedHdr (hdr : ℕ → Byte) : ℕ → Byte := fun i => if i = 1 then hdr 1 ||| 0x40#8 else hdr i

/-- The MIC that `RTMPSoftDecryptAES` computes. -/
def aesMic (key : List Byte) (a4 qc : Bool) (hdr : ℕ → Byte) (pn plain : List Byte) : List Byte :=
  let aesOut := aes128k128d key (constructMicIv a4 qc hdr pn plain.length)
  let aesOut := aes128k128d key (xorBlock aesOut (constructMicHeader1 (protectedHdr hdr) (headerLen a4 qc)))
  let aesOut := aes128k128d key (xorBlock aesOut (constructMicHeader2 a4 qc hdr))
  (absorb (aes128k128d key) plain.length aesOut plain).take 8

def aesTrailMic (key : List Byte) (a4 qc : Bool) (hdr : ℕ → Byte) (pn mic : List Byte) : List Byte :=
  (xorBlock (aes128k128d key (constructCtrPreload a4 qc hdr pn 0)) mic).take 8

theorem constructMicIv_congr {a4 qc : Bool} {mpdu mpdu' : ℕ → Byte}
    (h : ∀ i, 2 ≤ i → i < headerLen a4 qc → mpdu' i = mpdu i) (pn : List Byte) (n : ℕ) :
    constructMicIv a4 qc mpdu' pn n = constructMicIv a4 qc mpdu pn n := by
  have hge := headerLen_ge a4 qc
  have haddr : readAt mpdu' 10 6 = readAt mpdu 10 6 := readAt_congr fun i h1 h2 => h i (by omega) (by omega)
  unfold constructMicIv
  rw [qosTc_congr h, haddr]

theorem constructMicHeader2_congr {a4 qc : Bool} {mpdu mpdu' : ℕ → Byte}
    (h : ∀ i, 2 ≤ i → i < headerLen a4 qc → mpdu' i = mpdu i) :
    constructMicHeader2 a4 qc mpdu' = constructMicHeader2 a4 qc mpdu := by
  have hge := headerLen_ge a4 qc
  have haddr : readAt mpdu' 16 6 = readAt mpdu 16 6 := readAt_congr fun i h1 h2 => h i (by omega) (by omega)
  have haddr4 : a4 = true → readAt mpdu' 24 6 = readAt mpdu 24 6 := by
    intro h4
    subst h4
    unfold headerLen at h
    exact readAt_congr fun i h1 h2 => h i (by omega) (by rw [if_pos rfl]; omega)
  have hzero : ∀ b : Byte, b &&& 0x00#8 = 0x00#8 := fun b => BitVec.and_zero
  unfold constructMicHeader2
  rw [haddr, h 22 (by decide) (by omega)]
  simp only [hzero]
  cases a4 with
  | true =>
    cases qc with
    | true => rw [haddr4 rfl, h 30 (by decide) (by decide)]; rfl
    | false => rw [haddr4 rfl]; rfl
  | false =>
    cases qc with
    | true => rw [h 24 (by decide) (by decide)]; rfl
    | false => rfl

theorem constructMicHeader1_congr {mpdu mpdu' : ℕ → Byte} (h : ∀ i < 24, mpdu' i = mpdu i) (hl : ℕ) :
    constructMicHeader1 mpdu' hl = constructMicHeader1 mpdu hl := by
  have haddr : readAt mpdu' 4 12 = readAt mpdu 4 12 := readAt_congr fun i _ h2 => h i (by omega)
  unfold constructMicHeader1
  rw [h 0 (by decide), h 1 (by decide), haddr]

variable {wpaKey m pData} {a4 qc : Bool}

theorem forceProtected_header (i : ℕ) : forceProtected m pData (pData + i) = protectedHdr (headerAt m pData) i := by
  unfold forceProtected protectedHdr
  split_ifs with hi
  · subst hi
    exact holdsAt_iff.1 (holdsAt_copy m (pData + 1) [m (pData + 1) ||| 0x40#8]) 0 (by simp)
  · rcases Nat.lt_or_ge i 1 with hlt | hgt
    · exact copy_of_lt (by omega)
    · exact copy_of_ge (by rw [List.length_singleton]; omega)

theorem calculateMic_eq (hdr : ℕ → Byte) (key pn : List Byte) (hhdr : ∀ i < headerLen a4 qc, m (pData + i) = hdr i)
    {plain : List Byte} (hplain : HoldsAt m (pData + headerLen a4 qc) plain) :
    calculateMic key a4 qc pn pData (forceProtected m pData) plain.length = aesMic key a4 qc hdr pn plain := by
  have hge := headerLen_ge a4 qc
  have hbyte : ∀ i < headerLen a4 qc, forceProtected m pData (pData + i) = protectedHdr hdr i := by
    intro i hi
    rw [forceProtected_header]
    unfold protectedHdr headerAt
    rw [hhdr 1 (by omega), hhdr i hi]
  have hsame : ∀ i, 2 ≤ i → i < headerLen a4 qc → forceProtected m pData (pData + i) = hdr i := by
    intro i h2 hi
    rw [hbyte i hi, protectedHdr, if_neg (by omega)]
  have hread : readAt (forceProtected m pData) (pData + headerLen a4 qc)
      (16 * (plain.length / 16) + plain.length % 16) = plain := by
    rw [Nat.div_add_mod]
    refine (readAt_congr fun i h1 _ => copy_of_ge ?_).trans hplain
    rw [List.length_singleton]
    omega
  have habsorb := fun x => micBlocks_eq_absorb key (forceProtected m pData) pData (plain.length / 16)
    (headerLen a4 qc) x (r := plain.length % 16) plain.length (Nat.mod_lt _ (by decide))
    (Nat.div_add_mod _ _).le
  simp only [calculateMic, habsorb, hread]
  rw [constructMicIv_congr hsame, constructMicHeader1_congr fun i hi => hbyte i (by omega),
    constructMicHeader2_congr hsame]
  rfl

theorem rtmpSoftDecryptAES_eq (hk : wpaKey.keyLen ≠ 0) {hdr : ℕ → Byte} (hhdr : (fun i => m (pData + i)) = hdr)
    (ha4 : a4Exists hdr = a4) (hqc : qosSubtype hdr = qc) {pn plain : List Byte}
    (hpn : packetNumber m (pData + headerLen a4 qc) = pn) {n : ℕ} (hn : n < 2 ^ 32)
    (hplain : plain = xorFrom (aesStream (keyBytes wpaKey) a4 qc pn hdr) 0
      (readAt m (pData + headerLen a4 qc + 8) n)) :
    rtmpSoftDecryptAES wpaKey m pData (headerLen a4 qc + 16 + n) =
      (decide (aesMic (keyBytes wpaKey) a4 qc hdr pn plain = aesTrailMic (keyBytes wpaKey) a4 qc hdr pn
        (readAt m (pData + headerLen a4 qc + 8 + n) 8)),
      forceProtected (copy m (pData + headerLen a4 qc) plain) pData) := by
  have hplainLen : plain.length = n := by rw [hplain, length_xorFrom, length_readAt]
  have hsmall : headerLen a4 qc ≤ 32 := by
    unfold headerLen
    split_ifs <;> omega
  have hpay : (headerLen a4 qc + 16 + n + (2 ^ 32 - (headerLen a4 qc + 16))) % 2 ^ 32 = n := by omega
  have hheader : HasHeader a4 qc hdr pData m := fun i _ _ => congrFun hhdr i
  have hrest := decryptRest_eq (keyBytes wpaKey) pn hheader n
  rw [← hplain] at hrest
  have hctr := (hheader.copy (p := pData + headerLen a4 qc) le_rfl plain).ctrOut (keyBytes wpaKey) pn 0
  have hmic := calculateMic_eq hdr (keyBytes wpaKey) pn
    (fun i _ => (copy_of_lt (by omega)).trans (congrFun hhdr i))
    (holdsAt_copy m (pData + headerLen a4 qc) plain)
  rw [hplainLen] at hmic
  -- the transmitted MIC lies behind what was written
  have htrail : readAt (copy m (pData + headerLen a4 qc) plain) (pData + (headerLen a4 qc + 8 + n)) 8 =
      readAt m (pData + headerLen a4 qc + 8 + n) 8 := by
    have e : pData + (headerLen a4 qc + 8 + n) = pData + headerLen a4 qc + 8 + n := by omega
    rw [e]
    refine readAt_congr fun i h1 _ => copy_of_ge ?_
    omega
  simp only [rtmpSoftDecryptAES, hhdr, ha4, hqc, hpn, hpay, if_neg hk, hrest, xorBlock_padBlock, htrail, hctr, hmic]
  rfl

end Spec

/-! ### Agreement -/

section Agree

variable {hdr : ℕ → Byte}

theorem ccmFirstBlock_eq (a4 qc : Bool) (pn : List Byte) {n l : ℕ} (hl : 0 < l) :
    ccmFirstBlock (rtmpConstructCCMPNonce hdr a4 qc pn) n l 8 = constructMicIv a4 qc hdr pn n := by
  have hlen : (rtmpConstructCCMPNonce hdr a4 qc pn).length = 13 := by simp [rtmpConstructCCMPNonce]
  have hmod : BitVec.ofNat 8 (n % 256) = BitVec.ofNat 8 n := by
    apply BitVec.eq_of_toNat_eq
    simp
  unfold ccmFirstBlock constructMicIv
  simp only [hlen, if_pos hl, hmod]
  rfl

theorem ctrBlock_eq (a4 qc : Bool) (pn : List Byte) {c : ℕ} (hc : c < 256) :
    ctrBlock (rtmpConstructCCMPNonce hdr a4 qc pn) c = constructCtrPreload a4 qc hdr pn c := by
  have hlen : (rtmpConstructCCMPNonce hdr a4 qc pn).length = 13 := by simp [rtmpConstructCCMPNonce]
  have hdiv : c / 256 = 0 := by omega
  have hmod : c % 256 = c := by omega
  unfold ctrBlock ccmBlockCtr constructCtrPreload
  rw [hlen, hdiv, hmod]
  rfl

theorem ccmAadLoop_succ (key : List Byte) (n : ℕ) (head : List Byte) {aad : List Byte} (x : List Byte)
    (hne : aad ≠ []) {c : ℕ}
    (hc : c = if 16 < min aad.length 16 + head.length then 16 - head.length else min aad.length 16) :
    ccmAadLoop key (n + 1) head aad x =
      ccmAadLoop key n [] (aad.drop c) (rtAesEncrypt key (xorBlock x (head ++ aad.take c))) := by
  cases aad with
  | nil => exact absurd rfl hne
  | cons a aad =>
    rw [hc]
    rfl

theorem ccmAadLoop_nil (key : List Byte) (n : ℕ) (head x : List Byte) : ccmAadLoop key n head [] x = x := by
  cases n with
  | zero => rfl
  | succ n => rfl

theorem ccmAad_eq (key : List Byte) {aad : List Byte} (h1 : 14 < aad.length) (h2 : aad.length ≤ 30)
    (x : List Byte) :
    ccmAad key aad x = rtAesEncrypt key (xorBlock (rtAesEncrypt key (xorBlock x
      ([BitVec.ofNat 8 (aad.length / 2 ^ 8), BitVec.ofNat 8 aad.length] ++ aad.take 14))) (aad.drop 14)) := by
  obtain ⟨n, hn⟩ : ∃ n, aad.length = n + 2 := ⟨aad.length - 2, by omega⟩
  have hhead : [BitVec.ofNat 8 (aad.length / 2 ^ 8), BitVec.ofNat 8 aad.length].length = 2 := rfl
  have hdrop : (aad.drop 14).length = aad.length - 14 := List.length_drop
  have hall : (aad.drop 14).take (aad.length - 14) = aad.drop 14 := List.take_of_length_le hdrop.le
  have hnone : (aad.drop 14).drop (aad.length - 14) = [] := List.drop_of_length_le hdrop.le
  simp only [ccmAad]
  rw [if_pos (by omega)]
  -- the turns that the loop makes, apart from the lengths in the first block
  generalize [BitVec.ofNat 8 (aad.length / 2 ^ 8), BitVec.ofNat 8 aad.length] = head at hhead ⊢
  rw [hn, ccmAadLoop_succ key (n + 1) head x (List.ne_nil_of_length_pos (by omega)) (c := 14)
      (by rw [if_pos (by omega)]; omega),
    ccmAadLoop_succ key n [] _ (List.ne_nil_of_length_pos (by omega)) (c := aad.length - 14)
      (by rw [hdrop, List.length_nil, if_neg (by omega)]; omega),
    hall, hnone, ccmAadLoop_nil, List.nil_append]

theorem mute_subtype : ∀ b : Byte, b &&& 0x40#8 = 0x00#8 → b &&& 0x8f#8 = b &&& 0xcf#8 := by
  decide

theorem mute_flags : ∀ b : Byte, b &&& 0xc7#8 ||| 0x40#8 = (b ||| 0x40#8) &&& 0xc7#8 := by
  decide

theorem length_rtmpConstructCCMPAAD (hdr : ℕ → Byte) (isData a4 qc : Bool) :
    (rtmpConstructCCMPAAD hdr isData a4 qc).length = headerLen a4 qc - 2 := by
  cases a4 with
  | true => cases qc <;> rfl
  | false => cases qc <;> rfl

theorem aad_blocks (a4 qc : Bool) (hnull : hdr 0 &&& 0x40#8 = 0x00#8) :
    [BitVec.ofNat 8 ((headerLen a4 qc - 2) / 2 ^ 8), BitVec.ofNat 8 (headerLen a4 qc - 2)] ++
        (rtmpConstructCCMPAAD hdr true a4 qc).take 14 =
      constructMicHeader1 (protectedHdr hdr) (headerLen a4 qc) ∧
    padBlock ((rtmpConstructCCMPAAD hdr true a4 qc).drop 14) = constructMicHeader2 a4 qc hdr := by
  have h0 := mute_subtype (hdr 0) hnull
  have h1 := mute_flags (hdr 1)
  have hzero : ∀ b : Byte, b &&& 0x00#8 = 0x00#8 := fun b => BitVec.and_zero
  unfold rtmpConstructCCMPAAD constructMicHeader1 constructMicHeader2
  simp only [if_true, h0, h1, hzero]
  cases a4 with
  | true =>
    cases qc with
    | true => exact ⟨rfl, rfl⟩
    | false => exact ⟨rfl, rfl⟩
  | false =>
    cases qc with
    | true => exact ⟨rfl, rfl⟩
    | false => exact ⟨rfl, rfl⟩

variable {key : List Byte}

theorem aesMic_eq (hkey : key.length = 16) (a4 qc : Bool) (hnull : hdr 0 &&& 0x40#8 = 0x00#8)
    (pn plain : List Byte) :
    aesMic key a4 qc hdr pn plain =
      aesCcmMac key plain (rtmpConstructCCMPNonce hdr a4 qc pn) (rtmpConstructCCMPAAD hdr true a4 qc) 8 := by
  have hlen := length_rtmpConstructCCMPAAD hdr true a4 qc
  have hge := headerLen_ge a4 qc
  have hle : headerLen a4 qc ≤ 32 := by
    unfold headerLen
    split_ifs <;> omega
  obtain ⟨h1, h2⟩ := aad_blocks a4 qc hnull
  have hE : aes128k128d key = rtAesEncrypt key := funext fun data => aes128k128d_eq hkey data
  simp only [aesMic, aesCcmMac, hE]
  rw [ccmFirstBlock_eq a4 qc pn (by omega), ccmAad_eq key (by omega) (by omega), hlen, h1, ← h2, xorBlock_padBlock]

theorem aesStream_eq (hkey : key.length = 16) (a4 qc : Bool) (pn : List Byte) {i : ℕ} (hi : i < 3840) :
    aesStream key a4 qc pn hdr i = ccmStream key (rtmpConstructCCMPNonce hdr a4 qc pn) i := by
  unfold aesStream ccmStream
  rw [ctrBlock_eq a4 qc pn (by omega), aes128k128d_eq hkey]

theorem aesTrailMic_eq (hkey : key.length = 16) (a4 qc : Bool) (pn mic : List Byte) :
    aesTrailMic key a4 qc hdr pn mic = maskMac key (rtmpConstructCCMPNonce hdr a4 qc pn) mic := by
  have hlen : (rtmpConstructCCMPNonce hdr a4 qc pn).length ≤ 13 := by simp [rtmpConstructCCMPNonce]
  unfold aesTrailMic maskMac
  rw [← ctrBlock_eq a4 qc pn (by decide), ctrBlock_zero hlen, aes128k128d_eq hkey, xorBlock_comm]

end Agree

/-- The two decryptors accept the frame of `dataByteCnt` bytes at `pData` both or neither, and when they do,
they leave the same payload behind the header. -/
def SoftDecryptsAgree (key : CipherKey) (m : ℕ → Byte) (pData dataByteCnt : ℕ) : Prop :=
  let hdr := headerAt m pData
  let hl := headerLen (a4Exists hdr) (qcExists hdr)
  let viaAes := rtmpSoftDecryptAES key m pData dataByteCnt
  let viaCcmp := rtmpSoftDecryptCCMP hdr key m (pData + hl) (dataByteCnt - hl)
  (viaAes.1 = true ↔ viaCcmp.ok = true) ∧ (viaAes.1 = true →
    readAt viaAes.2 (pData + hl) viaCcmp.dataLen = readAt viaCcmp.mem (pData + hl) viaCcmp.dataLen)

/-- **The two decryptors agree** on the data frames that fit, have room for header and MIC, and do not have
the subtype bit of the frames without data. -/
theorem softDecrypt_agree (key : CipherKey) (m : ℕ → Byte) (pData dataByteCnt : ℕ)
    (hdata : isDataFrame (headerAt m pData) = true) (hmax : dataByteCnt ≤ 3840)
    (hnull : headerAt m pData 0 &&& 0x40#8 = 0x00#8)
    (hroom : headerLen (a4Exists (headerAt m pData)) (qcExists (headerAt m pData)) + 16 ≤ dataByteCnt) :
    SoftDecryptsAgree key m pData dataByteCnt := by
  obtain ⟨hdr, hhdr⟩ : ∃ hdr, headerAt m pData = hdr := ⟨_, rfl⟩
  obtain ⟨a4, ha4⟩ : ∃ a4, a4Exists hdr = a4 := ⟨_, rfl⟩
  obtain ⟨qc, hqc⟩ : ∃ qc, qcExists hdr = qc := ⟨_, rfl⟩
  rw [hhdr] at hdata hnull hroom
  rw [ha4, hqc] at hroom
  simp only [SoftDecryptsAgree, hhdr, ha4, hqc]
  have hqos : qosSubtype hdr = qc := by
    rw [← hqc, qcExists, hdata, Bool.true_and]
  by_cases hk : key.keyLen = 0
  · have haes : (rtmpSoftDecryptAES key m pData dataByteCnt).1 = false := by
      simp only [rtmpSoftDecryptAES, if_pos hk]
    have hccmp : (rtmpSoftDecryptCCMP hdr key m (pData + headerLen a4 qc) (dataByteCnt - headerLen a4 qc)).ok =
        false := by
      rw [rtmpSoftDecryptCCMP, if_pos hk]
    rw [haes, hccmp]
    exact ⟨Iff.rfl, fun h => absurd h Bool.false_ne_true⟩
  · obtain ⟨n, rfl⟩ : ∃ n, dataByteCnt = headerLen a4 qc + 16 + n := ⟨_, (Nat.add_sub_cancel' hroom).symm⟩
    have hsub : headerLen a4 qc + 16 + n - headerLen a4 qc = n + 16 := by omega
    obtain ⟨pn, hpn⟩ : ∃ pn, packetNumber m (pData + headerLen a4 qc) = pn := ⟨_, rfl⟩
    have hnonce : ccmpNonce hdr pn = rtmpConstructCCMPNonce hdr a4 qc pn := by
      unfold ccmpNonce
      rw [ha4, hqc]
    have haad : ccmpAad hdr = rtmpConstructCCMPAAD hdr true a4 qc := by
      unfold ccmpAad
      rw [hdata, ha4, hqc]
    obtain ⟨plain, hplain⟩ : ∃ plain, plain = ccmpPlain hdr key m (pData + headerLen a4 qc) n := ⟨_, rfl⟩
    have hplain' : plain = xorFrom (aesStream (keyBytes key) a4 qc pn hdr) 0
        (readAt m (pData + headerLen a4 qc + 8) n) := by
      rw [hplain, ccmpPlain, hpn, hnonce]
      refine xorFrom_congr fun i _ hi => ?_
      rw [length_readAt] at hi
      exact (aesStream_eq (length_keyBytes key) a4 qc pn (by omega)).symm
    have hlen : plain.length = n := by rw [hplain', length_xorFrom, length_readAt]
    have haes := rtmpSoftDecryptAES_eq hk hhdr ha4 hqos hpn (n := n) (by omega) hplain'
    have hccmp := rtmpSoftDecryptCCMP_eq hdr m (pData + headerLen a4 qc) hk (n := n) (by omega)
    -- the MICs are compared in the other order
    have hmic : (aesMic (keyBytes key) a4 qc hdr pn plain = aesTrailMic (keyBytes key) a4 qc hdr pn
        (readAt m (pData + headerLen a4 qc + 8 + n) 8)) ↔
        transmittedMic hdr key m (pData + headerLen a4 qc) n =
          recomputedMic hdr key m (pData + headerLen a4 qc) n := by
      unfold transmittedMic recomputedMic
      rw [← hplain, hpn, hnonce, haad, aesMic_eq (length_keyBytes key) a4 qc hnull,
        aesTrailMic_eq (length_keyBytes key)]
      exact eq_comm
    rw [hsub, haes, hccmp, ← hplain]
    by_cases hok : transmittedMic hdr key m (pData + headerLen a4 qc) n =
        recomputedMic hdr key m (pData + headerLen a4 qc) n
    · rw [if_neg (not_not.2 hok), decide_eq_true (hmic.2 hok)]
      refine ⟨Iff.rfl, fun _ => ?_⟩
      have hge := headerLen_ge a4 qc
      exact readAt_congr fun i h1 _ => copy_of_ge (by rw [List.length_singleton]; omega)
    · rw [if_pos hok, decide_eq_false (fun h => hok (hmic.1 h))]
      exact ⟨Iff.rfl, fun h => absurd h Bool.false_ne_true⟩

/-- A frame of three bytes, encrypted by `RTMPSoftEncryptCCMP`. -/
def dataFrame : List Byte :=
  [0x08, 0x41, 0x00, 0x00] ++ List.replicate 18 0x11 ++ [0x10, 0x00, 0x01, 0x02, 0x00, 0x20, 0x03, 0x04,
    0x05, 0x06, 0x91, 0x9b, 0x28, 0xa2, 0x39, 0x6f, 0x04, 0x3a, 0x78, 0xa7, 0xa8]

theorem softDecrypt_agree_dataFrame :
    isDataFrame (headerAt (mem dataFrame) 0) = true ∧ dataFrame.length ≤ 3840 ∧
      headerAt (mem dataFrame) 0 0 &&& 0x40#8 = 0x00#8 ∧
      SoftDecryptsAgree sampleKey (mem dataFrame) 0 dataFrame.length :=
  ⟨by decide, by decide, by decide,
    softDecrypt_agree sampleKey (mem dataFrame) 0 dataFrame.length (by decide) (by decide) (by decide)
      (by decide)⟩

/-- A frame of the subtype without data, encrypted by `RTMPSoftEncryptCCMP`. -/
def nullFrame : List Byte :=
  [0x48, 0x41, 0x00, 0x00] ++ List.replicate 18 0x11 ++ [0x10, 0x00, 0x01, 0x02, 0x00, 0x20, 0x03, 0x04,
    0x05, 0x06, 0xb5, 0x42, 0x48, 0xa3, 0xa9, 0x6f, 0x6d, 0xe5]

theorem not_agree_nullFrame :
    isDataFrame (headerAt (mem nullFrame) 0) = true ∧ nullFrame.length ≤ 3840 ∧
      ¬SoftDecryptsAgree sampleKey (mem nullFrame) 0 nullFrame.length := by
  refine ⟨by decide, by decide, ?_⟩
  intro h
  have haes : (rtmpSoftDecryptAES sampleKey (mem nullFrame) 0 nullFrame.length).1 = false := by
    decide +kernel
  have hccmp : (rtmpSoftDecryptCCMP (headerAt (mem nullFrame) 0) sampleKey (mem nullFrame) 24 16).ok = true := by
    decide +kernel
  have hboth := h.1.2 hccmp
  rw [haes] at hboth
  cases hboth

end Mt7610u.Data
