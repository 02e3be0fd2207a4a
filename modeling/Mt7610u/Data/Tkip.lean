import Mt7610u.Crypto.Michael
import Mt7610u.Crypto.TkipMixKey
import Mt7610u.Data.Wep

/-! # TKIP in software (`RTMPSoftDecryptTKIP` of `common/cmm_tkip.c`)

A frame body under TKIP is an IV header of eight bytes and, under ARC4 with a key of its own for each packet, the
payload, its integrity code of eight bytes and a check value of four. Decryption moves the payload over the header. -/

namespace Mt7610u.Data.Tkip

open Lib Crypto Wpa

/-! ### The encapsulation -/

namespace Standard

def ta (hdr : ℕ → Byte) : List Byte := readAt hdr 10 6

/-- The destination: behind the distribution system it is the third address. -/
def da (hdr : ℕ → Byte) : List Byte := if (hdr 1).getLsbD 0 then readAt hdr 16 6 else readAt hdr 4 6

/-- The source: from the distribution system it is the third address, or the fourth between two of its stations. -/
def sa (hdr : ℕ → Byte) : List Byte :=
  if (hdr 1).getLsbD 1 then if (hdr 1).getLsbD 0 then readAt hdr 24 6 else readAt hdr 16 6 else readAt hdr 10 6

def rc4Key (tk ta : List Byte) (iv32 : BitVec 32) (iv16 : BitVec 16) : List Byte :=
  Crypto.Standard.phase2 tk (Crypto.Standard.phase1 tk ta iv32) iv16

/-- Byte `i` of the counter. -/
def tscByte (tsc : BitVec 48) (i : ℕ) : Byte := (tsc >>> (8 * i)).setWidth 8

def ivHdr (tsc : BitVec 48) (keyIdx : Byte) : List Byte :=
  [tscByte tsc 1, (tscByte tsc 1 ||| 0x20) &&& 0x7f, tscByte tsc 0, keyIdx <<< 6 ||| 0x20,
    tscByte tsc 2, tscByte tsc 3, tscByte tsc 4, tscByte tsc 5]

def mic (micKey : List Byte) (hdr : ℕ → Byte) (userPriority : Byte) (payload : List Byte) : List Byte :=
  Crypto.Standard.michael micKey (micHeader (da hdr) (sa hdr) userPriority ++ payload)

/-- **The body** of a payload in the frame with the header `hdr`. -/
def encapsulate (tk micKey : List Byte) (hdr : ℕ → Byte) (userPriority : Byte) (tsc : BitVec 48) (keyIdx : Byte)
    (payload : List Byte) : List Byte :=
  ivHdr tsc keyIdx ++ arc4Compute (arc4Init (rc4Key tk (ta hdr) ((tsc >>> 16).setWidth 32) (tsc.setWidth 16)))
    (sealedText (payload ++ mic micKey hdr userPriority payload))

end Standard

/-! ### The code -/

/-- `DA`, `TA` and `SA`. -/
structure Addresses where
  da : List Byte
  ta : List Byte
  sa : List Byte

def assignAddresses (pHdr : ℕ → Byte) : Addresses :=
  let fromDs := (pHdr 1 &&& 0x02) >>> 1
  let toDs := pHdr 1 &&& 0x01
  let addr1 := readAt pHdr 4 6
  let addr2 := readAt pHdr 10 6
  let addr3 := readAt pHdr 16 6
  let octet := readAt pHdr 24 6
  if toDs = 0 ∧ fromDs = 1 then { da := addr1, ta := addr2, sa := addr3 }
  else if toDs = 0 ∧ fromDs = 0 then { da := addr1, ta := addr2, sa := addr2 }
  else if toDs = 1 ∧ fromDs = 0 then { da := addr3, ta := addr2, sa := addr2 }
  else { da := addr3, ta := addr2, sa := octet }

/-- The `ULONG` of `w` bits that begins with these bytes, the low byte first. -/
def ulongOf (w : ℕ) : List Byte → BitVec w
  | [] => 0
  | b :: bs => b.setWidth w ||| ulongOf w bs <<< 8

/-- What a call returns and leaves: the memory at `pData`, `*DataByteCnt`, `PrivateInfo.Tx`, whether it reported a
wrong MIC, and of which lengths it took which. -/
structure Decrypted (w : ℕ) where
  ok : Bool
  mem : Traced
  dataByteCnt : BitVec 16
  tx : TkipKeyInfo w
  micError : Bool
  differences : List (BitVec 32 × BitVec 32)

/-- `RTMPSoftDecryptTKIP`, where `ULONG` has `w` bits. Places are counted from `pData`. -/
def rtmpSoftDecryptTKIP {w : ℕ} (tx : TkipKeyInfo w) (pHdr : ℕ → Byte) (userPriority : Byte) (pKey : CipherKey)
    (pData : Traced) (dataByteCnt : BitVec 16) : Decrypted w :=
  if pKey.keyLen = 0 then
    { ok := false, mem := pData, dataByteCnt := dataByteCnt, tx := tx, micError := false, differences := [] }
  else
    let addresses := assignAddresses pHdr
    let first := pData.load 0
    let third := first.2.load 2
    let pnl : BitVec w := first.1.setWidth w <<< 8 ||| third.1.setWidth w
    let word := third.2.loads 4 (w / 8)
    -- `cpu2le32` converts to `UINT32`
    let pnh : BitVec w := ((ulongOf w word.1).setWidth 32).setWidth w
    let rc4Key := (rtmpTkipMixKey (List.ofFn pKey.key) addresses.ta pnl pnh).1
    let ciphertextLen := dataByteCnt.setWidth 32 - 8
    let mem := arc4ComputeAt 8 0 ciphertextLen.toNat (arc4Init rc4Key) word.2
    let plaintextLen := ciphertextLen - 4
    let differences := [(dataByteCnt.setWidth 32, 8), (ciphertextLen, 4)]
    let trailfcs := mem.loads plaintextLen.toNat 4
    let crc32 := rtmpCalcFcs32 plaintextLen.toNat 0xffffffff 0 trailfcs.2
    if crc32.1 ^^^ 0xffffffff ≠ ofOctets32 trailfcs.1 then
      { ok := false, mem := crc32.2, dataByteCnt := dataByteCnt, tx := tx, micError := false,
        differences := differences }
    else
      let differences := differences ++ [(plaintextLen, 8)]
      let plaintextLen := plaintextLen - 8
      let trailMic := crc32.2.loads plaintextLen.toNat 8
      let tx := rtmpInitMICEngine tx addresses.da addresses.sa userPriority (List.ofFn pKey.rxMic)
      let plaintext := trailMic.2.loads 0 plaintextLen.toNat
      let tx := rtmpTkipGetMIC (rtmpTkipAppend tx plaintext.1)
      if tx.mic ≠ trailMic.1 then
        { ok := false, mem := plaintext.2, dataByteCnt := dataByteCnt, tx := tx, micError := true,
          differences := differences }
      else
        { ok := true, mem := plaintext.2, dataByteCnt := plaintextLen.setWidth 16, tx := tx, micError := false,
          differences := differences }

/-! ### Addresses and counter -/

theorem dsBits : ∀ b : Byte, (b &&& 0x01 = if b.getLsbD 0 then 1 else 0) ∧
    ((b &&& 0x02) >>> 1 = if b.getLsbD 1 then 1 else 0) := by
  decide

theorem assignAddresses_eq (hdr : ℕ → Byte) :
    assignAddresses hdr = { da := Standard.da hdr, ta := Standard.ta hdr, sa := Standard.sa hdr } := by
  unfold assignAddresses Standard.da Standard.sa Standard.ta
  rw [(dsBits (hdr 1)).1, (dsBits (hdr 1)).2]
  cases (hdr 1).getLsbD 0 <;> cases (hdr 1).getLsbD 1 <;> rfl

theorem ulongOf_low {w : ℕ} (hw : 32 ≤ w) (bs : List Byte) : (ulongOf w bs).setWidth 32 = ulongOf 32 bs := by
  induction bs with
  | nil => exact BitVec.setWidth_zero 32 w
  | cons b bs ih =>
    rw [ulongOf, ulongOf, BitVec.setWidth_or, setWidth_shiftLeft hw, ih, BitVec.setWidth_setWidth_of_le _ hw]

theorem getLsbD_below {w : ℕ} (x : BitVec w) (b : Byte) {i : ℕ} (hi : i < w) :
    (b.setWidth w ||| x <<< 8).getLsbD i = if i < 8 then b.getLsbD i else x.getLsbD (i - 8) := by
  rw [BitVec.getLsbD_or, BitVec.getLsbD_setWidth, BitVec.getLsbD_shiftLeft]
  by_cases h : i < 8
  · simp [h, hi]
  · simp [h, hi, BitVec.getLsbD_of_ge b i (by omega)]

theorem ulongOf_four (b0 b1 b2 b3 : Byte) (bs : List Byte) :
    ulongOf 32 (b0 :: b1 :: b2 :: b3 :: bs) = b3 ++ b2 ++ b1 ++ b0 := by
  refine BitVec.eq_of_getLsbD_eq fun i hi => ?_
  simp only [ulongOf, BitVec.getLsbD_append]
  rw [getLsbD_below _ _ hi, getLsbD_below _ _ (by omega), getLsbD_below _ _ (by omega), getLsbD_below _ _ (by omega)]
  split_ifs
  all_goals first | rfl | omega

def bodyIv32 (m : ℕ → Byte) : BitVec 32 := m 7 ++ m 6 ++ m 5 ++ m 4

def bodyIv16 (m : ℕ → Byte) : BitVec 16 := m 0 ++ m 2

theorem pnh_low {w : ℕ} (hw : w = 32 ∨ w = 64) (m : ℕ → Byte) :
    (((ulongOf w (readAt m 4 (w / 8))).setWidth 32).setWidth w).setWidth 32 = bodyIv32 m := by
  have hle : 32 ≤ w := by omega
  rw [BitVec.setWidth_setWidth_of_le _ hle, BitVec.setWidth_eq, ulongOf_low hle]
  obtain rfl | rfl := hw
  · exact ulongOf_four _ _ _ _ _
  · exact ulongOf_four _ _ _ _ _

theorem pnl_low {w : ℕ} (hw : 16 ≤ w) (b0 b2 : Byte) :
    (b0.setWidth w <<< 8 ||| b2.setWidth w).setWidth 16 = b0 ++ b2 := by
  refine BitVec.eq_of_getLsbD_eq fun i hi => ?_
  rw [BitVec.or_comm, BitVec.getLsbD_setWidth, getLsbD_below _ _ (by omega), BitVec.getLsbD_append,
    BitVec.getLsbD_setWidth]
  have hin : i - 8 < w := by omega
  simp [hi, hin]

/-! ### Decryption -/

section Body

variable (key : CipherKey) (hdr : ℕ → Byte) (userPriority : Byte) (m : ℕ → Byte) (n : ℕ)

/-- The text of a body of `n` bytes under its key: the payload, its integrity code and the check value. -/
def text : List Byte :=
  arc4Compute (arc4Init (Standard.rc4Key (List.ofFn key.key) (Standard.ta hdr) (bodyIv32 m) (bodyIv16 m)))
    (readAt m 8 (n - 8))

def IcvOk : Prop := ofOctets32 ((text key hdr m n).drop (n - 12)) = crc32 crcPoly ((text key hdr m n).take (n - 12))

def MicOk : Prop :=
  ((text key hdr m n).drop (n - 20)).take 8 =
    Standard.mic (List.ofFn key.rxMic) hdr userPriority ((text key hdr m n).take (n - 20))

instance : Decidable (IcvOk key hdr m n) := inferInstanceAs (Decidable (_ = _))

theorem length_text : (text key hdr m n).length = n - 8 := by
  rw [text, length_arc4Compute, length_readAt]

end Body

section Stages

variable (w : ℕ) (key : CipherKey) (hdr : ℕ → Byte) (userPriority : Byte) (m : Traced) (n : BitVec 16)

def textLen : BitVec 32 := n.setWidth 32 - 8

@[inherit_doc textLen]
def protectedLen : BitVec 32 := textLen n - 4

@[inherit_doc textLen]
def payloadLen : BitVec 32 := protectedLen n - 8

def deciphered : Traced :=
  arc4ComputeAt 8 0 (textLen n).toNat
    (arc4Init (Standard.rc4Key (List.ofFn key.key) (Standard.ta hdr) (bodyIv32 m.cells) (bodyIv16 m.cells)))
    (((m.load 0).2.load 2).2.loads 4 (w / 8)).2

def checked : Traced :=
  (rtmpCalcFcs32 (protectedLen n).toNat 0xffffffff 0
    ((deciphered w key hdr m n).loads (protectedLen n).toNat 4).2).2

def authenticated : Traced :=
  (((checked w key hdr m n).loads (payloadLen n).toNat 8).2.loads 0 (payloadLen n).toNat).2

def IcvPasses : Prop :=
  crc32 crcPoly (readAt (deciphered w key hdr m n).cells 0 (protectedLen n).toNat) =
    ofOctets32 (readAt (deciphered w key hdr m n).cells (protectedLen n).toNat 4)

def MicPasses : Prop :=
  Standard.mic (List.ofFn key.rxMic) hdr userPriority
      (readAt (deciphered w key hdr m n).cells 0 (payloadLen n).toNat) =
    readAt (deciphered w key hdr m n).cells (payloadLen n).toNat 8

instance : Decidable (IcvPasses w key hdr m n) := inferInstanceAs (Decidable (_ = _))

instance : Decidable (MicPasses w key hdr userPriority m n) := inferInstanceAs (Decidable (_ = _))

variable {w key hdr userPriority m n}

theorem checked_cells : (checked w key hdr m n).cells = (deciphered w key hdr m n).cells :=
  rtmpCalcFcs32_cells _ _ _ _

theorem rtmpSoftDecryptTKIP_eq (hw : w = 32 ∨ w = 64) (tx : TkipKeyInfo w) (hkey : key.keyLen ≠ 0) :
    ∃ tx', rtmpSoftDecryptTKIP tx hdr userPriority key m n =
      if IcvPasses w key hdr m n then
        if MicPasses w key hdr userPriority m n then
          ⟨true, authenticated w key hdr m n, (payloadLen n).setWidth 16, tx', false,
            [(n.setWidth 32, 8), (textLen n, 4), (protectedLen n, 8)]⟩
        else
          ⟨false, authenticated w key hdr m n, n, tx', true,
            [(n.setWidth 32, 8), (textLen n, 4), (protectedLen n, 8)]⟩
      else ⟨false, checked w key hdr m n, n, tx, false, [(n.setWidth 32, 8), (textLen n, 4)]⟩ := by
  have hle : 32 ≤ w := by omega
  have hmixed : (rtmpTkipMixKey (List.ofFn key.key) (Standard.ta hdr)
      ((m.cells 0).setWidth w <<< 8 ||| (m.cells 2).setWidth w : BitVec w)
      (((ulongOf w (readAt m.cells 4 (w / 8))).setWidth 32).setWidth w)).1 =
        Standard.rc4Key (List.ofFn key.key) (Standard.ta hdr) (bodyIv32 m.cells) (bodyIv16 m.cells) := by
    rw [rtmpTkipMixKey_eq hle, pnh_low hw, pnl_low (by omega)]
    rfl
  have hmic := fun payload => rtmpTkipGetMIC_eq hle ((appended_init hle tx (Standard.da hdr) (Standard.sa hdr)
    userPriority (List.ofFn key.rxMic)).append hle payload)
  have hcrc : (rtmpCalcFcs32 (protectedLen n).toNat 0xffffffff 0
      ((deciphered w key hdr m n).loads (protectedLen n).toNat 4).2).1 ^^^ 0xffffffff =
        crc32 crcPoly (readAt (deciphered w key hdr m n).cells 0 (protectedLen n).toNat) := by
    rw [rtmpCalcFcs32_eq, crcRemainder_eq]
    rfl
  obtain ⟨tx', htx'⟩ : ∃ tx', tx' = rtmpTkipGetMIC (rtmpTkipAppend (rtmpInitMICEngine tx (Standard.da hdr)
    (Standard.sa hdr) userPriority (List.ofFn key.rxMic))
      (readAt (checked w key hdr m n).cells 0 (payloadLen n).toNat)) := ⟨_, rfl⟩
  have hcode : rtmpSoftDecryptTKIP tx hdr userPriority key m n =
      if (rtmpCalcFcs32 (protectedLen n).toNat 0xffffffff 0
          ((deciphered w key hdr m n).loads (protectedLen n).toNat 4).2).1 ^^^ 0xffffffff ≠
            ofOctets32 (readAt (deciphered w key hdr m n).cells (protectedLen n).toNat 4) then
        ⟨false, checked w key hdr m n, n, tx, false, [(n.setWidth 32, 8), (textLen n, 4)]⟩
      else if tx'.mic ≠ readAt (checked w key hdr m n).cells (payloadLen n).toNat 8 then
        ⟨false, authenticated w key hdr m n, n, tx', true,
          [(n.setWidth 32, 8), (textLen n, 4), (protectedLen n, 8)]⟩
      else
        ⟨true, authenticated w key hdr m n, (payloadLen n).setWidth 16, tx', false,
          [(n.setWidth 32, 8), (textLen n, 4), (protectedLen n, 8)]⟩ := by
    rw [htx']
    unfold rtmpSoftDecryptTKIP
    rw [if_neg hkey, assignAddresses_eq]
    dsimp only [Traced.load, Traced.loads]
    rw [hmixed]
    rfl
  refine ⟨tx', ?_⟩
  rw [hcode, hcrc, htx', hmic, checked_cells, ite_not, ite_not]
  rfl

/-! ### Lengths -/

theorem toNat_count : (n.setWidth 32 : BitVec 32).toNat = n.toNat := by
  rw [BitVec.toNat_setWidth]
  exact Nat.mod_eq_of_lt (n.isLt.trans (by decide))

theorem toNat_sub_small {x : BitVec 32} {c : ℕ} (hc : c < 2 ^ 32) :
    (x - BitVec.ofNat 32 c).toNat = if c ≤ x.toNat then x.toNat - c else 2 ^ 32 + x.toNat - c := by
  have hx := x.isLt
  rw [BitVec.toNat_sub, BitVec.toNat_ofNat, Nat.mod_eq_of_lt hc]
  split_ifs with h <;> omega

theorem toNat_textLen : (textLen n).toNat = if 8 ≤ n.toNat then n.toNat - 8 else 2 ^ 32 + n.toNat - 8 := by
  have h := toNat_sub_small (x := n.setWidth 32) (c := 8) (by decide)
  rwa [toNat_count] at h

theorem protectedLen_eq (hn : 12 ≤ n.toNat) : (protectedLen n).toNat = n.toNat - 12 := by
  have htext := @toNat_textLen n
  rw [if_pos (by omega)] at htext
  have h := toNat_sub_small (x := textLen n) (c := 4) (by decide)
  rw [htext, if_pos (by omega)] at h
  exact h.trans (by omega)

theorem payloadLen_eq (hn : 20 ≤ n.toNat) : (payloadLen n).toNat = n.toNat - 20 := by
  have h := toNat_sub_small (x := protectedLen n) (c := 8) (by decide)
  rw [protectedLen_eq (by omega), if_pos (by omega)] at h
  exact h.trans (by omega)

theorem protectedLen_short (hn : n.toNat < 12) : 20 ≤ (textLen n).toNat ∨ 20 ≤ (protectedLen n).toNat := by
  have h := toNat_sub_small (x := textLen n) (c := 4) (by decide)
  have htext := @toNat_textLen n
  by_cases h8 : 8 ≤ n.toNat
  · rw [if_pos h8] at htext
    rw [if_neg (by omega)] at h
    exact Or.inr (h.ge.trans' (by omega))
  · rw [if_neg h8] at htext
    exact Or.inl (htext.ge.trans' (by omega))

theorem payloadLen_short (hn : 12 ≤ n.toNat) (hlt : n.toNat < 20) : 20 ≤ (payloadLen n).toNat := by
  have h := toNat_sub_small (x := protectedLen n) (c := 8) (by decide)
  rw [protectedLen_eq hn, if_neg (by omega)] at h
  exact h.ge.trans' (by omega)

/-! ### Places -/

theorem deciphered_touched (a : ℕ) :
    a ∈ (deciphered w key hdr m n).touched ↔
      a ∈ m.touched ∨ a = 0 ∨ a = 2 ∨ (4 ≤ a ∧ a < 4 + w / 8) ∨ (8 ≤ a ∧ a < 8 + (textLen n).toNat) ∨
        a < (textLen n).toNat := by
  unfold deciphered
  rw [arc4ComputeAt_touched, mem_loads_touched, Nat.zero_add]
  simp only [Traced.load, List.mem_cons, Nat.zero_le, true_and]
  tauto

theorem checked_touched (a : ℕ) :
    a ∈ (checked w key hdr m n).touched ↔
      a ∈ (deciphered w key hdr m n).touched ∨ a < (protectedLen n).toNat + 4 := by
  unfold checked
  rw [rtmpCalcFcs32_touched, mem_loads_touched, or_assoc]
  refine or_congr Iff.rfl ?_
  omega

theorem authenticated_touched (a : ℕ) :
    a ∈ (authenticated w key hdr m n).touched ↔
      a ∈ (checked w key hdr m n).touched ∨ a < (payloadLen n).toNat + 8 := by
  unfold authenticated
  rw [mem_loads_touched, mem_loads_touched, or_assoc]
  refine or_congr Iff.rfl ?_
  omega

/-! ### Codes -/

theorem deciphered_cells (hn : 8 ≤ n.toNat) :
    (deciphered w key hdr m n).cells = copy m.cells 0 (text key hdr m.cells n.toNat) := by
  unfold deciphered
  rw [arc4ComputeAt_cells _ _ _ (by omega), toNat_textLen, if_pos hn]
  rfl

theorem readAt_deciphered {off len : ℕ} (h : off + len + 8 ≤ n.toNat) :
    readAt (deciphered w key hdr m n).cells off len = ((text key hdr m.cells n.toNat).drop off).take len := by
  have hlen := length_text key hdr m.cells n.toNat
  rw [deciphered_cells (by omega)]
  generalize text key hdr m.cells n.toNat = bs at hlen ⊢
  have hparts : bs = bs.take off ++ (bs.drop off).take len ++ (bs.drop off).drop len := by
    rw [List.append_assoc, List.take_append_drop, List.take_append_drop]
  have hholds := holds_copy m.cells bs
  rw [hparts] at hholds
  have hread := hholds.readAt
  rw [← hparts] at hread
  rwa [List.length_take, List.length_take, List.length_drop, Nat.min_eq_left (by omega), Nat.min_eq_left (by omega)]
    at hread

theorem icvPasses_iff (hn : 12 ≤ n.toNat) : IcvPasses w key hdr m n ↔ IcvOk key hdr m.cells n.toNat := by
  have hlen := length_text key hdr m.cells n.toNat
  have htail : ((text key hdr m.cells n.toNat).drop (n.toNat - 12)).take 4 =
      (text key hdr m.cells n.toNat).drop (n.toNat - 12) :=
    List.take_of_length_le (by rw [List.length_drop, hlen]; omega)
  unfold IcvPasses IcvOk
  rw [protectedLen_eq hn, readAt_deciphered (by omega), readAt_deciphered (by omega), List.drop_zero, htail]
  exact eq_comm

theorem micPasses_iff (hn : 20 ≤ n.toNat) :
    MicPasses w key hdr userPriority m n ↔ MicOk key hdr userPriority m.cells n.toNat := by
  unfold MicPasses MicOk
  rw [payloadLen_eq hn, readAt_deciphered (by omega), readAt_deciphered (by omega), List.drop_zero]
  exact eq_comm

end Stages

/-! ### Soundness -/

section Sound

variable {w : ℕ} {key : CipherKey} {hdr : ℕ → Byte} {userPriority : Byte} {m : ℕ → Byte} {n : BitVec 16}

/-- What is asked of decrypting the `n` bytes at `pData`: the payload is accepted only with both codes, no difference
of lengths wraps around, and only bytes of the body are read or written. -/
def Sound (tx : TkipKeyInfo w) (hdr : ℕ → Byte) (userPriority : Byte) (key : CipherKey) (m : ℕ → Byte)
    (n : BitVec 16) : Prop :=
  let r := rtmpSoftDecryptTKIP tx hdr userPriority key ⟨m, []⟩ n
  (r.ok = true → 20 ≤ n.toNat ∧ IcvOk key hdr m n.toNat ∧ MicOk key hdr userPriority m n.toNat) ∧
    (∀ d ∈ r.differences, d.2.toNat ≤ d.1.toNat) ∧ ∀ a ∈ r.mem.touched, a < n.toNat

theorem sound_of_keyLen (tx : TkipKeyInfo w) (hkey : key.keyLen = 0) : Sound tx hdr userPriority key m n := by
  unfold Sound rtmpSoftDecryptTKIP
  rw [if_pos hkey]
  exact ⟨fun hacc => absurd hacc Bool.false_ne_true, fun _ hd => absurd hd List.not_mem_nil,
    fun _ ha => absurd ha List.not_mem_nil⟩

theorem checked_inside (hw : w = 32 ∨ w = 64) (hn : 12 ≤ n.toNat) :
    ∀ a ∈ (checked w key hdr ⟨m, []⟩ n).touched, a < n.toNat := by
  intro a ha
  rw [checked_touched, deciphered_touched, toNat_textLen, if_pos (by omega), protectedLen_eq hn] at ha
  have hword : w / 8 ≤ 8 := by omega
  rcases ha with (h | h | h | h | h | h) | h
  · exact absurd h List.not_mem_nil
  all_goals omega

theorem differences_fit (hn : 12 ≤ n.toNat) :
    ∀ d ∈ [((n.setWidth 32 : BitVec 32), (8 : BitVec 32)), (textLen n, 4)], d.2.toNat ≤ d.1.toNat := by
  have htext := @toNat_textLen n
  rw [if_pos (by omega)] at htext
  simp only [List.mem_cons, List.not_mem_nil, or_false]
  rintro d (rfl | rfl)
  · show 8 ≤ (n.setWidth 32 : BitVec 32).toNat
    rw [toNat_count]
    omega
  · show 4 ≤ (textLen n).toNat
    omega

theorem sound_of_icv (hw : w = 32 ∨ w = 64) (tx : TkipKeyInfo w) (hkey : key.keyLen ≠ 0) (hn : 12 ≤ n.toNat)
    (hicv : ¬IcvOk key hdr m n.toNat) : Sound tx hdr userPriority key m n := by
  obtain ⟨tx', heq⟩ := @rtmpSoftDecryptTKIP_eq w key hdr userPriority ⟨m, []⟩ n hw tx hkey
  have hpasses : ¬IcvPasses w key hdr ⟨m, []⟩ n := fun h => hicv ((icvPasses_iff (m := ⟨m, []⟩) hn).1 h)
  unfold Sound
  rw [heq, if_neg hpasses]
  exact ⟨fun hacc => absurd hacc Bool.false_ne_true, differences_fit hn, checked_inside hw hn⟩

theorem sound_of_long (hw : w = 32 ∨ w = 64) (tx : TkipKeyInfo w) (hkey : key.keyLen ≠ 0) (hn : 20 ≤ n.toNat) :
    Sound tx hdr userPriority key m n := by
  by_cases hicv : IcvOk key hdr m n.toNat
  · obtain ⟨tx', heq⟩ := @rtmpSoftDecryptTKIP_eq w key hdr userPriority ⟨m, []⟩ n hw tx hkey
    have hfit : ∀ d ∈ [((n.setWidth 32 : BitVec 32), (8 : BitVec 32)), (textLen n, 4), (protectedLen n, 8)],
        d.2.toNat ≤ d.1.toNat := by
      intro d hd
      rcases List.mem_append.1 (show d ∈ [(n.setWidth 32, 8), (textLen n, 4)] ++ [(protectedLen n, 8)] from hd)
        with h | h
      · exact differences_fit (by omega) d h
      · rw [List.mem_singleton.1 h]
        show 8 ≤ (protectedLen n).toNat
        rw [protectedLen_eq (by omega)]
        omega
    have hinside : ∀ a ∈ (authenticated w key hdr ⟨m, []⟩ n).touched, a < n.toNat := by
      intro a ha
      rw [authenticated_touched, payloadLen_eq hn] at ha
      rcases ha with h | h
      · exact checked_inside hw (by omega) a h
      · omega
    unfold Sound
    rw [heq, if_pos ((icvPasses_iff (m := ⟨m, []⟩) (by omega)).2 hicv)]
    split_ifs with hmic
    · exact ⟨fun _ => ⟨hn, hicv, (micPasses_iff (m := ⟨m, []⟩) hn).1 hmic⟩, hfit, hinside⟩
    · exact ⟨fun hacc => absurd hacc Bool.false_ne_true, hfit, hinside⟩
  · exact sound_of_icv hw tx hkey (by omega) hicv

theorem not_sound_of_short (hw : w = 32 ∨ w = 64) (tx : TkipKeyInfo w) (hkey : key.keyLen ≠ 0) (hn : n.toNat < 12) :
    ¬Sound tx hdr userPriority key m n := by
  rintro ⟨-, -, htouched⟩
  have hmem : 12 ∈ (checked w key hdr ⟨m, []⟩ n).touched := by
    rw [checked_touched, deciphered_touched]
    have hlen := protectedLen_short hn
    omega
  have hmem' : 12 ∈ (authenticated w key hdr ⟨m, []⟩ n).touched := (authenticated_touched 12).2 (Or.inl hmem)
  obtain ⟨tx', heq⟩ := @rtmpSoftDecryptTKIP_eq w key hdr userPriority ⟨m, []⟩ n hw tx hkey
  rw [heq] at htouched
  have hlt : 12 < n.toNat := by
    split_ifs at htouched
    · exact htouched 12 hmem'
    · exact htouched 12 hmem'
    · exact htouched 12 hmem
  omega

theorem not_sound_of_noMic (hw : w = 32 ∨ w = 64) (tx : TkipKeyInfo w) (hkey : key.keyLen ≠ 0) (hn : 12 ≤ n.toNat)
    (hlt : n.toNat < 20) (hicv : IcvOk key hdr m n.toNat) : ¬Sound tx hdr userPriority key m n := by
  rintro ⟨-, -, htouched⟩
  have hlen := payloadLen_short hn hlt
  have hmem : 20 ∈ (authenticated w key hdr ⟨m, []⟩ n).touched := (authenticated_touched 20).2 (Or.inr (by omega))
  obtain ⟨tx', heq⟩ := @rtmpSoftDecryptTKIP_eq w key hdr userPriority ⟨m, []⟩ n hw tx hkey
  rw [heq, if_pos ((icvPasses_iff (m := ⟨m, []⟩) hn).2 hicv)] at htouched
  have h20 : 20 < n.toNat := by
    split_ifs at htouched
    · exact htouched 20 hmem
    · exact htouched 20 hmem
  omega

/-- **When decryption is sound**: there is no key, or the body has header and both codes, or it has header and check
value and the latter is wrong. -/
theorem sound_iff (hw : w = 32 ∨ w = 64) (tx : TkipKeyInfo w) :
    Sound tx hdr userPriority key m n ↔
      key.keyLen = 0 ∨ 20 ≤ n.toNat ∨ (12 ≤ n.toNat ∧ ¬IcvOk key hdr m n.toNat) := by
  by_cases hkey : key.keyLen = 0
  · exact iff_of_true (sound_of_keyLen tx hkey) (Or.inl hkey)
  · by_cases h20 : 20 ≤ n.toNat
    · exact iff_of_true (sound_of_long hw tx hkey h20) (Or.inr (Or.inl h20))
    · by_cases h12 : 12 ≤ n.toNat
      · by_cases hicv : IcvOk key hdr m n.toNat
        · exact iff_of_false (not_sound_of_noMic hw tx hkey h12 (by omega) hicv) (by tauto)
        · exact iff_of_true (sound_of_icv hw tx hkey h12 hicv) (Or.inr (Or.inr ⟨h12, hicv⟩))
      · exact iff_of_false (not_sound_of_short hw tx hkey (by omega)) (by tauto)

end Sound

/-! ### The round trip -/

section RoundTrip

variable {w : ℕ} {key : CipherKey} {hdr : ℕ → Byte} {userPriority keyIdx : Byte} {tsc : BitVec 48}
  {payload : List Byte}

theorem length_mic (micKey : List Byte) (hdr : ℕ → Byte) (userPriority : Byte) (payload : List Byte) :
    (Standard.mic micKey hdr userPriority payload).length = 8 := by
  unfold Standard.mic Crypto.Standard.michael
  rw [List.length_append, length_leBytes, length_leBytes]

theorem tscBytes_high (tsc : BitVec 48) :
    Standard.tscByte tsc 5 ++ Standard.tscByte tsc 4 ++ Standard.tscByte tsc 3 ++ Standard.tscByte tsc 2 =
      (tsc >>> 16).setWidth 32 := by
  refine BitVec.eq_of_getLsbD_eq fun i hi => ?_
  simp only [Standard.tscByte, BitVec.getLsbD_append, BitVec.getLsbD_setWidth, BitVec.getLsbD_ushiftRight]
  split_ifs
  all_goals grind

theorem tscBytes_low (tsc : BitVec 48) : Standard.tscByte tsc 1 ++ Standard.tscByte tsc 0 = tsc.setWidth 16 := by
  refine BitVec.eq_of_getLsbD_eq fun i hi => ?_
  simp only [Standard.tscByte, BitVec.getLsbD_append, BitVec.getLsbD_setWidth, BitVec.getLsbD_ushiftRight]
  split_ifs
  all_goals grind

theorem text_encapsulate {m : ℕ → Byte} {n : ℕ} (hn : n = payload.length + 20)
    (hbody : Holds m (Standard.encapsulate (List.ofFn key.key) (List.ofFn key.rxMic) hdr userPriority tsc keyIdx
      payload)) :
    text key hdr m n =
      sealedText (payload ++ Standard.mic (List.ofFn key.rxMic) hdr userPriority payload) := by
  unfold Standard.encapsulate at hbody
  rw [holds_append] at hbody
  obtain ⟨hhdr, htext⟩ := hbody
  have hbyte : ∀ i < 8, m i = (Standard.ivHdr tsc keyIdx).getD i 0 := by
    intro i hi
    exact (@mem_read m 8 i hi).symm.trans (congrArg (mem · i) hhdr)
  have hiv32 : bodyIv32 m = (tsc >>> 16).setWidth 32 := by
    rw [bodyIv32, hbyte 7 (by decide), hbyte 6 (by decide), hbyte 5 (by decide), hbyte 4 (by decide)]
    exact tscBytes_high tsc
  have hiv16 : bodyIv16 m = tsc.setWidth 16 := by
    rw [bodyIv16, hbyte 0 (by decide), hbyte 2 (by decide)]
    exact tscBytes_low tsc
  have hlen : n - 8 = payload.length + 8 + 4 := by omega
  unfold Holds at htext
  rw [length_arc4Compute, length_sealedText, List.length_append, length_mic] at htext
  unfold text
  rw [hiv32, hiv16, hlen]
  unfold readAt
  exact (congrArg _ htext).trans (arc4Compute_arc4Compute _ _)

/-- **Decryption gives back what was encapsulated**, for every key, counter, header and payload. -/
theorem rtmpSoftDecryptTKIP_encapsulate (hw : w = 32 ∨ w = 64) (tx : TkipKeyInfo w) (hkey : key.keyLen ≠ 0)
    {m : Traced} {n : BitVec 16} (hn : n.toNat = payload.length + 20)
    (hbody : Holds m.cells (Standard.encapsulate (List.ofFn key.key) (List.ofFn key.rxMic) hdr userPriority tsc keyIdx
      payload)) : let r := rtmpSoftDecryptTKIP tx hdr userPriority key m n
    r.ok = true ∧ Holds r.mem.cells payload ∧ r.dataByteCnt.toNat = payload.length := by
  have hlong : 20 ≤ n.toNat := by omega
  have htext := text_encapsulate hn hbody
  have hmic : (Standard.mic (List.ofFn key.rxMic) hdr userPriority payload).length = 8 := length_mic _ _ _ _
  generalize hcode : Standard.mic (List.ofFn key.rxMic) hdr userPriority payload = code at htext hmic
  have hfront : n.toNat - 12 = (payload ++ code).length := by
    rw [List.length_append, hmic]
    omega
  have hicv : IcvOk key hdr m.cells n.toNat := by
    unfold IcvOk
    rw [htext, hfront, sealedText, List.drop_left, List.take_left, ofOctets32_octets32]
  have hmicOk : MicOk key hdr userPriority m.cells n.toNat := by
    unfold MicOk sealedText at *
    rw [htext, show n.toNat - 20 = payload.length by omega, List.append_assoc, List.drop_left, List.take_left, hcode]
    exact List.take_left' hmic
  obtain ⟨tx', heq⟩ := @rtmpSoftDecryptTKIP_eq w key hdr userPriority m n hw tx hkey
  intro r
  have hr : r = _ := heq.trans (if_pos ((icvPasses_iff (by omega)).2 hicv))
  rw [if_pos ((micPasses_iff hlong).2 hmicOk)] at hr
  rw [hr]
  refine ⟨rfl, ?_, ?_⟩
  · show Holds (checked w key hdr m n).cells payload
    rw [checked_cells, deciphered_cells (by omega), htext, sealedText, List.append_assoc]
    exact (holds_append.1 (holds_copy _ _)).1
  · show ((payloadLen n).setWidth 16).toNat = payload.length
    have hlt := n.isLt
    rw [BitVec.toNat_setWidth, payloadLen_eq hlong]
    omega

end RoundTrip

/-- **TKIP in software**, with a `ULONG` of 32 or of 64 bits. The body that the standard makes of a payload gives the
payload and its length back, for all keys, counters, headers and priorities. A body is handled soundly exactly if there
is no key, if it has room for header, integrity code and check value, or if it only lacks the integrity code and its
check value is wrong. -/
theorem tkip_sound_iff {w : ℕ} (hw : w = 32 ∨ w = 64) (tx : TkipKeyInfo w) (hdr : ℕ → Byte) (userPriority : Byte)
    (key : CipherKey) :
    (∀ (tsc : BitVec 48) (keyIdx : Byte) (payload : List Byte) (m : Traced) (n : BitVec 16),
      key.keyLen ≠ 0 → n.toNat = payload.length + 20 →
      Holds m.cells (Standard.encapsulate (List.ofFn key.key) (List.ofFn key.rxMic) hdr userPriority tsc keyIdx
        payload) →
        let r := rtmpSoftDecryptTKIP tx hdr userPriority key m n
        r.ok = true ∧ Holds r.mem.cells payload ∧ r.dataByteCnt.toNat = payload.length) ∧
    ∀ (m : ℕ → Byte) (n : BitVec 16),
      Sound tx hdr userPriority key m n ↔
        key.keyLen = 0 ∨ 20 ≤ n.toNat ∨ (12 ≤ n.toNat ∧ ¬IcvOk key hdr m n.toNat) :=
  ⟨fun _ _ _ _ _ hkey hn hbody => rtmpSoftDecryptTKIP_encapsulate hw tx hkey hn hbody,
    fun _ _ => sound_iff hw tx⟩

def zeroTkipKey : CipherKey := ⟨zeros 16, zeros 8, zeros 8, zeros 16, zeros 16, .tkip, 16⟩

def idleEngine : TkipKeyInfo 64 := ⟨0, 0, 0, 0, 0, 0, []⟩

theorem tkip_sound_empty_payload : Sound idleEngine (mem []) 0 zeroTkipKey (mem []) 20 :=
  ((tkip_sound_iff (Or.inr rfl) idleEngine (mem []) 0 zeroTkipKey).2 (mem []) 20).2 (Or.inr (Or.inl (by decide)))

/-- A body that ends with the IV header is not handled soundly. -/
theorem not_tkipSound_header_only : ¬Sound idleEngine (mem []) 0 zeroTkipKey (mem []) 8 :=
  not_sound_of_short (Or.inr rfl) idleEngine (by decide) (by decide)

end Mt7610u.Data.Tkip
