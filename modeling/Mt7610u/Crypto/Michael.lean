import Mt7610u.Crypto.HashStandards
import Mt7610u.Lib.LowBits
import Mathlib.Data.List.GetD

/-! # The message integrity code of TKIP (`common/cmm_tkip.c`)

The code keeps the words of Michael in `ULONG`, of `w` bits, and never reduces them; a byte from `0x80` on that is
shifted as an `int` to the top of its word is extended by its sign. The host is little-endian. -/

namespace Mt7610u.Crypto

open Lib Lib.BlockHash

/-! ### The function -/

namespace Standard

def xswap (x : BitVec 32) : BitVec 32 := (x &&& 0xff00ff00#32) >>> 8 ||| (x &&& 0x00ff00ff#32) <<< 8

def michaelBlock (l r : BitVec 32) : BitVec 32 × BitVec 32 :=
  let r := r ^^^ l.rotateLeft 17
  let l := l + r
  let r := r ^^^ xswap l
  let l := l + r
  let r := r ^^^ l.rotateLeft 3
  let l := l + r
  let r := r ^^^ l.rotateRight 2
  (l + r, r)

def michaelWord (s : BitVec 32 × BitVec 32) (word : List Byte) : BitVec 32 × BitVec 32 :=
  michaelBlock (s.1 ^^^ leWord word 0) s.2

/-- The message with `0x5a` and from four to seven zeros behind it, so that it is made of whole words. -/
def michaelPad (message : List Byte) : List Byte := message ++ 0x5a :: List.replicate (7 - message.length % 4) 0

/-- **Michael**, for a key of 8 bytes. -/
def michael (key message : List Byte) : List Byte :=
  let s := (absorb michaelWord 4 (leWord key 0, leWord key 1) (michaelPad message)).1
  leBytes s.1 ++ leBytes s.2

end Standard

/-! ### The code -/

section Code

variable {w : ℕ}

def rol32 (a : BitVec w) (n : ℕ) : BitVec w := a <<< n ||| (a >>> (32 - n) &&& (1#w <<< n - 1#w))

def ror32 (a : BitVec w) (n : ℕ) : BitVec w := rol32 a (32 - n)

/-- `uChar << (8 * n)`, an `int`, as a `ULONG`. -/
def shiftedByte (w : ℕ) (uChar : Byte) (n : ℕ) : BitVec w := (uChar.setWidth 32 <<< (8 * n)).signExtend w

/-- What is used of `TKIP_KEY_INFO`. -/
structure TkipKeyInfo (w : ℕ) where
  nBytesInM : ℕ
  k0 : BitVec w
  k1 : BitVec w
  l : BitVec w
  r : BitVec w
  m : BitVec w
  mic : List Byte

def rtmpTkipGetUInt32 (w : ℕ) (pMICKey : List Byte) : BitVec w :=
  (List.range 4).foldl (fun res i => res ||| shiftedByte w (pMICKey.getD i 0) i) 0

/-- The loop of `RTMPTkipPutUInt32` with `n` turns left. -/
def putBytes : ℕ → BitVec w → List Byte
  | 0, _ => []
  | n + 1, val => (val &&& 0xff#w).setWidth 8 :: putBytes n (val >>> 8)

/-- `RTMPTkipPutUInt32`: the bytes at `pDst`. -/
def rtmpTkipPutUInt32 (val : BitVec w) : List Byte := putBytes 4 val

def rtmpTkipSetMICKey (pTkip : TkipKeyInfo w) (pMICKey : List Byte) : TkipKeyInfo w :=
  let k0 := rtmpTkipGetUInt32 w pMICKey
  let k1 := rtmpTkipGetUInt32 w (pMICKey.drop 4)
  { pTkip with k0 := k0, k1 := k1, l := k0, r := k1, nBytesInM := 0, m := 0 }

def rtmpTkipAppendByte (pTkip : TkipKeyInfo w) (uChar : Byte) : TkipKeyInfo w :=
  let m := pTkip.m ||| shiftedByte w uChar pTkip.nBytesInM
  let nBytesInM := pTkip.nBytesInM + 1
  if 4 ≤ nBytesInM then
    let l := pTkip.l ^^^ m
    let r := pTkip.r ^^^ rol32 l 17
    let l := l + r
    let r := r ^^^ ((l &&& 0xff00ff00#w) >>> 8 ||| (l &&& 0x00ff00ff#w) <<< 8)
    let l := l + r
    let r := r ^^^ rol32 l 3
    let l := l + r
    let r := r ^^^ ror32 l 2
    let l := l + r
    { pTkip with l := l, r := r, m := 0, nBytesInM := 0 }
  else { pTkip with m := m, nBytesInM := nBytesInM }

def rtmpTkipAppend (pTkip : TkipKeyInfo w) (pSrc : List Byte) : TkipKeyInfo w := pSrc.foldl rtmpTkipAppendByte pTkip

/-- The loop of `RTMPTkipGetMIC` that fills the word, at most `n` turns. -/
def fillWord : ℕ → TkipKeyInfo w → TkipKeyInfo w
  | 0, pTkip => pTkip
  | n + 1, pTkip => if pTkip.nBytesInM ≠ 0 then fillWord n (rtmpTkipAppendByte pTkip 0) else pTkip

def rtmpTkipGetMIC (pTkip : TkipKeyInfo w) : TkipKeyInfo w :=
  let pTkip := rtmpTkipAppendByte pTkip 0x5a
  let pTkip := rtmpTkipAppendByte pTkip 0
  let pTkip := rtmpTkipAppendByte pTkip 0
  let pTkip := rtmpTkipAppendByte pTkip 0
  let pTkip := rtmpTkipAppendByte pTkip 0
  let pTkip := fillWord 4 pTkip
  { pTkip with mic := rtmpTkipPutUInt32 pTkip.l ++ rtmpTkipPutUInt32 pTkip.r }

/-- The first four bytes of `ULONG Priority`. -/
def priorityBytes (w : ℕ) (userPriority : Byte) : List Byte := putBytes 4 (userPriority.setWidth w)

/-- `RTMPInitMICEngine`, on `PrivateInfo.Tx`. -/
def rtmpInitMICEngine (tx : TkipKeyInfo w) (pDA pSA : List Byte) (userPriority : Byte) (pMICKey : List Byte) :
    TkipKeyInfo w :=
  let tx := rtmpTkipSetMICKey tx pMICKey
  let tx := rtmpTkipAppend tx pDA
  let tx := rtmpTkipAppend tx pSA
  rtmpTkipAppend tx (priorityBytes w userPriority)

/-- `RTMPTkipCompareMICValue`, on `PrivateInfo.Rx`. -/
def rtmpTkipCompareMICValue (rx : TkipKeyInfo w) (pSrc : ℕ → Byte) (pDA pSA pMICKey : List Byte) (userPriority : Byte)
    (len : ℕ) : Bool :=
  let rx := rtmpTkipSetMICKey rx pMICKey
  let rx := rtmpTkipAppend rx pDA
  let rx := rtmpTkipAppend rx pSA
  let rx := rtmpTkipAppend rx (priorityBytes w userPriority)
  let rx := rtmpTkipAppend rx (readAt pSrc 0 len)
  let oldMic := readAt pSrc len 8
  let rx := rtmpTkipGetMIC rx
  rx.mic == oldMic

/-- `RTMPCalculateMICValue`, on `PrivateInfo.Tx`, for a packet with `SrcBufLen` bytes at `pSrc`. -/
def rtmpCalculateMICValue (tx : TkipKeyInfo w) (pSrc : ℕ → Byte) (srcBufLen : ℕ) (userPriority : Byte)
    (pEncap : Option (List Byte)) (txMic : List Byte) : TkipKeyInfo w :=
  let vlanOffset := if (pSrc 12).toNat * 256 + (pSrc 13).toNat = 0x8100 then 4 else 0
  let tx := rtmpInitMICEngine tx (readAt pSrc 0 6) (readAt pSrc 6 6) userPriority txMic
  let tx :=
    match pEncap with
    | some pEncap => rtmpTkipAppend (rtmpTkipAppend tx (pEncap.take 6)) (readAt pSrc (12 + vlanOffset) 2)
    | none => tx
  let srcBufLen := (srcBufLen + (2 ^ 32 - (14 + vlanOffset))) % 2 ^ 32
  let tx := if 0 < srcBufLen then rtmpTkipAppend tx (readAt pSrc (14 + vlanOffset) srcBufLen) else tx
  rtmpTkipGetMIC tx

end Code

/-! ### The low bits -/

section Low

variable {w : ℕ}

theorem rol32_low (hw : 32 ≤ w) (a : BitVec w) {n : ℕ} (hpos : 0 < n) (hn : n < 32) :
    (rol32 a n).setWidth 32 = (a.setWidth 32).rotateLeft n :=
  setWidth_rotate hw a hpos hn

theorem ror32_low (hw : 32 ≤ w) (a : BitVec w) : (ror32 a 2).setWidth 32 = (a.setWidth 32).rotateRight 2 := by
  have hrot (x : BitVec 32) : x.rotateLeft 30 = x.rotateRight 2 := by
    refine BitVec.eq_of_getLsbD_eq fun i hi => ?_
    rw [BitVec.getLsbD_rotateLeft, BitVec.getLsbD_rotateRight]
  rw [← hrot]
  exact rol32_low hw a (by decide) (by decide)

theorem shiftedByte_low (hw : 32 ≤ w) (uChar : Byte) (n : ℕ) :
    (shiftedByte w uChar n).setWidth 32 = uChar.setWidth 32 <<< (8 * n) :=
  setWidth_signExtend hw _

theorem getLsbD_leWord (block : List Byte) {i : ℕ} (hi : i < 32) :
    (leWord block 0).getLsbD i = (block.getD (i / 8) 0).getLsbD (i % 8) := by
  unfold leWord
  simp only [BitVec.getLsbD_append]
  rcases (by omega : i / 8 = 0 ∨ i / 8 = 1 ∨ i / 8 = 2 ∨ i / 8 = 3) with h | h | h | h
  · rw [if_pos (by omega), h]
    congr 1
    omega
  · rw [if_neg (by omega), if_pos (by omega), h]
    congr 1
    omega
  · rw [if_neg (by omega), if_neg (by omega), if_pos (by omega), h]
    congr 1
    omega
  · rw [if_neg (by omega), if_neg (by omega), if_neg (by omega), h]
    congr 1
    omega

theorem leWord_nil : leWord [] 0 = 0 := by decide

theorem leWord_append (rest : List Byte) (uChar : Byte) :
    leWord (rest ++ [uChar]) 0 = leWord rest 0 ||| uChar.setWidth 32 <<< (8 * rest.length) := by
  refine BitVec.eq_of_getLsbD_eq fun i hi => ?_
  rw [BitVec.getLsbD_or, getLsbD_leWord _ hi, getLsbD_leWord _ hi, BitVec.getLsbD_shiftLeft, BitVec.getLsbD_setWidth]
  rcases Nat.lt_trichotomy (i / 8) rest.length with hlt | heq | hgt
  · have hin : i < 8 * rest.length := by omega
    rw [List.getD_append _ _ _ _ hlt]
    simp [hin]
  · have hnot : ¬i < 8 * rest.length := by omega
    have hmod : i - 8 * rest.length = i % 8 := by omega
    have hsmall : i % 8 < 32 := by omega
    rw [List.getD_append_right _ _ _ _ (by omega), heq, Nat.sub_self,
      List.getD_eq_default rest (n := rest.length) 0 le_rfl]
    simp [hi, hnot, hmod, hsmall]
  · have hbit : uChar.getLsbD (i - 8 * rest.length) = false := BitVec.getLsbD_of_ge _ _ (by omega)
    rw [List.getD_append_right _ _ _ _ (by omega), List.getD_eq_default rest (n := i / 8) 0 (by omega),
      List.getD_eq_default [uChar] 0 (by rw [List.length_singleton]; omega), hbit]
    simp

theorem rtmpTkipGetUInt32_low (hw : 32 ≤ w) (pMICKey : List Byte) :
    (rtmpTkipGetUInt32 w pMICKey).setWidth 32 = leWord pMICKey 0 := by
  have hword : leWord pMICKey 0 =
      leWord ([] ++ [pMICKey.getD 0 0] ++ [pMICKey.getD 1 0] ++ [pMICKey.getD 2 0] ++ [pMICKey.getD 3 0]) 0 := rfl
  rw [hword, leWord_append, leWord_append, leWord_append, leWord_append, leWord_nil]
  simp only [rtmpTkipGetUInt32, List.range_succ, List.range_zero, List.nil_append, List.foldl_append, List.foldl_cons,
    List.foldl_nil, BitVec.setWidth_or, shiftedByte_low hw]
  simp

theorem putBytes_eq (hw : 8 ≤ w) (n : ℕ) (val : BitVec w) :
    putBytes n val = (List.range n).map fun i => (val >>> (8 * i)).setWidth 8 := by
  induction n generalizing val with
  | zero => rfl
  | succ n ih =>
    have hbyte : (val &&& 0xff#w).setWidth 8 = val.setWidth 8 := by
      have hlow := setWidth_and_ushiftRight hw val (c := 0xff) (by decide) 0
      rw [BitVec.ushiftRight_zero, BitVec.ushiftRight_zero] at hlow
      rw [hlow]
      exact BitVec.and_allOnes
    rw [putBytes, ih, hbyte, List.range_succ_eq_map, List.map_cons, List.map_map]
    refine congrArg₂ _ rfl (List.map_congr_left fun i _ => ?_)
    rw [Function.comp_apply, Nat.mul_succ, Nat.add_comm, BitVec.shiftRight_add]

theorem rtmpTkipPutUInt32_eq (hw : 32 ≤ w) (val : BitVec w) : rtmpTkipPutUInt32 val = leBytes (val.setWidth 32) := by
  unfold rtmpTkipPutUInt32 leBytes
  rw [putBytes_eq (by omega)]
  refine List.map_congr_left fun i hi => ?_
  have hi : i < 4 := List.mem_range.1 hi
  refine BitVec.eq_of_getLsbD_eq fun j hj => ?_
  have hin : 8 * i + j < 32 := by omega
  simp [hj, hin]

end Low

/-! ### The engine -/

section Engine

variable {w : ℕ} {pTkip : TkipKeyInfo w} {key message : List Byte}

open Standard

structure Appended (key message : List Byte) (pTkip : TkipKeyInfo w) : Prop where
  words : (pTkip.l.setWidth 32, pTkip.r.setWidth 32) = (absorb michaelWord 4 (leWord key 0, leWord key 1) message).1
  bytes : pTkip.nBytesInM = (absorb michaelWord 4 (leWord key 0, leWord key 1) message).2.length
  word : pTkip.m.setWidth 32 = leWord (absorb michaelWord 4 (leWord key 0, leWord key 1) message).2 0

theorem appended_setMICKey (hw : 32 ≤ w) (pTkip : TkipKeyInfo w) (key : List Byte) :
    Appended key [] (rtmpTkipSetMICKey pTkip key) := by
  have hsecond : leWord (key.drop 4) 0 = leWord key 1 := by
    simp [leWord, List.getD_eq_getElem?_getD, List.getElem?_drop]
  refine ⟨?_, rfl, ?_⟩
  · rw [absorb_of_lt (by decide), ← hsecond, ← rtmpTkipGetUInt32_low hw, ← rtmpTkipGetUInt32_low hw]
    rfl
  · rw [absorb_of_lt (by decide)]
    exact (BitVec.setWidth_zero 32 w).trans leWord_nil.symm

theorem michaelBlock_low (hw : 32 ≤ w) (l r : BitVec w) : let r1 := r ^^^ rol32 l 17
    let l1 := l + r1
    let r2 := r1 ^^^ ((l1 &&& 0xff00ff00#w) >>> 8 ||| (l1 &&& 0x00ff00ff#w) <<< 8)
    let l2 := l1 + r2
    let r3 := r2 ^^^ rol32 l2 3
    let l3 := l2 + r3
    let r4 := r3 ^^^ ror32 l3 2
    ((l3 + r4).setWidth 32, r4.setWidth 32) = michaelBlock (l.setWidth 32) (r.setWidth 32) := by
  intro r1 l1 r2 l2 r3 l3 r4
  have hr1 : r1.setWidth 32 = r.setWidth 32 ^^^ (l.setWidth 32).rotateLeft 17 := by
    rw [BitVec.setWidth_xor, rol32_low hw l (by decide) (by decide)]
  have hl1 : l1.setWidth 32 = l.setWidth 32 + r1.setWidth 32 := BitVec.setWidth_add _ _ hw
  have hswap : ((l1 &&& 0xff00ff00#w) >>> 8 ||| (l1 &&& 0x00ff00ff#w) <<< 8).setWidth 32 = xswap (l1.setWidth 32) := by
    have hmask := setWidth_and_ushiftRight hw l1 (c := 0x00ff00ff) (by decide) 0
    rw [BitVec.ushiftRight_zero, BitVec.ushiftRight_zero] at hmask
    rw [BitVec.setWidth_or, setWidth_and_ushiftRight hw l1 (by decide), setWidth_shiftLeft hw, hmask]
    rfl
  have hr2 : r2.setWidth 32 = r1.setWidth 32 ^^^ xswap (l1.setWidth 32) := by rw [BitVec.setWidth_xor, hswap]
  have hl2 : l2.setWidth 32 = l1.setWidth 32 + r2.setWidth 32 := BitVec.setWidth_add _ _ hw
  have hr3 : r3.setWidth 32 = r2.setWidth 32 ^^^ (l2.setWidth 32).rotateLeft 3 := by
    rw [BitVec.setWidth_xor, rol32_low hw l2 (by decide) (by decide)]
  have hl3 : l3.setWidth 32 = l2.setWidth 32 + r3.setWidth 32 := BitVec.setWidth_add _ _ hw
  have hr4 : r4.setWidth 32 = r3.setWidth 32 ^^^ (l3.setWidth 32).rotateRight 2 := by
    rw [BitVec.setWidth_xor, ror32_low hw l3]
  rw [BitVec.setWidth_add _ _ hw, hr4, hl3, hr3, hl2, hr2, hl1, hr1]
  rfl

theorem Appended.appendByte (hw : 32 ≤ w) (h : Appended key message pTkip) (uChar : Byte) :
    Appended key (message ++ [uChar]) (rtmpTkipAppendByte pTkip uChar) := by
  obtain ⟨hwords, hbytes, hword⟩ := h
  have hlen : (absorb michaelWord 4 (leWord key 0, leWord key 1) message).2.length = message.length % 4 :=
    BlockHash.length_absorb (by decide) _ message
  have happend : absorb michaelWord 4 (leWord key 0, leWord key 1) (message ++ [uChar]) =
      absorb michaelWord 4 (absorb michaelWord 4 (leWord key 0, leWord key 1) message).1
        ((absorb michaelWord 4 (leWord key 0, leWord key 1) message).2 ++ [uChar]) :=
    absorb_append (by decide) message [uChar]
  generalize absorb michaelWord 4 (leWord key 0, leWord key 1) message = s at *
  obtain ⟨state, rest⟩ := s
  simp only at hwords hbytes hword hlen happend
  have hrest : rest.length < 4 := by omega
  have hm : (pTkip.m ||| shiftedByte w uChar pTkip.nBytesInM).setWidth 32 = leWord (rest ++ [uChar]) 0 := by
    rw [BitVec.setWidth_or, hword, shiftedByte_low hw, hbytes, leWord_append]
  unfold rtmpTkipAppendByte
  simp only
  split_ifs with hfull
  · have hwhole : absorb michaelWord 4 state (rest ++ [uChar]) = (michaelWord state (rest ++ [uChar]), []) := by
      have hblock : absorb michaelWord 4 state (rest ++ [uChar] ++ []) =
          absorb michaelWord 4 (michaelWord state (rest ++ [uChar])) [] :=
        absorb_block (by decide) (by rw [List.length_append, List.length_singleton]; omega) []
      rw [List.append_nil] at hblock
      exact hblock.trans (absorb_of_lt (by decide))
    rw [hwhole] at happend
    refine ⟨?_, ?_, ?_⟩
    · have hlow := michaelBlock_low hw (pTkip.l ^^^ (pTkip.m ||| shiftedByte w uChar pTkip.nBytesInM)) pTkip.r
      rw [happend]
      refine hlow.trans ?_
      rw [BitVec.setWidth_xor, hm, michaelWord, ← hwords]
    · rw [happend]
      rfl
    · rw [happend]
      exact (BitVec.setWidth_zero 32 w).trans leWord_nil.symm
  · have hpart := happend.trans (absorb_of_lt (by rw [List.length_append, List.length_singleton]; omega))
    refine ⟨?_, ?_, ?_⟩
    · rw [hpart]
      exact hwords
    · rw [hpart]
      simp only
      rw [List.length_append, List.length_singleton, hbytes]
    · rw [hpart]
      exact hm

theorem Appended.append (hw : 32 ≤ w) (h : Appended key message pTkip) (pSrc : List Byte) :
    Appended key (message ++ pSrc) (rtmpTkipAppend pTkip pSrc) := by
  induction pSrc generalizing pTkip message with
  | nil =>
    rw [List.append_nil]
    exact h
  | cons uChar pSrc ih =>
    have hstep := ih (h.appendByte hw uChar)
    rw [List.append_assoc] at hstep
    exact hstep

theorem Appended.pieces (hw : 32 ≤ w) (h : Appended key message pTkip) (chunks : List (List Byte)) :
    Appended key (message ++ chunks.flatten) (chunks.foldl rtmpTkipAppend pTkip) := by
  induction chunks generalizing pTkip message with
  | nil =>
    rw [List.flatten_nil, List.append_nil]
    exact h
  | cons chunk chunks ih =>
    have hstep := ih (h.append hw chunk)
    rw [List.append_assoc] at hstep
    exact hstep

theorem Appended.nBytesInM_eq (h : Appended key message pTkip) : pTkip.nBytesInM = message.length % 4 := by
  rw [h.bytes]
  exact BlockHash.length_absorb (by decide) _ _

theorem Appended.fillWord (hw : 32 ≤ w) (n : ℕ) (h : Appended key message pTkip)
    (hn : (4 - message.length % 4) % 4 ≤ n) :
    Appended key (message ++ List.replicate ((4 - message.length % 4) % 4) 0) (fillWord n pTkip) := by
  have hbytes := h.nBytesInM_eq
  induction n generalizing pTkip message with
  | zero =>
    have hzero : (4 - message.length % 4) % 4 = 0 := by omega
    rw [hzero, List.replicate_zero, List.append_nil]
    exact h
  | succ n ih =>
    rw [Crypto.fillWord]
    split_ifs with hmore
    · have hnext := h.appendByte hw 0
      have hlen : (message ++ [(0 : Byte)]).length = message.length + 1 := by simp
      have hcount : (4 - message.length % 4) % 4 = (4 - (message ++ [(0 : Byte)]).length % 4) % 4 + 1 := by
        rw [hlen]
        omega
      have hstep := ih hnext (by omega) hnext.nBytesInM_eq
      rw [hcount, List.replicate_succ, ← List.singleton_append, ← List.append_assoc]
      exact hstep
    · have hzero : (4 - message.length % 4) % 4 = 0 := by omega
      rw [hzero, List.replicate_zero, List.append_nil]
      exact h

theorem rtmpTkipGetMIC_eq (hw : 32 ≤ w) (h : Appended key message pTkip) :
    (rtmpTkipGetMIC pTkip).mic = michael key message := by
  have hpad := ((((h.appendByte hw 0x5a).appendByte hw 0).appendByte hw 0).appendByte hw 0).appendByte hw 0
  have hfill := hpad.fillWord hw 4 (by omega)
  have hmessage (padded : List Byte)
      (hpadded : padded = message ++ [(0x5a : Byte)] ++ [(0 : Byte)] ++ [(0 : Byte)] ++ [(0 : Byte)] ++ [(0 : Byte)]) :
      padded ++ List.replicate ((4 - padded.length % 4) % 4) 0 = michaelPad message := by
    have hlen : padded.length = message.length + 5 := by simp [hpadded]
    have hcount : 7 - message.length % 4 = 4 + (4 - (message.length + 5) % 4) % 4 := by omega
    rw [hlen, michaelPad, hcount, List.replicate_add, hpadded]
    simp [List.replicate_succ]
  rw [hmessage _ rfl] at hfill
  have hl := congrArg Prod.fst hfill.words
  have hr := congrArg Prod.snd hfill.words
  simp only at hl hr
  unfold rtmpTkipGetMIC michael
  simp only
  rw [rtmpTkipPutUInt32_eq hw, rtmpTkipPutUInt32_eq hw, hl, hr]

theorem priorityBytes_eq (hw : 32 ≤ w) (userPriority : Byte) :
    priorityBytes w userPriority = [userPriority, 0, 0, 0] := by
  have hlow : (userPriority.setWidth w).setWidth 32 = userPriority.setWidth 32 :=
    BitVec.setWidth_setWidth (by omega)
  have hbytes : ∀ b : Byte, leBytes (b.setWidth 32) = [b, 0, 0, 0] := by decide
  refine (rtmpTkipPutUInt32_eq hw _).trans ?_
  rw [hlow, hbytes]

def micHeader (pDA pSA : List Byte) (userPriority : Byte) : List Byte := pDA ++ pSA ++ [userPriority, 0, 0, 0]

theorem appended_init (hw : 32 ≤ w) (tx : TkipKeyInfo w) (pDA pSA : List Byte) (userPriority : Byte)
    (pMICKey : List Byte) :
    Appended pMICKey (micHeader pDA pSA userPriority) (rtmpInitMICEngine tx pDA pSA userPriority pMICKey) := by
  have h := (((appended_setMICKey hw tx pMICKey).append hw pDA).append hw pSA).append hw (priorityBytes w userPriority)
  rw [List.nil_append, priorityBytes_eq hw] at h
  rw [rtmpInitMICEngine, priorityBytes_eq hw]
  exact h

end Engine

/-! ### Frames -/

section Frames

variable {w : ℕ}

open Standard

/-- What stands between the addresses and the data of an Ethernet frame: a tag or none, and the type. -/
def IsHeader (tag type : List Byte) : Prop :=
  type.length = 2 ∧ (tag = [] ∧ type ≠ [0x81, 0x00] ∨ ∃ x y, tag = [0x81, 0x00, x, y])

/-- The bytes of `pEncap` and the type, where there are any. -/
def encapsulation (pEncap : Option (List Byte)) (type : List Byte) : List Byte :=
  match pEncap with
  | some pEncap => pEncap.take 6 ++ type
  | none => []

theorem rtmpTkipCompareMICValue_iff (hw : 32 ≤ w) (rx : TkipKeyInfo w) (pSrc : ℕ → Byte) (pDA pSA pMICKey : List Byte)
    (userPriority : Byte) (len : ℕ) :
    rtmpTkipCompareMICValue rx pSrc pDA pSA pMICKey userPriority len = true ↔
      readAt pSrc len 8 = michael pMICKey (micHeader pDA pSA userPriority ++ readAt pSrc 0 len) := by
  have hmic := rtmpTkipGetMIC_eq hw ((appended_init hw rx pDA pSA userPriority pMICKey).append hw (readAt pSrc 0 len))
  have hcompare : rtmpTkipCompareMICValue rx pSrc pDA pSA pMICKey userPriority len =
      ((rtmpTkipGetMIC (rtmpTkipAppend (rtmpInitMICEngine rx pDA pSA userPriority pMICKey) (readAt pSrc 0 len))).mic ==
        readAt pSrc len 8) := rfl
  rw [hcompare, beq_iff_eq, hmic, eq_comm]

theorem vlanOffset_eq {pSrc : ℕ → Byte} {tag type data : List Byte} (hheader : IsHeader tag type)
    (h : HoldsAt pSrc 12 (tag ++ type ++ data)) :
    (if (pSrc 12).toNat * 256 + (pSrc 13).toNat = 0x8100 then 4 else 0) = tag.length := by
  obtain ⟨hlen, ⟨rfl, hne⟩ | ⟨x, y, rfl⟩⟩ := hheader
  · match type, hlen, hne with
    | [a, b], _, hne =>
      have h12 : pSrc 12 = a := (holdsAt_iff.1 h) 0 (by simp)
      have h13 : pSrc 13 = b := (holdsAt_iff.1 h) 1 (by simp)
      refine if_neg fun hval => hne ?_
      rw [h12, h13] at hval
      have hlt := b.isLt
      have ha : a.toNat = 0x81 := by omega
      have hb : b.toNat = 0x00 := by omega
      rw [BitVec.eq_of_toNat_eq (y := 0x81) ha, BitVec.eq_of_toNat_eq (y := 0x00) hb]
  · have h12 : pSrc 12 = 0x81 := (holdsAt_iff.1 h) 0 (by simp)
    have h13 : pSrc 13 = 0x00 := (holdsAt_iff.1 h) 1 (by simp)
    rw [h12, h13]
    exact if_pos (by decide)

/-- **`RTMPCalculateMICValue`** for a frame with addresses, a tag or none, a type and data. -/
theorem rtmpCalculateMICValue_eq (hw : 32 ≤ w) (tx : TkipKeyInfo w) {pSrc : ℕ → Byte}
    {pDA pSA tag type data : List Byte} (hDA : pDA.length = 6) (hSA : pSA.length = 6) (hheader : IsHeader tag type)
    (hframe : HoldsAt pSrc 0 (pDA ++ pSA ++ tag ++ type ++ data)) (hlen : 14 + tag.length + data.length < 2 ^ 32)
    (userPriority : Byte) (pEncap : Option (List Byte)) (txMic : List Byte) :
    (rtmpCalculateMICValue tx pSrc (14 + tag.length + data.length) userPriority pEncap txMic).mic =
      michael txMic (micHeader pDA pSA userPriority ++ (encapsulation pEncap type ++ data)) := by
  have hparts := hframe
  simp only [List.append_assoc, holdsAt_append, Nat.zero_add, hDA, hSA] at hparts
  obtain ⟨hda, hsa, htag, htype, hdata⟩ := hparts
  have hbehind : HoldsAt pSrc 12 (tag ++ type ++ data) := by
    rw [List.append_assoc, holdsAt_append, holdsAt_append]
    exact ⟨htag, htype, hdata⟩
  have hoffset := vlanOffset_eq hheader hbehind
  have htypeLen := hheader.1
  have hda : readAt pSrc 0 6 = pDA := hDA ▸ hda
  have hsa : readAt pSrc 6 6 = pSA := by
    have h : readAt pSrc 6 pSA.length = pSA := hsa
    rwa [hSA] at h
  have htype : readAt pSrc (12 + tag.length) 2 = type := by
    have h : readAt pSrc (12 + tag.length) type.length = type := htype
    rwa [htypeLen] at h
  have hdata : readAt pSrc (14 + tag.length) data.length = data := by
    have h : readAt pSrc (12 + tag.length + type.length) data.length = data := hdata
    rwa [htypeLen, Nat.add_right_comm] at h
  have hrest : (14 + tag.length + data.length + (2 ^ 32 - (14 + tag.length))) % 2 ^ 32 = data.length := by omega
  have hinit := appended_init hw tx pDA pSA userPriority txMic
  unfold rtmpCalculateMICValue
  rw [hoffset]
  simp only
  rw [hrest, hda, hsa, htype, hdata]
  have hencap : Appended txMic (micHeader pDA pSA userPriority ++ encapsulation pEncap type)
      (match pEncap with
        | some pEncap => rtmpTkipAppend (rtmpTkipAppend (rtmpInitMICEngine tx pDA pSA userPriority txMic)
            (pEncap.take 6)) type
        | none => rtmpInitMICEngine tx pDA pSA userPriority txMic) := by
    cases pEncap with
    | none =>
      rw [encapsulation, List.append_nil]
      exact hinit
    | some pEncap =>
      have happend := (hinit.append hw (pEncap.take 6)).append hw type
      rw [List.append_assoc] at happend
      exact happend
  rw [← List.append_assoc]
  refine rtmpTkipGetMIC_eq hw ?_
  split_ifs with hpos
  · exact hencap.append hw data
  · rw [List.eq_nil_of_length_eq_zero (Nat.eq_zero_of_not_pos hpos), List.append_nil]
    exact hencap

/-- **The integrity code in any pieces.** Also where `ULONG` is wider than 32 bits, the code of addresses, priority
and payload is that of Michael, however the payload is cut; so is the one of a frame, and a received one is accepted
exactly if it is this value. -/
theorem michael_pieces (hw : 32 ≤ w) (pMICKey pDA pSA : List Byte) (userPriority : Byte) :
    (∀ (tx : TkipKeyInfo w) (chunks : List (List Byte)),
      (rtmpTkipGetMIC (chunks.foldl rtmpTkipAppend (rtmpInitMICEngine tx pDA pSA userPriority pMICKey))).mic =
        michael pMICKey (micHeader pDA pSA userPriority ++ chunks.flatten)) ∧
    (∀ (tx : TkipKeyInfo w) (pSrc : ℕ → Byte) (tag type data : List Byte) (pEncap : Option (List Byte)),
      pDA.length = 6 → pSA.length = 6 → IsHeader tag type → HoldsAt pSrc 0 (pDA ++ pSA ++ tag ++ type ++ data) →
      14 + tag.length + data.length < 2 ^ 32 →
        (rtmpCalculateMICValue tx pSrc (14 + tag.length + data.length) userPriority pEncap pMICKey).mic =
          michael pMICKey (micHeader pDA pSA userPriority ++ (encapsulation pEncap type ++ data))) ∧
    ∀ (rx : TkipKeyInfo w) (pSrc : ℕ → Byte) (len : ℕ),
      rtmpTkipCompareMICValue rx pSrc pDA pSA pMICKey userPriority len = true ↔
        readAt pSrc len 8 = michael pMICKey (micHeader pDA pSA userPriority ++ readAt pSrc 0 len) :=
  ⟨fun tx chunks => rtmpTkipGetMIC_eq hw ((appended_init hw tx pDA pSA userPriority pMICKey).pieces hw chunks),
    fun tx _ _ _ _ pEncap hDA hSA hheader hframe hlen =>
      rtmpCalculateMICValue_eq hw tx hDA hSA hheader hframe hlen userPriority pEncap pMICKey,
    fun rx pSrc len => rtmpTkipCompareMICValue_iff hw rx pSrc pDA pSA pMICKey userPriority len⟩

theorem michael_pieces_sample : let tx : TkipKeyInfo 64 := ⟨0, 0, 0, 0, 0, 0, []⟩
    let address := List.replicate 6 0x80#8
    (rtmpTkipGetMIC ([[0x61#8], [], [0xff#8, 0x80#8]].foldl rtmpTkipAppend
      (rtmpInitMICEngine tx address address 5 (List.replicate 8 0x8f#8)))).mic =
        michael (List.replicate 8 0x8f#8) (micHeader address address 5 ++ [0x61#8, 0xff#8, 0x80#8]) ∧
    (rtmpCalculateMICValue tx (mem (address ++ address ++ [] ++ [0x08#8, 0x00#8] ++ [0x45#8])) 15 5 none
      (List.replicate 8 0x8f#8)).mic =
        michael (List.replicate 8 0x8f#8) (micHeader address address 5 ++ ([] ++ [0x45#8])) :=
  ⟨(michael_pieces (by decide) (List.replicate 8 0x8f#8) (List.replicate 6 0x80#8) (List.replicate 6 0x80#8) 5).1
      ⟨0, 0, 0, 0, 0, 0, []⟩ [[0x61#8], [], [0xff#8, 0x80#8]],
    (michael_pieces (by decide) (List.replicate 8 0x8f#8) (List.replicate 6 0x80#8) (List.replicate 6 0x80#8) 5).2.1
      ⟨0, 0, 0, 0, 0, 0, []⟩ _ [] [0x08#8, 0x00#8] [0x45#8] none rfl rfl ⟨rfl, Or.inl ⟨rfl, by decide⟩⟩
      (holdsAt_iff.2 fun i _ => by rw [Nat.zero_add]) (by decide)⟩

end Frames

end Mt7610u.Crypto
