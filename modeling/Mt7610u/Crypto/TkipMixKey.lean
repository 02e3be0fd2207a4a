import Mt7610u.Crypto.AesInverse
import Mt7610u.Crypto.HashStandards
import Mt7610u.Lib.LowBits
import Mathlib.Data.List.GetD

/-! # The key mixing of TKIP (`common/cmm_tkip.c`)

`RTMPTkipMixKey` makes the RC4 key of one packet from the temporal key, the address of the sender and the sequence
counter. Its words are of type `UINT`; those of the second phase are not reduced. -/

namespace Mt7610u.Crypto

open Lib

/-! ### The mixing -/

structure FiveWords (w : ℕ) where
  word0 : BitVec w
  word1 : BitVec w
  word2 : BitVec w
  word3 : BitVec w
  word4 : BitVec w

structure SixWords (w : ℕ) where
  ppk0 : BitVec w
  ppk1 : BitVec w
  ppk2 : BitVec w
  ppk3 : BitVec w
  ppk4 : BitVec w
  ppk5 : BitVec w

namespace Standard

def tkipBox (b : Byte) : BitVec 16 := xtime (lookup aesSboxEnc b) ++ (xtime (lookup aesSboxEnc b) ^^^ lookup aesSboxEnc b)

def swap (x : BitVec 16) : BitVec 16 := x.setWidth 8 ++ (x >>> 8).setWidth 8

def tkipS (x : BitVec 16) : BitVec 16 := tkipBox (x.setWidth 8) ^^^ swap (tkipBox ((x >>> 8).setWidth 8))

/-- The word of the key bytes at `i`. -/
def keyWord16 (key : List Byte) (i : ℕ) : BitVec 16 := key.getD (i + 1) 0 ++ key.getD i 0

/-- Round `i` of phase 1. -/
def phase1Round (tk : List Byte) (t : FiveWords 16) (i : ℕ) : FiveWords 16 :=
  let j := 2 * (i % 2)
  let word0 := t.word0 + tkipS (t.word4 ^^^ keyWord16 tk j)
  let word1 := t.word1 + tkipS (word0 ^^^ keyWord16 tk (4 + j))
  let word2 := t.word2 + tkipS (word1 ^^^ keyWord16 tk (8 + j))
  let word3 := t.word3 + tkipS (word2 ^^^ keyWord16 tk (12 + j))
  let word4 := t.word4 + tkipS (word3 ^^^ keyWord16 tk j) + BitVec.ofNat 16 i
  ⟨word0, word1, word2, word3, word4⟩

def phase1 (tk ta : List Byte) (iv32 : BitVec 32) : FiveWords 16 :=
  (List.range 8).foldl (phase1Round tk)
    ⟨iv32.setWidth 16, (iv32 >>> 16).setWidth 16, keyWord16 ta 0, keyWord16 ta 2, keyWord16 ta 4⟩

def phase2Words (tk : List Byte) (t : FiveWords 16) (iv16 : BitVec 16) : SixWords 16 :=
  let ppk5 := t.word4 + iv16
  let ppk0 := t.word0 + tkipS (ppk5 ^^^ keyWord16 tk 0)
  let ppk1 := t.word1 + tkipS (ppk0 ^^^ keyWord16 tk 2)
  let ppk2 := t.word2 + tkipS (ppk1 ^^^ keyWord16 tk 4)
  let ppk3 := t.word3 + tkipS (ppk2 ^^^ keyWord16 tk 6)
  let ppk4 := t.word4 + tkipS (ppk3 ^^^ keyWord16 tk 8)
  let ppk5 := ppk5 + tkipS (ppk4 ^^^ keyWord16 tk 10)
  let ppk0 := ppk0 + (ppk5 ^^^ keyWord16 tk 12).rotateRight 1
  let ppk1 := ppk1 + (ppk0 ^^^ keyWord16 tk 14).rotateRight 1
  let ppk2 := ppk2 + ppk1.rotateRight 1
  let ppk3 := ppk3 + ppk2.rotateRight 1
  let ppk4 := ppk4 + ppk3.rotateRight 1
  let ppk5 := ppk5 + ppk4.rotateRight 1
  ⟨ppk0, ppk1, ppk2, ppk3, ppk4, ppk5⟩

def phase2 (tk : List Byte) (t : FiveWords 16) (iv16 : BitVec 16) : List Byte :=
  let p := phase2Words tk t iv16
  let hi := (iv16 >>> 8).setWidth 8
  [hi, (hi ||| 0x20) &&& 0x7f, iv16.setWidth 8, ((p.ppk5 ^^^ keyWord16 tk 0) >>> 1).setWidth 8] ++
    [p.ppk0, p.ppk1, p.ppk2, p.ppk3, p.ppk4, p.ppk5].flatMap leBytes

end Standard

/-! ### The code -/

def tkipSboxLower : List (BitVec 32) := [
  0xa5, 0x84, 0x99, 0x8d, 0x0d, 0xbd, 0xb1, 0x54, 0x50, 0x03, 0xa9, 0x7d, 0x19, 0x62, 0xe6, 0x9a,
  0x45, 0x9d, 0x40, 0x87, 0x15, 0xeb, 0xc9, 0x0b, 0xec, 0x67, 0xfd, 0xea, 0xbf, 0xf7, 0x96, 0x5b,
  0xc2, 0x1c, 0xae, 0x6a, 0x5a, 0x41, 0x02, 0x4f, 0x5c, 0xf4, 0x34, 0x08, 0x93, 0x73, 0x53, 0x3f,
  0x0c, 0x52, 0x65, 0x5e, 0x28, 0xa1, 0x0f, 0xb5, 0x09, 0x36, 0x9b, 0x3d, 0x26, 0x69, 0xcd, 0x9f,
  0x1b, 0x9e, 0x74, 0x2e, 0x2d, 0xb2, 0xee, 0xfb, 0xf6, 0x4d, 0x61, 0xce, 0x7b, 0x3e, 0x71, 0x97,
  0xf5, 0x68, 0x00, 0x2c, 0x60, 0x1f, 0xc8, 0xed, 0xbe, 0x46, 0xd9, 0x4b, 0xde, 0xd4, 0xe8, 0x4a,
  0x6b, 0x2a, 0xe5, 0x16, 0xc5, 0xd7, 0x55, 0x94, 0xcf, 0x10, 0x06, 0x81, 0xf0, 0x44, 0xba, 0xe3,
  0xf3, 0xfe, 0xc0, 0x8a, 0xad, 0xbc, 0x48, 0x04, 0xdf, 0xc1, 0x75, 0x63, 0x30, 0x1a, 0x0e, 0x6d,
  0x4c, 0x14, 0x35, 0x2f, 0xe1, 0xa2, 0xcc, 0x39, 0x57, 0xf2, 0x82, 0x47, 0xac, 0xe7, 0x2b, 0x95,
  0xa0, 0x98, 0xd1, 0x7f, 0x66, 0x7e, 0xab, 0x83, 0xca, 0x29, 0xd3, 0x3c, 0x79, 0xe2, 0x1d, 0x76,
  0x3b, 0x56, 0x4e, 0x1e, 0xdb, 0x0a, 0x6c, 0xe4, 0x5d, 0x6e, 0xef, 0xa6, 0xa8, 0xa4, 0x37, 0x8b,
  0x32, 0x43, 0x59, 0xb7, 0x8c, 0x64, 0xd2, 0xe0, 0xb4, 0xfa, 0x07, 0x25, 0xaf, 0x8e, 0xe9, 0x18,
  0xd5, 0x88, 0x6f, 0x72, 0x24, 0xf1, 0xc7, 0x51, 0x23, 0x7c, 0x9c, 0x21, 0xdd, 0xdc, 0x86, 0x85,
  0x90, 0x42, 0xc4, 0xaa, 0xd8, 0x05, 0x01, 0x12, 0xa3, 0x5f, 0xf9, 0xd0, 0x91, 0x58, 0x27, 0xb9,
  0x38, 0x13, 0xb3, 0x33, 0xbb, 0x70, 0x89, 0xa7, 0xb6, 0x22, 0x92, 0x20, 0x49, 0xff, 0x78, 0x7a,
  0x8f, 0xf8, 0x80, 0x17, 0xda, 0x31, 0xc6, 0xb8, 0xc3, 0xb0, 0x77, 0x11, 0xcb, 0xfc, 0xd6, 0x3a]

def tkipSboxUpper : List (BitVec 32) := [
  0xc6, 0xf8, 0xee, 0xf6, 0xff, 0xd6, 0xde, 0x91, 0x60, 0x02, 0xce, 0x56, 0xe7, 0xb5, 0x4d, 0xec,
  0x8f, 0x1f, 0x89, 0xfa, 0xef, 0xb2, 0x8e, 0xfb, 0x41, 0xb3, 0x5f, 0x45, 0x23, 0x53, 0xe4, 0x9b,
  0x75, 0xe1, 0x3d, 0x4c, 0x6c, 0x7e, 0xf5, 0x83, 0x68, 0x51, 0xd1, 0xf9, 0xe2, 0xab, 0x62, 0x2a,
  0x08, 0x95, 0x46, 0x9d, 0x30, 0x37, 0x0a, 0x2f, 0x0e, 0x24, 0x1b, 0xdf, 0xcd, 0x4e, 0x7f, 0xea,
  0x12, 0x1d, 0x58, 0x34, 0x36, 0xdc, 0xb4, 0x5b, 0xa4, 0x76, 0xb7, 0x7d, 0x52, 0xdd, 0x5e, 0x13,
  0xa6, 0xb9, 0x00, 0xc1, 0x40, 0xe3, 0x79, 0xb6, 0xd4, 0x8d, 0x67, 0x72, 0x94, 0x98, 0xb0, 0x85,
  0xbb, 0xc5, 0x4f, 0xed, 0x86, 0x9a, 0x66, 0x11, 0x8a, 0xe9, 0x04, 0xfe, 0xa0, 0x78, 0x25, 0x4b,
  0xa2, 0x5d, 0x80, 0x05, 0x3f, 0x21, 0x70, 0xf1, 0x63, 0x77, 0xaf, 0x42, 0x20, 0xe5, 0xfd, 0xbf,
  0x81, 0x18, 0x26, 0xc3, 0xbe, 0x35, 0x88, 0x2e, 0x93, 0x55, 0xfc, 0x7a, 0xc8, 0xba, 0x32, 0xe6,
  0xc0, 0x19, 0x9e, 0xa3, 0x44, 0x54, 0x3b, 0x0b, 0x8c, 0xc7, 0x6b, 0x28, 0xa7, 0xbc, 0x16, 0xad,
  0xdb, 0x64, 0x74, 0x14, 0x92, 0x0c, 0x48, 0xb8, 0x9f, 0xbd, 0x43, 0xc4, 0x39, 0x31, 0xd3, 0xf2,
  0xd5, 0x8b, 0x6e, 0xda, 0x01, 0xb1, 0x9c, 0x49, 0xd8, 0xac, 0xf3, 0xcf, 0xca, 0xf4, 0x47, 0x10,
  0x6f, 0xf0, 0x4a, 0x5c, 0x38, 0x57, 0x73, 0x97, 0xcb, 0xa1, 0xe8, 0x3e, 0x96, 0x61, 0x0d, 0x0f,
  0xe0, 0x7c, 0x71, 0xcc, 0x90, 0x06, 0xf7, 0x1c, 0xc2, 0x6a, 0xae, 0x69, 0x17, 0x99, 0x3a, 0x27,
  0xd9, 0xeb, 0x2b, 0x22, 0xd2, 0xa9, 0x07, 0x33, 0x2d, 0x3c, 0x15, 0xc9, 0x87, 0xaa, 0x50, 0xa5,
  0x03, 0x59, 0x09, 0x1a, 0x65, 0xd7, 0x84, 0xd0, 0x82, 0x29, 0x5a, 0x1e, 0x7b, 0xa8, 0x6d, 0x2c]

def tkipSbox (index : BitVec 32) : BitVec 32 :=
  let indexLow := (index % 256#32).toNat
  let indexHigh := ((index >>> 8) % 256#32).toNat
  let left := tkipSboxLower.getD indexLow 0 + tkipSboxUpper.getD indexLow 0 * 256#32
  let right := tkipSboxUpper.getD indexHigh 0 + tkipSboxLower.getD indexHigh 0 * 256#32
  left ^^^ right

def rotr1 (a : BitVec 32) : BitVec 32 :=
  let b := if a &&& 0x01#32 = 0x01#32 then a >>> 1 ||| 0x8000#32 else a >>> 1 &&& 0x7fff#32
  b % 65536#32

/-- `(256 * key[i + 1]) + key[i]`. -/
def keyPair (key : List Byte) (i : ℕ) : BitVec 32 :=
  256#32 * (key.getD (i + 1) 0).setWidth 32 + (key.getD i 0).setWidth 32

/-- The loop of phase 1, for one `i`. -/
def mixRound (key : List Byte) (p1k : FiveWords 32) (i : ℕ) : FiveWords 32 :=
  let j := 2 * (i &&& 1)
  let word0 := (p1k.word0 + tkipSbox ((p1k.word4 ^^^ keyPair key j) % 65536#32)) % 65536#32
  let word1 := (p1k.word1 + tkipSbox ((word0 ^^^ keyPair key (4 + j)) % 65536#32)) % 65536#32
  let word2 := (p1k.word2 + tkipSbox ((word1 ^^^ keyPair key (8 + j)) % 65536#32)) % 65536#32
  let word3 := (p1k.word3 + tkipSbox ((word2 ^^^ keyPair key (12 + j)) % 65536#32)) % 65536#32
  let word4 := (p1k.word4 + tkipSbox ((word3 ^^^ keyPair key j) % 65536#32)) % 65536#32
  let word4 := (word4 + BitVec.ofNat 32 i) % 65536#32
  ⟨word0, word1, word2, word3, word4⟩

def mixWords (key : List Byte) (p1k : FiveWords 32) (tsc2 : BitVec 32) : SixWords 32 :=
  let ppk5 := (p1k.word4 + tsc2) % 65536#32
  let ppk0 := p1k.word0 + tkipSbox ((ppk5 ^^^ keyPair key 0) % 65536#32)
  let ppk1 := p1k.word1 + tkipSbox ((ppk0 ^^^ keyPair key 2) % 65536#32)
  let ppk2 := p1k.word2 + tkipSbox ((ppk1 ^^^ keyPair key 4) % 65536#32)
  let ppk3 := p1k.word3 + tkipSbox ((ppk2 ^^^ keyPair key 6) % 65536#32)
  let ppk4 := p1k.word4 + tkipSbox ((ppk3 ^^^ keyPair key 8) % 65536#32)
  let ppk5 := ppk5 + tkipSbox ((ppk4 ^^^ keyPair key 10) % 65536#32)
  let ppk0 := ppk0 + rotr1 (ppk5 ^^^ keyPair key 12)
  let ppk1 := ppk1 + rotr1 (ppk0 ^^^ keyPair key 14)
  let ppk2 := ppk2 + rotr1 ppk1
  let ppk3 := ppk3 + rotr1 ppk2
  let ppk4 := ppk4 + rotr1 ppk3
  let ppk5 := ppk5 + rotr1 ppk4
  ⟨ppk0, ppk1, ppk2, ppk3, ppk4, ppk5⟩

/-- `x % 256`, stored in a byte. -/
def byteOf (x : BitVec 32) : Byte := (x % 256#32).setWidth 8

/-- `RTMPTkipMixKey`: `rc4key` and `p1k` afterwards, for `pnl` and `pnh` of `w` bits. -/
def rtmpTkipMixKey {w : ℕ} (key ta : List Byte) (pnl pnh : BitVec w) : List Byte × FiveWords 32 :=
  let tsc0 : BitVec 32 := ((pnh >>> 16) % 65536#w).setWidth 32
  let tsc1 : BitVec 32 := (pnh % 65536#w).setWidth 32
  let tsc2 : BitVec 32 := (pnl % 65536#w).setWidth 32
  let p1k := (List.range 8).foldl (mixRound key) ⟨tsc1, tsc0, keyPair ta 0, keyPair ta 2, keyPair ta 4⟩
  let p := mixWords key p1k tsc2
  let rc4key := [
    byteOf (tsc2 >>> 8), (((tsc2 >>> 8) % 256#32 ||| 0x20#32) &&& 0x7f#32).setWidth 8, byteOf tsc2,
    byteOf ((p.ppk5 ^^^ keyPair key 0) >>> 1),
    byteOf p.ppk0, byteOf (p.ppk0 >>> 8), byteOf p.ppk1, byteOf (p.ppk1 >>> 8), byteOf p.ppk2, byteOf (p.ppk2 >>> 8),
    byteOf p.ppk3, byteOf (p.ppk3 >>> 8), byteOf p.ppk4, byteOf (p.ppk4 >>> 8), byteOf p.ppk5, byteOf (p.ppk5 >>> 8)]
  (rc4key, p1k)

/-! ### The low bits -/

section Low

theorem mod_low {w : ℕ} (hw : 16 < w) (x : BitVec w) : (x % 65536#w).setWidth 16 = x.setWidth 16 := by
  have hlt : 65536 < 2 ^ w := Nat.pow_lt_pow_right (a := 2) (m := 16) (by decide) hw
  refine BitVec.eq_of_toNat_eq ?_
  rw [BitVec.toNat_setWidth, BitVec.toNat_setWidth, BitVec.toNat_umod, BitVec.toNat_ofNat, Nat.mod_eq_of_lt hlt]
  omega

theorem append_eq (hi lo : Byte) : (256#32 * hi.setWidth 32 + lo.setWidth 32).setWidth 16 = hi ++ lo := by
  refine BitVec.eq_of_toNat_eq ?_
  have hhi := hi.isLt
  have hlo := lo.isLt
  rw [BitVec.toNat_append, ← Nat.shiftLeft_add_eq_or_of_lt hlo, Nat.shiftLeft_eq, BitVec.toNat_setWidth,
    BitVec.toNat_add, BitVec.toNat_mul, BitVec.toNat_setWidth, BitVec.toNat_setWidth, BitVec.toNat_ofNat]
  omega

theorem keyPair_low (key : List Byte) (i : ℕ) : (keyPair key i).setWidth 16 = Standard.keyWord16 key i := append_eq _ _

/-- **Rotation.** The bit above the word, which would come down to its top, is covered by the bit that goes round. -/
theorem rotr1_low (a : BitVec 32) : (rotr1 a).setWidth 16 = (a.setWidth 16).rotateRight 1 := by
  have hodd : a &&& 0x01#32 = 0x01#32 ↔ a.getLsbD 0 = true := by
    rw [BitVec.and_one_eq_setWidth_ofBool_getLsbD]
    cases a.getLsbD 0 <;> decide
  have htop : ∀ i < 16, (0x8000#32).getLsbD i = decide (i = 15) := by decide
  have hrest : ∀ i < 16, (0x7fff#32).getLsbD i = decide (i < 15) := by decide
  refine BitVec.eq_of_getLsbD_eq fun i hi => ?_
  have hbit : ((a.setWidth 16).rotateRight 1).getLsbD i = if i < 15 then a.getLsbD (1 + i) else a.getLsbD 0 := by
    rw [BitVec.getLsbD_rotateRight]
    by_cases hlt : i < 15
    · have hin : 1 + i < 16 := by omega
      simp [hlt, hin]
    · have hlast : i = 15 := by omega
      subst hlast
      simp
  unfold rotr1
  simp only
  rw [mod_low (by decide), hbit, BitVec.getLsbD_setWidth]
  by_cases hlow : a.getLsbD 0 = true
  · rw [if_pos (hodd.2 hlow), BitVec.getLsbD_or, BitVec.getLsbD_ushiftRight, htop i hi, hlow]
    by_cases hlt : i < 15
    · have hne : i ≠ 15 := by omega
      simp [hlt, hi, hne]
    · have hlast : i = 15 := by omega
      simp [hlast]
  · rw [if_neg (hlow ∘ hodd.1), BitVec.getLsbD_and, BitVec.getLsbD_ushiftRight, hrest i hi]
    by_cases hlt : i < 15
    · simp [hlt, hi]
    · rw [if_neg hlt, Bool.eq_false_of_not_eq_true hlow]
      simp [hlt]

set_option maxRecDepth 2000 in
theorem tkipBox_lower :
    List.zipWith (fun lower upper => (lower + upper * 256#32).setWidth 16) tkipSboxLower tkipSboxUpper =
      aesSboxEnc.map fun s => xtime s ++ (xtime s ^^^ s) := by decide

set_option maxRecDepth 2000 in
theorem tkipBox_upper :
    List.zipWith (fun lower upper => (upper + lower * 256#32).setWidth 16) tkipSboxLower tkipSboxUpper =
      aesSboxEnc.map fun s => (xtime s ^^^ s) ++ xtime s := by decide

set_option maxRecDepth 2000 in
theorem getD_of_zipWith {f : BitVec 32 → BitVec 32 → BitVec 16} {g : Byte → BitVec 16}
    (h : List.zipWith f tkipSboxLower tkipSboxUpper = aesSboxEnc.map g) (b : Byte) :
    f (tkipSboxLower.getD b.toNat 0) (tkipSboxUpper.getD b.toNat 0) = g (lookup aesSboxEnc b) := by
  have hlower : b.toNat < tkipSboxLower.length := Nat.lt_of_lt_of_eq b.isLt (by decide)
  have hupper : b.toNat < tkipSboxUpper.length := Nat.lt_of_lt_of_eq b.isLt (by decide)
  have hbox : b.toNat < aesSboxEnc.length := Nat.lt_of_lt_of_eq b.isLt (by decide)
  have hentry := congrArg (fun table => table.getD b.toNat 0) h
  simp only [List.getD_eq_getElem?_getD, List.getElem?_zipWith, List.getElem?_map] at hentry
  rw [List.getElem?_eq_getElem hlower, List.getElem?_eq_getElem hupper, List.getElem?_eq_getElem hbox] at hentry
  rw [lookup, List.getD_eq_getElem _ _ hlower, List.getD_eq_getElem _ _ hupper, List.getD_eq_getElem _ _ hbox]
  exact hentry

theorem swap_append (hi lo : Byte) : Standard.swap (hi ++ lo) = lo ++ hi := by
  have hlow : (hi ++ lo).setWidth 8 = lo := by
    refine BitVec.eq_of_getLsbD_eq fun i h => ?_
    simp only [BitVec.getLsbD_setWidth, BitVec.getLsbD_append, h, decide_true, Bool.true_and, if_true]
  have hhigh : ((hi ++ lo) >>> 8).setWidth 8 = hi := by
    refine BitVec.eq_of_getLsbD_eq fun i h => ?_
    have hnot : ¬8 + i < 8 := by omega
    simp only [BitVec.getLsbD_setWidth, BitVec.getLsbD_ushiftRight, BitVec.getLsbD_append, h, hnot, decide_true,
      Bool.true_and, if_false, Nat.add_sub_cancel_left]
  rw [Standard.swap, hlow, hhigh]

theorem tkipSbox_low (index : BitVec 32) : (tkipSbox index).setWidth 16 = Standard.tkipS (index.setWidth 16) := by
  have hdivisor : (256#32).toNat = 256 := rfl
  have hlow : (index % 256#32).toNat = ((index.setWidth 16).setWidth 8).toNat := by
    rw [BitVec.toNat_umod, BitVec.toNat_setWidth, BitVec.toNat_setWidth, hdivisor]
    omega
  have hhigh : ((index >>> 8) % 256#32).toNat = ((index.setWidth 16 >>> 8).setWidth 8).toNat := by
    rw [BitVec.toNat_umod, BitVec.toNat_setWidth, BitVec.toNat_ushiftRight, BitVec.toNat_ushiftRight,
      BitVec.toNat_setWidth, hdivisor, Nat.shiftRight_eq_div_pow, Nat.shiftRight_eq_div_pow]
    omega
  unfold tkipSbox Standard.tkipS
  simp only
  rw [hlow, hhigh, BitVec.setWidth_xor]
  generalize (index.setWidth 16).setWidth 8 = b
  generalize (index.setWidth 16 >>> 8).setWidth 8 = c
  rw [getD_of_zipWith tkipBox_lower b, getD_of_zipWith tkipBox_upper c, ← swap_append (xtime (lookup aesSboxEnc c))]
  rfl

end Low

/-! ### The phases -/

section Phases

def FiveWords.low (p : FiveWords 32) : FiveWords 16 :=
  ⟨p.word0.setWidth 16, p.word1.setWidth 16, p.word2.setWidth 16, p.word3.setWidth 16, p.word4.setWidth 16⟩

def SixWords.low (p : SixWords 32) : SixWords 16 :=
  ⟨p.ppk0.setWidth 16, p.ppk1.setWidth 16, p.ppk2.setWidth 16, p.ppk3.setWidth 16, p.ppk4.setWidth 16,
    p.ppk5.setWidth 16⟩

theorem sum_low (x y : BitVec 32) : (x + y).setWidth 16 = x.setWidth 16 + y.setWidth 16 :=
  BitVec.setWidth_add _ _ (by decide)

theorem reduced_low (x : BitVec 32) : (x % 65536#32).setWidth 16 = x.setWidth 16 := mod_low (by decide) x

theorem sboxKey_low (x : BitVec 32) (key : List Byte) (i : ℕ) :
    (tkipSbox ((x ^^^ keyPair key i) % 65536#32)).setWidth 16 =
      Standard.tkipS (x.setWidth 16 ^^^ Standard.keyWord16 key i) := by
  rw [tkipSbox_low, reduced_low, BitVec.setWidth_xor, keyPair_low]

section Steps

variable {x y : BitVec 32} {s t : BitVec 16} (key : List Byte) (i : ℕ)

theorem addSbox_low (hx : x.setWidth 16 = s) (hy : y.setWidth 16 = t) :
    (x + tkipSbox ((y ^^^ keyPair key i) % 65536#32)).setWidth 16 =
      s + Standard.tkipS (t ^^^ Standard.keyWord16 key i) := by
  rw [sum_low, sboxKey_low, hx, hy]

theorem addRotr1_low (hx : x.setWidth 16 = s) (hy : y.setWidth 16 = t) :
    (x + rotr1 y).setWidth 16 = s + t.rotateRight 1 := by
  rw [sum_low, rotr1_low, hx, hy]

theorem addKey_low (hy : y.setWidth 16 = t) :
    (y ^^^ keyPair key i).setWidth 16 = t ^^^ Standard.keyWord16 key i := by
  rw [BitVec.setWidth_xor, keyPair_low, hy]

end Steps

theorem SixWords.low_eq {p : SixWords 32} {q : SixWords 16} (h0 : p.ppk0.setWidth 16 = q.ppk0)
    (h1 : p.ppk1.setWidth 16 = q.ppk1) (h2 : p.ppk2.setWidth 16 = q.ppk2) (h3 : p.ppk3.setWidth 16 = q.ppk3)
    (h4 : p.ppk4.setWidth 16 = q.ppk4) (h5 : p.ppk5.setWidth 16 = q.ppk5) : p.low = q := by
  rw [SixWords.low, h0, h1, h2, h3, h4, h5]

theorem mixRound_low (key : List Byte) (p1k : FiveWords 32) (i : ℕ) :
    (mixRound key p1k i).low = Standard.phase1Round key p1k.low i := by
  have hcount : (BitVec.ofNat 32 i).setWidth 16 = BitVec.ofNat 16 i := by
    refine BitVec.eq_of_toNat_eq ?_
    rw [BitVec.toNat_setWidth, BitVec.toNat_ofNat, BitVec.toNat_ofNat]
    omega
  unfold mixRound Standard.phase1Round FiveWords.low
  simp only [Nat.and_one_is_mod, reduced_low, sum_low, sboxKey_low, hcount]

/-- **The words of phase 2.** The low bits of each sum depend on those of the words before it. -/
theorem mixWords_low (key : List Byte) (p1k : FiveWords 32) (tsc2 : BitVec 32) :
    (mixWords key p1k tsc2).low = Standard.phase2Words key p1k.low (tsc2.setWidth 16) := by
  have a5 : ((p1k.word4 + tsc2) % 65536#32).setWidth 16 = p1k.word4.setWidth 16 + tsc2.setWidth 16 := by
    rw [reduced_low, sum_low]
  have a0 := addSbox_low key 0 (x := p1k.word0) rfl a5
  have a1 := addSbox_low key 2 (x := p1k.word1) rfl a0
  have a2 := addSbox_low key 4 (x := p1k.word2) rfl a1
  have a3 := addSbox_low key 6 (x := p1k.word3) rfl a2
  have a4 := addSbox_low key 8 (x := p1k.word4) rfl a3
  have b5 := addSbox_low key 10 a5 a4
  have b0 := addRotr1_low a0 (addKey_low key 12 b5)
  have b1 := addRotr1_low a1 (addKey_low key 14 b0)
  have b2 := addRotr1_low a2 b1
  have b3 := addRotr1_low a3 b2
  have b4 := addRotr1_low a4 b3
  exact SixWords.low_eq b0 b1 b2 b3 b4 (addRotr1_low b5 b4)

theorem phase1_low {w : ℕ} (hw : 32 ≤ w) (key ta : List Byte) (pnh : BitVec w) :
    ((List.range 8).foldl (mixRound key) ⟨(pnh % 65536#w).setWidth 32, ((pnh >>> 16) % 65536#w).setWidth 32,
      keyPair ta 0, keyPair ta 2, keyPair ta 4⟩).low = Standard.phase1 key ta (pnh.setWidth 32) := by
  have hlow (x : BitVec w) : ((x % 65536#w).setWidth 32).setWidth 16 = x.setWidth 16 := by
    rw [BitVec.setWidth_setWidth_of_le _ (by decide), mod_low (by omega)]
  have hhigh : (pnh >>> 16).setWidth 16 = (pnh.setWidth 32 >>> 16).setWidth 16 := by
    refine BitVec.eq_of_getLsbD_eq fun i hi => ?_
    have hin : 16 + i < 32 := by omega
    simp only [BitVec.getLsbD_setWidth, BitVec.getLsbD_ushiftRight, hi, hin, decide_true, Bool.true_and]
  have hfold (p : FiveWords 32) : (List.range 8).foldl (Standard.phase1Round key) p.low =
      ((List.range 8).foldl (mixRound key) p).low :=
    List.foldl_hom FiveWords.low fun p i => (mixRound_low key p i).symm
  rw [← hfold, Standard.phase1, FiveWords.low]
  simp only [hlow, hhigh, keyPair_low]
  rw [BitVec.setWidth_setWidth_of_le pnh (by decide)]

theorem byteOf_eq (x : BitVec 32) : byteOf x = (x.setWidth 16).setWidth 8 := by
  refine BitVec.eq_of_toNat_eq ?_
  have hdivisor : (256#32).toNat = 256 := rfl
  rw [byteOf, BitVec.toNat_setWidth, BitVec.toNat_umod, hdivisor, BitVec.toNat_setWidth, BitVec.toNat_setWidth]
  omega

theorem byteOf_shift (x : BitVec 32) {n : ℕ} (hn : n ≤ 8) : byteOf (x >>> n) = (x.setWidth 16 >>> n).setWidth 8 := by
  refine BitVec.eq_of_getLsbD_eq fun i hi => ?_
  have hin : n + i < 16 := by omega
  have hin' : i < 16 := by omega
  rw [byteOf_eq]
  simp only [BitVec.getLsbD_setWidth, BitVec.getLsbD_ushiftRight, hi, hin, hin', decide_true, Bool.true_and]

theorem leBytes_word (x : BitVec 16) : leBytes x = [x.setWidth 8, (x >>> 8).setWidth 8] := by
  have hbyte (i : ℕ) : x.extractLsb' (8 * i) 8 = (x >>> (8 * i)).setWidth 8 := by
    refine BitVec.eq_of_getLsbD_eq fun j hj => ?_
    rw [BitVec.getLsbD_extractLsb', BitVec.getLsbD_setWidth, BitVec.getLsbD_ushiftRight]
  have hlist : leBytes x = [x.extractLsb' (8 * 0) 8, x.extractLsb' (8 * 1) 8] := rfl
  rw [hlist, hbyte, hbyte, BitVec.ushiftRight_zero]

/-- **The key of a packet** is that of the mixing, for every temporal key, address and counter, of which `pnl` has the
lower 16 bits and `pnh` the other 32. -/
theorem rtmpTkipMixKey_eq {w : ℕ} (hw : 32 ≤ w) (key ta : List Byte) (pnl pnh : BitVec w) :
    (rtmpTkipMixKey key ta pnl pnh).1 =
      Standard.phase2 key (Standard.phase1 key ta (pnh.setWidth 32)) (pnl.setWidth 16) := by
  have htsc : ((pnl % 65536#w).setWidth 32).setWidth 16 = pnl.setWidth 16 := by
    rw [BitVec.setWidth_setWidth_of_le _ (by decide), mod_low (by omega)]
  have hphase1 := phase1_low hw key ta pnh
  unfold rtmpTkipMixKey
  simp only
  generalize (List.range 8).foldl (mixRound key) _ = p1k at hphase1 ⊢
  generalize (pnl % 65536#w).setWidth 32 = tsc2 at htsc ⊢
  have hphase2 := mixWords_low key p1k tsc2
  rw [hphase1, htsc] at hphase2
  generalize mixWords key p1k tsc2 = p at hphase2 ⊢
  have hmarked : (((tsc2 >>> 8) % 256#32 ||| 0x20#32) &&& 0x7f#32).setWidth 8 =
      ((pnl.setWidth 16 >>> 8).setWidth 8 ||| 0x20) &&& 0x7f := by
    have hbyte := byteOf_shift tsc2 (n := 8) le_rfl
    rw [htsc] at hbyte
    rw [BitVec.setWidth_and, BitVec.setWidth_or, ← hbyte]
    rfl
  have hthird : byteOf ((p.ppk5 ^^^ keyPair key 0) >>> 1) =
      ((p.ppk5.setWidth 16 ^^^ Standard.keyWord16 key 0) >>> 1).setWidth 8 := by
    rw [byteOf_shift _ (by decide), BitVec.setWidth_xor, keyPair_low]
  unfold Standard.phase2
  rw [← hphase2, hmarked, hthird]
  simp only [byteOf_shift _ (le_refl 8)]
  simp only [byteOf_eq, htsc, SixWords.low, List.flatMap_cons, List.flatMap_nil, leBytes_word,
    List.cons_append, List.nil_append]

theorem rtmpTkipMixKey_sample :
    (rtmpTkipMixKey (List.replicate 16 0xff#8) [0x10, 0x22, 0x33, 0x44, 0x55, 0x66] 0xffff#64 0x20dcfd43#64).1 =
      Standard.phase2 (List.replicate 16 0xff#8) (Standard.phase1 (List.replicate 16 0xff#8)
        [0x10, 0x22, 0x33, 0x44, 0x55, 0x66] ((0x20dcfd43#64).setWidth 32)) ((0xffff#64).setWidth 16) :=
  rtmpTkipMixKey_eq (by decide) _ _ _ _

end Phases

end Mt7610u.Crypto
