import Mt7610u.Crypto.AesInverse
import Mathlib.Data.List.GetD

/-! # The second AES (`aes128k128d` of `common/cmm_aes.c`)

A cipher for keys of 16 bytes only, which computes its round keys while it goes and multiplies in
GF(2^8) by shifts. -/

namespace Mt7610u.Crypto

open Lib

/-! ### The code -/

def sboxTable : List Byte := [
  0x63, 0x7c, 0x77, 0x7b, 0xf2, 0x6b, 0x6f, 0xc5, 0x30, 0x01, 0x67, 0x2b, 0xfe, 0xd7, 0xab, 0x76,
  0xca, 0x82, 0xc9, 0x7d, 0xfa, 0x59, 0x47, 0xf0, 0xad, 0xd4, 0xa2, 0xaf, 0x9c, 0xa4, 0x72, 0xc0,
  0xb7, 0xfd, 0x93, 0x26, 0x36, 0x3f, 0xf7, 0xcc, 0x34, 0xa5, 0xe5, 0xf1, 0x71, 0xd8, 0x31, 0x15,
  0x04, 0xc7, 0x23, 0xc3, 0x18, 0x96, 0x05, 0x9a, 0x07, 0x12, 0x80, 0xe2, 0xeb, 0x27, 0xb2, 0x75,
  0x09, 0x83, 0x2c, 0x1a, 0x1b, 0x6e, 0x5a, 0xa0, 0x52, 0x3b, 0xd6, 0xb3, 0x29, 0xe3, 0x2f, 0x84,
  0x53, 0xd1, 0x00, 0xed, 0x20, 0xfc, 0xb1, 0x5b, 0x6a, 0xcb, 0xbe, 0x39, 0x4a, 0x4c, 0x58, 0xcf,
  0xd0, 0xef, 0xaa, 0xfb, 0x43, 0x4d, 0x33, 0x85, 0x45, 0xf9, 0x02, 0x7f, 0x50, 0x3c, 0x9f, 0xa8,
  0x51, 0xa3, 0x40, 0x8f, 0x92, 0x9d, 0x38, 0xf5, 0xbc, 0xb6, 0xda, 0x21, 0x10, 0xff, 0xf3, 0xd2,
  0xcd, 0x0c, 0x13, 0xec, 0x5f, 0x97, 0x44, 0x17, 0xc4, 0xa7, 0x7e, 0x3d, 0x64, 0x5d, 0x19, 0x73,
  0x60, 0x81, 0x4f, 0xdc, 0x22, 0x2a, 0x90, 0x88, 0x46, 0xee, 0xb8, 0x14, 0xde, 0x5e, 0x0b, 0xdb,
  0xe0, 0x32, 0x3a, 0x0a, 0x49, 0x06, 0x24, 0x5c, 0xc2, 0xd3, 0xac, 0x62, 0x91, 0x95, 0xe4, 0x79,
  0xe7, 0xc8, 0x37, 0x6d, 0x8d, 0xd5, 0x4e, 0xa9, 0x6c, 0x56, 0xf4, 0xea, 0x65, 0x7a, 0xae, 0x08,
  0xba, 0x78, 0x25, 0x2e, 0x1c, 0xa6, 0xb4, 0xc6, 0xe8, 0xdd, 0x74, 0x1f, 0x4b, 0xbd, 0x8b, 0x8a,
  0x70, 0x3e, 0xb5, 0x66, 0x48, 0x03, 0xf6, 0x0e, 0x61, 0x35, 0x57, 0xb9, 0x86, 0xc1, 0x1d, 0x9e,
  0xe1, 0xf8, 0x98, 0x11, 0x69, 0xd9, 0x8e, 0x94, 0x9b, 0x1e, 0x87, 0xe9, 0xce, 0x55, 0x28, 0xdf,
  0x8c, 0xa1, 0x89, 0x0d, 0xbf, 0xe6, 0x42, 0x68, 0x41, 0x99, 0x2d, 0x0f, 0xb0, 0x54, 0xbb, 0x16]

def rtmpCkipSbox (a : Byte) : Byte := lookup sboxTable a

/-- The four bytes of a block from `i` on, as `xor_32` and `mix_column` take them. -/
def wordAt (block : List Byte) (i : ℕ) : Word :=
  ⟨block.getD i 0, block.getD (i + 1) 0, block.getD (i + 2) 0, block.getD (i + 3) 0⟩

def Word.bytes (w : Word) : List Byte := [w.row0, w.row1, w.row2, w.row3]

def xor128 (a b : List Byte) : List Byte := (List.range 16).map fun i => a.getD i 0 ^^^ b.getD i 0

def rconTable : List Byte := [0x01, 0x02, 0x04, 0x08, 0x10, 0x20, 0x40, 0x80, 0x1b, 0x36, 0x36, 0x36]

def nextKey (key : List Byte) (round : ℕ) : List Byte :=
  let sboxKey : Word := ⟨rtmpCkipSbox (key.getD 13 0), rtmpCkipSbox (key.getD 14 0),
    rtmpCkipSbox (key.getD 15 0), rtmpCkipSbox (key.getD 12 0)⟩
  let key0 := (wordAt key 0).xor sboxKey
  let key0 := { key0 with row0 := key0.row0 ^^^ rconTable.getD round 0 }
  let key4 := (wordAt key 4).xor key0
  let key8 := (wordAt key 8).xor key4
  let key12 := (wordAt key 12).xor key8
  key0.bytes ++ key4.bytes ++ key8.bytes ++ key12.bytes

def byteSub (input : List Byte) : List Byte := (List.range 16).map fun i => rtmpCkipSbox (input.getD i 0)

def shiftRow (input : List Byte) : List Byte :=
  [0, 5, 10, 15, 4, 9, 14, 3, 8, 13, 2, 7, 12, 1, 6, 11].map fun i => input.getD i 0

/-- An entry of `add1b`. -/
def add1b (b : Byte) : Byte := if b &&& 0x80#8 = 0x80#8 then 0x1b#8 else 0x00#8

/-- `mix_column`: doubling by a shift to the left of the four bytes with their top bits muted. -/
def mixColumnShift (input : Word) : Word :=
  let swapHalfs : Word := ⟨input.row2, input.row3, input.row0, input.row1⟩
  let rotl : Word := ⟨input.row3, input.row0, input.row1, input.row2⟩
  let andf7 : Word := ⟨input.row0 &&& 0x7f#8, input.row1 &&& 0x7f#8, input.row2 &&& 0x7f#8, input.row3 &&& 0x7f#8⟩
  -- the bit shifted out of one byte goes into the next, from the last byte to the first
  let carry (below b : Byte) : Byte := if below &&& 0x80#8 = 0x80#8 then b <<< 1 ||| 0x01#8 else b <<< 1
  let andf7 : Word := ⟨andf7.row0 <<< 1 &&& 0xfe#8, carry andf7.row0 andf7.row1,
    carry andf7.row1 andf7.row2, carry andf7.row2 andf7.row3⟩
  let add1bf7 := Word.xor ⟨add1b input.row0, add1b input.row1, add1b input.row2, add1b input.row3⟩ andf7
  let rotr := input.xor add1bf7
  let rotr : Word := ⟨rotr.row1, rotr.row2, rotr.row3, rotr.row0⟩
  (add1bf7.xor rotr).xor (swapHalfs.xor rotl)

/-- `mix_column` on each word of a block. -/
def mixColumns (block : List Byte) : List Byte :=
  (mixColumnShift (wordAt block 0)).bytes ++ (mixColumnShift (wordAt block 4)).bytes ++
    (mixColumnShift (wordAt block 8)).bytes ++ (mixColumnShift (wordAt block 12)).bytes

/-- `ciphertext` and `round_key` of `aes128k128d` behind the turn for `round`. -/
def aes128Rounds (key data : List Byte) : ℕ → List Byte × List Byte
  | 0 => (xor128 key data, nextKey key 0)
  | round + 1 =>
    let (ciphertext, roundKey) := aes128Rounds key data round
    (xor128 (mixColumns (shiftRow (byteSub ciphertext))) roundKey, nextKey roundKey (round + 1))

def aes128k128d (key data : List Byte) : List Byte :=
  let (ciphertext, roundKey) := aes128Rounds key data 9
  xor128 (shiftRow (byteSub ciphertext)) roundKey

/-! ### Agreement with `RT_AES_Encrypt` -/

def AesState.xor (s t : AesState) : AesState :=
  ⟨s.column0.xor t.column0, s.column1.xor t.column1, s.column2.xor t.column2, s.column3.xor t.column3⟩

theorem toState_xor128 (a b : List Byte) : toState (xor128 a b) = (toState a).xor (toState b) := rfl

theorem toState_byteSub (block : List Byte) : toState (byteSub block) = subBytes aesSboxEnc (toState block) := rfl

theorem toState_shiftRow (block : List Byte) : toState (shiftRow block) = shiftRows (toState block) := rfl

theorem add1b_xor : ∀ b : Byte, add1b b ^^^ (b &&& 0x7f#8) <<< 1 = xtime b := by
  decide

theorem muted_top : ∀ b : Byte, ¬(b &&& 0x7f#8) &&& 0x80#8 = 0x80#8 := by
  decide

theorem muted_shift : ∀ b : Byte, (b &&& 0x7f#8) <<< 1 &&& 0xfe#8 = (b &&& 0x7f#8) <<< 1 := by
  decide

theorem mixColumnShift_eq (w : Word) : mixColumnShift w = mixColumn w := by
  obtain ⟨a, b, c, d⟩ := w
  simp only [mixColumnShift, mixColumn, Word.xor, if_neg (muted_top _), muted_shift, add1b_xor,
    lookup_mul2, lookup_mul3, Word.mk.injEq]
  refine ⟨?_, ?_, ?_, ?_⟩
  · ac_rfl
  · ac_rfl
  · ac_rfl
  · ac_rfl

theorem toState_mixColumns (block : List Byte) : toState (mixColumns block) = (toState block).map mixColumn := by
  have h : toState (mixColumns block) = (toState block).map mixColumnShift := rfl
  rw [h, funext mixColumnShift_eq]

/-! ### The key schedule -/

/-- The round key for `round`, as `next_key` gets to it. -/
def roundKey (key : List Byte) : ℕ → List Byte
  | 0 => key
  | round + 1 => nextKey (roundKey key round) round

def AesState.words (s : AesState) : List Word := [s.column0, s.column1, s.column2, s.column3]

/-- The words of the round keys up to `n`. -/
def scheduleWords (key : List Byte) : ℕ → List Word
  | 0 => (toState key).words
  | n + 1 => scheduleWords key n ++ (toState (roundKey key (n + 1))).words

theorem length_scheduleWords (key : List Byte) (n : ℕ) : (scheduleWords key n).length = 4 * (n + 1) := by
  induction n with
  | zero => rfl
  | succ n ih =>
    rw [scheduleWords, List.length_append, ih]
    show 4 * (n + 1) + 4 = _
    omega

theorem getD_scheduleWords (key : List Byte) {n r : ℕ} (hr : r ≤ n) {i : ℕ} (hi : i < 4) :
    (scheduleWords key n).getD (r * 4 + i) default = (toState (roundKey key r)).words.getD i default := by
  induction n with
  | zero =>
    have hr : r = 0 := by omega
    subst hr
    rw [Nat.zero_mul, Nat.zero_add]
    rfl
  | succ n ih =>
    have hlen := length_scheduleWords key n
    rw [scheduleWords]
    by_cases h : r ≤ n
    · rw [List.getD_append _ _ _ _ (by omega)]
      exact ih h
    · have hr : r = n + 1 := by omega
      subst hr
      rw [List.getD_append_right _ _ _ _ (by omega)]
      congr 1
      omega

theorem keyWordLoop_add (k m n : ℕ) (words : List Word) :
    keyWordLoop k (m + n) words = keyWordLoop k n (keyWordLoop k m words) := by
  induction m generalizing words with
  | zero => rw [Nat.zero_add, keyWordLoop]
  | succ m ih => rw [Nat.succ_add, keyWordLoop, keyWordLoop, ih]

theorem rcon_eq : ∀ r < 10, (aesRcon.getD (r + 1) 0 >>> 24).setWidth 8 = rconTable.getD r 0 ∧
    (aesRcon.getD (r + 1) 0 >>> 16).setWidth 8 = 0x00#8 ∧ (aesRcon.getD (r + 1) 0 >>> 8).setWidth 8 = 0x00#8 ∧
    (aesRcon.getD (r + 1) 0).setWidth 8 = 0x00#8 := by
  decide

theorem keyWordLoop_succ {pre tl : List Word} {i L : ℕ} {w : Word} (n : ℕ) (hL : pre.length + tl.length = L)
    (h1 : tl.length = i + 4) (hw : w = (tl.getD i default).xor (keyWord 4 L (tl.getD (i + 3) default))) :
    keyWordLoop 4 (n + 1) (pre ++ tl) = keyWordLoop 4 n (pre ++ (tl ++ [w])) := by
  have hlen : (pre ++ tl).length = L := by rw [List.length_append, hL]
  have hx : (pre ++ tl).getD (L - 4) default = tl.getD i default := by
    rw [List.getD_append_right _ _ _ _ (by omega)]
    congr 1
    omega
  have hy : (pre ++ tl).getD (L - 1) default = tl.getD (i + 3) default := by
    rw [List.getD_append_right _ _ _ _ (by omega)]
    congr 1
    omega
  rw [keyWordLoop]
  simp only [hlen, hx, hy, List.append_assoc, hw]

theorem keyWord_of_ne {keyIndex : ℕ} (h : keyIndex % 4 ≠ 0) (w : Word) : keyWord 4 keyIndex w = w := by
  unfold keyWord
  rw [if_neg h, if_neg (by omega)]

theorem keyWordLoop_four {pre : List Word} {r : ℕ} (hpre : pre.length = 4 * r) {a b c d a' b' c' : Word}
    (ha : a' = a.xor (keyWord 4 (4 * (r + 1)) d)) (hb : b' = b.xor a') (hc : c' = c.xor b') :
    keyWordLoop 4 4 (pre ++ [a, b, c, d]) = pre ++ [a, b, c, d] ++ [a', b', c', d.xor c'] := by
  have hlen : ∀ tl : List Word, pre.length + tl.length = 4 * r + tl.length := fun tl => by rw [hpre]
  have hb' : b' = b.xor (keyWord 4 (4 * r + 5) a') := by rw [keyWord_of_ne (by omega), hb]
  have hc' : c' = c.xor (keyWord 4 (4 * r + 6) b') := by rw [keyWord_of_ne (by omega), hc]
  have hd' : d.xor c' = d.xor (keyWord 4 (4 * r + 7) c') := by rw [keyWord_of_ne (by omega)]
  calc keyWordLoop 4 4 (pre ++ [a, b, c, d])
      = keyWordLoop 4 3 (pre ++ [a, b, c, d, a']) := keyWordLoop_succ (i := 0) 3 (hlen _) rfl ha
    _ = keyWordLoop 4 2 (pre ++ [a, b, c, d, a', b']) := keyWordLoop_succ (i := 1) 2 (hlen _) rfl hb'
    _ = keyWordLoop 4 1 (pre ++ [a, b, c, d, a', b', c']) := keyWordLoop_succ (i := 2) 1 (hlen _) rfl hc'
    _ = keyWordLoop 4 0 (pre ++ [a, b, c, d, a', b', c', d.xor c']) :=
      keyWordLoop_succ (i := 3) 0 (hlen _) rfl hd'
    _ = pre ++ [a, b, c, d] ++ [a', b', c', d.xor c'] :=
      (List.append_assoc pre [a, b, c, d] [a', b', c', d.xor c']).symm

theorem nextKey_first (key : List Byte) {r : ℕ} (hr : r < 10) :
    (toState (nextKey key r)).column0 =
      (toState key).column0.xor (keyWord 4 (4 * (r + 1)) (toState key).column3) := by
  obtain ⟨h1, h2, h3, h4⟩ := rcon_eq r hr
  have hword : keyWord 4 (4 * (r + 1)) (toState key).column3 =
      ⟨rtmpCkipSbox (key.getD 13 0) ^^^ rconTable.getD r 0, rtmpCkipSbox (key.getD 14 0),
        rtmpCkipSbox (key.getD 15 0), rtmpCkipSbox (key.getD 12 0)⟩ := by
    unfold keyWord
    rw [if_pos (by omega), Nat.mul_div_cancel_left _ (by decide)]
    simp only [h1, h2, h3, h4, BitVec.xor_zero]
    rfl
  rw [hword]
  simp only [Word.xor, ← BitVec.xor_assoc]
  rfl

/-- **The key schedule.** `RT_AES_KeyExpansion` lists the keys that `next_key` steps through. -/
theorem keyWordLoop_eq (key : List Byte) {r : ℕ} (hr : r ≤ 10) :
    keyWordLoop 4 (4 * r) (toState key).words = scheduleWords key r := by
  induction r with
  | zero => rfl
  | succ r ih =>
    -- the words of the last round key are the last four of the schedule
    have hsplit : ∃ pre, pre.length = 4 * r ∧
        scheduleWords key r = pre ++ (toState (roundKey key r)).words := by
      cases r with
      | zero => exact ⟨[], rfl, rfl⟩
      | succ n => exact ⟨scheduleWords key n, length_scheduleWords key n, rfl⟩
    obtain ⟨pre, hpre, heq⟩ := hsplit
    have hfirst := nextKey_first (roundKey key r) (r := r) (by omega)
    rw [Nat.mul_succ, keyWordLoop_add, ih (by omega), scheduleWords, heq, AesState.words,
      keyWordLoop_four hpre hfirst rfl rfl]
    rfl

theorem rtAesKeyExpansion_eq {key : List Byte} (hkey : key.length = 16) :
    rtAesKeyExpansion key = scheduleWords key 10 := by
  rw [← keyWordLoop_eq key le_rfl]
  unfold rtAesKeyExpansion
  rw [hkey]
  rfl

theorem addRoundKey_eq (key : List Byte) {r : ℕ} (hr : r ≤ 10) (s : AesState) :
    addRoundKey (scheduleWords key 10) r s = s.xor (toState (roundKey key r)) := by
  simp only [addRoundKey, getD_scheduleWords key hr (show 0 < 4 by decide),
    getD_scheduleWords key hr (show 1 < 4 by decide), getD_scheduleWords key hr (show 2 < 4 by decide),
    getD_scheduleWords key hr (show 3 < 4 by decide)]
  rfl

/-! ### The rounds -/

theorem aes128Rounds_eq (key data : List Byte) {n : ℕ} (hn : n < 10) :
    (aes128Rounds key data n).2 = roundKey key (n + 1) ∧
      toState (aes128Rounds key data n).1 = encryptRounds (scheduleWords key 10) n
        (addRoundKey (scheduleWords key 10) 0 (toState data)) := by
  induction n with
  | zero =>
    refine ⟨rfl, ?_⟩
    rw [addRoundKey_eq key (Nat.zero_le _)]
    show (toState key).xor (toState data) = (toState data).xor (toState key)
    simp only [AesState.xor, Word.xor, BitVec.xor_comm]
  | succ n ih =>
    obtain ⟨h1, h2⟩ := ih (by omega)
    constructor
    · show nextKey (aes128Rounds key data n).2 (n + 1) = _
      rw [h1]
      rfl
    · rw [encryptRounds, addRoundKey_eq key (by omega), ← h2, ← toState_byteSub, ← toState_shiftRow,
        ← toState_mixColumns, ← h1, ← toState_xor128]
      rfl

theorem toBlock_toState_xor128 (a b : List Byte) : toBlock (toState (xor128 a b)) = xor128 a b := rfl

theorem aes128k128d_eq {key : List Byte} (hkey : key.length = 16) (data : List Byte) :
    aes128k128d key data = rtAesEncrypt key data := by
  obtain ⟨h1, h2⟩ := aes128Rounds_eq key data (show 9 < 10 by decide)
  unfold rtAesEncrypt
  rw [hkey, rtAesKeyExpansion_eq hkey]
  show _ = toBlock (addRoundKey _ 10 (shiftRows (subBytes aesSboxEnc (encryptRounds _ 9 _))))
  rw [addRoundKey_eq key le_rfl, ← h2, ← toState_byteSub, ← toState_shiftRow, ← h1, ← toState_xor128,
    toBlock_toState_xor128]
  rfl

/-- **The two ciphers agree**: a call of `RT_AES_Encrypt` leaves the sixteen bytes of `aes128k128d`. -/
theorem rtAesEncryptCall_eq_aes128k128d {key data : List Byte} (hkey : key.length = 16)
    (hdata : data.length = 16) (cipherBlock : List Byte) {n : ℕ} (hn : 16 ≤ n) :
    (aes128k128d key data).length = 16 ∧
      rtAesEncryptCall true data key cipherBlock n = (aes128k128d key data ++ cipherBlock.drop 16, 16) := by
  rw [aes128k128d_eq hkey]
  exact ⟨length_rtAesEncrypt key data, rtAesEncryptCall_eq (Or.inl hkey) hdata cipherBlock hn⟩

theorem rtAesEncryptCall_eq_aes128k128d_zeros : let key := List.replicate 16 0x2b#8
    let data := List.replicate 16 0x00#8
    key.length = 16 ∧ data.length = 16 ∧ (aes128k128d key data).length = 16 ∧
      rtAesEncryptCall true data key [] 16 = (aes128k128d key data ++ [], 16) :=
  ⟨rfl, rfl, rtAesEncryptCall_eq_aes128k128d rfl rfl [] le_rfl⟩

end Mt7610u.Crypto
