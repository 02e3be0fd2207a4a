import Mt7610u.Crypto.AesInverse
import Mt7610u.Lib.Cmac

/-! # AES-CMAC (`common/crypt_aes.c`)

`AES_CMAC_GenerateSubKey` doubles a block byte by byte, the first time in place, and `AES_CMAC` chains the blocks of
the message in front of the last one. There is memory for the context of the block cipher. -/

namespace Mt7610u.Crypto

open Lib

/-! ### The functions -/

def constZero : List Byte := List.replicate 16 0x00

def constRb : List Byte :=
  [0x00, 0x00, 0x00, 0x00, 0x00, 0x00, 0x00, 0x00, 0x00, 0x00, 0x00, 0x00, 0x00, 0x00, 0x00, 0x87]

def topBit (b : Byte) : Byte := if b &&& 0x80 ≠ 0 then 1 else 0

/-- Shifting `SubKey1` in place, from its first byte to its last. -/
def shiftInPlace (subKey1 : List Byte) : List Byte :=
  let shifted := (List.range 15).foldl
    (fun key index => key.set index (key.getD index 0 <<< 1 ||| topBit (key.getD (index + 1) 0))) subKey1
  shifted.set 15 (shifted.getD 15 0 <<< 1)

/-- Shifting `SubKey1` into `SubKey2`. -/
def shiftTo (subKey1 : List Byte) : List Byte :=
  ((List.range 15).map fun index => subKey1.getD index 0 <<< 1 ||| topBit (subKey1.getD (index + 1) 0)) ++
    [subKey1.getD 15 0 <<< 1]

/-- `AES_CMAC_GenerateSubKey`: `SubKey1` and `SubKey2` afterwards. -/
def aesCmacGenerateSubKey (key subKey1 subKey2 : List Byte) : List Byte × List Byte :=
  if key.length ≠ 16 then (subKey1, subKey2)
  else
    let subKey1 := (rtAesEncryptCall true constZero key subKey1 16).1
    let msbL := subKey1.getD 0 0 &&& 0x80
    let subKey1 := shiftInPlace subKey1
    let subKey1 := if 0 < msbL then xorBlock subKey1 constRb else subKey1
    let msbK1 := subKey1.getD 0 0 &&& 0x80
    let subKey2 := shiftTo subKey1
    let subKey2 := if 0 < msbK1 then xorBlock subKey2 constRb else subKey2
    (subKey1, subKey2)

/-- The loop of `AES_CMAC`: `PlainBlockStart` and `X` behind it, after as many turns at most as there are bytes. -/
def cmacLoop (plainText key : List Byte) : ℕ → ℕ → List Byte → ℕ × List Byte
  | 0, plainBlockStart, x => (plainBlockStart, x)
  | n + 1, plainBlockStart, x =>
    if 16 < plainText.length - plainBlockStart then
      let y := xorBlock ((plainText.drop plainBlockStart).take 16) x
      cmacLoop plainText key n (plainBlockStart + 16) (rtAesEncryptCall true y key x 16).1
    else (plainBlockStart, x)

/-- `AES_CMAC`: `MACText` and `*MACTextLength` afterwards. -/
def aesCmac (plainText key macText : List Byte) (macTextLength : ℕ) : List Byte × ℕ :=
  if macTextLength < 16 then (macText, macTextLength)
  else if key.length ≠ 16 then (macText, macTextLength)
  else
    let (subKey1, subKey2) := aesCmacGenerateSubKey key (List.replicate 16 0) (List.replicate 16 0)
    let (plainBlockStart, x) := cmacLoop plainText key plainText.length 0 constZero
    let rest := plainText.drop plainBlockStart
    let y :=
      if plainText.length - plainBlockStart = 16 then xorBlock (xorBlock rest x) subKey1
      else
        let y := (rest ++ List.replicate (16 - rest.length) 0).set rest.length 0x80
        xorBlock (xorBlock y x) subKey2
    rtAesEncryptCall true y key macText macTextLength

/-! ### The sub keys -/

theorem foldl_set_eq (f : Byte → Byte → Byte) (bs : List Byte) {n : ℕ} (h : n < bs.length) :
    (List.range n).foldl (fun k i => k.set i (f (k.getD i 0) (k.getD (i + 1) 0))) bs =
      ((List.range n).map fun i => f (bs.getD i 0) (bs.getD (i + 1) 0)) ++ bs.drop n := by
  induction n with
  | zero => rfl
  | succ n ih =>
    have hlen : ((List.range n).map fun i => f (bs.getD i 0) (bs.getD (i + 1) 0)).length = n := by simp
    have hdrop : bs.drop n = bs.getD n 0 :: bs.drop (n + 1) := by
      rw [List.getD_eq_getElem _ _ (by omega)]
      exact List.drop_eq_getElem_cons (by omega)
    have hread (i : ℕ) (hi : n ≤ i) :
        (((List.range n).map fun i => f (bs.getD i 0) (bs.getD (i + 1) 0)) ++ bs.drop n).getD i 0 = bs.getD i 0 := by
      rw [List.getD_append_right _ _ _ _ (by omega), hlen, List.getD_eq_getElem?_getD, List.getElem?_drop,
        Nat.add_sub_cancel' hi, List.getD_eq_getElem?_getD]
    rw [List.range_succ, List.foldl_append, ih (by omega), List.foldl_cons, List.foldl_nil, hread n le_rfl,
      hread (n + 1) (Nat.le_succ n), List.set_append_right _ _ (by omega), hlen, Nat.sub_self, hdrop,
      List.set_cons_zero, List.map_append, List.map_cons, List.map_nil, List.append_assoc, List.singleton_append]

theorem topBit_getD (bs : List Byte) (i : ℕ) : topBit (bs.getD i 0) = carryBit (bs.drop i) := by
  unfold topBit carryBit
  rw [List.headD_eq_head?_getD, List.head?_drop, List.getD_eq_getElem?_getD]

theorem shiftTo_eq {bs : List Byte} (h : bs.length = 16) : shiftTo bs = shiftBytes bs := by
  refine block_ext (by simp [shiftTo]) (by rw [length_shiftBytes, h]) fun i hi => ?_
  rw [getD_shiftBytes bs (by omega), ← topBit_getD]
  unfold shiftTo
  rcases Nat.lt_or_ge i 15 with hlt | hge
  · rw [List.getD_append _ _ _ _ (by simpa using hlt)]
    simp [hlt]
  · have hlast : i = 15 := by omega
    subst hlast
    rw [List.getD_append_right _ _ _ _ (by simp), List.getD_eq_default bs (n := 16) 0 (by omega)]
    simp [topBit]

theorem shiftInPlace_eq {bs : List Byte} (h : bs.length = 16) : shiftInPlace bs = shiftTo bs := by
  unfold shiftInPlace shiftTo
  simp only
  rw [foldl_set_eq (fun b c => b <<< 1 ||| topBit c) bs (by omega)]
  have hlen : ((List.range 15).map fun i => bs.getD i 0 <<< 1 ||| topBit (bs.getD (i + 1) 0)).length = 15 := by simp
  have hdrop : bs.drop 15 = [bs.getD 15 0] := by
    rw [List.getD_eq_getElem _ _ (by omega), List.drop_eq_getElem_cons (by omega), List.drop_of_length_le (by omega)]
  rw [hdrop, List.set_append_right _ _ (by omega), List.getD_append_right _ _ _ _ (by omega), hlen]
  rfl

theorem double_eq {bs : List Byte} (h : bs.length = 16) :
    (if 0 < bs.getD 0 0 &&& 0x80 then xorBlock (shiftTo bs) constRb else shiftTo bs) = doubleBytes bs := by
  have hbit : 0 < bs.getD 0 0 &&& 0x80 ↔ bs.headD 0 &&& 0x80 ≠ 0 := by
    rw [List.headD_eq_head?_getD, List.getD_eq_getElem?_getD, List.head?_eq_getElem?]
    exact BitVec.pos_iff_ne_zero _
  unfold doubleBytes
  simp only [hbit]
  rw [shiftTo_eq h]
  rfl

theorem aesCmacGenerateSubKey_eq {key : List Byte} (hkey : key.length = 16) {buffer : List Byte}
    (hbuffer : buffer.length = 16) (buffer' : List Byte) :
    aesCmacGenerateSubKey key buffer buffer' = (subKey1 (rtAesEncrypt key), subKey2 (rtAesEncrypt key)) := by
  have hcall : (rtAesEncryptCall true constZero key buffer 16).1 = rtAesEncrypt key constZero := by
    rw [rtAesEncryptCall_eq (Or.inl hkey) rfl buffer le_rfl, List.drop_of_length_le (by rw [hbuffer]), List.append_nil]
  have hfirst : subKey1 (rtAesEncrypt key) = doubleBytes (rtAesEncrypt key constZero) :=
    blockOf_double (length_rtAesEncrypt key constZero)
  have hlen : (subKey1 (rtAesEncrypt key)).length = 16 := by
    unfold subKey1 blockOf
    simp
  have hsecond : subKey2 (rtAesEncrypt key) = doubleBytes (subKey1 (rtAesEncrypt key)) := blockOf_double hlen
  unfold aesCmacGenerateSubKey
  rw [if_neg (not_not.2 hkey), hcall]
  simp only
  rw [shiftInPlace_eq (length_rtAesEncrypt key constZero), double_eq (length_rtAesEncrypt key constZero), ← hfirst,
    double_eq hlen, ← hsecond]

/-! ### The code of a message -/

section Message

variable {key : List Byte}

theorem cmacLoop_eq (hkey : key.length = 16) (plainText : List Byte) (n : ℕ) {i : ℕ}
    (hi : i ≤ (plainText.length - 1) / 16) (hn : (plainText.length - 1) / 16 ≤ i + n) :
    cmacLoop plainText key n (16 * i) (chain (rtAesEncrypt key) plainText i) =
      (16 * ((plainText.length - 1) / 16), chain (rtAesEncrypt key) plainText ((plainText.length - 1) / 16)) := by
  induction n generalizing i with
  | zero =>
    have hend : i = (plainText.length - 1) / 16 := by omega
    rw [← hend]
    rfl
  | succ n ih =>
    rw [cmacLoop]
    split_ifs with hmore
    · have hcall (y : List Byte) (hy : y.length = 16) :
          (rtAesEncryptCall true y key (chain (rtAesEncrypt key) plainText i) 16).1 = rtAesEncrypt key y := by
        rw [rtAesEncryptCall_eq (Or.inl hkey) hy _ le_rfl,
          List.drop_of_length_le (by rw [length_chain (length_rtAesEncrypt key)]), List.append_nil]
      have hchain : rtAesEncrypt key (xorBlock ((plainText.drop (16 * i)).take 16)
          (chain (rtAesEncrypt key) plainText i)) = chain (rtAesEncrypt key) plainText (i + 1) := by
        rw [chain_succ, xorBlock_comm]
        rfl
      simp only
      rw [hcall _ (length_xorBlock _ _), hchain]
      exact ih (i := i + 1) (by omega) (by omega)
    · have hend : i = (plainText.length - 1) / 16 := by omega
      rw [← hend]

theorem set_eq_padBlock {rest : List Byte} (h : rest.length < 16) :
    (rest ++ List.replicate (16 - rest.length) 0).set rest.length 0x80 = padBlock (rest ++ [0x80]) := by
  have hrep : List.replicate (16 - rest.length) (0 : Byte) = 0 :: List.replicate (15 - rest.length) 0 := by
    rw [← List.replicate_succ]
    congr 1
    omega
  rw [List.set_append_right _ _ le_rfl, Nat.sub_self, hrep, List.set_cons_zero]
  refine block_ext (by simp; omega) (by simp [padBlock]) fun i hi => ?_
  rw [getD_padBlock _ hi]
  rcases Nat.lt_or_ge i rest.length with hlt | hge
  · rw [List.getD_append _ _ _ _ hlt, List.getD_append _ _ _ _ hlt]
  · rw [List.getD_append_right _ _ _ _ hge, List.getD_append_right _ _ _ _ hge]
    obtain ⟨k, rfl⟩ : ∃ k, i = rest.length + k := ⟨i - rest.length, by omega⟩
    rw [Nat.add_sub_cancel_left]
    cases k with
    | zero => rfl
    | succ k =>
      rw [List.getD_cons_succ, List.getD_replicate _ (by omega)]
      rfl

/-- **AES-CMAC.** For every key of 16 bytes the sub keys and the code of every message are those of the standard,
into a buffer of at least 16 bytes. -/
theorem aesCmac_eq (hkey : key.length = 16) (plainText macText : List Byte) {n : ℕ} (hn : 16 ≤ n) :
    aesCmacGenerateSubKey key (List.replicate 16 0) (List.replicate 16 0) =
        (subKey1 (rtAesEncrypt key), subKey2 (rtAesEncrypt key)) ∧
      aesCmac plainText key macText n = (cmac (rtAesEncrypt key) plainText ++ macText.drop 16, 16) := by
  have hzeros : (List.replicate 16 (0 : Byte)).length = 16 := List.length_replicate
  have hkeys := aesCmacGenerateSubKey_eq hkey hzeros (List.replicate 16 0)
  have hloop := cmacLoop_eq hkey plainText plainText.length (i := 0) (Nat.zero_le _) (by omega)
  have hlast : (if plainText.length = 0 then 1 else (plainText.length + 15) / 16) - 1 =
      (plainText.length - 1) / 16 := by
    split_ifs <;> omega
  refine ⟨hkeys, ?_⟩
  unfold aesCmac cmac
  rw [if_neg (by omega), if_neg (not_not.2 hkey), hkeys]
  simp only
  rw [hlast]
  generalize hm : (plainText.length - 1) / 16 = m at *
  have hstart : cmacLoop plainText key plainText.length 0 constZero =
      (16 * m, chain (rtAesEncrypt key) plainText m) := hloop
  have hrest : (plainText.drop (16 * m)).length = plainText.length - 16 * m := List.length_drop
  have hblock : messageBlock plainText m = plainText.drop (16 * m) := List.take_of_length_le (by omega)
  have hwhole : plainText.length - 16 * m = 16 ↔ plainText.length ≠ 0 ∧ plainText.length % 16 = 0 := by omega
  rw [hstart, hblock]
  simp only [hwhole]
  split_ifs with hfull
  · rw [rtAesEncryptCall_eq (Or.inl hkey) (length_xorBlock _ _) macText hn, xorBlock_right_comm]
  · rw [rtAesEncryptCall_eq (Or.inl hkey) (length_xorBlock _ _) macText hn, set_eq_padBlock (by omega),
      xorBlock_right_comm]

theorem aesCmac_empty : let key := List.replicate 16 0x2b#8
    key.length = 16 ∧
      aesCmacGenerateSubKey key (List.replicate 16 0) (List.replicate 16 0) =
        (subKey1 (rtAesEncrypt key), subKey2 (rtAesEncrypt key)) ∧
      aesCmac [] key [] 16 = (cmac (rtAesEncrypt key) [] ++ [], 16) :=
  ⟨rfl, aesCmac_eq rfl [] [] le_rfl⟩

end Message

end Mt7610u.Crypto
