import Mt7610u.Crypto.AesInverse
import Mt7610u.Lib.Cbc

/-! # AES in chaining mode (`common/crypt_aes.c`)

`AES_CBC_Encrypt` and `AES_CBC_Decrypt`, with the lengths in the 32 bits of `UINT`. Both get the size of the
buffer they write to and give back how much of it they used. The text that goes in and the buffer lie apart, and
there is memory for the context of the block cipher. -/

namespace Mt7610u.Crypto

open Lib

/-! ### The functions -/

/-- The difference of two numbers of type `UINT`. -/
def uintSub (a b : ℕ) : ℕ := (a + (2 ^ 32 - b)) % 2 ^ 32

/-- The output buffer, and the place of the next block in it (`CipherBlockStart`, `PlainBlockStart`). -/
structure CbcOut where
  text : ℕ → Byte
  start : ℕ

/-- One block of `AES_CBC_Encrypt`: the block in front of it, or the vector, is added first. -/
def cbcEncryptBlock (key iv : List Byte) (cipherTextLength : ℕ) (block : List Byte) (out : CbcOut) : CbcOut :=
  let prev := if out.start = 0 then iv else readAt out.text (uintSub out.start 16) 16
  let sent := rtAesEncryptCall true (xorBlock block prev) key (readAt out.text out.start 16)
    (uintSub cipherTextLength out.start)
  ⟨copy out.text out.start sent.1, (out.start + sent.2) % 2 ^ 32⟩

/-- The loop of `AES_CBC_Encrypt`: what is left of the plain text, and the output. -/
def cbcEncryptLoop (key iv : List Byte) (cipherTextLength : ℕ) : ℕ → List Byte → CbcOut → List Byte × CbcOut
  | 0, rest, out => (rest, out)
  | n + 1, rest, out =>
    if 16 ≤ rest.length then
      cbcEncryptLoop key iv cipherTextLength n (rest.drop 16)
        (cbcEncryptBlock key iv cipherTextLength (rest.take 16) out)
    else (rest, out)

/-- `AES_CBC_Encrypt`: `CipherText` and `*CipherTextLength` afterwards. -/
def aesCbcEncrypt (plainText key iv : List Byte) (cipherText : ℕ → Byte) (cipherTextLength : ℕ) :
    (ℕ → Byte) × ℕ :=
  let paddingSize := 16 - plainText.length % 16
  if cipherTextLength < (plainText.length + paddingSize) % 2 ^ 32 then (cipherText, cipherTextLength)
  else if ¬keyLengthOk key then (cipherText, cipherTextLength)
  else if iv.length ≠ 16 then (cipherText, cipherTextLength)
  else
    let (rest, out) := cbcEncryptLoop key iv cipherTextLength plainText.length plainText ⟨cipherText, 0⟩
    let block := rest ++ List.replicate paddingSize (BitVec.ofNat 8 paddingSize)
    let out := cbcEncryptBlock key iv cipherTextLength block out
    (out.text, out.start)

section Decrypt

variable (cipherText key iv : List Byte) (plainTextLength : ℕ)

/-- One block of `AES_CBC_Decrypt`. The addition is made whether or not `RT_AES_Decrypt` took the block. -/
def cbcDecryptBlock (cipherBlockStart : ℕ) (out : CbcOut) : CbcOut :=
  let got := rtAesDecryptCall true ((cipherText.drop cipherBlockStart).take 16) key (readAt out.text out.start 16)
    (uintSub plainTextLength out.start)
  let text := copy out.text out.start got.1
  let prev := if out.start = 0 then iv else (cipherText.drop (cipherBlockStart - 16)).take 16
  ⟨copy text out.start (xorBlock (readAt text out.start 16) prev), (out.start + got.2) % 2 ^ 32⟩

/-- The loop of `AES_CBC_Decrypt`, as many turns at most as there are bytes. -/
def cbcDecryptLoop : ℕ → ℕ → CbcOut → CbcOut
  | 0, _, out => out
  | n + 1, cipherBlockStart, out =>
    if 16 ≤ cipherText.length - cipherBlockStart then
      cbcDecryptLoop n (cipherBlockStart + 16) (cbcDecryptBlock cipherText key iv plainTextLength cipherBlockStart out)
    else out

/-- `AES_CBC_Decrypt`: `PlainText` and `*PlainTextLength` afterwards. -/
def aesCbcDecrypt (plainText : ℕ → Byte) : (ℕ → Byte) × ℕ :=
  if cipherText.length % 16 ≠ 0 then (plainText, plainTextLength)
  else if ¬keyLengthOk key then (plainText, plainTextLength)
  else if iv.length ≠ 16 then (plainText, plainTextLength)
  else
    let out := cbcDecryptLoop cipherText key iv plainTextLength cipherText.length 0 ⟨plainText, 0⟩
    let paddingSize := (out.text (uintSub out.start 1)).toNat
    (out.text, uintSub out.start paddingSize)

end Decrypt

/-! ### Encryption -/

theorem uintSub_of_le {a b : ℕ} (h : b ≤ a) (ha : a < 2 ^ 32) : uintSub a b = a - b := by
  unfold uintSub
  omega

theorem uintSub_of_lt {a b : ℕ} (h : a < b) (hb : b < 2 ^ 32) : uintSub a b = 2 ^ 32 + a - b := by
  unfold uintSub
  omega

section Encrypt

variable {key iv : List Byte}

def lastOut (iv : List Byte) (out : CbcOut) : List Byte :=
  if out.start = 0 then iv else readAt out.text (out.start - 16) 16

theorem cbcEncryptBlock_eq (hkey : keyLengthOk key) {room : ℕ} (hroom : room < 2 ^ 32) (block : List Byte)
    {out : CbcOut} (hstart : out.start = 0 ∨ 16 ≤ out.start) (hfit : out.start + 16 ≤ room) :
    cbcEncryptBlock key iv room block out =
      ⟨copy out.text out.start (rtAesEncrypt key (xorBlock block (lastOut iv out))), out.start + 16⟩ := by
  have hprev : (if out.start = 0 then iv else readAt out.text (uintSub out.start 16) 16) = lastOut iv out := by
    unfold lastOut
    split_ifs with h
    · rfl
    · rw [uintSub_of_le (by omega) (by omega)]
  unfold cbcEncryptBlock
  simp only
  rw [hprev, uintSub_of_le (by omega) hroom,
    rtAesEncryptCall_eq hkey (length_xorBlock _ _) _ (by omega : 16 ≤ room - out.start),
    List.drop_of_length_le (by rw [length_readAt]), List.append_nil, Nat.mod_eq_of_lt (by omega)]

theorem lastOut_copy (text : ℕ → Byte) (start : ℕ) {block : List Byte} (h : block.length = 16) :
    lastOut iv ⟨copy text start block, start + 16⟩ = block := by
  unfold lastOut
  rw [if_neg (Nat.succ_ne_zero _), Nat.add_sub_cancel, ← h, readAt_copy]

theorem cbcEncrypt_rest (hkey : keyLengthOk key) {room : ℕ} (hroom : room < 2 ^ 32) (n : ℕ) {rest : List Byte}
    (hn : rest.length ≤ 16 * n) {out : CbcOut} (hstart : out.start = 0 ∨ 16 ≤ out.start)
    (hfit : out.start + (padded rest).length ≤ room) : let last := cbcEncryptLoop key iv room n rest out
    cbcEncryptBlock key iv room (padded last.1) last.2 =
      ⟨copy out.text out.start (cbcEncrypt (rtAesEncrypt key) (rest.length / 16 + 1) (lastOut iv out) (padded rest)),
        out.start + (padded rest).length⟩ := by
  induction n generalizing rest out with
  | zero =>
    have hrest : rest = [] := List.eq_nil_of_length_eq_zero (by omega)
    subst hrest
    exact cbcEncryptBlock_eq hkey hroom _ hstart hfit
  | succ n ih =>
    have hlen := length_padded_eq rest
    intro last
    by_cases hlong : 16 ≤ rest.length
    · have htake : (rest.take 16).length = 16 := by rw [List.length_take]; omega
      have hpad := padded_of_le hlong
      have hpadlen : (padded rest).length = 16 + (padded (rest.drop 16)).length := by
        rw [hpad, List.length_append, htake]
      have hblock := @cbcEncryptBlock_eq key iv hkey room hroom (rest.take 16) out hstart (by omega)
      have hlast : last = cbcEncryptLoop key iv room n (rest.drop 16)
          (cbcEncryptBlock key iv room (rest.take 16) out) := if_pos hlong
      have hturns : rest.length / 16 + 1 = ((rest.drop 16).length / 16 + 1) + 1 := by
        rw [List.length_drop]
        omega
      have hsplit (k : ℕ) (prev : List Byte) : cbcEncrypt (rtAesEncrypt key) (k + 1) prev (padded rest) =
          rtAesEncrypt key (xorBlock (rest.take 16) prev) ++
            cbcEncrypt (rtAesEncrypt key) k (rtAesEncrypt key (xorBlock (rest.take 16) prev))
              (padded (rest.drop 16)) := by
        rw [hpad, cbcEncrypt, List.take_left' htake, List.drop_left' htake]
      rw [hlast, hblock, ih (by rw [List.length_drop]; omega) (Or.inr (Nat.le_add_left _ _)) (by simp only; omega),
        lastOut_copy _ _ (length_rtAesEncrypt _ _), hturns, hsplit, copy_append, length_rtAesEncrypt, hpadlen,
        Nat.add_assoc]
    · have hlast : last = (rest, out) := if_neg hlong
      have hturns : rest.length / 16 + 1 = 1 := by omega
      have hfull : (padded rest).length = 16 := by omega
      rw [hlast, cbcEncryptBlock_eq hkey hroom _ hstart (by omega), hturns, cbcEncrypt, cbcEncrypt, List.append_nil,
        List.take_of_length_le (by omega), hfull]

theorem mod_length_cbcEncryptLoop (room n : ℕ) (rest : List Byte) (out : CbcOut) :
    (cbcEncryptLoop key iv room n rest out).1.length % 16 = rest.length % 16 := by
  induction n generalizing rest out with
  | zero => rfl
  | succ n ih =>
    rw [cbcEncryptLoop]
    split_ifs with h
    · rw [ih, List.length_drop]
      omega
    · rfl

/-- **What `AES_CBC_Encrypt` writes**, into a buffer with room for the padded text. -/
theorem aesCbcEncrypt_eq (hkey : keyLengthOk key) (hiv : iv.length = 16) (plainText : List Byte)
    (cipherText : ℕ → Byte) {room : ℕ} (hroom : room < 2 ^ 32) (hfit : (padded plainText).length ≤ room) :
    aesCbcEncrypt plainText key iv cipherText room =
      (copy cipherText 0 (cbcEncrypt (rtAesEncrypt key) (plainText.length / 16 + 1) iv (padded plainText)),
        (padded plainText).length) := by
  have hlen := length_padded plainText
  have hrest := @mod_length_cbcEncryptLoop key iv room plainText.length plainText ⟨cipherText, 0⟩
  have hrun := @cbcEncrypt_rest key iv hkey room hroom plainText.length plainText (by omega) ⟨cipherText, 0⟩
    (Or.inl rfl) (by simpa using hfit)
  unfold aesCbcEncrypt
  simp only
  unfold padding at hlen
  rw [if_neg (by rw [Nat.mod_eq_of_lt (by omega)]; omega), if_neg (not_not.2 hkey), if_neg (not_not.2 hiv), ← hrest]
  exact (congrArg (fun out : CbcOut => (out.text, out.start)) hrun).trans (by rw [Nat.zero_add]; rfl)

end Encrypt

/-! ### Decryption -/

section Decrypt

variable {cipherText key iv : List Byte} {room : ℕ}

/-- The block that is taken off block `j`. -/
def inFront (cipherText iv : List Byte) (j : ℕ) : List Byte :=
  if j = 0 then iv else (cipherText.drop (16 * (j - 1))).take 16

/-- The byte at place `i` behind the loop. A block that the buffer has no room for is not deciphered, but the one
in front of it is taken off what lies in the buffer. -/
def plainByte (cipherText key iv : List Byte) (room : ℕ) (plainText : ℕ → Byte) (i : ℕ) : Byte :=
  (if i / 16 < room / 16 then (rtAesDecrypt key ((cipherText.drop (16 * (i / 16))).take 16)).getD (i % 16) 0
    else plainText i) ^^^ (inFront cipherText iv (i / 16)).getD (i % 16) 0

/-- The loop in front of block `j`: how far the buffer is filled, with what, and what has not been touched. -/
structure Filled (cipherText key iv : List Byte) (room : ℕ) (plainText : ℕ → Byte) (j : ℕ) (out : CbcOut) : Prop where
  start : out.start = min room (16 * j)
  byte : ∀ i < min room (16 * j), out.text i = plainByte cipherText key iv room plainText i
  untouched : ∀ i, 16 * j ≤ i → out.text i = plainText i

theorem filled_zero (plainText : ℕ → Byte) : Filled cipherText key iv room plainText 0 ⟨plainText, 0⟩ where
  start := by simp
  byte := fun i hi => by omega
  untouched := fun i _ => rfl

theorem copy_xorBlock (text : ℕ → Byte) (start : ℕ) (prev : List Byte) (i : ℕ) :
    copy text start (xorBlock (readAt text start 16) prev) i =
      if start ≤ i ∧ i < start + 16 then text i ^^^ prev.getD (i - start) 0 else text i := by
  unfold copy
  rw [length_xorBlock]
  split_ifs with h
  · have hread : (readAt text start 16).getD (i - start) 0 = text i := by
      have hmem := mem_read (m := fun j => text (start + j)) (n := 16) (i := i - start) (by omega)
      rw [Nat.add_sub_cancel' h.1] at hmem
      exact hmem
    rw [mem, getD_xorBlock _ _ (by omega), hread]
  · rfl

theorem cbcDecryptBlock_refused {out : CbcOut} (hstart : out.start ≤ room) (hroom : room < 2 ^ 32)
    (hfull : room < out.start + 16) (c : ℕ) :
    cbcDecryptBlock cipherText key iv room c out =
      ⟨copy out.text out.start (xorBlock (readAt out.text out.start 16)
        (if out.start = 0 then iv else (cipherText.drop (c - 16)).take 16)), room⟩ := by
  have hcall : rtAesDecryptCall true ((cipherText.drop c).take 16) key (readAt out.text out.start 16)
      (room - out.start) = (readAt out.text out.start 16, room - out.start) := if_pos (by omega)
  have hback : copy out.text out.start (readAt out.text out.start 16) = out.text :=
    copy_of_holdsAt (by unfold HoldsAt; rw [length_readAt])
  unfold cbcDecryptBlock
  simp only
  rw [uintSub_of_le hstart hroom, hcall]
  simp only
  rw [hback, Nat.add_sub_cancel' hstart, Nat.mod_eq_of_lt hroom]

theorem cbcDecryptBlock_eq (hkey : keyLengthOk key) {out : CbcOut} (hroom : room < 2 ^ 32)
    (hfit : out.start + 16 ≤ room) {c : ℕ} (hc : c + 16 ≤ cipherText.length) :
    cbcDecryptBlock cipherText key iv room c out =
      let text := copy out.text out.start (rtAesDecrypt key ((cipherText.drop c).take 16))
      ⟨copy text out.start (xorBlock (readAt text out.start 16)
        (if out.start = 0 then iv else (cipherText.drop (c - 16)).take 16)), out.start + 16⟩ := by
  have hblock : ((cipherText.drop c).take 16).length = 16 := by
    rw [List.length_take, List.length_drop]
    omega
  unfold cbcDecryptBlock
  simp only
  rw [uintSub_of_le (by omega) hroom, rtAesDecryptCall_eq hkey hblock _ (by omega : 16 ≤ room - out.start)]
  simp only
  rw [List.drop_of_length_le (l := readAt out.text out.start 16) (by rw [length_readAt]), List.append_nil,
    Nat.mod_eq_of_lt (by omega)]

theorem Filled.step (hkey : keyLengthOk key) (hroom : room < 2 ^ 32) {plainText : ℕ → Byte} {j : ℕ} {out : CbcOut}
    (h : Filled cipherText key iv room plainText j out) (hj : 16 * j + 16 ≤ cipherText.length) :
    Filled cipherText key iv room plainText (j + 1) (cbcDecryptBlock cipherText key iv room (16 * j) out) := by
  have hstart := h.start
  have hfront : 16 * j - 16 = 16 * (j - 1) := by omega
  rcases Nat.lt_or_ge room (out.start + 16) with hfull | hfit
  · -- The block is refused: only what lies behind `out.start` changes, and that is behind the whole blocks.
    rw [cbcDecryptBlock_refused (by omega) hroom hfull]
    refine ⟨by simp only; omega, fun i hi => ?_, fun i hi => ?_⟩
    · simp only
      rw [copy_xorBlock]
      by_cases hplace : out.start ≤ i ∧ i < out.start + 16
      · have hdiv : i / 16 = j := by omega
        have hmod : i % 16 = i - out.start := by omega
        have hzero : out.start = 0 ↔ j = 0 := by omega
        have hpart : ¬i / 16 < room / 16 := by omega
        rw [if_pos hplace, h.untouched i (by omega), plainByte, inFront, if_neg hpart, hdiv, hmod, hfront]
        simp only [hzero]
      · rw [if_neg hplace]
        exact h.byte i (by omega)
    · simp only
      rw [copy_xorBlock, if_neg (by omega)]
      exact h.untouched i (by omega)
  · rw [cbcDecryptBlock_eq hkey hroom hfit hj]
    have hsync : out.start = 16 * j := by omega
    refine ⟨by simp only; omega, fun i hi => ?_, fun i hi => ?_⟩
    · simp only
      rw [copy_xorBlock]
      by_cases hplace : out.start ≤ i ∧ i < out.start + 16
      · have hdiv : i / 16 = j := by omega
        have hmod : i % 16 = i - out.start := by omega
        have hzero : out.start = 0 ↔ j = 0 := by omega
        have hwhole : i / 16 < room / 16 := by omega
        rw [if_pos hplace, copy, if_pos (by rw [length_rtAesDecrypt]; omega), plainByte, inFront, if_pos hwhole, hdiv,
          hmod, hfront, mem]
        simp only [hzero]
      · rw [if_neg hplace, copy, if_neg (by rw [length_rtAesDecrypt]; omega)]
        exact h.byte i (by omega)
    · simp only
      rw [copy_xorBlock, if_neg (by omega), copy, if_neg (by rw [length_rtAesDecrypt]; omega)]
      exact h.untouched i (by omega)

theorem Filled.loop (hkey : keyLengthOk key) (hroom : room < 2 ^ 32) {plainText : ℕ → Byte} (n : ℕ) {j : ℕ}
    {out : CbcOut} (h : Filled cipherText key iv room plainText j out) (hj : 16 * j ≤ cipherText.length)
    (hmod : cipherText.length % 16 = 0) (hn : cipherText.length ≤ 16 * j + 16 * n) :
    Filled cipherText key iv room plainText (cipherText.length / 16)
      (cbcDecryptLoop cipherText key iv room n (16 * j) out) := by
  induction n generalizing j out with
  | zero =>
    have hend : cipherText.length / 16 = j := by omega
    rw [hend]
    exact h
  | succ n ih =>
    rw [cbcDecryptLoop]
    split_ifs with hmore
    · exact ih (h.step hkey hroom (by omega)) (by omega) (by omega)
    · have hend : cipherText.length / 16 = j := by omega
      rw [hend]
      exact h

/-- The byte that is subtracted: the last one of what was filled, or, where nothing was, the one that
`PlainText[PlainBlockStart - 1]` is with the index wrapped. -/
def paddingByte (cipherText key iv : List Byte) (room : ℕ) (plainText : ℕ → Byte) : Byte :=
  let filled := min room cipherText.length
  if filled = 0 then plainText 4294967295 else plainByte cipherText key iv room plainText (filled - 1)

/-- **What `AES_CBC_Decrypt` leaves**, for a cipher text of whole blocks and a buffer of any size. -/
theorem aesCbcDecrypt_eq (hkey : keyLengthOk key) (hiv : iv.length = 16) (hroom : room < 2 ^ 32)
    (hmod : cipherText.length % 16 = 0) (hlen : cipherText.length < 2 ^ 32) (plainText : ℕ → Byte) :
    ∃ text, aesCbcDecrypt cipherText key iv room plainText =
        (text, uintSub (min room cipherText.length) (paddingByte cipherText key iv room plainText).toNat) ∧
      ∀ i < min room cipherText.length, text i = plainByte cipherText key iv room plainText i := by
  have hloop := (@filled_zero cipherText key iv room plainText).loop hkey hroom cipherText.length
    (Nat.zero_le _) hmod (by omega)
  have hblocks : 16 * (cipherText.length / 16) = cipherText.length := by omega
  obtain ⟨hstart, hbyte, huntouched⟩ := hloop
  rw [hblocks] at hstart hbyte huntouched
  rw [Nat.mul_zero] at hstart hbyte huntouched
  generalize hrun : cbcDecryptLoop cipherText key iv room cipherText.length 0 ⟨plainText, 0⟩ = out at *
  have hpad : out.text (uintSub out.start 1) = paddingByte cipherText key iv room plainText := by
    unfold paddingByte
    simp only
    split_ifs with hzero
    · have hwrap : uintSub 0 1 = 4294967295 := rfl
      rw [hstart, hzero, hwrap]
      exact huntouched _ (by omega)
    · rw [hstart, uintSub_of_le (by omega) (by omega)]
      exact hbyte _ (by omega)
  refine ⟨out.text, ?_, hbyte⟩
  unfold aesCbcDecrypt
  rw [if_neg (not_not.2 hmod), if_neg (not_not.2 hkey), if_neg (not_not.2 hiv), hrun]
  simp only
  rw [hpad, hstart]

/-- **The reported length** stays within the cipher text when the byte does not exceed what was filled. A
difference that wraps can pass only for a cipher text of nearly `2 ^ 32` bytes and a buffer of a few. -/
theorem reported_le_iff (hkey : keyLengthOk key) (hiv : iv.length = 16) (hroom : room < 2 ^ 32)
    (hmod : cipherText.length % 16 = 0) (hlen : cipherText.length < 2 ^ 32) (plainText : ℕ → Byte) :
    (aesCbcDecrypt cipherText key iv room plainText).2 ≤ cipherText.length ↔
      (paddingByte cipherText key iv room plainText).toNat ≤ min room cipherText.length ∨
        2 ^ 32 + min room cipherText.length ≤
          cipherText.length + (paddingByte cipherText key iv room plainText).toNat := by
  obtain ⟨text, heq, -⟩ := aesCbcDecrypt_eq hkey hiv hroom hmod hlen plainText
  have hbyte := (paddingByte cipherText key iv room plainText).isLt
  rw [heq]
  simp only
  rcases Nat.lt_or_ge (min room cipherText.length) (paddingByte cipherText key iv room plainText).toNat with h | h
  · rw [uintSub_of_lt h (by omega)]
    omega
  · rw [uintSub_of_le h (by omega)]
    omega

end Decrypt

/-! ### The two together -/

section RoundTrip

variable {key iv : List Byte}

/-- What `AES_CBC_Decrypt` makes of the output of `AES_CBC_Encrypt` is the plain text with its length. -/
def RoundTrips (key iv plainText : List Byte) (cipherBuffer plainBuffer : ℕ → Byte) (cipherRoom plainRoom : ℕ) :
    Prop :=
  let sent := aesCbcEncrypt plainText key iv cipherBuffer cipherRoom
  let got := aesCbcDecrypt (readAt sent.1 0 sent.2) key iv plainRoom plainBuffer
  got.2 = plainText.length ∧ readAt got.1 0 plainText.length = plainText

theorem plainByte_eq {cipherText : List Byte} {n room : ℕ} (hlen : cipherText.length = 16 * n)
    (hfit : cipherText.length ≤ room) (plainText : ℕ → Byte) {i : ℕ} (hi : i < cipherText.length) :
    plainByte cipherText key iv room plainText i = (cbcDecrypt (rtAesDecrypt key) n iv cipherText).getD i 0 := by
  have hbyte := getD_cbcDecrypt (D := rtAesDecrypt key) iv cipherText (by omega : i / 16 < n)
    (Nat.mod_lt i (by decide))
  rw [Nat.div_add_mod] at hbyte
  rw [hbyte, plainByte, inFront, if_pos (by omega)]

theorem aesCbcDecrypt_encrypt (hkey : keyLengthOk key) (hiv : iv.length = 16) (plainText : List Byte)
    (cipherBuffer plainBuffer : ℕ → Byte) {cipherRoom plainRoom : ℕ} (hcipher : (padded plainText).length ≤ cipherRoom)
    (hcipherRoom : cipherRoom < 2 ^ 32) (hplain : (padded plainText).length ≤ plainRoom)
    (hplainRoom : plainRoom < 2 ^ 32) :
    RoundTrips key iv plainText cipherBuffer plainBuffer cipherRoom plainRoom := by
  have hpadded := length_padded plainText
  have hpos := padding_pos plainText.length
  have hle := padding_le plainText.length
  have hblocks := length_padded_eq plainText
  unfold RoundTrips
  rw [aesCbcEncrypt_eq hkey hiv plainText cipherBuffer hcipherRoom hcipher]
  simp only
  generalize hsent : cbcEncrypt (rtAesEncrypt key) (plainText.length / 16 + 1) iv (padded plainText) = sent
  have hlen : sent.length = 16 * (plainText.length / 16 + 1) := by
    rw [← hsent]
    exact length_cbcEncrypt (length_rtAesEncrypt key) _ _ _
  have hread : readAt (copy cipherBuffer 0 sent) 0 (padded plainText).length = sent := by
    rw [hblocks, ← hlen]
    exact readAt_copy cipherBuffer 0 sent
  have hback : cbcDecrypt (rtAesDecrypt key) (plainText.length / 16 + 1) iv sent = padded plainText := by
    rw [← hsent]
    exact cbcDecrypt_cbcEncrypt (length_rtAesEncrypt key) (fun b => rtAesDecrypt_encrypt key) _ _ hblocks
  have hbyte : ∀ i < sent.length, plainByte sent key iv plainRoom plainBuffer i = (padded plainText).getD i 0 := by
    intro i hi
    rw [plainByte_eq hlen (by omega) plainBuffer hi, hback]
  have hpad : (paddingByte sent key iv plainRoom plainBuffer).toNat = padding plainText.length := by
    have hmin : min plainRoom sent.length = (padded plainText).length := by omega
    unfold paddingByte
    simp only
    rw [hmin, if_neg (by omega), hbyte _ (by omega), getD_padded_last, BitVec.toNat_ofNat, Nat.mod_eq_of_lt (by omega)]
  obtain ⟨text, heq, htext⟩ :=
    @aesCbcDecrypt_eq sent key iv plainRoom hkey hiv hplainRoom (by omega) (by omega) plainBuffer
  rw [hread, heq, hpad]
  refine ⟨?_, ?_⟩
  · simp only
    rw [uintSub_of_le (by omega) (by omega)]
    omega
  · have hholds : HoldsAt text 0 plainText := by
      refine holdsAt_iff.2 fun i hi => ?_
      rw [Nat.zero_add, htext i (by omega), hbyte i (by omega), padded, List.getD_append _ _ _ _ hi]
      rfl
    exact hholds

/-- **Chaining mode.** Every text that fits the buffers comes back with its length; the length reported for a cipher
text of whole blocks stays within it exactly when the byte that is subtracted does not exceed what was filled (or,
for one of nearly `2 ^ 32` bytes and a buffer of a few, wraps to a number below). -/
theorem aesCbc_iff (hkey : keyLengthOk key) (hiv : iv.length = 16) :
    (∀ (plainText : List Byte) (cipherBuffer plainBuffer : ℕ → Byte) (cipherRoom plainRoom : ℕ),
      (padded plainText).length ≤ cipherRoom → cipherRoom < 2 ^ 32 → (padded plainText).length ≤ plainRoom →
        plainRoom < 2 ^ 32 → RoundTrips key iv plainText cipherBuffer plainBuffer cipherRoom plainRoom) ∧
    ∀ (cipherText : List Byte) (plainBuffer : ℕ → Byte) (plainRoom : ℕ), cipherText.length % 16 = 0 →
      cipherText.length < 2 ^ 32 → plainRoom < 2 ^ 32 →
        ((aesCbcDecrypt cipherText key iv plainRoom plainBuffer).2 ≤ cipherText.length ↔
          (paddingByte cipherText key iv plainRoom plainBuffer).toNat ≤ min plainRoom cipherText.length ∨
            2 ^ 32 + min plainRoom cipherText.length ≤
              cipherText.length + (paddingByte cipherText key iv plainRoom plainBuffer).toNat) :=
  ⟨fun plainText cipherBuffer plainBuffer _ _ h1 h2 h3 h4 =>
      aesCbcDecrypt_encrypt hkey hiv plainText cipherBuffer plainBuffer h1 h2 h3 h4,
    fun _ plainBuffer _ h1 h2 h3 => reported_le_iff hkey hiv h3 h1 h2 plainBuffer⟩

theorem aesCbc_zeros : let key := List.replicate 16 0#8
    RoundTrips key key [1#8, 2#8, 3#8] (mem []) (mem []) 16 16 ∧
      ((aesCbcDecrypt [] key key 16 (mem [])).2 ≤ 0 ↔ (0 : ℕ) ≤ 0 ∨ 2 ^ 32 + 0 ≤ 0 + 0) :=
  ⟨(aesCbc_iff (by decide) rfl).1 [1#8, 2#8, 3#8] (mem []) (mem []) 16 16 (by decide) (by decide) (by decide)
      (by decide),
    (aesCbc_iff (by decide) rfl).2 [] (mem []) 16 rfl (by decide) (by decide)⟩

def CbcSound (key iv : List Byte) : Prop :=
  (∀ (plainText : List Byte) (cipherBuffer plainBuffer : ℕ → Byte) (cipherRoom plainRoom : ℕ),
    (padded plainText).length ≤ cipherRoom → cipherRoom < 2 ^ 32 → (padded plainText).length ≤ plainRoom →
      plainRoom < 2 ^ 32 → RoundTrips key iv plainText cipherBuffer plainBuffer cipherRoom plainRoom) ∧
  ∀ (cipherText : List Byte) (plainBuffer : ℕ → Byte) (plainRoom : ℕ), cipherText.length % 16 = 0 →
    cipherText.length ≤ plainRoom → plainRoom < 2 ^ 32 →
      (aesCbcDecrypt cipherText key iv plainRoom plainBuffer).2 ≤ cipherText.length

/-- One block of zeros under the key of zeros ends with `0x3a` when deciphered: more than the block has bytes, and
the difference wraps. -/
theorem not_cbcSound : ¬∀ key iv : List Byte, keyLengthOk key → iv.length = 16 → CbcSound key iv := by
  intro h
  have hle := (h (List.replicate 16 0#8) (List.replicate 16 0#8) (by decide) rfl).2 (List.replicate 16 0#8) (mem []) 16
    (by decide) (by decide) (by decide)
  have hval : (aesCbcDecrypt (List.replicate 16 0#8) (List.replicate 16 0#8) (List.replicate 16 0#8) 16 (mem [])).2 =
      4294967254 := by decide +kernel
  rw [hval] at hle
  exact absurd hle (by decide)

end RoundTrip

end Mt7610u.Crypto
