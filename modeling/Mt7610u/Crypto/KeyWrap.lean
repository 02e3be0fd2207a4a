import Mt7610u.Crypto.AesInverse
import Mt7610u.Lib.KeyWrap

/-! # The AES key wrap (`AES_Key_Wrap`, `AES_Key_Unwrap` of `common/crypt_aes.c`)

The register that a wrapped text starts with is not compared with `Default_IV` when it is unwrapped,
and bytes behind the last whole block stay as they are. -/

namespace Mt7610u.Crypto

open Lib

def defaultIv : List Byte := List.replicate 8 0xa6

/-- `Block_Input` sent through a block cipher and cut in two halves again. -/
def onBlock (cipher : List Byte → List Byte) (halves : List Byte × List Byte) :
    List Byte × List Byte :=
  let blockB := cipher (halves.1 ++ halves.2)
  (blockB.take 8, blockB.drop 8)

/-- `IV[7] ^= t`, of which only the low byte of `t` counts. -/
def markIv (t : ℕ) (iv : List Byte) : List Byte := iv.set 7 (iv.getD 7 0 ^^^ BitVec.ofNat 8 t)

/-- The first `n` blocks of eight bytes. -/
def blocks : ℕ → List Byte → List (List Byte)
  | 0, _ => []
  | n + 1, bs => bs.take 8 :: blocks n (bs.drop 8)

/-- `AES_Key_Wrap`; `none` for a key of a wrong length or no memory for `pResult`. -/
def aesKeyWrap (alloc : Bool) (key plainText : List Byte) : Option (List Byte) :=
  if keyLengthOk key ∧ alloc then
    let numberOfBlock := plainText.length / 8
    let out := wrapPasses (onBlock (rtAesEncrypt key)) markIv numberOfBlock 6
      (defaultIv, blocks numberOfBlock plainText)
    some (out.1 ++ out.2.flatten ++ plainText.drop (8 * numberOfBlock))
  else none

/-- `AES_Key_Unwrap`; `none` for a key of a wrong length or no memory for `pResult`. A text shorter
than the register makes `PlainLength` wrap, and no such block of memory can be had. -/
def aesKeyUnwrap (alloc : Bool) (key cipherText : List Byte) : Option (List Byte) :=
  if keyLengthOk key ∧ alloc ∧ 8 ≤ cipherText.length then
    let plainLength := cipherText.length - 8
    let numberOfBlock := plainLength / 8
    let result := cipherText.drop 8
    let out := unwrapPasses (onBlock (rtAesDecrypt key)) markIv numberOfBlock 6
      (cipherText.take 8, blocks numberOfBlock result)
    some (out.2.flatten ++ result.drop (8 * numberOfBlock))
  else none

/-- `IV` at the end of `AES_Key_Unwrap`, the integrity register of the key wrap. -/
def recoveredIv (key cipherText : List Byte) : List Byte :=
  let numberOfBlock := (cipherText.length - 8) / 8
  (unwrapPasses (onBlock (rtAesDecrypt key)) markIv numberOfBlock 6
    (cipherText.take 8, blocks numberOfBlock (cipherText.drop 8))).1

/-! ### Blocks -/

theorem length_blocks : ∀ (n : ℕ) (bs : List Byte), (blocks n bs).length = n
  | 0, _ => rfl
  | n + 1, bs => by
    rw [blocks, List.length_cons, length_blocks]

theorem length_of_mem_blocks : ∀ {n : ℕ} {bs : List Byte}, 8 * n ≤ bs.length → ∀ r ∈ blocks n bs, r.length = 8
  | 0, _, _ => by simp [blocks]
  | n + 1, bs, h => by
    rw [blocks]
    refine List.forall_mem_cons.2 ⟨by rw [List.length_take]; omega, ?_⟩
    exact length_of_mem_blocks (by rw [List.length_drop]; omega)

theorem flatten_blocks_append_drop : ∀ (n : ℕ) (bs : List Byte), (blocks n bs).flatten ++ bs.drop (8 * n) = bs
  | 0, bs => rfl
  | n + 1, bs => by
    have ih := flatten_blocks_append_drop n (bs.drop 8)
    rw [List.drop_drop, show 8 + 8 * n = 8 * (n + 1) by omega] at ih
    rw [blocks, List.flatten_cons, List.append_assoc, ih, List.take_append_drop]

theorem blocks_flatten_append : ∀ {rs : List (List Byte)} (tail : List Byte),
    (∀ r ∈ rs, r.length = 8) → blocks rs.length (rs.flatten ++ tail) = rs
  | [], _, _ => rfl
  | r :: rs, tail, h => by
    obtain ⟨hr, hrs⟩ := List.forall_mem_cons.1 h
    rw [List.length_cons, blocks, List.flatten_cons, List.append_assoc, ← hr, List.take_left,
      List.drop_left, blocks_flatten_append tail hrs]

theorem length_flatten_blocks : ∀ {rs : List (List Byte)}, (∀ r ∈ rs, r.length = 8) →
    rs.flatten.length = 8 * rs.length
  | [], _ => rfl
  | r :: rs, h => by
    obtain ⟨hr, hrs⟩ := List.forall_mem_cons.1 h
    rw [List.flatten_cons, List.length_append, hr, length_flatten_blocks hrs, List.length_cons]
    omega

/-! ### The cipher on halves -/

def Half (bs : List Byte) : Prop := bs.length = 8

theorem half_onBlock_encrypt (key a r : List Byte) :
    Half (onBlock (rtAesEncrypt key) (a, r)).1 ∧ Half (onBlock (rtAesEncrypt key) (a, r)).2 := by
  simp [Half, onBlock]

theorem onBlock_decrypt_encrypt (key : List Byte) {a r : List Byte} (ha : Half a) (hr : Half r) :
    onBlock (rtAesDecrypt key) (onBlock (rtAesEncrypt key) (a, r)) = (a, r) := by
  have hlen : (a ++ r).length = 16 := by rw [List.length_append, ha, hr]
  simp only [onBlock, List.take_append_drop, rtAesDecrypt_encrypt key hlen]
  rw [← ha, List.take_left, List.drop_left]

theorem half_onBlock_decrypt (key a r : List Byte) :
    Half (onBlock (rtAesDecrypt key) (a, r)).1 ∧ Half (onBlock (rtAesDecrypt key) (a, r)).2 := by
  simp [Half, onBlock]

theorem onBlock_encrypt_decrypt (key : List Byte) {a r : List Byte} (ha : Half a) (hr : Half r) :
    onBlock (rtAesEncrypt key) (onBlock (rtAesDecrypt key) (a, r)) = (a, r) := by
  have hlen : (a ++ r).length = 16 := by rw [List.length_append, ha, hr]
  simp only [onBlock, List.take_append_drop, rtAesEncrypt_decrypt key hlen]
  rw [← ha, List.take_left, List.drop_left]

theorem half_markIv (t : ℕ) {a : List Byte} (ha : Half a) : Half (markIv t a) := by
  rw [Half, markIv, List.length_set, ha]

theorem markIv_markIv (t : ℕ) {a : List Byte} (ha : Half a) : markIv t (markIv t a) = a := by
  have h7 : 7 < a.length := by rw [ha]; decide
  rw [markIv, markIv, List.set_set, List.getD_eq_getElem?_getD, List.getElem?_set_self h7,
    Option.getD_some, BitVec.xor_assoc, BitVec.xor_self, BitVec.xor_zero,
    List.getD_eq_getElem?_getD, List.getElem?_eq_getElem h7, Option.getD_some,
    List.set_getElem_self]

/-! ### The round trip -/

theorem half_defaultIv : Half defaultIv := rfl

theorem parts {iv tail : List Byte} {rs : List (List Byte)} (hiv : Half iv) (hrs : ∀ r ∈ rs, Half r)
    (htail : tail.length < 8) : let text := iv ++ (rs.flatten ++ tail)
    8 ≤ text.length ∧ (text.length - 8) / 8 = rs.length ∧ text.take 8 = iv ∧
      blocks rs.length (text.drop 8) = rs ∧ (text.drop 8).drop (8 * rs.length) = tail := by
  intro text
  have hflat := length_flatten_blocks hrs
  have hlen : text.length = 8 * rs.length + tail.length + 8 := by
    rw [List.length_append, List.length_append, hiv, hflat]
    omega
  have hdrop : text.drop 8 = rs.flatten ++ tail := List.drop_left' hiv
  refine ⟨by omega, by omega, List.take_left' hiv, ?_, ?_⟩
  · rw [hdrop, blocks_flatten_append tail hrs]
  · rw [hdrop, List.drop_left' hflat]

theorem aesKeyUnwrap_blocks {key iv tail : List Byte} {rs : List (List Byte)}
    (hkey : keyLengthOk key) (hiv : Half iv) (hrs : ∀ r ∈ rs, Half r) (htail : tail.length < 8) :
    aesKeyUnwrap true key (iv ++ (rs.flatten ++ tail)) = some
      ((unwrapPasses (onBlock (rtAesDecrypt key)) markIv rs.length 6 (iv, rs)).2.flatten ++
        tail) := by
  obtain ⟨hlen, hn, htake, hblocks, hdrop⟩ := parts hiv hrs htail
  rw [aesKeyUnwrap, if_pos ⟨hkey, rfl, hlen⟩]
  simp only [hn, htake, hblocks, hdrop]

theorem recoveredIv_blocks {iv tail : List Byte} {rs : List (List Byte)} (key : List Byte)
    (hiv : Half iv) (hrs : ∀ r ∈ rs, Half r) (htail : tail.length < 8) :
    recoveredIv key (iv ++ (rs.flatten ++ tail)) =
      (unwrapPasses (onBlock (rtAesDecrypt key)) markIv rs.length 6 (iv, rs)).1 := by
  obtain ⟨-, hn, htake, hblocks, -⟩ := parts hiv hrs htail
  rw [recoveredIv]
  simp only [hn, htake, hblocks]

theorem aesKeyWrap_parts {key : List Byte} (plainText : List Byte) (hkey : keyLengthOk key) :
    ∃ (iv tail : List Byte) (rs : List (List Byte)), Half iv ∧ (∀ r ∈ rs, Half r) ∧
      tail = plainText.drop (8 * (plainText.length / 8)) ∧ rs.length = plainText.length / 8 ∧
      aesKeyWrap true key plainText = some (iv ++ (rs.flatten ++ tail)) ∧
      unwrapPasses (onBlock (rtAesDecrypt key)) markIv rs.length 6 (iv, rs) =
        (defaultIv, blocks (plainText.length / 8) plainText) := by
  have hproper : Proper Half (defaultIv, blocks (plainText.length / 8) plainText) :=
    ⟨half_defaultIv, length_of_mem_blocks (by omega)⟩
  have hE : ∀ a r, Half a → Half r → _ := fun a r _ _ => half_onBlock_encrypt key a r
  have hM : ∀ t a, Half a → Half (markIv t a) := fun t _ => half_markIv t
  have hback := unwrapPasses_wrapPasses hE hM (fun a r => onBlock_decrypt_encrypt key)
    (fun t a => markIv_markIv t) (plainText.length / 8) 6 _ hproper
  obtain ⟨hiv, hrs⟩ := proper_wrapPasses hE hM (plainText.length / 8) 6 _ hproper
  have hlen := length_wrapPasses (onBlock (rtAesEncrypt key)) markIv (plainText.length / 8) 6
    (defaultIv, blocks (plainText.length / 8) plainText)
  rw [length_blocks] at hlen
  refine ⟨_, _, _, hiv, hrs, rfl, hlen, ?_, ?_⟩
  · rw [aesKeyWrap, if_pos ⟨hkey, rfl⟩]
    exact congrArg some (List.append_assoc _ _ _)
  · rw [hlen]
    exact hback

theorem length_tail (plainText : List Byte) : (plainText.drop (8 * (plainText.length / 8))).length < 8 := by
  rw [List.length_drop]
  omega

theorem aesKeyUnwrap_wrap {key : List Byte} (plainText : List Byte) (hkey : keyLengthOk key) :
    ∃ cipherText, aesKeyWrap true key plainText = some cipherText ∧
      cipherText.length = plainText.length + 8 ∧
      aesKeyUnwrap true key cipherText = some plainText := by
  obtain ⟨iv, tail, rs, hiv, hrs, rfl, hlen, hwrap, hback⟩ := aesKeyWrap_parts plainText hkey
  refine ⟨_, hwrap, ?_, ?_⟩
  · rw [List.length_append, List.length_append, hiv, length_flatten_blocks hrs, hlen, List.length_drop]
    omega
  · rw [aesKeyUnwrap_blocks hkey hiv hrs (length_tail plainText), hback, flatten_blocks_append_drop]

/-! ### The integrity register -/

theorem recoveredIv_wrap {key plainText cipherText : List Byte} (hkey : keyLengthOk key)
    (h : aesKeyWrap true key plainText = some cipherText) : recoveredIv key cipherText = defaultIv := by
  obtain ⟨iv, tail, rs, hiv, hrs, rfl, -, hwrap, hback⟩ := aesKeyWrap_parts plainText hkey
  rw [hwrap, Option.some_inj] at h
  rw [← h, recoveredIv_blocks key hiv hrs (length_tail plainText), hback]

theorem aesKeyWrap_unwrap {key cipherText : List Byte} (hkey : keyLengthOk key)
    (hlen : 8 ≤ cipherText.length) (hiv : recoveredIv key cipherText = defaultIv) :
    ∃ plainText, aesKeyUnwrap true key cipherText = some plainText ∧
      aesKeyWrap true key plainText = some cipherText := by
  set n := (cipherText.length - 8) / 8 with hn
  have hproper : Proper Half (cipherText.take 8, blocks n (cipherText.drop 8)) :=
    ⟨by rw [Half, List.length_take]; omega, length_of_mem_blocks (by rw [List.length_drop]; omega)⟩
  have hD : ∀ a r, Half a → Half r → _ := fun a r _ _ => half_onBlock_decrypt key a r
  have hM : ∀ t a, Half a → Half (markIv t a) := fun t _ => half_markIv t
  have hback := wrapPasses_unwrapPasses hD hM (fun a r => onBlock_encrypt_decrypt key)
    (fun t a => markIv_markIv t) n 6 _ hproper
  obtain ⟨-, hrs⟩ := proper_unwrapPasses hD hM n 6 _ hproper
  have hrsLen := length_unwrapPasses (onBlock (rtAesDecrypt key)) markIv n 6
    (cipherText.take 8, blocks n (cipherText.drop 8))
  rw [length_blocks] at hrsLen
  set out := unwrapPasses (onBlock (rtAesDecrypt key)) markIv n 6
    (cipherText.take 8, blocks n (cipherText.drop 8)) with hout
  have hiv' : out.1 = defaultIv := hiv
  have hflat := length_flatten_blocks hrs
  set tail := (cipherText.drop 8).drop (8 * n) with htail
  have hplain : (out.2.flatten ++ tail).length / 8 = n := by
    rw [List.length_append, hflat, hrsLen, htail, List.length_drop, List.length_drop]
    omega
  have hblocks : blocks n (out.2.flatten ++ tail) = out.2 := by
    rw [← hrsLen]
    exact blocks_flatten_append tail hrs
  have hdrop : (out.2.flatten ++ tail).drop (8 * n) = tail := List.drop_left' (by rw [hflat, hrsLen])
  refine ⟨out.2.flatten ++ tail, if_pos ⟨hkey, rfl, hlen⟩, ?_⟩
  rw [aesKeyWrap, if_pos ⟨hkey, rfl⟩]
  simp only [hplain, hblocks, hdrop]
  rw [← hiv', Prod.mk.eta, hback, List.append_assoc, htail, flatten_blocks_append_drop, List.take_append_drop]

/-- A success of `AES_Key_Unwrap` says that the register is `Default_IV`. -/
def IntegrityChecked (alloc : Bool) (key cipherText : List Byte) : Prop :=
  aesKeyUnwrap alloc key cipherText ≠ none → recoveredIv key cipherText = defaultIv

/-- **The key wrap and its integrity register.** Unwrapping undoes wrapping. Its success says something
about the register only for texts that were wrapped under the same key, since nothing is compared. -/
theorem keyWrap_checked_iff (key : List Byte) :
    (keyLengthOk key → ∀ plainText : List Byte, plainText.length % 8 = 0 → 16 ≤ plainText.length →
      ∃ cipherText, aesKeyWrap true key plainText = some cipherText ∧
        aesKeyUnwrap true key cipherText = some plainText) ∧
    ∀ (alloc : Bool) (cipherText : List Byte), IntegrityChecked alloc key cipherText ↔
      (¬keyLengthOk key ∨ alloc = false ∨ cipherText.length < 8) ∨
        ∃ plainText, aesKeyWrap true key plainText = some cipherText := by
  constructor
  · intro hkey plainText _ _
    obtain ⟨cipherText, hwrap, -, hunwrap⟩ := aesKeyUnwrap_wrap plainText hkey
    exact ⟨cipherText, hwrap, hunwrap⟩
  · intro alloc cipherText
    constructor
    · intro hchecked
      by_cases hfail : ¬keyLengthOk key ∨ alloc = false ∨ cipherText.length < 8
      · exact Or.inl hfail
      · push Not at hfail
        obtain ⟨hkey, halloc, hlen⟩ := hfail
        have hiv := hchecked (by
          rw [aesKeyUnwrap, if_pos ⟨hkey, by simpa using halloc, hlen⟩]
          exact Option.some_ne_none _)
        obtain ⟨plainText, -, hwrap⟩ := aesKeyWrap_unwrap hkey hlen hiv
        exact Or.inr ⟨plainText, hwrap⟩
    · intro hwrapped hsome
      obtain ⟨hkey, halloc, hlen⟩ : keyLengthOk key ∧ alloc = true ∧ 8 ≤ cipherText.length := by
        by_contra hfail
        exact hsome (if_neg hfail)
      rcases hwrapped with (h | h | h) | ⟨plainText, hwrap⟩
      · exact absurd hkey h
      · exact absurd halloc (by simp [h])
      · omega
      · exact recoveredIv_wrap hkey hwrap

/-- Key data of eight zero bytes under a key of zeros are unwrapped with success. -/
theorem not_integrityChecked_zeros : ¬IntegrityChecked true (List.replicate 16 0) (List.replicate 8 0) := by
  intro h
  exact absurd (h (by decide)) (by decide)

end Mt7610u.Crypto
