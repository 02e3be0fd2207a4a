import Mt7610u.Crypto.Ccm
import Mt7610u.Lib.Ccm

/-! # Where `AES_CCM_Encrypt` is CCM

The counter block of the code counts in its last byte only, and additional data from `0xFF00` bytes on lack the
two bytes that mark the longer length field. -/

namespace Mt7610u.Crypto

open Lib

variable {key nonce : List Byte}

/-! ### Counter blocks -/

def ccmCounterLoop (n : ℕ) : ℕ → List Byte → ℕ → List (List Byte)
  | 0, _, _ => []
  | fuel + 1, blockCtr, index =>
    if index < n then
      let blockCtr := incBlockCtr blockCtr
      blockCtr :: ccmCounterLoop n fuel blockCtr (index + min (n - index) 16)
    else []

/-- The counter blocks of a message of `n` bytes: the one for the authentication code, and the others. -/
def ccmCounters (nonce : List Byte) (n : ℕ) : List (List Byte) :=
  ccmBlockCtr nonce :: ccmCounterLoop n n (ccmBlockCtr nonce) 0

theorem ccmCounterLoop_eq (nonce : List Byte) (n : ℕ) : ∀ (fuel i : ℕ), n - 16 * i ≤ fuel →
    ccmCounterLoop n fuel (ctrBlock nonce i) (min (16 * i) n) =
      (List.range ((n + 15) / 16 - i)).map fun k => ctrBlock nonce (i + 1 + k)
  | 0, i, h => by
    have hzero : (n + 15) / 16 - i = 0 := by omega
    rw [hzero]
    rfl
  | fuel + 1, i, h => by
    unfold ccmCounterLoop
    by_cases hlt : 16 * i < n
    · have hnext : min (16 * i) n + min (n - min (16 * i) n) 16 = min (16 * (i + 1)) n := by omega
      obtain ⟨k, hk⟩ : ∃ k, (n + 15) / 16 - i = k + 1 := ⟨(n + 15) / 16 - i - 1, by omega⟩
      have hrest : (n + 15) / 16 - (i + 1) = k := by omega
      rw [if_pos (by omega)]
      simp only [incBlockCtr_ctrBlock]
      rw [hnext, ccmCounterLoop_eq nonce n fuel (i + 1) (by omega), hk, hrest, List.range_succ_eq_map,
        List.map_cons, List.map_map]
      refine congrArg _ (List.map_congr_left fun j _ => ?_)
      simp only [Function.comp_apply]
      congr 1
      omega
    · have hzero : (n + 15) / 16 - i = 0 := by omega
      rw [if_neg (by omega), hzero]
      rfl

theorem ccmCounters_eq (hnonce : nonce.length ≤ 13) (n : ℕ) :
    ccmCounters nonce n = (List.range ((n + 15) / 16 + 1)).map (ctrBlock nonce) := by
  have hloop := ccmCounterLoop_eq nonce n n 0 (by omega)
  rw [Nat.mul_zero, Nat.zero_min, Nat.sub_zero, ctrBlock_zero hnonce] at hloop
  rw [ccmCounters, hloop, List.range_succ_eq_map, List.map_cons, List.map_map, ctrBlock_zero hnonce]
  refine congrArg _ (List.map_congr_left fun j _ => ?_)
  simp only [Function.comp_apply]
  congr 1
  omega

theorem getD_ctrBlock (nonce : List Byte) (i : ℕ) : (ctrBlock nonce i).getD 15 0 = BitVec.ofNat 8 i := by
  have hlen : 15 < ((ccmBlockCtr nonce).set 15 (BitVec.ofNat 8 i)).length := by
    rw [List.length_set, length_ccmBlockCtr]
    decide
  rw [ctrBlock, List.getD_eq_getElem _ _ hlen, List.getElem_set_self]

/-- **The counter blocks are distinct** up to 255 blocks of payload; the next one is the first again. -/
theorem nodup_ccmCounters_iff (hnonce : nonce.length ≤ 13) (n : ℕ) : (ccmCounters nonce n).Nodup ↔ n ≤ 4080 := by
  rw [ccmCounters_eq hnonce]
  constructor
  · intro hnodup
    by_contra hlong
    have hinj := List.inj_on_of_nodup_map hnodup
    have hzero := hinj (List.mem_range.2 (show 0 < (n + 15) / 16 + 1 by omega))
      (List.mem_range.2 (show 256 < (n + 15) / 16 + 1 by omega)) rfl
    exact absurd hzero (by decide)
  · intro hshort
    refine List.Nodup.map_on (fun i hi j hj hij => ?_) List.nodup_range
    have hi := List.mem_range.1 hi
    have hj := List.mem_range.1 hj
    have hbyte := congrArg (fun bs => (bs.getD 15 0).toNat) hij
    simp only [getD_ctrBlock, BitVec.toNat_ofNat] at hbyte
    omega

/-! ### Formatting -/

theorem getD_beOctets {l k : ℕ} (n : ℕ) (h : k < l) :
    (Ccm.beOctets l n).getD k 0 = BitVec.ofNat 8 (n / 256 ^ (l - 1 - k)) := by
  simp [Ccm.beOctets, h]

theorem getD_beOctets_small {l k n : ℕ} (hn : n < 2 ^ 16) (h : k + 2 < l) : (Ccm.beOctets l n).getD k 0 = 0 := by
  have hdiv : n / 256 ^ (l - 1 - k) = 0 := by
    refine Nat.div_eq_of_lt (hn.trans_le ?_)
    calc 2 ^ 16 = 256 ^ 2 := rfl
      _ ≤ 256 ^ (l - 1 - k) := Nat.pow_le_pow_right (by decide) (by omega)
  rw [getD_beOctets n (by omega), hdiv]
  rfl

theorem getD_cons_append (x : Byte) (xs ys : List Byte) (j : ℕ) :
    (x :: (xs ++ ys)).getD j 0 =
      if j = 0 then x else if j ≤ xs.length then xs.getD (j - 1) 0 else ys.getD (j - 1 - xs.length) 0 := by
  cases j with
  | zero => rfl
  | succ j =>
    rw [List.getD_cons_succ, if_neg (Nat.succ_ne_zero j)]
    split
    · exact List.getD_append _ _ _ _ (by omega)
    · rw [List.getD_append_right _ _ _ _ (by omega)]
      rfl

theorem getD_cons (x : Byte) (xs : List Byte) (j : ℕ) :
    (x :: xs).getD j 0 = if j = 0 then x else xs.getD (j - 1) 0 := by
  cases j with
  | zero => rfl
  | succ j => rfl

theorem getD_set (bs : List Byte) (i : ℕ) (x : Byte) {j : ℕ} (hj : j < bs.length) :
    (bs.set i x).getD j 0 = if i = j then x else bs.getD j 0 := by
  have hj' : j < (bs.set i x).length := by rwa [List.length_set]
  rw [List.getD_eq_getElem _ _ hj', List.getElem_set, List.getD_eq_getElem _ _ hj]

theorem set_zero {bs : List Byte} {i : ℕ} (hi : i < bs.length) (h : bs.getD i 0 = 0) : bs.set i 0#8 = bs := by
  rw [List.getD_eq_getElem _ _ hi] at h
  have hset := List.set_getElem_self hi
  rwa [h] at hset

theorem ctrBlock_eq_counterBlock (hnonce : nonce.length ≤ 13) {i : ℕ} (hi : i < 256) :
    ctrBlock nonce i = Ccm.counterBlock nonce i := by
  have hlen : (ccmBlockCtr nonce).length = 16 := length_ccmBlockCtr nonce
  refine block_ext (by rw [ctrBlock, List.length_set, hlen]) (by simp [Ccm.counterBlock]; omega) fun j hj => ?_
  rw [ctrBlock, getD_set _ _ _ (hlen ▸ hj), ccmBlockCtr, getD_padBlock _ hj, getD_cons, Ccm.counterBlock,
    getD_cons_append]
  by_cases h15 : j = 15
  · subst h15
    rw [if_pos rfl, if_neg (by decide), if_neg (by omega), getD_beOctets i (by omega),
      show 15 - nonce.length - 1 - (15 - 1 - nonce.length) = 0 by omega, Nat.pow_zero, Nat.div_one]
  · rw [if_neg (Ne.symm h15)]
    split
    · rfl
    · split
      · rfl
      · have hzero : nonce.getD (j - 1) 0 = 0 := List.getD_eq_default _ _ (by omega)
        have hdiv : i / 256 ^ (15 - nonce.length - 1 - (j - 1 - nonce.length)) = 0 := by
          refine Nat.div_eq_of_lt (hi.trans_le ?_)
          calc 256 = 256 ^ 1 := rfl
            _ ≤ _ := Nat.pow_le_pow_right (by decide) (by omega)
        rw [hzero, getD_beOctets i (by omega), hdiv]
        rfl

theorem ccmFlags_eq {macLength n : ℕ} (hmac : macLength ∈ [4, 6, 8, 10, 12, 14, 16]) (hnonce : 7 ≤ n ∧ n ≤ 13)
    (aadLength : ℕ) :
    (if 0 < aadLength then 0x40#8 else 0x00#8) ||| BitVec.ofNat 8 ((macLength - 2) / 2 * 8) |||
        BitVec.ofNat 8 (15 - n - 1) =
      BitVec.ofNat 8 ((if 0 < aadLength then 64 else 0) + 8 * ((macLength - 2) / 2) + (15 - n - 1)) := by
  have hall : ∀ macLength ∈ [4, 6, 8, 10, 12, 14, 16], ∀ n < 14, 7 ≤ n → ∀ b : Bool,
      (if b then 0x40#8 else 0x00#8) ||| BitVec.ofNat 8 ((macLength - 2) / 2 * 8) ||| BitVec.ofNat 8 (15 - n - 1) =
        BitVec.ofNat 8 ((if b then 64 else 0) + 8 * ((macLength - 2) / 2) + (15 - n - 1)) := by
    decide
  have hb := hall macLength hmac n (by omega) hnonce.1 (decide (0 < aadLength))
  simpa only [decide_eq_true_iff] using hb

theorem ccmFirstBlock_eq {macLength n : ℕ} (hmac : macLength ∈ [4, 6, 8, 10, 12, 14, 16])
    (hnonce : 7 ≤ nonce.length ∧ nonce.length ≤ 13) (hn : n < 2 ^ 16) (aadLength : ℕ) :
    ccmFirstBlock nonce n aadLength macLength = Ccm.firstBlock nonce n aadLength macLength := by
  have h24 : BitVec.ofNat 8 (n / 2 ^ 24) = 0#8 := by rw [Nat.div_eq_of_lt (by omega)]
  have h16 : BitVec.ofNat 8 (n / 2 ^ 16) = 0#8 := by rw [Nat.div_eq_of_lt hn]
  unfold ccmFirstBlock Ccm.firstBlock
  rw [ccmFlags_eq hmac hnonce, h24, h16]
  extract_lets flags block block' block'' lengthField
  have hpad : block.length = 16 := by simp [block, padBlock]
  -- the two high bytes of the length are zero already
  have hkeep : ∀ j < 16, nonce.length < j → block.getD j 0 = 0 := by
    intro j hj hlt
    rw [show block = padBlock (flags :: nonce) from rfl, getD_padBlock _ hj, getD_cons, if_neg (by omega)]
    exact List.getD_eq_default _ _ (by omega)
  have h12 : block' = block :=
    ite_eq_right_iff.2 fun hlt => set_zero (by rw [hpad]; decide) (hkeep 12 (by decide) hlt)
  have h13 : block'' = block := by
    rw [show block'' = if nonce.length < 13 then block'.set 13 0#8 else block' from rfl, h12]
    exact ite_eq_right_iff.2 fun hlt => set_zero (by rw [hpad]; decide) (hkeep 13 (by decide) hlt)
  rw [h13]
  refine block_ext (by rw [List.length_set, List.length_set, hpad])
    (by simp [lengthField]; omega) fun j hj => ?_
  rw [getD_set _ _ _ (by rw [List.length_set, hpad]; exact hj), getD_set _ _ _ (hpad ▸ hj),
    show block = padBlock (flags :: nonce) from rfl, getD_padBlock _ hj, getD_cons, getD_cons_append]
  by_cases h15 : 15 = j
  · subst h15
    rw [if_pos rfl, if_neg (by decide), if_neg (by omega), getD_beOctets n (by omega),
      show lengthField - 1 - (15 - 1 - nonce.length) = 0 by omega, Nat.pow_zero, Nat.div_one]
  · rw [if_neg h15]
    by_cases h14 : 14 = j
    · subst h14
      rw [if_pos rfl, if_neg (by decide), if_neg (by omega), getD_beOctets n (by omega),
        show lengthField - 1 - (14 - 1 - nonce.length) = 1 by omega]
      rfl
    · rw [if_neg h14]
      split
      · rfl
      · split
        · rfl
        · rw [getD_beOctets_small hn (by omega)]
          exact List.getD_eq_default _ _ (by omega)

theorem ccmAadLoop_eq (key : List Byte) : ∀ (n : ℕ) (head aad x : List Byte), head.length < 16 → aad ≠ [] →
    aad.length ≤ n → ccmAadLoop key n head aad x = absorb (rtAesEncrypt key) (head ++ aad).length x (head ++ aad)
  | 0, _, aad, _, _, hne, hlen => absurd (List.eq_nil_of_length_eq_zero (Nat.le_zero.1 hlen)) hne
  | n + 1, head, a :: rest, x, hhead, _, hlen => by
    rw [ccmAadLoop]
    obtain ⟨aad, haad⟩ : ∃ aad, aad = a :: rest := ⟨_, rfl⟩
    rw [← haad] at hlen ⊢
    have hpos : 0 < aad.length := by rw [haad]; exact Nat.succ_pos _
    obtain ⟨copyLength, hcopyLength⟩ : ∃ c, c = if 16 < min aad.length 16 + head.length then 16 - head.length
        else min aad.length 16 := ⟨_, rfl⟩
    rw [← hcopyLength]
    have hcopy : copyLength = min aad.length (16 - head.length) := by
      rw [hcopyLength]
      split <;> omega
    have hblock : head ++ aad.take copyLength = (head ++ aad).take 16 := by
      rw [List.take_append, List.take_of_length_le (show head.length ≤ 16 by omega), hcopy]
      rcases Nat.le_total aad.length (16 - head.length) with hle | hle
      · rw [Nat.min_eq_left hle, List.take_of_length_le le_rfl, List.take_of_length_le hle]
      · rw [Nat.min_eq_right hle]
    have hdrop : aad.drop copyLength = (head ++ aad).drop 16 := by
      rw [List.drop_append, List.drop_eq_nil_of_le (show head.length ≤ 16 by omega), List.nil_append, hcopy]
      rcases Nat.le_total aad.length (16 - head.length) with hle | hle
      · rw [Nat.min_eq_left hle, List.drop_of_length_le le_rfl, List.drop_of_length_le hle]
      · rw [Nat.min_eq_right hle]
    obtain ⟨k, hk⟩ : ∃ k, (head ++ aad).length = k + 1 := ⟨(head ++ aad).length - 1, by
      rw [List.length_append]
      omega⟩
    have hne : head ++ aad ≠ [] := List.ne_nil_of_length_eq_add_one hk
    rw [hk, absorb_succ _ _ _ hne, hblock, hdrop]
    by_cases hrest : (head ++ aad).drop 16 = []
    · rw [hrest, absorb_nil]
      cases n <;> rfl
    · have hshort : ((head ++ aad).drop 16).length ≤ n := by
        rw [← hdrop, List.length_drop, hcopy]
        have : aad.length ≤ n + 1 := hlen
        omega
      rw [ccmAadLoop_eq key n [] _ _ (by decide) hrest hshort, List.nil_append]
      refine absorb_of_le _ _ le_rfl ?_
      rw [List.length_drop]
      omega

/-! ### The authentication code -/

section Mac

variable {macLength : ℕ} {aad payload : List Byte}

theorem rtAesEncrypt_inj (key : List Byte) {a b : List Byte} (ha : a.length = 16) (hb : b.length = 16)
    (h : rtAesEncrypt key a = rtAesEncrypt key b) : a = b := by
  rw [← rtAesDecrypt_encrypt key ha, h, rtAesDecrypt_encrypt key hb]

theorem ccmAad_short (key : List Byte) (h : aad.length < 0xFF00) (x : List Byte) :
    ccmAad key aad x = absorb (rtAesEncrypt key) (Ccm.aadHead aad.length ++ aad).length x
      (Ccm.aadHead aad.length ++ aad) := by
  unfold ccmAad Ccm.aadHead
  by_cases hzero : aad.length = 0
  · obtain rfl := List.eq_nil_of_length_eq_zero hzero
    rfl
  · have hne : aad ≠ [] := fun hnil => hzero (congrArg List.length hnil)
    have hhead : Ccm.beOctets 2 aad.length = [BitVec.ofNat 8 (aad.length / 2 ^ 8), BitVec.ofNat 8 aad.length] := by
      simp [Ccm.beOctets, List.range_succ]
    simp only
    rw [if_pos ⟨by omega, h⟩, if_neg hzero, if_pos (by omega), hhead]
    exact ccmAadLoop_eq key _ _ _ x (show 2 < 16 by decide) hne le_rfl

theorem ccmAad_long (key : List Byte) (h : 0xFF00 ≤ aad.length) (x : List Byte) :
    ccmAad key aad x = absorb (rtAesEncrypt key) (aad.length + 6) x
      ([0x00#8, 0x00#8] ++ Ccm.beOctets 4 aad.length ++ aad) := by
  have hne : aad ≠ [] := fun hnil => by
    rw [hnil] at h
    exact absurd h (by decide)
  have hhead : Ccm.beOctets 4 aad.length = [BitVec.ofNat 8 (aad.length / 2 ^ 24),
      BitVec.ofNat 8 (aad.length / 2 ^ 16), BitVec.ofNat 8 (aad.length / 2 ^ 8), BitVec.ofNat 8 aad.length] := by
    simp [Ccm.beOctets, List.range_succ]
  unfold ccmAad
  simp only
  rw [if_neg (by omega), hhead]
  refine (ccmAadLoop_eq key _ _ _ x (by simp) hne le_rfl).trans ?_
  exact absorb_of_le _ _ le_rfl (by simp)

theorem aadHead_long (h : 0xFF00 ≤ aad.length) (hlt : aad.length < 2 ^ 32) :
    Ccm.aadHead aad.length = [0xff#8, 0xfe#8] ++ Ccm.beOctets 4 aad.length := by
  unfold Ccm.aadHead
  rw [if_neg (by omega), if_neg (by omega), if_pos hlt]

theorem length_ccmAad (key aad : List Byte) {x : List Byte} (hx : x.length = 16) : (ccmAad key aad x).length = 16 := by
  simp only [ccmAad]
  split_ifs
  · exact length_ccmAadLoop key _ _ _ hx
  · exact length_ccmAadLoop key _ _ _ hx

theorem absorb_first_ne (key : List Byte) {a b c d : Byte} (hab : a ≠ b) (n : ℕ) (rest : List Byte)
    {x : List Byte} : absorb (rtAesEncrypt key) (n + 1) x (a :: c :: rest) ≠
      absorb (rtAesEncrypt key) (n + 1) x (b :: d :: rest) := by
  intro heq
  have hlen := length_rtAesEncrypt key
  have hinj := @rtAesEncrypt_inj key
  rw [absorb_succ _ _ _ (List.cons_ne_nil _ _), absorb_succ _ _ _ (List.cons_ne_nil _ _)] at heq
  have hblock := hinj (length_xorBlock _ _) (length_xorBlock _ _)
    (Ccm.absorb_injective hlen hinj _ _ (hlen _) (hlen _) heq)
  have hbyte := congrArg (fun bs => bs.getD 0 0) hblock
  simp only [xorBlock, List.range_succ_eq_map, List.map_cons, List.getD_cons_zero, BitVec.xor_right_inj] at hbyte
  exact hab hbyte

variable (hmac : macLength ∈ [4, 6, 8, 10, 12, 14, 16]) (hnonce : 7 ≤ nonce.length ∧ nonce.length ≤ 13)
  (hn : payload.length < 2 ^ 16)
include hmac hnonce hn

theorem aesCcmMac_eq_tag (h : aad.length < 0xFF00) :
    aesCcmMac key payload nonce aad macLength = Ccm.tag (rtAesEncrypt key) nonce aad macLength payload := by
  unfold aesCcmMac Ccm.tag
  rw [ccmFirstBlock_eq hmac hnonce hn]
  simp only [ccmAad_short key h]

theorem aesCcmMac_ne_tag (h : 0xFF00 ≤ aad.length) (hlt : aad.length < 2 ^ 32) (h16 : macLength = 16) :
    aesCcmMac key payload nonce aad macLength ≠ Ccm.tag (rtAesEncrypt key) nonce aad macLength payload := by
  unfold aesCcmMac Ccm.tag
  simp only
  rw [ccmFirstBlock_eq hmac hnonce hn, aadHead_long h hlt, ccmAad_long key h]
  generalize hx : rtAesEncrypt key (Ccm.firstBlock nonce payload.length aad.length macLength) = x
  have hxlen : x.length = 16 := hx ▸ length_rtAesEncrypt key _
  have hinj := @rtAesEncrypt_inj key
  have hlen := length_rtAesEncrypt key
  have habs := fun n (bs : List Byte) => length_absorb hlen n hxlen bs
  intro heq
  rw [h16, List.take_of_length_le (length_absorb hlen _ (habs _ _) _).le,
    List.take_of_length_le (length_absorb hlen _ (habs _ _) _).le] at heq
  have haad := Ccm.absorb_injective hlen hinj _ _ (habs _ _) (habs _ _) heq
  rw [show ([0xff#8, 0xfe#8] ++ Ccm.beOctets 4 aad.length ++ aad).length = aad.length + 6 by simp; omega] at haad
  exact absorb_first_ne key (by decide) _ _ haad

end Mac

/-! ### Encryption and decryption -/

section Calls

variable {macLength : ℕ} {aad : List Byte}

theorem ccmCheck_iff : ccmCheck key nonce macLength = 0 ↔
    key.length = 16 ∧ (7 ≤ nonce.length ∧ nonce.length ≤ 13) ∧ macLength ∈ [4, 6, 8, 10, 12, 14, 16] := by
  unfold ccmCheck
  split_ifs with h1 h2 h3
  · exact iff_of_false (by decide) fun h => h1 h.1
  · exact iff_of_false (by decide) fun h => by omega
  · exact iff_of_true rfl ⟨not_not.1 h1, by omega, h3⟩
  · exact iff_of_false (by decide) fun h => h3 h.2.2

def maskWith (key nonce : List Byte) (macLength : ℕ) (mac : List Byte) : List Byte :=
  (xorBlock mac (rtAesEncrypt key (ccmBlockCtr nonce))).take macLength

theorem length_maskWith (h : macLength ≤ 16) (mac : List Byte) :
    (maskWith key nonce macLength mac).length = macLength := by
  rw [maskWith, List.length_take, length_xorBlock, Nat.min_eq_left h]

theorem getD_maskWith (h : macLength ≤ 16) (mac : List Byte) {i : ℕ} (hi : i < macLength) :
    (maskWith key nonce macLength mac).getD i 0 =
      mac.getD i 0 ^^^ (rtAesEncrypt key (ccmBlockCtr nonce)).getD i 0 := by
  have hlen : i < (maskWith key nonce macLength mac).length := by rwa [length_maskWith h]
  rw [List.getD_eq_getElem _ _ hlen]
  simp [maskWith, xorBlock]

theorem maskWith_inj (h : macLength ≤ 16) {a b : List Byte} (ha : a.length = macLength)
    (hb : b.length = macLength) (hab : maskWith key nonce macLength a = maskWith key nonce macLength b) : a = b := by
  refine List.ext_getElem (ha.trans hb.symm) fun i h1 h2 => ?_
  have hget : (maskWith key nonce macLength a).getD i 0 = (maskWith key nonce macLength b).getD i 0 :=
    congrArg (fun bs => bs.getD i 0) hab
  rw [getD_maskWith h a (ha ▸ h1), getD_maskWith h b (ha ▸ h1), BitVec.xor_left_inj, List.getD_eq_getElem _ _ h1,
    List.getD_eq_getElem _ _ h2] at hget
  exact hget

theorem maskWith_maskWith (h : macLength ≤ 16) {mac : List Byte} (hlen : mac.length = macLength) :
    maskWith key nonce macLength (maskWith key nonce macLength mac) = mac := by
  refine List.ext_getElem (by rw [length_maskWith h, hlen]) fun i h1 h2 => ?_
  rw [← List.getD_eq_getElem _ 0 h1, getD_maskWith h _ (hlen ▸ h2), getD_maskWith h _ (hlen ▸ h2),
    BitVec.xor_assoc, BitVec.xor_self, BitVec.xor_zero, List.getD_eq_getElem _ _ h2]

theorem length_mac (h : macLength ≤ 16) (key payload nonce aad : List Byte) :
    (aesCcmMac key payload nonce aad macLength).length = macLength := by
  unfold aesCcmMac
  rw [List.length_take, length_absorb (length_rtAesEncrypt key) _ (length_ccmAad key aad (length_rtAesEncrypt _ _))]
  omega

theorem length_tag (nonce : List Byte) (h : macLength ≤ 16) (key aad payload : List Byte) :
    (Ccm.tag (rtAesEncrypt key) nonce aad macLength payload).length = macLength := by
  have hlen := length_rtAesEncrypt key
  unfold Ccm.tag
  rw [List.length_take, length_absorb hlen _ (length_absorb hlen _ (hlen _) _)]
  omega

theorem le_of_mem_macLengths (h : macLength ∈ [4, 6, 8, 10, 12, 14, 16]) : macLength ≤ 16 := by
  revert macLength
  decide

variable (hcheck : ccmCheck key nonce macLength = 0)
include hcheck

theorem aesCcmEncrypt_of_check (m : ℕ → Byte) {plain cipher n len : ℕ} (h : Clear cipher plain n)
    (hlen : n + macLength ≤ len) :
    aesCcmEncrypt key m plain n nonce aad macLength cipher len =
      ⟨0, copy m cipher (xorFrom (ccmStream key nonce) 0 (readAt m plain n) ++
        maskWith key nonce macLength (aesCcmMac key (readAt m plain n) nonce aad macLength)), n + macLength⟩ := by
  obtain ⟨-, hnonce, -⟩ := ccmCheck_iff.1 hcheck
  have hmod : (n + macLength) % 2 ^ 32 ≤ n + macLength := Nat.mod_le _ _
  unfold aesCcmEncrypt
  rw [if_neg (not_not.2 hcheck), if_neg (by omega)]
  simp only [ccmPayloadLoop_all key hnonce.2 h]
  rw [copy_append, length_xorFrom, length_readAt]
  rfl

theorem aesCcmDecrypt_of_check (m : ℕ → Byte) {plain cipher n len : ℕ} (h : Clear plain cipher n)
    (hn : n + macLength < 2 ^ 32) (hlen : n ≤ len) :
    aesCcmDecrypt key m cipher (n + macLength) nonce aad macLength plain len =
      if maskWith key nonce macLength (readAt m (cipher + n) macLength) ≠
          aesCcmMac key (xorFrom (ccmStream key nonce) 0 (readAt m cipher n)) nonce aad macLength then
        ⟨-5, copy m plain (xorFrom (ccmStream key nonce) 0 (readAt m cipher n)), n⟩
      else ⟨0, copy m plain (xorFrom (ccmStream key nonce) 0 (readAt m cipher n)), n⟩ := by
  obtain ⟨-, hnonce, hmac⟩ := ccmCheck_iff.1 hcheck
  have hmac16 := le_of_mem_macLengths hmac
  have hsub : (n + macLength + (2 ^ 32 - macLength)) % 2 ^ 32 = n := by omega
  have hplain : readAt (copy m plain (xorFrom (ccmStream key nonce) 0 (readAt m cipher n))) plain n =
      xorFrom (ccmStream key nonce) 0 (readAt m cipher n) := by
    have hread := readAt_copy m plain (xorFrom (ccmStream key nonce) 0 (readAt m cipher n))
    rw [length_xorFrom, length_readAt] at hread
    exact hread
  simp only [aesCcmDecrypt, hsub, ccmPayloadLoop_all key hnonce.2 h, hplain]
  rw [if_neg (not_not.2 hcheck), if_neg (by omega)]
  rfl

end Calls

/-! ### CCM -/

section Sound

variable {macLength : ℕ} {aad payload : List Byte}

theorem ccmStream_eq (hnonce : nonce.length ≤ 13) (hshort : payload.length ≤ 4080) :
    xorFrom (ccmStream key nonce) 0 payload = xorFrom (Ccm.stream (rtAesEncrypt key) nonce) 0 payload := by
  refine xorFrom_congr fun i _ hi => ?_
  rw [ccmStream, Ccm.stream, ctrBlock_eq_counterBlock hnonce (by omega)]

theorem maskWith_eq (hnonce : nonce.length ≤ 13) (t : List Byte) :
    maskWith key nonce macLength t = Ccm.mask (rtAesEncrypt key) nonce macLength t := by
  rw [maskWith, Ccm.mask, ← ctrBlock_eq_counterBlock hnonce (by decide), ctrBlock_zero hnonce]

/-- The calls for a payload are CCM: the counter blocks are distinct, encryption is that of CCM, decryption
gives the payload back, and rejects a text of this length if the code differs from the one that is computed
again, and only then. -/
structure CcmSound (key nonce aad : List Byte) (macLength : ℕ) (payload : List Byte) : Prop where
  distinct : (ccmCounters nonce payload.length).Nodup
  encrypts : ∀ (m : ℕ → Byte) (plain cipher len : ℕ), Clear cipher plain payload.length →
    readAt m plain payload.length = payload → payload.length + macLength ≤ len →
      aesCcmEncrypt key m plain payload.length nonce aad macLength cipher len =
        ⟨0, copy m cipher (Ccm.encrypt (rtAesEncrypt key) nonce aad macLength payload), payload.length + macLength⟩
  decrypts : ∀ (m : ℕ → Byte) (plain cipher len plain' len' : ℕ), Clear cipher plain payload.length →
    readAt m plain payload.length = payload → payload.length + macLength ≤ len →
      Clear plain' cipher payload.length → payload.length ≤ len' →
        let sent := aesCcmEncrypt key m plain payload.length nonce aad macLength cipher len
        aesCcmDecrypt key sent.mem cipher sent.length nonce aad macLength plain' len' =
          ⟨0, copy sent.mem plain' payload, payload.length⟩
  rejects : ∀ (m : ℕ → Byte) (cipher plain len : ℕ), Clear plain cipher payload.length → payload.length ≤ len →
    let out := aesCcmDecrypt key m cipher (payload.length + macLength) nonce aad macLength plain len
    (out.status = 0 ∨ out.status = -5) ∧ (out.status = -5 ↔
      maskWith key nonce macLength (readAt m (cipher + payload.length) macLength) ≠
        aesCcmMac key (readAt out.mem plain payload.length) nonce aad macLength)

section

variable (hcheck : ccmCheck key nonce macLength = 0) (hn : payload.length + macLength < 2 ^ 32)
include hcheck hn

theorem aesCcmDecrypt_encrypt (m : ℕ → Byte) {plain cipher len plain' len' : ℕ}
    (hclear : Clear cipher plain payload.length) (hread : readAt m plain payload.length = payload)
    (hlen : payload.length + macLength ≤ len) (hclear' : Clear plain' cipher payload.length)
    (hlen' : payload.length ≤ len') :
    let sent := aesCcmEncrypt key m plain payload.length nonce aad macLength cipher len
    aesCcmDecrypt key sent.mem cipher sent.length nonce aad macLength plain' len' =
      ⟨0, copy sent.mem plain' payload, payload.length⟩ := by
  have hmac16 := le_of_mem_macLengths (ccmCheck_iff.1 hcheck).2.2
  rw [aesCcmEncrypt_of_check hcheck m hclear hlen, hread]
  simp only
  rw [aesCcmDecrypt_of_check hcheck _ hclear' hn hlen']
  generalize htext : xorFrom (ccmStream key nonce) 0 payload = text
  generalize hcode : maskWith key nonce macLength (aesCcmMac key payload nonce aad macLength) = code
  have htextLen : text.length = payload.length := by rw [← htext, length_xorFrom]
  have hcodeLen : code.length = macLength := by rw [← hcode, length_maskWith hmac16]
  have hboth := (holdsAt_append.1 (holdsAt_copy m cipher (text ++ code)))
  unfold HoldsAt at hboth
  rw [htextLen, hcodeLen] at hboth
  rw [hboth.1, hboth.2, ← htext, xorFrom_xorFrom, ← hcode,
    maskWith_maskWith hmac16 (length_mac hmac16 ..), if_neg (not_not.2 rfl)]

theorem aesCcmDecrypt_rejects (m : ℕ → Byte) {cipher plain len : ℕ} (hclear : Clear plain cipher payload.length)
    (hlen : payload.length ≤ len) :
    let out := aesCcmDecrypt key m cipher (payload.length + macLength) nonce aad macLength plain len
    (out.status = 0 ∨ out.status = -5) ∧ (out.status = -5 ↔
      maskWith key nonce macLength (readAt m (cipher + payload.length) macLength) ≠
        aesCcmMac key (readAt out.mem plain payload.length) nonce aad macLength) := by
  rw [aesCcmDecrypt_of_check hcheck m hclear hn hlen]
  generalize htext : xorFrom (ccmStream key nonce) 0 (readAt m cipher payload.length) = text
  have hread : readAt (copy m plain text) plain payload.length = text := by
    have hread := readAt_copy m plain text
    rw [← htext, length_xorFrom, length_readAt] at hread
    rwa [htext] at hread
  split
  · next hne =>
    refine ⟨.inr rfl, iff_of_true rfl ?_⟩
    rw [hread]
    exact hne
  · next heq =>
    refine ⟨.inl rfl, iff_of_false (show (0 : ℤ) ≠ -5 by decide) ?_⟩
    rw [hread]
    exact heq

end

/-- **CCM.** The calls are CCM up to 255 blocks of payload and below `0xFF00` bytes of additional data. Beyond
that a code of less than 16 bytes may still be the same by accident. -/
theorem ccmSound_iff (hcheck : ccmCheck key nonce macLength = 0) (haad : aad.length < 2 ^ 32) :
    CcmSound key nonce aad macLength payload ↔
      payload.length ≤ 4080 ∧ (aad.length < 0xFF00 ∨ macLength < 16 ∧
        aesCcmMac key payload nonce aad macLength =
          Ccm.tag (rtAesEncrypt key) nonce aad macLength payload) := by
  obtain ⟨-, hnonce, hmac⟩ := ccmCheck_iff.1 hcheck
  have hmac16 := le_of_mem_macLengths hmac
  constructor
  · intro hsound
    have hshort := (nodup_ccmCounters_iff hnonce.2 _).1 hsound.distinct
    refine ⟨hshort, ?_⟩
    by_cases hlong : aad.length < 0xFF00
    · exact .inl hlong
    · right
      have hread : readAt (mem payload) 0 payload.length = payload := by
        have hread := read_mem_length payload
        unfold readAt
        simpa only [Nat.zero_add] using hread
      have hcall := hsound.encrypts (mem payload) 0 0 _ (.inl le_rfl) hread le_rfl
      rw [aesCcmEncrypt_of_check hcheck _ (.inl le_rfl) le_rfl, hread, CcmResult.mk.injEq, Ccm.encrypt,
        ← ccmStream_eq hnonce.2 hshort, ← maskWith_eq hnonce.2] at hcall
      have htag := length_tag nonce hmac16 key aad payload
      generalize hA : xorFrom (ccmStream key nonce) 0 payload = text at hcall
      have hboth := congrArg (fun m => readAt m 0 (text.length + macLength)) hcall.2.1
      have hreads : ∀ t : List Byte, readAt (copy (mem payload) 0 (text ++ maskWith key nonce macLength t)) 0
          (text.length + macLength) = text ++ maskWith key nonce macLength t := by
        intro t
        have hread := readAt_copy (mem payload) 0 (text ++ maskWith key nonce macLength t)
        rwa [List.length_append, length_maskWith hmac16] at hread
      simp only [hreads] at hboth
      have hmaskEq := List.append_cancel_left hboth
      have heq := maskWith_inj hmac16 (length_mac hmac16 ..) htag hmaskEq
      refine ⟨?_, heq⟩
      by_contra h16
      exact aesCcmMac_ne_tag hmac hnonce (by omega) (by omega) haad (by omega) heq
  · rintro ⟨hshort, htag⟩
    have hn : payload.length + macLength < 2 ^ 32 := by omega
    have hcode : aesCcmMac key payload nonce aad macLength =
        Ccm.tag (rtAesEncrypt key) nonce aad macLength payload := by
      rcases htag with hlt | ⟨-, heq⟩
      · exact aesCcmMac_eq_tag hmac hnonce (by omega) hlt
      · exact heq
    refine ⟨(nodup_ccmCounters_iff hnonce.2 _).2 hshort, fun m plain cipher len hclear hread hlen => ?_,
      fun m _ _ _ _ _ => aesCcmDecrypt_encrypt hcheck hn m, fun m _ _ _ => aesCcmDecrypt_rejects hcheck hn m⟩
    rw [aesCcmEncrypt_of_check hcheck m hclear hlen, hread, hcode, ccmStream_eq hnonce.2 hshort,
      maskWith_eq hnonce.2, Ccm.encrypt]

theorem ccmSound_byte : CcmSound (List.replicate 16 0) (List.replicate 13 0) [0x88] 8 [0x61] :=
  (ccmSound_iff (by decide) (by decide)).2 ⟨by decide, .inl (by decide)⟩

/-- With 256 blocks the last is encrypted under the block of the authentication code. -/
theorem not_ccmSound : ¬CcmSound (List.replicate 16 0) (List.replicate 13 0) [] 8 (List.replicate 4096 0) := by
  intro h
  have hshort := (nodup_ccmCounters_iff (by decide) _).1 h.distinct
  rw [List.length_replicate] at hshort
  exact absurd hshort (by decide)

end Sound

end Mt7610u.Crypto
