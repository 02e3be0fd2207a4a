import Mt7610u.Crypto.Hmac
import Mt7610u.Wpa.ReplayCounter

/-! # The derivation of keys (`common/cmm_wpa.c`)

`PRF`, `RtmpPasswordHash` with its function `F`, `KDF` and `WpaDerivePTK`, with the buffers that they put their
messages together in. -/

namespace Mt7610u.Wpa

open Lib Lib.KeyDerivation Crypto

namespace Keys

namespace Standard

/-- The pseudo-random function of 802.11i: label, an octet 0, data, and the number of the block as an octet. -/
def prf (key label data : List Byte) (len : ℕ) : List Byte :=
  expand (fun i => Crypto.Standard.hmacSha1 key (label ++ 0 :: (data ++ [BitVec.ofNat 8 i]))) 20 len

/-- The key derivation function of 802.11r: the number of the block, label, context and the length in bits, the
two numbers with 16 bits. -/
def kdf (key label context : List Byte) (len : ℕ) : List Byte :=
  expand (fun i => Crypto.Standard.hmacSha256 key
    (leBytes (BitVec.ofNat 16 (i + 1)) ++ (label ++ (context ++ leBytes (BitVec.ofNat 16 (8 * len)))))) 32 len

def pbkdf2Sha1 (password salt : List Byte) (c len : ℕ) : List Byte :=
  pbkdf2 Crypto.Standard.hmacSha1 20 (fun i => beBytes (BitVec.ofNat 32 i)) password salt c len

end Standard

/-! ### The code -/

/-- `NdisMoveMemory` into a buffer of `size` bytes; `none` if it writes behind it. -/
def moveInto (size : ℕ) (m : ℕ → Byte) (off : ℕ) (bs : List Byte) : Option (ℕ → Byte) :=
  if off + bs.length ≤ size then some (copy m off bs) else none

/-- `input[idx]++` -/
def increment (idx : ℕ) (m : ℕ → Byte) : ℕ → Byte := fun i => if i = idx then m i + 1 else m i

/-- `PRF`. `input` is the allocated memory, if there is any; the result is the memory behind `output`. -/
def prf (input : Option (ℕ → Byte)) (key : Piece) (label data : List Byte) (output : ℕ → Byte) (len : ℕ) :
    Option (ℕ → Byte) :=
  match input with
  | none => some output
  | some input => do
    let input ← moveInto 1024 input 0 label
    let input ← moveInto 1024 input label.length [0]
    let input ← moveInto 1024 input (label.length + 1) data
    let totalLen := label.length + 1 + data.length
    let input ← moveInto 1024 input totalLen [0]
    let totalLen := totalLen + 1
    fillBlocks (fun input => rtHmacSha1 key (.ofBuffer input (BitVec.ofNat 32 totalLen)) 20)
      (increment (totalLen - 1)) 20 ((len + 19) / 20) 0 input output

/-- The loop of `F`, with `digest1` and what has gone to `output`. -/
def fLoop (password : Piece) : ℕ → List Byte → List Byte → Option (List Byte)
  | 0, _, output => some output
  | n + 1, digest1, output => do
    let digest ← rtHmacSha1 password (.ofBuffer (mem digest1) 20) 20
    fLoop password n digest (xorBytes output digest)

/-- `F`; `digest` is what the stack has in the buffer of 36 bytes. -/
def f (digest : ℕ → Byte) (password : Piece) (ssid : List Byte) (iterations : ℕ) (count : BitVec 32) :
    Option (List Byte) := do
  let digest ← moveInto 36 digest 0 ssid
  let digest ← moveInto 36 digest ssid.length
    [(count >>> 24 &&& 0xff).setWidth 8, (count >>> 16 &&& 0xff).setWidth 8, (count >>> 8 &&& 0xff).setWidth 8,
      (count &&& 0xff).setWidth 8]
  let digest1 ← rtHmacSha1 password (.ofBuffer digest (BitVec.ofNat 32 (ssid.length + 4))) 20
  fLoop password (iterations - 1) digest1 digest1

/-- `RtmpPasswordHash`: the return value, and the memory behind `output`. -/
def rtmpPasswordHash (stack : ℕ → Byte) (password : Piece) (ssid : List Byte) (output : ℕ → Byte) :
    Option (ℕ × (ℕ → Byte)) :=
  if password.1.length > 63 ∨ ssid.length > 32 then some (0, output)
  else do
    let first ← f stack password ssid 4096 1
    let second ← f stack password ssid 4096 2
    return (1, copy (copy output 0 first) 20 second)

/-- `KDF`; `len` is a `USHORT`. -/
def kdf (input : Option (ℕ → Byte)) (key : Piece) (label data : List Byte) (output : ℕ → Byte) (len : BitVec 16) :
    Option (ℕ → Byte) :=
  match input with
  | none => some output
  | some _ => do
    let lenInBits := len.setWidth 32 <<< 3
    let input := copy (mem []) 0 [1, 0]
    let totalLen := 2
    let input ← moveInto 1024 input totalLen label
    let totalLen := totalLen + label.length
    let input ← moveInto 1024 input totalLen data
    let totalLen := totalLen + data.length
    let input ← moveInto 1024 input totalLen
      [(lenInBits &&& 0xff).setWidth 8, ((lenInBits &&& 0xff00) >>> 8).setWidth 8]
    let totalLen := totalLen + 2
    fillBlocks (fun input => rtHmacSha256 key (.ofBuffer input (BitVec.ofNat 32 totalLen)) 32)
      (increment 0) 32 ((lenInBits.toNat + 255) / 256) 0 input output

/-- The label of `WpaDerivePTK`: "Pairwise key expansion". -/
def ptkLabel : List Byte := "Pairwise key expansion".toList.map fun c => BitVec.ofNat 8 c.toNat

/-- `concatenation` of `WpaDerivePTK`: the addresses and the nonces in order. -/
def ptkData (aNonce : Bytes 32) (aa : Bytes 6) (sNonce : Bytes 32) (sa : Bytes 6) : List Byte :=
  let aNonce := List.ofFn aNonce
  let sNonce := List.ofFn sNonce
  let aa := List.ofFn aa
  let sa := List.ofFn sa
  let concatenation := copy (mem []) 0 (if rtmpCompareMemory sa aa = 1 then aa else sa)
  let concatenation := copy concatenation 6 (if rtmpCompareMemory sa aa = 1 then sa else aa)
  -- the larger address, with zeros, for a proprietary use with equal nonces
  let temp := copy (mem []) 0 (readAt concatenation 6 6)
  let concatenation := copy concatenation 12 <|
    if rtmpCompareMemory aNonce sNonce = 0 then Lib.read temp 32
    else if rtmpCompareMemory aNonce sNonce = 1 then sNonce else aNonce
  let concatenation := copy concatenation 44 <|
    if rtmpCompareMemory aNonce sNonce = 0 then Lib.read temp 32
    else if rtmpCompareMemory aNonce sNonce = 1 then aNonce else sNonce
  Lib.read concatenation 76

def wpaDerivePTK (input : Option (ℕ → Byte)) (pmk : Bytes 32) (aNonce : Bytes 32) (aa : Bytes 6) (sNonce : Bytes 32)
    (sa : Bytes 6) (output : ℕ → Byte) (len : ℕ) : Option (ℕ → Byte) :=
  prf input ⟨List.ofFn pmk, by rw [List.length_ofFn]; decide⟩ ptkLabel (ptkData aNonce aa sNonce sa) output len

/-! ### Buffers -/

variable {m : ℕ → Byte} {bs xs ys : List Byte} {b : Byte} {n : ℕ}

theorem moveInto_eq {size off : ℕ} (h : off + bs.length ≤ size) : moveInto size m off bs = some (copy m off bs) :=
  if_pos h

theorem ofBuffer_eq (h : HoldsAt m 0 bs) (hn : n = bs.length) (hlt : n < 2 ^ 32) :
    (Piece.ofBuffer m (BitVec.ofNat 32 n)).1 = bs := by
  show Lib.read m (BitVec.ofNat 32 n).toNat = bs
  rw [BitVec.toNat_ofNat, Nat.mod_eq_of_lt hlt, hn]
  have hread := h
  unfold HoldsAt readAt at hread
  simpa only [Nat.zero_add] using hread

theorem HoldsAt.increment (h : HoldsAt m 0 (xs ++ b :: ys)) :
    HoldsAt (increment xs.length m) 0 (xs ++ (b + 1) :: ys) := by
  have hat : m xs.length = b := by
    have hall := holdsAt_iff.1 h xs.length (by simp)
    rw [Nat.zero_add] at hall
    rw [hall]
    exact mem_append_right xs (b :: ys) 0
  have hpatch := HoldsAt.patch [b + 1] (show HoldsAt m 0 (xs ++ ([b] ++ ys)) from h) rfl (Nat.zero_add _).symm
  refine hpatch.congr fun i _ _ => ?_
  unfold Keys.increment copy
  by_cases hi : i = xs.length
  · rw [if_pos hi, if_pos (by simp [hi]), hi, hat]
    simp [mem]
  · rw [if_neg hi, if_neg (by simp; omega)]

theorem HoldsAt.iterate_increment (h : HoldsAt m 0 (xs ++ b :: ys)) (n : ℕ) :
    HoldsAt ((Keys.increment xs.length)^[n] m) 0 (xs ++ (b + BitVec.ofNat 8 n) :: ys) := by
  induction n with
  | zero => simpa using h
  | succ n ih =>
    rw [Function.iterate_succ_apply', BitVec.ofNat_add, ← BitVec.add_assoc]
    exact HoldsAt.increment ih

/-! ### The pseudo-random function -/

/-- **`PRF`** is that of 802.11i for all inputs that fit the work buffer. -/
theorem prf_eq (input : ℕ → Byte) (key : Piece) {label data : List Byte} (output : ℕ → Byte) (len : ℕ)
    (hfits : label.length + data.length + 2 ≤ 1024) :
    ∃ out, prf (some input) key label data output len = some out ∧
      Lib.read out len = Standard.prf key.1 label data len := by
  have hlen : (label ++ 0 :: data).length = label.length + 1 + data.length := by
    rw [List.length_append, List.length_cons]
    omega
  have hbuf : HoldsAt (copy (copy (copy (copy input 0 label) label.length [0]) (label.length + 1) data)
      (label.length + 1 + data.length) [0]) 0 ((label ++ 0 :: data) ++ 0 :: []) := by
    have h0 := (holdsAt_copy input 0 label).append_copy [0] (Nat.zero_add _).symm
    have h1 := h0.append_copy (p := label.length + 1) data (by simp)
    have h2 := h1.append_copy (p := label.length + 1 + data.length) [0] (by simp; omega)
    rwa [List.append_assoc label [0] data] at h2
  unfold prf
  simp only [Option.bind_eq_bind]
  rw [moveInto_eq (by omega), Option.bind_some, moveInto_eq (by rw [List.length_singleton]; omega), Option.bind_some,
    moveInto_eq (by omega), Option.bind_some, moveInto_eq (by rw [List.length_singleton]; omega), Option.bind_some,
    Nat.add_sub_cancel, ← hlen]
  rw [← hlen] at hbuf
  refine read_fillBlocks (by decide) (fun i => Crypto.Standard.length_hmacSha1 _ _) fun i _ => ?_
  have hmsg := HoldsAt.iterate_increment hbuf i
  rw [show (0 : Byte) + BitVec.ofNat 8 i = BitVec.ofNat 8 i from BitVec.zero_add _, List.append_assoc,
    List.cons_append] at hmsg
  have htotal : (label ++ 0 :: data).length + 1 = (label ++ 0 :: (data ++ [BitVec.ofNat 8 i])).length := by
    simp only [List.length_append, List.length_cons, List.length_nil]
    omega
  rw [rtHmacSha1_eq, ofBuffer_eq hmsg htotal (by omega),
    List.take_of_length_le (Crypto.Standard.length_hmacSha1 _ _).le]

/-! ### The key derivation function -/

theorem lenBytes_eq (len : BitVec 16) :
    [((len.setWidth 32 <<< 3 : BitVec 32) &&& 0xff).setWidth 8,
      (((len.setWidth 32 <<< 3 : BitVec 32) &&& 0xff00) >>> 8).setWidth 8] =
      leBytes (BitVec.ofNat 16 (8 * len.toNat)) := by
  have hlen : BitVec.ofNat 16 (8 * len.toNat) = len <<< 3 := by
    apply BitVec.eq_of_toNat_eq
    rw [BitVec.toNat_ofNat, BitVec.toNat_shiftLeft, Nat.shiftLeft_eq, Nat.mul_comm]
  have hlow : ∀ i < 8, (0xff : BitVec 32).getLsbD i = true ∧ (0xff00 : BitVec 32).getLsbD (8 + i) = true := by decide
  rw [hlen]
  unfold leBytes
  simp only [List.range, List.range.loop, List.map_cons, List.map_nil, List.cons.injEq, and_true]
  refine ⟨?_, ?_⟩
  all_goals
    ext i hi
    simp only [BitVec.getElem_setWidth, BitVec.getLsbD_ushiftRight, BitVec.getLsbD_and, BitVec.getLsbD_shiftLeft,
      BitVec.getLsbD_setWidth, BitVec.getElem_extractLsb']
    first
      | rw [(hlow i hi).1]
      | rw [(hlow i hi).2]
    grind

theorem numberBytes_eq {i : ℕ} (h : i < 255) : leBytes (BitVec.ofNat 16 (i + 1)) = [1 + BitVec.ofNat 8 i, 0] := by
  unfold leBytes
  simp only [List.range, List.range.loop, List.map_cons, List.map_nil, List.cons.injEq, and_true]
  refine ⟨BitVec.eq_of_toNat_eq ?_, BitVec.eq_of_toNat_eq ?_⟩
  · simp
    omega
  · simp [Nat.shiftRight_eq_div_pow]
    omega

/-- **`KDF`** is that of 802.11r for all inputs that fit the work buffer, up to 255 blocks. -/
theorem kdf_eq (input : ℕ → Byte) (key : Piece) {label data : List Byte} (output : ℕ → Byte) {len : BitVec 16}
    (hfits : label.length + data.length + 4 ≤ 1024) (hlen : len.toNat ≤ 255 * 32) :
    ∃ out, kdf (some input) key label data output len = some out ∧
      Lib.read out len.toNat = Standard.kdf key.1 label data len.toNat := by
  have hbits : (len.setWidth 32 <<< 3 : BitVec 32).toNat = 8 * len.toNat := by
    rw [BitVec.toNat_shiftLeft, BitVec.toNat_setWidth, Nat.shiftLeft_eq]
    omega
  have hrounds : (8 * len.toNat + 255) / 256 = (len.toNat + 32 - 1) / 32 := by omega
  have hlenBytes := length_leBytes (BitVec.ofNat 16 (8 * len.toNat))
  unfold kdf Standard.kdf
  dsimp only
  rw [lenBytes_eq, hbits, hrounds]
  generalize leBytes (BitVec.ofNat 16 (8 * len.toNat)) = lenBytes at hlenBytes ⊢
  have hbuf : HoldsAt (copy (copy (copy (copy (mem []) 0 [1, 0]) 2 label) (2 + label.length) data)
      (2 + label.length + data.length) lenBytes) 0 ([] ++ 1 :: (0 :: (label ++ (data ++ lenBytes)))) := by
    have h0 := (holdsAt_copy (mem []) 0 [1, 0]).append_copy (p := 2) label rfl
    have h1 := h0.append_copy (p := 2 + label.length) data (by simp; omega)
    have h2 := h1.append_copy (p := 2 + label.length + data.length) lenBytes (by simp; omega)
    simpa using h2
  simp only [Option.bind_eq_bind]
  rw [moveInto_eq (by omega), Option.bind_some, moveInto_eq (by omega), Option.bind_some,
    moveInto_eq (by rw [hlenBytes]; omega), Option.bind_some]
  refine read_fillBlocks (by decide) (fun i => Crypto.Standard.length_hmacSha256 _ _) fun i hi => ?_
  have hmsg := HoldsAt.iterate_increment hbuf i
  have hnumber := numberBytes_eq (show i < 255 by omega)
  have hmessage : [] ++ (1 + BitVec.ofNat 8 i) :: 0 :: (label ++ (data ++ lenBytes)) =
      leBytes (BitVec.ofNat 16 (i + 1)) ++ (label ++ (data ++ lenBytes)) := by
    rw [hnumber]
    rfl
  rw [hmessage] at hmsg
  have htotal : 2 + label.length + data.length + 2 =
      (leBytes (BitVec.ofNat 16 (i + 1)) ++ (label ++ (data ++ lenBytes))).length := by
    simp only [List.length_append, length_leBytes, hlenBytes]
    omega
  rw [rtHmacSha256_eq]
  have hpiece := ofBuffer_eq hmsg htotal (by omega)
  rw [List.length_nil] at hpiece
  rw [hpiece, List.take_of_length_le (Crypto.Standard.length_hmacSha256 _ _).le]

/-! ### Passwords -/

theorem length_iterated (password salted : List Byte) (k : ℕ) :
    (iterated Crypto.Standard.hmacSha1 password salted k).length = 20 := by
  cases k <;> exact Crypto.Standard.length_hmacSha1 _ _

theorem length_xorIterated (password salted : List Byte) (k : ℕ) :
    (xorIterated Crypto.Standard.hmacSha1 password salted k).length = 20 := by
  induction k with
  | zero => exact length_iterated _ _ _
  | succ k ih => rw [xorIterated, xorBytes, List.length_zipWith, ih, length_iterated, Nat.min_self]

theorem fLoop_eq (password : Piece) (salted : List Byte) (n k : ℕ) :
    fLoop password n (iterated Crypto.Standard.hmacSha1 password.1 salted k)
        (xorIterated Crypto.Standard.hmacSha1 password.1 salted k) =
      some (xorIterated Crypto.Standard.hmacSha1 password.1 salted (k + n)) := by
  induction n generalizing k with
  | zero => rfl
  | succ n ih =>
    have hpiece : (Piece.ofBuffer (mem (iterated Crypto.Standard.hmacSha1 password.1 salted k)) 20).1 =
        iterated Crypto.Standard.hmacSha1 password.1 salted k := by
      have hread := read_mem_length (iterated Crypto.Standard.hmacSha1 password.1 salted k)
      rwa [length_iterated] at hread
    have hnext : rtHmacSha1 password (.ofBuffer (mem (iterated Crypto.Standard.hmacSha1 password.1 salted k)) 20) 20 =
        some (iterated Crypto.Standard.hmacSha1 password.1 salted (k + 1)) := by
      rw [rtHmacSha1_eq, hpiece, List.take_of_length_le (Crypto.Standard.length_hmacSha1 _ _).le]
      rfl
    rw [fLoop, hnext, show k + (n + 1) = k + 1 + n by omega]
    exact ih (k + 1)

theorem countBytes_eq (count : BitVec 32) :
    [(count >>> 24 &&& 0xff).setWidth 8, (count >>> 16 &&& 0xff).setWidth 8, (count >>> 8 &&& 0xff).setWidth 8,
      (count &&& 0xff).setWidth 8] = beBytes count := by
  have hmask : ∀ x : BitVec 32, (x &&& 0xff).setWidth 8 = x.setWidth 8 := by
    intro x
    have hlow : ∀ i < 8, (0xff : BitVec 32).getLsbD i = true := by decide
    ext i hi
    rw [BitVec.getElem_setWidth, BitVec.getLsbD_and, hlow i hi, Bool.and_true, BitVec.getElem_setWidth]
  unfold beBytes leBytes
  simp only [hmask, List.range, List.range.loop, List.map_cons, List.map_nil, List.reverse_cons, List.reverse_nil,
    List.nil_append, List.cons_append, List.cons.injEq, and_true]
  refine ⟨?_, ?_, ?_, ?_⟩
  all_goals
    ext i hi
    simp only [BitVec.getElem_setWidth, BitVec.getLsbD_ushiftRight, BitVec.getElem_extractLsb']
    try rw [Nat.mul_zero, Nat.zero_add]

theorem f_eq (digest : ℕ → Byte) (password : Piece) {ssid : List Byte} (iterations : ℕ) (count : BitVec 32)
    (h : ssid.length ≤ 32) :
    f digest password ssid iterations count =
      some (xorIterated Crypto.Standard.hmacSha1 password.1 (ssid ++ beBytes count) (iterations - 1)) := by
  have hlen : (beBytes count).length = 4 := length_beBytes count
  have hholds : HoldsAt (copy (copy digest 0 ssid) ssid.length (beBytes count)) 0 (ssid ++ beBytes count) :=
    (holdsAt_copy digest 0 ssid).append_copy (beBytes count) (Nat.zero_add _).symm
  have hpiece : (Piece.ofBuffer (copy (copy digest 0 ssid) ssid.length (beBytes count))
      (BitVec.ofNat 32 (ssid.length + 4))).1 = ssid ++ beBytes count :=
    ofBuffer_eq hholds (by rw [List.length_append, hlen]) (by omega)
  unfold f
  simp only [Option.bind_eq_bind]
  rw [countBytes_eq, moveInto_eq (by omega), Option.bind_some, moveInto_eq (by omega), Option.bind_some,
    rtHmacSha1_eq, hpiece, List.take_of_length_le (Crypto.Standard.length_hmacSha1 _ _).le, Option.bind_some]
  have hloop := fLoop_eq password (ssid ++ beBytes count) (iterations - 1) 0
  rwa [Nat.zero_add] at hloop

theorem read_twoBlocks (output : ℕ → Byte) {first second : List Byte} (h1 : first.length = 20)
    (h2 : second.length = 20) : Lib.read (copy (copy output 0 first) 20 second) 32 = (first ++ second).take 32 := by
  have hholds : HoldsAt (copy (copy output 0 first) 20 second) 0 (first ++ second) :=
    (holdsAt_copy output 0 first).append_copy second (by rw [h1])
  unfold HoldsAt readAt at hholds
  simp only [Nat.zero_add, List.length_append, h1, h2] at hholds
  rw [← hholds]
  exact (read_take (by decide)).symm

theorem expand_two (b : ℕ → List Byte) : expand b 20 32 = (b 0 ++ b 1).take 32 := by
  simp [expand, List.range, List.range.loop]

/-- **`RtmpPasswordHash`** is PBKDF2 with 4096 iterations for all that it accepts. -/
theorem rtmpPasswordHash_eq (stack : ℕ → Byte) {password : Piece} {ssid : List Byte} (output : ℕ → Byte)
    (hpassword : password.1.length ≤ 63) (hssid : ssid.length ≤ 32) :
    ∃ out, rtmpPasswordHash stack password ssid output = some (1, out) ∧
      Lib.read out 32 = Standard.pbkdf2Sha1 password.1 ssid 4096 32 := by
  have hfirst := f_eq stack password 4096 1 hssid
  have hsecond := f_eq stack password 4096 2 hssid
  unfold rtmpPasswordHash
  rw [if_neg (by omega), hfirst, hsecond]
  refine ⟨_, rfl, ?_⟩
  rw [read_twoBlocks output (length_xorIterated _ _ _) (length_xorIterated _ _ _)]
  unfold Standard.pbkdf2Sha1 pbkdf2
  rw [expand_two]
  generalize 4096 - 1 = n
  rfl

theorem rtmpPasswordHash_eq_zero (stack : ℕ → Byte) {password : Piece} {ssid : List Byte} (output : ℕ → Byte)
    (h : 63 < password.1.length ∨ 32 < ssid.length) :
    rtmpPasswordHash stack password ssid output = some (0, output) :=
  if_pos h

/-! ### The two stations of a pair -/

variable {aNonce sNonce : Bytes 32} {aa sa : Bytes 6}

theorem eq_of_rtmpCompareMemory_ne_one : ∀ {as bs : List Byte}, as.length = bs.length →
    rtmpCompareMemory as bs ≠ 1 → rtmpCompareMemory bs as ≠ 1 → as = bs
  | [], [], _, _, _ => rfl
  | a :: as, b :: bs, hlen, h1, h2 => by
    rw [rtmpCompareMemory] at h1 h2
    rcases lt_trichotomy a.toNat b.toNat with hlt | heq | hgt
    · exact absurd (if_pos hlt) h2
    · rw [heq, if_neg (lt_irrefl _), if_neg (lt_irrefl _)] at h1 h2
      rw [BitVec.eq_of_toNat_eq heq, eq_of_rtmpCompareMemory_ne_one (Nat.succ.inj hlen) h1 h2]
    · exact absurd (if_pos hgt) h1

theorem rtmpCompareMemory_asymm {as bs : List Byte} (hlen : as.length = bs.length) (h : rtmpCompareMemory as bs = 1) :
    rtmpCompareMemory bs as ≠ 1 := by
  rw [Ne, rtmpCompareMemory_eq_one hlen.symm]
  rw [rtmpCompareMemory_eq_one hlen] at h
  omega

theorem smaller_comm {as bs : List Byte} (hlen : as.length = bs.length) :
    (if rtmpCompareMemory as bs = 1 then bs else as) = if rtmpCompareMemory bs as = 1 then as else bs := by
  split_ifs with h1 h2 h2
  · exact absurd h2 (rtmpCompareMemory_asymm hlen h1)
  · rfl
  · rfl
  · exact eq_of_rtmpCompareMemory_ne_one hlen h1 h2

theorem larger_comm {as bs : List Byte} (hlen : as.length = bs.length) :
    (if rtmpCompareMemory as bs = 1 then as else bs) = if rtmpCompareMemory bs as = 1 then bs else as := by
  split_ifs with h1 h2 h2
  · exact absurd h2 (rtmpCompareMemory_asymm hlen h1)
  · rfl
  · rfl
  · exact (eq_of_rtmpCompareMemory_ne_one hlen h1 h2).symm

theorem ptkData_comm (aNonce : Bytes 32) (aa : Bytes 6) (sNonce : Bytes 32) (sa : Bytes 6) :
    ptkData aNonce aa sNonce sa = ptkData sNonce sa aNonce aa := by
  have haddr : (List.ofFn sa).length = (List.ofFn aa).length := by simp only [List.length_ofFn]
  have hnonce : (List.ofFn aNonce).length = (List.ofFn sNonce).length := by simp only [List.length_ofFn]
  have hequal : rtmpCompareMemory (List.ofFn aNonce) (List.ofFn sNonce) = 0 ↔
      rtmpCompareMemory (List.ofFn sNonce) (List.ofFn aNonce) = 0 := by
    rw [rtmpCompareMemory_eq_zero hnonce, rtmpCompareMemory_eq_zero hnonce.symm, eq_comm]
  unfold ptkData
  simp only [smaller_comm haddr, larger_comm haddr, smaller_comm hnonce, larger_comm hnonce, hequal]

theorem length_ptkData (aNonce : Bytes 32) (aa : Bytes 6) (sNonce : Bytes 32) (sa : Bytes 6) :
    (ptkData aNonce aa sNonce sa).length = 76 :=
  length_read _ _

theorem wpaDerivePTK_eq (input : ℕ → Byte) (pmk : Bytes 32) (aNonce : Bytes 32) (aa : Bytes 6) (sNonce : Bytes 32)
    (sa : Bytes 6) (output : ℕ → Byte) (len : ℕ) :
    ∃ out, wpaDerivePTK (some input) pmk aNonce aa sNonce sa output len = some out ∧
      Lib.read out len = Standard.prf (List.ofFn pmk) ptkLabel (ptkData aNonce aa sNonce sa) len := by
  refine prf_eq input _ output len ?_
  rw [length_ptkData]
  decide

/-- **Keys.** The three keyed hashes are HMAC for all keys and messages. For inputs that fit the work buffer, `PRF`
gives the function of 802.11i for every length and `KDF` that of 802.11r up to 255 blocks. `RtmpPasswordHash` gives
PBKDF2 for what it accepts, which is a passphrase of up to 63 characters and an SSID of up to 32. Two stations with
exchanged addresses and nonces derive the same key. -/
theorem keys_derived :
    (∀ (key message : Piece) (macLen : ℕ),
      rtHmacSha1 key message macLen = some ((Crypto.Standard.hmacSha1 key.1 message.1).take macLen) ∧
      rtHmacSha256 key message macLen = some ((Crypto.Standard.hmacSha256 key.1 message.1).take macLen) ∧
      rtHmacMd5 key message macLen = some ((Crypto.Standard.hmacMd5 key.1 message.1).take macLen)) ∧
    (∀ (input : ℕ → Byte) (key : Piece) (label data : List Byte) (output : ℕ → Byte) (len : ℕ),
      label.length + data.length + 2 ≤ 1024 →
        ∃ out, prf (some input) key label data output len = some out ∧
          Lib.read out len = Standard.prf key.1 label data len) ∧
    (∀ (stack : ℕ → Byte) (password : Piece) (ssid : List Byte) (output : ℕ → Byte),
      if password.1.length ≤ 63 ∧ ssid.length ≤ 32 then
        ∃ out, rtmpPasswordHash stack password ssid output = some (1, out) ∧
          Lib.read out 32 = Standard.pbkdf2Sha1 password.1 ssid 4096 32
      else rtmpPasswordHash stack password ssid output = some (0, output)) ∧
    (∀ (input : ℕ → Byte) (key : Piece) (label data : List Byte) (output : ℕ → Byte) (len : BitVec 16),
      label.length + data.length + 4 ≤ 1024 → len.toNat ≤ 255 * 32 →
        ∃ out, kdf (some input) key label data output len = some out ∧
          Lib.read out len.toNat = Standard.kdf key.1 label data len.toNat) ∧
    (∀ (input input' : ℕ → Byte) (pmk aNonce sNonce : Bytes 32) (aa sa : Bytes 6) (output output' : ℕ → Byte)
        (len : ℕ), ∃ out out',
      wpaDerivePTK (some input) pmk aNonce aa sNonce sa output len = some out ∧
      wpaDerivePTK (some input') pmk sNonce sa aNonce aa output' len = some out' ∧
      Lib.read out len = Lib.read out' len) := by
  refine ⟨fun key message macLen => ⟨rtHmacSha1_eq _ _ _, rtHmacSha256_eq _ _ _, rtHmacMd5_eq _ _ _⟩,
    fun input key label data output len hfits => prf_eq input key output len hfits,
    fun stack password ssid output => ?_,
    fun input key label data output len hfits hlen => kdf_eq input key output hfits hlen,
    fun input input' pmk aNonce sNonce aa sa output output' len => ?_⟩
  · split_ifs with h
    · exact rtmpPasswordHash_eq stack output h.1 h.2
    · exact rtmpPasswordHash_eq_zero stack output (by omega)
  · obtain ⟨out, hout, hread⟩ := wpaDerivePTK_eq input pmk aNonce aa sNonce sa output len
    obtain ⟨out', hout', hread'⟩ := wpaDerivePTK_eq input' pmk sNonce sa aNonce aa output' len
    refine ⟨out, out', hout, hout', ?_⟩
    rw [hread, hread', ptkData_comm]

/-- A group key of 255 blocks. -/
theorem keys_derived_longest :
    ∃ out, kdf (some (mem [])) ⟨[1, 2, 3], by decide⟩ ptkLabel (List.replicate 76 7) (mem []) 8160 = some out ∧
      Lib.read out 8160 = Standard.kdf [1, 2, 3] ptkLabel (List.replicate 76 7) 8160 :=
  keys_derived.2.2.2.1 (mem []) ⟨[1, 2, 3], by decide⟩ ptkLabel (List.replicate 76 7) (mem []) 8160
    (by decide) (by decide)

end Keys

end Mt7610u.Wpa
