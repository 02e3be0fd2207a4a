import Mt7610u.Crypto.BlockContext
import Mt7610u.Crypto.HashStandards

/-! # SHA-1 and SHA-256 (`common/crypt_sha2.c`) -/

namespace Mt7610u.Crypto

open Lib Standard

/-! ### The code -/

def rotr32 (x : BitVec 32) (n : ℕ) : BitVec 32 := x >>> n ||| x <<< (32 - n)

def rotl32 (x : BitVec 32) (n : ℕ) : BitVec 32 := x <<< n ||| x >>> (32 - n)

def ch (x y z : BitVec 32) : BitVec 32 := (x &&& y) ^^^ (~~~x &&& z)

def maj (x y z : BitVec 32) : BitVec 32 := (x &&& y) ^^^ (x &&& z) ^^^ (y &&& z)

def parityOf (x y z : BitVec 32) : BitVec 32 := x ^^^ y ^^^ z

def sha1K : List (BitVec 32) := [0x5a827999, 0x6ed9eba1, 0x8f1bbcdc, 0xca62c1d6]

def sha1DefaultHashValue : Sha1State := ⟨0x67452301, 0xefcdab89, 0x98badcfe, 0x10325476, 0xc3d2e1f0⟩

/-- The array `W` of `n` words with its first 16 loaded, in the byte order of the message. -/
def loadW (n : ℕ) (block : List Byte) : List (BitVec 32) :=
  (List.range n).map fun i => if i < 16 then beWord block i else 0

def scheduleAt (W : List (BitVec 32)) (i : ℕ) : BitVec 32 := W.getD i 0

/-- A turn of the loop that prepares `W`. -/
def sha1Extend (W : List (BitVec 32)) (i : ℕ) : List (BitVec 32) :=
  W.set i (rotl32 (scheduleAt W (i - 3) ^^^ scheduleAt W (i - 8) ^^^ scheduleAt W (i - 14) ^^^ scheduleAt W (i - 16)) 1)

def sha1Round (f : BitVec 32 → BitVec 32 → BitVec 32 → BitVec 32) (k : BitVec 32) (W : List (BitVec 32))
    (s : Sha1State) (t : ℕ) : Sha1State :=
  let T := rotl32 s.a 5 + f s.b s.c s.d + s.e + k + scheduleAt W t
  ⟨T, s.a, rotl32 s.b 30, s.c, s.d⟩

/-- `RT_SHA1_Hash`: the next hash value. -/
def rtSha1Hash (hashValue : Sha1State) (block : List Byte) : Sha1State :=
  let W := (List.range' 16 64).foldl sha1Extend (loadW 80 block)
  let s := (List.range' 0 20).foldl (sha1Round ch (sha1K.getD 0 0) W) hashValue
  let s := (List.range' 20 20).foldl (sha1Round parityOf (sha1K.getD 1 0) W) s
  let s := (List.range' 40 20).foldl (sha1Round maj (sha1K.getD 2 0) W) s
  let s := (List.range' 60 20).foldl (sha1Round parityOf (sha1K.getD 3 0) W) s
  ⟨hashValue.a + s.a, hashValue.b + s.b, hashValue.c + s.c, hashValue.d + s.d, hashValue.e + s.e⟩

def sha256K : List (BitVec 32) := [
  0x428a2f98, 0x71374491, 0xb5c0fbcf, 0xe9b5dba5, 0x3956c25b, 0x59f111f1, 0x923f82a4, 0xab1c5ed5,
  0xd807aa98, 0x12835b01, 0x243185be, 0x550c7dc3, 0x72be5d74, 0x80deb1fe, 0x9bdc06a7, 0xc19bf174,
  0xe49b69c1, 0xefbe4786, 0x0fc19dc6, 0x240ca1cc, 0x2de92c6f, 0x4a7484aa, 0x5cb0a9dc, 0x76f988da,
  0x983e5152, 0xa831c66d, 0xb00327c8, 0xbf597fc7, 0xc6e00bf3, 0xd5a79147, 0x06ca6351, 0x14292967,
  0x27b70a85, 0x2e1b2138, 0x4d2c6dfc, 0x53380d13, 0x650a7354, 0x766a0abb, 0x81c2c92e, 0x92722c85,
  0xa2bfe8a1, 0xa81a664b, 0xc24b8b70, 0xc76c51a3, 0xd192e819, 0xd6990624, 0xf40e3585, 0x106aa070,
  0x19a4c116, 0x1e376c08, 0x2748774c, 0x34b0bcb5, 0x391c0cb3, 0x4ed8aa4a, 0x5b9cca4f, 0x682e6ff3,
  0x748f82ee, 0x78a5636f, 0x84c87814, 0x8cc70208, 0x90befffa, 0xa4506ceb, 0xbef9a3f7, 0xc67178f2]

def sha256DefaultHashValue : Sha256State :=
  ⟨0x6a09e667, 0xbb67ae85, 0x3c6ef372, 0xa54ff53a, 0x510e527f, 0x9b05688c, 0x1f83d9ab, 0x5be0cd19⟩

/-- `Zsigma_256_0`. -/
def zsigma0 (x : BitVec 32) : BitVec 32 := rotr32 x 2 ^^^ rotr32 x 13 ^^^ rotr32 x 22

/-- `Zsigma_256_1`. -/
def zsigma1 (x : BitVec 32) : BitVec 32 := rotr32 x 6 ^^^ rotr32 x 11 ^^^ rotr32 x 25

/-- `Sigma_256_0`. -/
def sigma0 (x : BitVec 32) : BitVec 32 := rotr32 x 7 ^^^ rotr32 x 18 ^^^ x >>> 3

/-- `Sigma_256_1`. -/
def sigma1 (x : BitVec 32) : BitVec 32 := rotr32 x 17 ^^^ rotr32 x 19 ^^^ x >>> 10

/-- A turn of the loop of rounds, which prepares `W` as it goes. -/
def sha256Round (x : List (BitVec 32) × Sha256State) (t : ℕ) : List (BitVec 32) × Sha256State :=
  let W := if 15 < t then
      x.1.set t (sigma1 (scheduleAt x.1 (t - 2)) + scheduleAt x.1 (t - 7) + sigma0 (scheduleAt x.1 (t - 15)) +
        scheduleAt x.1 (t - 16))
    else x.1
  let s := x.2
  let T1 := s.h + zsigma1 s.e + ch s.e s.f s.g + sha256K.getD t 0 + scheduleAt W t
  let T2 := zsigma0 s.a + maj s.a s.b s.c
  (W, ⟨T1 + T2, s.a, s.b, s.c, s.d + T1, s.e, s.f, s.g⟩)

/-- `RT_SHA256_Hash`: the next hash value. -/
def rtSha256Hash (hashValue : Sha256State) (block : List Byte) : Sha256State :=
  let s := ((List.range' 0 64).foldl sha256Round (loadW 64 block, hashValue)).2
  ⟨hashValue.a + s.a, hashValue.b + s.b, hashValue.c + s.c, hashValue.d + s.d, hashValue.e + s.e, hashValue.f + s.f,
    hashValue.g + s.g, hashValue.h + s.h⟩

def rtSha1Append : HashCtx Sha1State → Piece → Option (HashCtx Sha1State) := hashAppend rtSha1Hash

def rtSha1End (ctx : HashCtx Sha1State) : Option (List Byte) := (hashEnd rtSha1Hash beBytes ctx).map sha1Bytes

/-- `RT_SHA1_Init`, the pieces of a message through `RT_SHA1_Append`, and `RT_SHA1_End`. -/
def rtSha1 (pieces : List Piece) : Option (List Byte) :=
  (pieces.foldlM rtSha1Append (hashInit sha1DefaultHashValue)).bind rtSha1End

def rtSha256Append : HashCtx Sha256State → Piece → Option (HashCtx Sha256State) := hashAppend rtSha256Hash

def rtSha256End (ctx : HashCtx Sha256State) : Option (List Byte) :=
  (hashEnd rtSha256Hash beBytes ctx).map sha256Bytes

/-- `RT_SHA256_Init`, the pieces of a message through `RT_SHA256_Append`, and `RT_SHA256_End`. -/
def rtSha256 (pieces : List Piece) : Option (List Byte) :=
  (pieces.foldlM rtSha256Append (hashInit sha256DefaultHashValue)).bind rtSha256End

/-! ### Words and constants -/

theorem rotl32_eq (x : BitVec 32) {n : ℕ} (h : n < 32) : rotl32 x n = x.rotateLeft n := by
  rw [BitVec.rotateLeft_def, Nat.mod_eq_of_lt h]
  rfl

theorem rotr32_eq (x : BitVec 32) {n : ℕ} (h : n < 32) : rotr32 x n = x.rotateRight n := by
  rw [BitVec.rotateRight_def, Nat.mod_eq_of_lt h]
  rfl

theorem sigma_eq : zsigma0 = bigSigma0 ∧ zsigma1 = bigSigma1 ∧ sigma0 = smallSigma0 ∧ sigma1 = smallSigma1 := by
  refine ⟨?_, ?_, ?_, ?_⟩ <;> funext x
  · simp only [zsigma0, bigSigma0, rotr32_eq x (show 2 < 32 by decide), rotr32_eq x (show 13 < 32 by decide),
      rotr32_eq x (show 22 < 32 by decide)]
  · simp only [zsigma1, bigSigma1, rotr32_eq x (show 6 < 32 by decide), rotr32_eq x (show 11 < 32 by decide),
      rotr32_eq x (show 25 < 32 by decide)]
  · simp only [sigma0, smallSigma0, rotr32_eq x (show 7 < 32 by decide), rotr32_eq x (show 18 < 32 by decide)]
  · simp only [sigma1, smallSigma1, rotr32_eq x (show 17 < 32 by decide), rotr32_eq x (show 19 < 32 by decide)]

set_option maxRecDepth 2000 in
theorem sha256K_eq : ∀ t < 64, sha256K.getD t 0 = sha256Const t := by
  decide

set_option maxRecDepth 2000 in
theorem sha256DefaultHashValue_eq : sha256DefaultHashValue = sha256Init := by
  decide

set_option maxRecDepth 2000 in
theorem sha1Const_eq : ∀ t < 80, sha1Const t =
    sha1K.getD (if t < 20 then 0 else if t < 40 then 1 else if t < 60 then 2 else 3) 0 := by
  decide

/-! ### SHA-1 -/

theorem scheduleAt_loadW {n t : ℕ} (block : List Byte) (hn : t < n) (ht : t < 16) :
    scheduleAt (loadW n block) t = beWord block t := by
  simp [scheduleAt, loadW, hn, ht]

theorem scheduleAt_set_self {W : List (BitVec 32)} {i : ℕ} (h : i < W.length) (v : BitVec 32) :
    scheduleAt (W.set i v) i = v := by
  simp [scheduleAt, h]

theorem scheduleAt_set_of_ne (W : List (BitVec 32)) {i j : ℕ} (h : j ≠ i) (v : BitVec 32) :
    scheduleAt (W.set i v) j = scheduleAt W j := by
  simp [scheduleAt, List.getElem?_set_ne h.symm]

theorem sha1Extend_eq (block : List Byte) (n : ℕ) (hn : n ≤ 64) :
    ((List.range' 16 n).foldl sha1Extend (loadW 80 block)).length = 80 ∧
      ∀ t < 16 + n, scheduleAt ((List.range' 16 n).foldl sha1Extend (loadW 80 block)) t = sha1Word block t := by
  induction n with
  | zero =>
    refine ⟨by simp [loadW], fun t ht => ?_⟩
    rw [sha1Word, if_pos (by omega)]
    exact scheduleAt_loadW block (by omega) (by omega)
  | succ n ih =>
    obtain ⟨hlen, hword⟩ := ih (by omega)
    rw [List.range'_1_concat, List.foldl_append]
    generalize (List.range' 16 n).foldl sha1Extend (loadW 80 block) = W at hlen hword ⊢
    refine ⟨by simpa [sha1Extend] using hlen, fun t ht => ?_⟩
    show scheduleAt (sha1Extend W (16 + n)) t = _
    unfold sha1Extend
    by_cases htn : t = 16 + n
    · rw [htn, scheduleAt_set_self (by omega), rotl32_eq _ (by decide), hword _ (by omega), hword _ (by omega),
        hword _ (by omega), hword _ (by omega), sha1Word.eq_def block (16 + n), if_neg (by omega)]
    · rw [scheduleAt_set_of_ne _ htn]
      exact hword t (by omega)

theorem sha1Round_foldl (block : List Byte) {from' n : ℕ} {f : BitVec 32 → BitVec 32 → BitVec 32 → BitVec 32}
    {k : BitVec 32} (W : List (BitVec 32)) (hW : ∀ t < 80, scheduleAt W t = sha1Word block t) (hn : from' + n ≤ 80)
    (hf : ∀ t, from' ≤ t → t < from' + n → sha1Fun t = f ∧ sha1Const t = k) (s : Sha1State) :
    (List.range' from' n).foldl (sha1Round f k W) s = (List.range' from' n).foldl (sha1Step block) s := by
  refine List.foldl_ext _ _ _ fun s t ht => ?_
  rw [List.mem_range'_1] at ht
  obtain ⟨hfun, hconst⟩ := hf t ht.1 ht.2
  rw [sha1Round, sha1Step, hfun, hconst, hW t (by omega), rotl32_eq _ (by decide), rotl32_eq _ (by decide)]

theorem sha1Round_facts0 {t : ℕ} (h2 : t < 0 + 20) : sha1Fun t = ch ∧ sha1Const t = sha1K.getD 0 0 := by
  rw [sha1Const_eq t (by omega), if_pos (by omega)]
  exact ⟨if_pos (by omega), rfl⟩

theorem sha1Round_facts1 {t : ℕ} (h1 : 20 ≤ t) (h2 : t < 20 + 20) :
    sha1Fun t = parityOf ∧ sha1Const t = sha1K.getD 1 0 := by
  rw [sha1Const_eq t (by omega), if_neg (by omega), if_pos (by omega), sha1Fun, if_neg (by omega), if_pos (by omega)]
  exact ⟨rfl, rfl⟩

theorem sha1Round_facts2 {t : ℕ} (h1 : 40 ≤ t) (h2 : t < 40 + 20) :
    sha1Fun t = maj ∧ sha1Const t = sha1K.getD 2 0 := by
  rw [sha1Const_eq t (by omega), if_neg (by omega), if_neg (by omega), if_pos (by omega), sha1Fun, if_neg (by omega),
    if_neg (by omega), if_pos (by omega)]
  exact ⟨rfl, rfl⟩

theorem sha1Round_facts3 {t : ℕ} (h1 : 60 ≤ t) (h2 : t < 60 + 20) :
    sha1Fun t = parityOf ∧ sha1Const t = sha1K.getD 3 0 := by
  rw [sha1Const_eq t (by omega), if_neg (by omega), if_neg (by omega), if_neg (by omega), sha1Fun, if_neg (by omega),
    if_neg (by omega), if_neg (by omega)]
  exact ⟨rfl, rfl⟩

theorem rtSha1Hash_eq : rtSha1Hash = sha1Comp := by
  funext h block
  have hW : ∀ t < 80, scheduleAt ((List.range' 16 64).foldl sha1Extend (loadW 80 block)) t = sha1Word block t :=
    (sha1Extend_eq block 64 le_rfl).2
  have hsplit : List.range 80 = List.range' 0 20 ++ List.range' 20 20 ++ List.range' 40 20 ++ List.range' 60 20 := by
    decide
  unfold rtSha1Hash sha1Comp
  dsimp only
  rw [hsplit, List.foldl_append, List.foldl_append, List.foldl_append]
  rw [sha1Round_foldl block _ hW (by omega) fun t _ h2 => sha1Round_facts0 h2,
    sha1Round_foldl block _ hW (by omega) fun t h1 h2 => sha1Round_facts1 h1 h2,
    sha1Round_foldl block _ hW (by omega) fun t h1 h2 => sha1Round_facts2 h1 h2,
    sha1Round_foldl block _ hW (by omega) fun t h1 h2 => sha1Round_facts3 h1 h2]

/-! ### SHA-256 -/

theorem sha256Round_foldl (block : List Byte) (h : Sha256State) (n : ℕ) (hn : n ≤ 64) :
    ((List.range' 0 n).foldl sha256Round (loadW 64 block, h)).1.length = 64 ∧
      (∀ t, t < max n 16 →
        scheduleAt ((List.range' 0 n).foldl sha256Round (loadW 64 block, h)).1 t = sha256Word block t) ∧
      ((List.range' 0 n).foldl sha256Round (loadW 64 block, h)).2 = (List.range' 0 n).foldl (sha256Step block) h := by
  obtain ⟨hz0, hz1, hs0, hs1⟩ := sigma_eq
  induction n with
  | zero =>
    refine ⟨by simp [loadW], fun t ht => ?_, rfl⟩
    rw [sha256Word, if_pos (by omega)]
    exact scheduleAt_loadW block (by omega) (by omega)
  | succ n ih =>
    obtain ⟨hlen, hword, hstate⟩ := ih (by omega)
    rw [List.range'_1_concat, List.foldl_append, List.foldl_append, Nat.zero_add, ← hstate]
    generalize (List.range' 0 n).foldl sha256Round (loadW 64 block, h) = x at hlen hword ⊢
    have hW : ∀ t, t < max (n + 1) 16 → scheduleAt (if 15 < n then x.1.set n
        (sigma1 (scheduleAt x.1 (n - 2)) + scheduleAt x.1 (n - 7) + sigma0 (scheduleAt x.1 (n - 15)) +
          scheduleAt x.1 (n - 16))
        else x.1) t = sha256Word block t := by
      intro t ht
      by_cases hlt : 15 < n
      · rw [if_pos hlt]
        by_cases htn : t = n
        · rw [htn, scheduleAt_set_self (by omega), hword _ (by omega), hword _ (by omega), hword _ (by omega),
            hword _ (by omega), hs0, hs1, sha256Word.eq_def block n, if_neg (by omega)]
        · rw [scheduleAt_set_of_ne _ htn]
          exact hword t (by omega)
      · rw [if_neg hlt]
        exact hword t (by omega)
    refine ⟨?_, hW, ?_⟩
    · show (if 15 < n then x.1.set n _ else x.1).length = 64
      split_ifs
      · rw [List.length_set]
        exact hlen
      · exact hlen
    · show (sha256Round x n).2 = sha256Step block x.2 n
      unfold sha256Round sha256Step
      dsimp only
      rw [hW n (by omega), hz0, hz1, sha256K_eq n (by omega)]
      rfl

theorem rtSha256Hash_eq : rtSha256Hash = sha256Comp := by
  funext h block
  unfold rtSha256Hash sha256Comp
  dsimp only
  rw [(sha256Round_foldl block h 64 le_rfl).2.2, List.range_eq_range']

/-! ### Messages in pieces -/

theorem hashPieces_map_iff {σ : Type} {comp : σ → List Byte → σ} {iv : σ} {lenBytes : BitVec 64 → List Byte}
    (hlen : ∀ n, (lenBytes n).length = 8) (out : σ → List Byte) (pieces : List Piece) :
    (hashPieces comp lenBytes iv pieces).map out =
        some (out (BlockHash.digest comp blockSize iv lenBytes (joined pieces))) ↔ Fits 0 pieces := by
  constructor
  · intro heq
    by_contra hn
    rw [hashPieces_none comp iv hlen hn] at heq
    exact absurd heq (by simp)
  · intro hfits
    rw [(hashPieces_iff comp iv hlen pieces).2 hfits]
    rfl

theorem rtSha1_iff (pieces : List Piece) : rtSha1 pieces = some (sha1 (joined pieces)) ↔ Fits 0 pieces := by
  have hrun : rtSha1 pieces = (hashPieces rtSha1Hash beBytes sha1DefaultHashValue pieces).map sha1Bytes := by
    unfold rtSha1 hashPieces
    rw [Option.map_bind]
    rfl
  rw [hrun, rtSha1Hash_eq]
  exact hashPieces_map_iff (fun n => length_beBytes n) sha1Bytes pieces

theorem rtSha256_iff (pieces : List Piece) : rtSha256 pieces = some (sha256 (joined pieces)) ↔ Fits 0 pieces := by
  have hrun : rtSha256 pieces = (hashPieces rtSha256Hash beBytes sha256DefaultHashValue pieces).map sha256Bytes := by
    unfold rtSha256 hashPieces
    rw [Option.map_bind]
    rfl
  rw [hrun, rtSha256Hash_eq, sha256DefaultHashValue_eq]
  exact hashPieces_map_iff (fun n => length_beBytes n) sha256Bytes pieces

end Mt7610u.Crypto
