import Mt7610u.Crypto.Md5
import Mt7610u.Lib.KeyDerivation

/-! # HMAC (`common/crypt_hmac.c`) -/

namespace Mt7610u.Crypto

open Lib Lib.KeyDerivation

namespace Standard

/-- HMAC-SHA-1, HMAC-SHA-256 and HMAC-MD5. -/
def hmacSha1 (key text : List Byte) : List Byte := hmac sha1 64 key text

@[inherit_doc hmacSha1]
def hmacSha256 (key text : List Byte) : List Byte := hmac sha256 64 key text

@[inherit_doc hmacSha1]
def hmacMd5 (key text : List Byte) : List Byte := hmac md5 64 key text

theorem length_sha1 (m : List Byte) : (sha1 m).length = 20 := by
  simp only [sha1, sha1Bytes, List.length_append, length_beBytes]

theorem length_sha256 (m : List Byte) : (sha256 m).length = 32 := by
  simp only [sha256, sha256Bytes, List.length_append, length_beBytes]

theorem length_md5 (m : List Byte) : (md5 m).length = 16 := by
  simp only [md5, md5Bytes, List.length_append, length_leBytes]

theorem length_hmacSha1 (key text : List Byte) : (hmacSha1 key text).length = 20 := length_sha1 _

theorem length_hmacSha256 (key text : List Byte) : (hmacSha256 key text).length = 32 := length_sha256 _

end Standard

open Standard

/-! ### The code -/

/-- The first `n` bytes of a buffer, `n` being a `UINT`. -/
def Piece.ofBuffer (m : ℕ → Byte) (n : BitVec 32) : Piece := ⟨Lib.read m n.toNat, by rw [length_read]; exact n.isLt⟩

/-- The loop `K0[index] ^= pad` over the block. -/
def xorBlock (k0 : ℕ → Byte) (pad : Byte) : ℕ → Byte := fun i => if i < blockSize then k0 i ^^^ pad else k0 i

/-- What is moved to the zeroed `K0`. -/
def hmacKey (hash : List Piece → Option (List Byte)) (key : Piece) : Option (List Byte) :=
  if key.1.length ≤ blockSize then some key.1 else hash [key]

/-- The functions with the hash of a message in pieces, and the bytes that they move to `MAC`. -/
def rtHmac (hash : List Piece → Option (List Byte)) (digestSize : BitVec 32) (key message : Piece) (macLen : ℕ) :
    Option (List Byte) := do
  let k ← hmacKey hash key
  let k0 := xorBlock (copy (mem []) 0 k) 0x36
  let digest ← hash [.ofBuffer k0 64, message]
  let k0 := xorBlock k0 (0x36 ^^^ 0x5c)
  let digest ← hash [.ofBuffer k0 64, .ofBuffer (mem digest) digestSize]
  return digest.take (if macLen > digestSize.toNat then digestSize.toNat else macLen)

def rtHmacSha1 : Piece → Piece → ℕ → Option (List Byte) := rtHmac rtSha1 20

def rtHmacSha256 : Piece → Piece → ℕ → Option (List Byte) := rtHmac rtSha256 32

def rtHmacMd5 : Piece → Piece → ℕ → Option (List Byte) := rtHmac rtMd5 16

/-! ### What it computes -/

variable {hash : List Piece → Option (List Byte)} {H : List Byte → List Byte} {digestSize : BitVec 32}

theorem read_xorBlock (k0 : ℕ → Byte) (pad : Byte) :
    Lib.read (xorBlock k0 pad) blockSize = (Lib.read k0 blockSize).map (· ^^^ pad) := by
  unfold Lib.read
  rw [List.map_map]
  refine List.map_congr_left fun i hi => ?_
  exact if_pos (List.mem_range.1 hi)

theorem read_keyBlock {k : List Byte} (h : k.length ≤ blockSize) :
    Lib.read (copy (mem []) 0 k) blockSize = k ++ List.replicate (blockSize - k.length) 0 := by
  have hcopy : copy (mem []) 0 k = mem k := copy_mem [] k
  rw [hcopy]
  exact read_mem_of_le h

theorem map_pads (bs : List Byte) : (bs.map (· ^^^ 0x36)).map (· ^^^ (0x36 ^^^ 0x5c)) = bs.map (· ^^^ 0x5c) := by
  rw [List.map_map]
  refine List.map_congr_left fun b _ => ?_
  show b ^^^ 0x36 ^^^ (0x36 ^^^ 0x5c) = b ^^^ 0x5c
  rw [← BitVec.xor_assoc, BitVec.xor_assoc b, BitVec.xor_self, BitVec.xor_zero]

theorem fits_block {p : Piece} (hp : p.1.length = blockSize) (q : Piece) : Fits 0 [p, q] := by
  refine ⟨?_, ?_, trivial⟩
  · rw [hp]
    decide
  · rw [hp, Nat.zero_add, Nat.mod_self, Nat.zero_add]
    exact q.2

theorem fits_single (p : Piece) : Fits 0 [p] := by
  refine ⟨?_, trivial⟩
  rw [Nat.zero_mod, Nat.zero_add]
  exact p.2

theorem joined_single (p : Piece) : joined [p] = p.1 := by simp [joined]

theorem joined_pair (p q : Piece) : joined [p, q] = p.1 ++ q.1 := by simp [joined]

/-- **HMAC.** With a hash of pieces that gives the digest where no sum wraps, for every key and message. -/
theorem rtHmac_eq (hhash : ∀ ps, Fits 0 ps → hash ps = some (H (joined ps)))
    (hlen : ∀ m, (H m).length = digestSize.toNat) (hsize : digestSize.toNat ≤ blockSize) (key message : Piece)
    (macLen : ℕ) :
    rtHmac hash digestSize key message macLen = some ((hmac H blockSize key.1 message.1).take macLen) := by
  have hkey : hmacKey hash key = some (if key.1.length ≤ blockSize then key.1 else H key.1) := by
    unfold hmacKey
    split_ifs with h
    · rfl
    · rw [hhash _ (fits_single key), joined_single]
  have hblock : Lib.read (copy (mem []) 0 (if key.1.length ≤ blockSize then key.1 else H key.1)) blockSize =
      keyBlock H blockSize key.1 := by
    unfold keyBlock
    refine read_keyBlock ?_
    split_ifs with h
    · exact h
    · exact (hlen _).le.trans hsize
  have hinner : ∀ k0 : ℕ → Byte, hash [.ofBuffer k0 64, message] = some (H (Lib.read k0 blockSize ++ message.1)) := by
    intro k0
    rw [hhash _ (fits_block (length_read _ _) message), joined_pair]
    rfl
  have houter : ∀ (k0 : ℕ → Byte) (m : List Byte), hash [.ofBuffer k0 64, .ofBuffer (mem (H m)) digestSize] =
      some (H (Lib.read k0 blockSize ++ H m)) := by
    intro k0 m
    rw [hhash _ (fits_block (length_read _ _) _), joined_pair]
    have hdigest : (Piece.ofBuffer (mem (H m)) digestSize).1 = H m := by
      show Lib.read (mem (H m)) digestSize.toNat = H m
      rw [← hlen m]
      exact read_mem_length _
    rw [hdigest]
    rfl
  unfold rtHmac
  rw [hkey]
  simp only [Option.bind_eq_bind, Option.bind_some, hinner, houter, read_xorBlock, hblock, map_pads]
  have htake : ∀ m, (H m).take (if macLen > digestSize.toNat then digestSize.toNat else macLen) =
      (H m).take macLen := by
    intro m
    split_ifs with h
    · rw [List.take_of_length_le (hlen m).le, List.take_of_length_le ((hlen m).le.trans h.le)]
    · rfl
  rw [htake]
  rfl

theorem rtHmacSha1_eq (key message : Piece) (macLen : ℕ) :
    rtHmacSha1 key message macLen = some ((hmacSha1 key.1 message.1).take macLen) :=
  @rtHmac_eq rtSha1 sha1 20 (fun ps => (rtSha1_iff ps).2) length_sha1 (by decide) key message macLen

theorem rtHmacSha256_eq (key message : Piece) (macLen : ℕ) :
    rtHmacSha256 key message macLen = some ((hmacSha256 key.1 message.1).take macLen) :=
  @rtHmac_eq rtSha256 sha256 32 (fun ps => (rtSha256_iff ps).2) length_sha256 (by decide) key message macLen

theorem rtHmacMd5_eq (key message : Piece) (macLen : ℕ) :
    rtHmacMd5 key message macLen = some ((hmacMd5 key.1 message.1).take macLen) :=
  @rtHmac_eq rtMd5 md5 16 (fun ps => (rtMd5_iff ps).2) length_md5 (by decide) key message macLen

end Mt7610u.Crypto
