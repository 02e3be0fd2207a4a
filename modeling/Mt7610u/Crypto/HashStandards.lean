import Mt7610u.Lib.BlockHash
import Mt7610u.Lib.Roots

/-! # SHA-1, SHA-256 and MD5 as they are defined

The three functions of whole messages, in the terms of their definitions: schedule words by recurrence, rounds by
their number, constants by the roots that they come from. -/

namespace Mt7610u.Crypto

open Lib Lib.BlockHash

/-- The `i`-th word of a block, the high byte first. -/
def beWord (block : List Byte) (i : ℕ) : BitVec 32 :=
  block.getD (4 * i) 0 ++ block.getD (4 * i + 1) 0 ++ block.getD (4 * i + 2) 0 ++ block.getD (4 * i + 3) 0

/-- The `i`-th word of a block, the low byte first. -/
def leWord (block : List Byte) (i : ℕ) : BitVec 32 :=
  block.getD (4 * i + 3) 0 ++ block.getD (4 * i + 2) 0 ++ block.getD (4 * i + 1) 0 ++ block.getD (4 * i) 0

def leBytes {w : ℕ} (x : BitVec w) : List Byte := (List.range (w / 8)).map fun i => x.extractLsb' (8 * i) 8

def beBytes {w : ℕ} (x : BitVec w) : List Byte := (leBytes x).reverse

theorem length_leBytes {w : ℕ} (x : BitVec w) : (leBytes x).length = w / 8 := by
  simp [leBytes]

theorem length_beBytes {w : ℕ} (x : BitVec w) : (beBytes x).length = w / 8 := by
  rw [beBytes, List.length_reverse, length_leBytes]

namespace Standard

/-- The bits behind the point of the `k`-th root of `n`, 32 of them. -/
def rootFraction (k n : ℕ) : BitVec 32 := BitVec.ofNat 32 (rootBelow k (n * 2 ^ (32 * k)) 40 0)

def primes : List ℕ := [
  2, 3, 5, 7, 11, 13, 17, 19, 23, 29, 31, 37, 41, 43, 47, 53, 59, 61, 67, 71, 73, 79, 83, 89, 97, 101, 103, 107, 109,
  113, 127, 131, 137, 139, 149, 151, 157, 163, 167, 173, 179, 181, 191, 193, 197, 199, 211, 223, 227, 229, 233, 239,
  241, 251, 257, 263, 269, 271, 277, 281, 283, 293, 307, 311]

/-- The choice of `y` or `z` by the bits of `x`. -/
def choose (x y z : BitVec 32) : BitVec 32 := (x &&& y) ^^^ (~~~x &&& z)

def majority (x y z : BitVec 32) : BitVec 32 := (x &&& y) ^^^ (x &&& z) ^^^ (y &&& z)

def parity (x y z : BitVec 32) : BitVec 32 := x ^^^ y ^^^ z

/-! ### SHA-1 -/

structure Sha1State where
  a : BitVec 32
  b : BitVec 32
  c : BitVec 32
  d : BitVec 32
  e : BitVec 32
deriving DecidableEq

def sha1Init : Sha1State := ⟨0x67452301, 0xefcdab89, 0x98badcfe, 0x10325476, 0xc3d2e1f0⟩

/-- The constant of round `t`: the root of 2, 3, 5 or 10, with 30 bits behind the point. -/
def sha1Const (t : ℕ) : BitVec 32 :=
  BitVec.ofNat 32 (rootBelow 2 ((if t < 20 then 2 else if t < 40 then 3 else if t < 60 then 5 else 10) * 2 ^ 60) 40 0)

/-- The function of round `t`. -/
def sha1Fun (t : ℕ) : BitVec 32 → BitVec 32 → BitVec 32 → BitVec 32 :=
  if t < 20 then choose else if t < 40 then parity else if t < 60 then majority else parity

def sha1Word (block : List Byte) (t : ℕ) : BitVec 32 :=
  if t < 16 then beWord block t
  else (sha1Word block (t - 3) ^^^ sha1Word block (t - 8) ^^^ sha1Word block (t - 14) ^^^
    sha1Word block (t - 16)).rotateLeft 1
termination_by t

/-- Round `t`. -/
def sha1Step (block : List Byte) (s : Sha1State) (t : ℕ) : Sha1State :=
  ⟨s.a.rotateLeft 5 + sha1Fun t s.b s.c s.d + s.e + sha1Const t + sha1Word block t, s.a, s.b.rotateLeft 30, s.c, s.d⟩

def sha1Comp (h : Sha1State) (block : List Byte) : Sha1State :=
  let s := (List.range 80).foldl (sha1Step block) h
  ⟨h.a + s.a, h.b + s.b, h.c + s.c, h.d + s.d, h.e + s.e⟩

def sha1Bytes (h : Sha1State) : List Byte := beBytes h.a ++ beBytes h.b ++ beBytes h.c ++ beBytes h.d ++ beBytes h.e

def sha1 (m : List Byte) : List Byte := sha1Bytes (digest sha1Comp 64 sha1Init beBytes m)

/-! ### SHA-256 -/

structure Sha256State where
  a : BitVec 32
  b : BitVec 32
  c : BitVec 32
  d : BitVec 32
  e : BitVec 32
  f : BitVec 32
  g : BitVec 32
  h : BitVec 32
deriving DecidableEq

def sha256InitWord (i : ℕ) : BitVec 32 := rootFraction 2 (primes.getD i 0)

def sha256Init : Sha256State :=
  ⟨sha256InitWord 0, sha256InitWord 1, sha256InitWord 2, sha256InitWord 3, sha256InitWord 4, sha256InitWord 5,
    sha256InitWord 6, sha256InitWord 7⟩

/-- The constant of round `t`: the cube root of a prime. -/
def sha256Const (t : ℕ) : BitVec 32 := rootFraction 3 (primes.getD t 0)

/-- The large and small sigma functions. -/
def bigSigma0 (x : BitVec 32) : BitVec 32 := x.rotateRight 2 ^^^ x.rotateRight 13 ^^^ x.rotateRight 22

@[inherit_doc bigSigma0]
def bigSigma1 (x : BitVec 32) : BitVec 32 := x.rotateRight 6 ^^^ x.rotateRight 11 ^^^ x.rotateRight 25

@[inherit_doc bigSigma0]
def smallSigma0 (x : BitVec 32) : BitVec 32 := x.rotateRight 7 ^^^ x.rotateRight 18 ^^^ x >>> 3

@[inherit_doc bigSigma0]
def smallSigma1 (x : BitVec 32) : BitVec 32 := x.rotateRight 17 ^^^ x.rotateRight 19 ^^^ x >>> 10

def sha256Word (block : List Byte) (t : ℕ) : BitVec 32 :=
  if t < 16 then beWord block t
  else smallSigma1 (sha256Word block (t - 2)) + sha256Word block (t - 7) + smallSigma0 (sha256Word block (t - 15)) +
    sha256Word block (t - 16)
termination_by t

/-- Round `t`. -/
def sha256Step (block : List Byte) (s : Sha256State) (t : ℕ) : Sha256State :=
  let t1 := s.h + bigSigma1 s.e + choose s.e s.f s.g + sha256Const t + sha256Word block t
  let t2 := bigSigma0 s.a + majority s.a s.b s.c
  ⟨t1 + t2, s.a, s.b, s.c, s.d + t1, s.e, s.f, s.g⟩

def sha256Comp (h : Sha256State) (block : List Byte) : Sha256State :=
  let s := (List.range 64).foldl (sha256Step block) h
  ⟨h.a + s.a, h.b + s.b, h.c + s.c, h.d + s.d, h.e + s.e, h.f + s.f, h.g + s.g, h.h + s.h⟩

def sha256Bytes (h : Sha256State) : List Byte :=
  beBytes h.a ++ beBytes h.b ++ beBytes h.c ++ beBytes h.d ++ beBytes h.e ++ beBytes h.f ++ beBytes h.g ++ beBytes h.h

def sha256 (m : List Byte) : List Byte := sha256Bytes (digest sha256Comp 64 sha256Init beBytes m)

/-! ### MD5 -/

structure Md5State where
  a : BitVec 32
  b : BitVec 32
  c : BitVec 32
  d : BitVec 32
deriving DecidableEq

def md5Init : Md5State := ⟨0x67452301, 0xefcdab89, 0x98badcfe, 0x10325476⟩

/-- The function of operation `i`. -/
def md5Fun (i : ℕ) (x y z : BitVec 32) : BitVec 32 :=
  if i < 16 then (x &&& y) ||| (~~~x &&& z)
  else if i < 32 then (x &&& z) ||| (y &&& ~~~z)
  else if i < 48 then x ^^^ y ^^^ z
  else y ^^^ (x ||| ~~~z)

/-- The word that operation `i` takes. -/
def md5Index (i : ℕ) : ℕ :=
  if i < 16 then i else if i < 32 then (5 * i + 1) % 16 else if i < 48 then (3 * i + 5) % 16 else 7 * i % 16

/-- By how much operation `i` rotates. -/
def md5Shift (i : ℕ) : ℕ :=
  ([[7, 12, 17, 22], [5, 9, 14, 20], [4, 11, 16, 23], [6, 10, 15, 21]].getD (i / 16) []).getD (i % 4) 0

def md5Sines : List (BitVec 32) := [
  0xd76aa478, 0xe8c7b756, 0x242070db, 0xc1bdceee, 0xf57c0faf, 0x4787c62a, 0xa8304613, 0xfd469501,
  0x698098d8, 0x8b44f7af, 0xffff5bb1, 0x895cd7be, 0x6b901122, 0xfd987193, 0xa679438e, 0x49b40821,
  0xf61e2562, 0xc040b340, 0x265e5a51, 0xe9b6c7aa, 0xd62f105d, 0x02441453, 0xd8a1e681, 0xe7d3fbc8,
  0x21e1cde6, 0xc33707d6, 0xf4d50d87, 0x455a14ed, 0xa9e3e905, 0xfcefa3f8, 0x676f02d9, 0x8d2a4c8a,
  0xfffa3942, 0x8771f681, 0x6d9d6122, 0xfde5380c, 0xa4beea44, 0x4bdecfa9, 0xf6bb4b60, 0xbebfbc70,
  0x289b7ec6, 0xeaa127fa, 0xd4ef3085, 0x04881d05, 0xd9d4d039, 0xe6db99e5, 0x1fa27cf8, 0xc4ac5665,
  0xf4292244, 0x432aff97, 0xab9423a7, 0xfc93a039, 0x655b59c3, 0x8f0ccc92, 0xffeff47d, 0x85845dd1,
  0x6fa87e4f, 0xfe2ce6e0, 0xa3014314, 0x4e0811a1, 0xf7537e82, 0xbd3af235, 0x2ad7d2bb, 0xeb86d391]

/-- Operation `i`. -/
def md5Step (block : List Byte) (s : Md5State) (i : ℕ) : Md5State :=
  ⟨s.d, s.b + (s.a + md5Fun i s.b s.c s.d + leWord block (md5Index i) + md5Sines.getD i 0).rotateLeft (md5Shift i),
    s.b, s.c⟩

def md5Comp (h : Md5State) (block : List Byte) : Md5State :=
  let s := (List.range 64).foldl (md5Step block) h
  ⟨h.a + s.a, h.b + s.b, h.c + s.c, h.d + s.d⟩

def md5Bytes (h : Md5State) : List Byte := leBytes h.a ++ leBytes h.b ++ leBytes h.c ++ leBytes h.d

def md5 (m : List Byte) : List Byte := md5Bytes (digest md5Comp 64 md5Init leBytes m)

end Standard

end Mt7610u.Crypto
