import Mt7610u.Crypto.Sha

/-! # MD5 (`common/crypt_md5.c`) -/

namespace Mt7610u.Crypto

open Lib Standard

/-! ### The code -/

/-- The macros `ROUND1` to `ROUND4`. -/
inductive Md5Round
  | round1 | round2 | round3 | round4
deriving DecidableEq

/-- The functions `F`, `G`, `H` and `I` of the macros. -/
def Md5Round.fn : Md5Round → BitVec 32 → BitVec 32 → BitVec 32 → BitVec 32
  | .round1, x, y, z => (x &&& y) ||| (~~~x &&& z)
  | .round2, x, y, z => (x &&& z) ||| (y &&& ~~~z)
  | .round3, x, y, z => x ^^^ y ^^^ z
  | .round4, x, y, z => y ^^^ (x ||| ~~~z)

inductive Roles
  | abcd | dabc | cdab | bcda
deriving DecidableEq

/-- A line of `RT_MD5_Hash`. -/
structure Md5Line where
  round : Md5Round
  roles : Roles
  k : ℕ
  s : ℕ
  ac : BitVec 32
deriving DecidableEq

def md5Lines : List Md5Line := [
  ⟨.round1, .abcd, 0, 7, 0xd76aa478⟩, ⟨.round1, .dabc, 1, 12, 0xe8c7b756⟩, ⟨.round1, .cdab, 2, 17, 0x242070db⟩, ⟨.round1, .bcda, 3, 22, 0xc1bdceee⟩,
  ⟨.round1, .abcd, 4, 7, 0xf57c0faf⟩, ⟨.round1, .dabc, 5, 12, 0x4787c62a⟩, ⟨.round1, .cdab, 6, 17, 0xa8304613⟩, ⟨.round1, .bcda, 7, 22, 0xfd469501⟩,
  ⟨.round1, .abcd, 8, 7, 0x698098d8⟩, ⟨.round1, .dabc, 9, 12, 0x8b44f7af⟩, ⟨.round1, .cdab, 10, 17, 0xffff5bb1⟩, ⟨.round1, .bcda, 11, 22, 0x895cd7be⟩,
  ⟨.round1, .abcd, 12, 7, 0x6b901122⟩, ⟨.round1, .dabc, 13, 12, 0xfd987193⟩, ⟨.round1, .cdab, 14, 17, 0xa679438e⟩, ⟨.round1, .bcda, 15, 22, 0x49b40821⟩,
  ⟨.round2, .abcd, 1, 5, 0xf61e2562⟩, ⟨.round2, .dabc, 6, 9, 0xc040b340⟩, ⟨.round2, .cdab, 11, 14, 0x265e5a51⟩, ⟨.round2, .bcda, 0, 20, 0xe9b6c7aa⟩,
  ⟨.round2, .abcd, 5, 5, 0xd62f105d⟩, ⟨.round2, .dabc, 10, 9, 0x2441453⟩, ⟨.round2, .cdab, 15, 14, 0xd8a1e681⟩, ⟨.round2, .bcda, 4, 20, 0xe7d3fbc8⟩,
  ⟨.round2, .abcd, 9, 5, 0x21e1cde6⟩, ⟨.round2, .dabc, 14, 9, 0xc33707d6⟩, ⟨.round2, .cdab, 3, 14, 0xf4d50d87⟩, ⟨.round2, .bcda, 8, 20, 0x455a14ed⟩,
  ⟨.round2, .abcd, 13, 5, 0xa9e3e905⟩, ⟨.round2, .dabc, 2, 9, 0xfcefa3f8⟩, ⟨.round2, .cdab, 7, 14, 0x676f02d9⟩, ⟨.round2, .bcda, 12, 20, 0x8d2a4c8a⟩,
  ⟨.round3, .abcd, 5, 4, 0xfffa3942⟩, ⟨.round3, .dabc, 8, 11, 0x8771f681⟩, ⟨.round3, .cdab, 11, 16, 0x6d9d6122⟩, ⟨.round3, .bcda, 14, 23, 0xfde5380c⟩,
  ⟨.round3, .abcd, 1, 4, 0xa4beea44⟩, ⟨.round3, .dabc, 4, 11, 0x4bdecfa9⟩, ⟨.round3, .cdab, 7, 16, 0xf6bb4b60⟩, ⟨.round3, .bcda, 10, 23, 0xbebfbc70⟩,
  ⟨.round3, .abcd, 13, 4, 0x289b7ec6⟩, ⟨.round3, .dabc, 0, 11, 0xeaa127fa⟩, ⟨.round3, .cdab, 3, 16, 0xd4ef3085⟩, ⟨.round3, .bcda, 6, 23, 0x4881d05⟩,
  ⟨.round3, .abcd, 9, 4, 0xd9d4d039⟩, ⟨.round3, .dabc, 12, 11, 0xe6db99e5⟩, ⟨.round3, .cdab, 15, 16, 0x1fa27cf8⟩, ⟨.round3, .bcda, 2, 23, 0xc4ac5665⟩,
  ⟨.round4, .abcd, 0, 6, 0xf4292244⟩, ⟨.round4, .dabc, 7, 10, 0x432aff97⟩, ⟨.round4, .cdab, 14, 15, 0xab9423a7⟩, ⟨.round4, .bcda, 5, 21, 0xfc93a039⟩,
  ⟨.round4, .abcd, 12, 6, 0x655b59c3⟩, ⟨.round4, .dabc, 3, 10, 0x8f0ccc92⟩, ⟨.round4, .cdab, 10, 15, 0xffeff47d⟩, ⟨.round4, .bcda, 1, 21, 0x85845dd1⟩,
  ⟨.round4, .abcd, 8, 6, 0x6fa87e4f⟩, ⟨.round4, .dabc, 15, 10, 0xfe2ce6e0⟩, ⟨.round4, .cdab, 6, 15, 0xa3014314⟩, ⟨.round4, .bcda, 13, 21, 0x4e0811a1⟩,
  ⟨.round4, .abcd, 4, 6, 0xf7537e82⟩, ⟨.round4, .dabc, 11, 10, 0xbd3af235⟩, ⟨.round4, .cdab, 2, 15, 0x2ad7d2bb⟩, ⟨.round4, .bcda, 9, 21, 0xeb86d391⟩]

def md5Value (l : Md5Line) (X : ℕ → BitVec 32) (a b c d : BitVec 32) : BitVec 32 :=
  rotl32 (a + (l.round.fn b c d + X l.k + l.ac)) l.s + b

def runLine (X : ℕ → BitVec 32) (r : Md5State) (l : Md5Line) : Md5State :=
  match l.roles with
  | .abcd => { r with a := md5Value l X r.a r.b r.c r.d }
  | .dabc => { r with d := md5Value l X r.d r.a r.b r.c }
  | .cdab => { r with c := md5Value l X r.c r.d r.a r.b }
  | .bcda => { r with b := md5Value l X r.b r.c r.d r.a }

def md5DefaultHashValue : Md5State := ⟨0x67452301, 0xefcdab89, 0x98badcfe, 0x10325476⟩

/-- `RT_MD5_Hash`: the next hash value. -/
def rtMd5Hash (hashValue : Md5State) (block : List Byte) : Md5State :=
  let r := md5Lines.foldl (runLine (leWord block)) hashValue
  ⟨hashValue.a + r.a, hashValue.b + r.b, hashValue.c + r.c, hashValue.d + r.d⟩

def rtMd5Append : HashCtx Md5State → Piece → Option (HashCtx Md5State) := hashAppend rtMd5Hash

def rtMd5End (ctx : HashCtx Md5State) : Option (List Byte) := (hashEnd rtMd5Hash leBytes ctx).map md5Bytes

/-- `RT_MD5_Init`, the pieces of a message through `RT_MD5_Append`, and `RT_MD5_End`. -/
def rtMd5 (pieces : List Piece) : Option (List Byte) :=
  (pieces.foldlM rtMd5Append (hashInit md5DefaultHashValue)).bind rtMd5End

/-! ### Registers in turn -/

def Roles.view : Roles → Md5State → Md5State
  | .abcd, r => r
  | .dabc, r => ⟨r.d, r.a, r.b, r.c⟩
  | .cdab, r => ⟨r.c, r.d, r.a, r.b⟩
  | .bcda, r => ⟨r.b, r.c, r.d, r.a⟩

theorem view_abcd (r : Md5State) : Roles.abcd.view r = r := rfl

def Roles.next : Roles → Roles
  | .abcd => .dabc
  | .dabc => .cdab
  | .cdab => .bcda
  | .bcda => .abcd

/-- What operation `i` does, as a line. -/
def lineOf (roles : Roles) (i : ℕ) : Md5Line :=
  ⟨if i < 16 then .round1 else if i < 32 then .round2 else if i < 48 then .round3 else .round4, roles, md5Index i,
    md5Shift i, md5Sines.getD i 0⟩

/-- The lines of the operations from `i` on. -/
def linesFrom : ℕ → ℕ → Roles → List Md5Line
  | _, 0, _ => []
  | i, n + 1, roles => lineOf roles i :: linesFrom (i + 1) n roles.next

theorem md5Lines_eq : md5Lines = linesFrom 0 64 .abcd := by
  decide

theorem fn_lineOf (roles : Roles) (i : ℕ) : (lineOf roles i).round.fn = md5Fun i := by
  funext x y z
  unfold lineOf md5Fun
  dsimp only
  split_ifs <;> rfl

theorem md5Shift_lt : ∀ i < 64, md5Shift i < 32 := by decide

theorem view_runLine (block : List Byte) (roles : Roles) {i : ℕ} (hi : i < 64) (r : Md5State) :
    roles.next.view (runLine (leWord block) r (lineOf roles i)) = md5Step block (roles.view r) i := by
  have hvalue : ∀ a b c d : BitVec 32, md5Value (lineOf roles i) (leWord block) a b c d =
      b + (a + md5Fun i b c d + leWord block (md5Index i) + md5Sines.getD i 0).rotateLeft (md5Shift i) := by
    intro a b c d
    unfold md5Value
    rw [fn_lineOf]
    show rotl32 (a + (md5Fun i b c d + leWord block (md5Index i) + md5Sines.getD i 0)) (md5Shift i) + b = _
    rw [rotl32_eq _ (md5Shift_lt i hi), BitVec.add_comm, ← BitVec.add_assoc, ← BitVec.add_assoc]
  cases roles with
  | abcd => exact congrArg (fun x => (⟨r.d, x, r.b, r.c⟩ : Md5State)) (hvalue r.a r.b r.c r.d)
  | dabc => exact congrArg (fun x => (⟨r.c, x, r.a, r.b⟩ : Md5State)) (hvalue r.d r.a r.b r.c)
  | cdab => exact congrArg (fun x => (⟨r.b, x, r.d, r.a⟩ : Md5State)) (hvalue r.c r.d r.a r.b)
  | bcda => exact congrArg (fun x => (⟨r.a, x, r.c, r.d⟩ : Md5State)) (hvalue r.b r.c r.d r.a)

def Roles.after (roles : Roles) : ℕ → Roles
  | 0 => roles
  | n + 1 => roles.next.after n

theorem view_foldl (block : List Byte) {i n : ℕ} (hn : i + n ≤ 64) (roles : Roles) (r : Md5State) :
    (roles.after n).view ((linesFrom i n roles).foldl (runLine (leWord block)) r) =
      (List.range' i n).foldl (md5Step block) (roles.view r) := by
  induction n generalizing i roles r with
  | zero => rfl
  | succ n ih =>
    rw [List.range'_succ, linesFrom, List.foldl_cons, List.foldl_cons, ← view_runLine block roles (by omega)]
    exact ih (by omega) roles.next _

theorem rtMd5Hash_eq : rtMd5Hash = md5Comp := by
  funext h block
  have hlines : md5Lines.foldl (runLine (leWord block)) h = (List.range 64).foldl (md5Step block) h := by
    have hview := view_foldl block (show 0 + 64 ≤ 64 by omega) .abcd h
    have hafter : Roles.abcd.after 64 = .abcd := by decide
    rw [hafter, ← md5Lines_eq, ← List.range_eq_range', view_abcd, view_abcd] at hview
    exact hview
  unfold rtMd5Hash md5Comp
  rw [hlines]

theorem rtMd5_iff (pieces : List Piece) : rtMd5 pieces = some (md5 (joined pieces)) ↔ Fits 0 pieces := by
  have hrun : rtMd5 pieces = (hashPieces rtMd5Hash leBytes md5DefaultHashValue pieces).map md5Bytes := by
    unfold rtMd5 hashPieces
    rw [Option.map_bind]
    rfl
  rw [hrun, rtMd5Hash_eq]
  exact hashPieces_map_iff (fun n => length_leBytes n) md5Bytes pieces

/-- **Incremental hashing.** However a message is cut into pieces, the three hashes give the standard digest of the
whole message, exactly if for no piece the sum of its length and of the bytes in the block wraps around. -/
theorem hash_incremental_iff (pieces : List Piece) :
    (rtSha1 pieces = some (sha1 (joined pieces)) ↔ Fits 0 pieces) ∧
      (rtSha256 pieces = some (sha256 (joined pieces)) ↔ Fits 0 pieces) ∧
      (rtMd5 pieces = some (md5 (joined pieces)) ↔ Fits 0 pieces) :=
  ⟨rtSha1_iff pieces, rtSha256_iff pieces, rtMd5_iff pieces⟩

def zerosPiece (n : ℕ) (h : n < 2 ^ 32) : Piece := ⟨List.replicate n 0, by rwa [List.length_replicate]⟩

theorem length_zerosPiece {n : ℕ} (h : n < 2 ^ 32) : (zerosPiece n h).1.length = n := List.length_replicate

theorem not_fits_of_length {p q : Piece} (hp : p.1.length = 1) (hq : q.1.length = 2 ^ 32 - 1) : ¬Fits 0 [p, q] := by
  rintro ⟨-, hsecond, -⟩
  rw [hp, hq] at hsecond
  unfold blockSize at hsecond
  omega

/-- One byte, and then as many as can be handed over at once, are not hashed to the digest of the message. -/
theorem not_hashed_wrapping : rtSha1 [zerosPiece 1 (by omega), zerosPiece (2 ^ 32 - 1) (by omega)] ≠
    some (sha1 (joined [zerosPiece 1 (by omega), zerosPiece (2 ^ 32 - 1) (by omega)])) := by
  intro h
  exact not_fits_of_length (length_zerosPiece _) (length_zerosPiece _) ((rtSha1_iff _).1 h)

end Mt7610u.Crypto
