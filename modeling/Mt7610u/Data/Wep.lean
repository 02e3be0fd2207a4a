import Mt7610u.Lib.Crc32
import Mt7610u.Wpa.Eapol

/-! # WEP in software (`common/cmm_wep.c`)

A frame body under WEP is an IV header of four bytes, the payload and four bytes of integrity check value,
the last two under ARC4. Decryption moves the payload over the IV header. -/

namespace Mt7610u.Data

open Lib Crypto Wpa

/-! ### The code -/

/-- Memory from `pData` on, with the places that were read or written. -/
structure Traced where
  cells : ℕ → Byte
  touched : List ℕ

namespace Traced

def load (m : Traced) (i : ℕ) : Byte × Traced := (m.cells i, { m with touched := i :: m.touched })

def store (m : Traced) (i : ℕ) (b : Byte) : Traced := ⟨Function.update m.cells i b, i :: m.touched⟩

/-- `NdisMoveMemory` from here. -/
def loads (m : Traced) (off n : ℕ) : List Byte × Traced :=
  (readAt m.cells off n, { m with touched := (List.range n).map (off + ·) ++ m.touched })

/-- `NdisMoveMemory` to here. -/
def stores (m : Traced) (off : ℕ) (bs : List Byte) : Traced :=
  ⟨copy m.cells off bs, (List.range bs.length).map (off + ·) ++ m.touched⟩

end Traced

def fcstab32 : List (BitVec 32) := [
  0x00000000, 0x77073096, 0xee0e612c, 0x990951ba, 0x076dc419, 0x706af48f, 0xe963a535, 0x9e6495a3,
  0x0edb8832, 0x79dcb8a4, 0xe0d5e91e, 0x97d2d988, 0x09b64c2b, 0x7eb17cbd, 0xe7b82d07, 0x90bf1d91,
  0x1db71064, 0x6ab020f2, 0xf3b97148, 0x84be41de, 0x1adad47d, 0x6ddde4eb, 0xf4d4b551, 0x83d385c7,
  0x136c9856, 0x646ba8c0, 0xfd62f97a, 0x8a65c9ec, 0x14015c4f, 0x63066cd9, 0xfa0f3d63, 0x8d080df5,
  0x3b6e20c8, 0x4c69105e, 0xd56041e4, 0xa2677172, 0x3c03e4d1, 0x4b04d447, 0xd20d85fd, 0xa50ab56b,
  0x35b5a8fa, 0x42b2986c, 0xdbbbc9d6, 0xacbcf940, 0x32d86ce3, 0x45df5c75, 0xdcd60dcf, 0xabd13d59,
  0x26d930ac, 0x51de003a, 0xc8d75180, 0xbfd06116, 0x21b4f4b5, 0x56b3c423, 0xcfba9599, 0xb8bda50f,
  0x2802b89e, 0x5f058808, 0xc60cd9b2, 0xb10be924, 0x2f6f7c87, 0x58684c11, 0xc1611dab, 0xb6662d3d,
  0x76dc4190, 0x01db7106, 0x98d220bc, 0xefd5102a, 0x71b18589, 0x06b6b51f, 0x9fbfe4a5, 0xe8b8d433,
  0x7807c9a2, 0x0f00f934, 0x9609a88e, 0xe10e9818, 0x7f6a0dbb, 0x086d3d2d, 0x91646c97, 0xe6635c01,
  0x6b6b51f4, 0x1c6c6162, 0x856530d8, 0xf262004e, 0x6c0695ed, 0x1b01a57b, 0x8208f4c1, 0xf50fc457,
  0x65b0d9c6, 0x12b7e950, 0x8bbeb8ea, 0xfcb9887c, 0x62dd1ddf, 0x15da2d49, 0x8cd37cf3, 0xfbd44c65,
  0x4db26158, 0x3ab551ce, 0xa3bc0074, 0xd4bb30e2, 0x4adfa541, 0x3dd895d7, 0xa4d1c46d, 0xd3d6f4fb,
  0x4369e96a, 0x346ed9fc, 0xad678846, 0xda60b8d0, 0x44042d73, 0x33031de5, 0xaa0a4c5f, 0xdd0d7cc9,
  0x5005713c, 0x270241aa, 0xbe0b1010, 0xc90c2086, 0x5768b525, 0x206f85b3, 0xb966d409, 0xce61e49f,
  0x5edef90e, 0x29d9c998, 0xb0d09822, 0xc7d7a8b4, 0x59b33d17, 0x2eb40d81, 0xb7bd5c3b, 0xc0ba6cad,
  0xedb88320, 0x9abfb3b6, 0x03b6e20c, 0x74b1d29a, 0xead54739, 0x9dd277af, 0x04db2615, 0x73dc1683,
  0xe3630b12, 0x94643b84, 0x0d6d6a3e, 0x7a6a5aa8, 0xe40ecf0b, 0x9309ff9d, 0x0a00ae27, 0x7d079eb1,
  0xf00f9344, 0x8708a3d2, 0x1e01f268, 0x6906c2fe, 0xf762575d, 0x806567cb, 0x196c3671, 0x6e6b06e7,
  0xfed41b76, 0x89d32be0, 0x10da7a5a, 0x67dd4acc, 0xf9b9df6f, 0x8ebeeff9, 0x17b7be43, 0x60b08ed5,
  0xd6d6a3e8, 0xa1d1937e, 0x38d8c2c4, 0x4fdff252, 0xd1bb67f1, 0xa6bc5767, 0x3fb506dd, 0x48b2364b,
  0xd80d2bda, 0xaf0a1b4c, 0x36034af6, 0x41047a60, 0xdf60efc3, 0xa867df55, 0x316e8eef, 0x4669be79,
  0xcb61b38c, 0xbc66831a, 0x256fd2a0, 0x5268e236, 0xcc0c7795, 0xbb0b4703, 0x220216b9, 0x5505262f,
  0xc5ba3bbe, 0xb2bd0b28, 0x2bb45a92, 0x5cb36a04, 0xc2d7ffa7, 0xb5d0cf31, 0x2cd99e8b, 0x5bdeae1d,
  0x9b64c2b0, 0xec63f226, 0x756aa39c, 0x026d930a, 0x9c0906a9, 0xeb0e363f, 0x72076785, 0x05005713,
  0x95bf4a82, 0xe2b87a14, 0x7bb12bae, 0x0cb61b38, 0x92d28e9b, 0xe5d5be0d, 0x7cdcefb7, 0x0bdbdf21,
  0x86d3d2d4, 0xf1d4e242, 0x68ddb3f8, 0x1fda836e, 0x81be16cd, 0xf6b9265b, 0x6fb077e1, 0x18b74777,
  0x88085ae6, 0xff0f6a70, 0x66063bca, 0x11010b5c, 0x8f659eff, 0xf862ae69, 0x616bffd3, 0x166ccf45,
  0xa00ae278, 0xd70dd2ee, 0x4e048354, 0x3903b3c2, 0xa7672661, 0xd06016f7, 0x4969474d, 0x3e6e77db,
  0xaed16a4a, 0xd9d65adc, 0x40df0b66, 0x37d83bf0, 0xa9bcae53, 0xdebb9ec5, 0x47b2cf7f, 0x30b5ffe9,
  0xbdbdf21c, 0xcabac28a, 0x53b39330, 0x24b4a3a6, 0xbad03605, 0xcdd70693, 0x54de5729, 0x23d967bf,
  0xb3667a2e, 0xc4614ab8, 0x5d681b02, 0x2a6f2b94, 0xb40bbe37, 0xc30c8ea1, 0x5a05df1b, 0x2d02ef8d]

/-- One turn of the loop of `RTMP_CALC_FCS32`. -/
def fcsStep (fcs : BitVec 32) (b : Byte) : BitVec 32 :=
  fcs >>> 8 ^^^ fcstab32.getD ((fcs ^^^ b.setWidth 32).setWidth 8).toNat 0

/-- `RTMP_CALC_FCS32` of the `len` bytes at `cp`. -/
def rtmpCalcFcs32 : ℕ → BitVec 32 → ℕ → Traced → BitVec 32 × Traced
  | 0, fcs, _, m => (fcs, m)
  | len + 1, fcs, cp, m => rtmpCalcFcs32 len (fcsStep fcs (m.load cp).1) (cp + 1) (m.load cp).2

/-- `ARC4_Compute` of `inputBlockSize` bytes at `input` to `output`, in the order of the loop. -/
def arc4ComputeAt (input output : ℕ) : ℕ → Arc4Ctx → Traced → Traced
  | 0, _, m => m
  | n + 1, ctx, m =>
    let ctx := arc4Advance ctx
    let b := m.load input
    arc4ComputeAt (input + 1) (output + 1) n ctx (b.2.store output (b.1 ^^^ arc4Byte ctx))

/-- The allocations of a call: `ARC4_CTX` and `seed`. Without the second `ARC4_CTX` keeps what its memory
held before. -/
structure WepEnv where
  arc4Ctx : Bool
  seed : Bool
  stale : Arc4Ctx

def rtmpInitWepEngine (env : WepEnv) (iv : List Byte) (key : CipherKey) : Arc4Ctx :=
  if env.seed then arc4Init (iv ++ (List.ofFn key.key).take key.keyLen) else env.stale

def rtmpConstructWEPIVHdr (keyIdx : Byte) (pn : Bytes 3) : List Byte := List.ofFn pn ++ [keyIdx <<< 6]

def octets32 (n : BitVec 32) : List Byte :=
  [n.setWidth 8, (n >>> 8).setWidth 8, (n >>> 16).setWidth 8, (n >>> 24).setWidth 8]

def ofOctets32 (bs : List Byte) : BitVec 32 :=
  (bs.getD 0 0).setWidth 32 ||| (bs.getD 1 0).setWidth 32 <<< 8 ||| (bs.getD 2 0).setWidth 32 <<< 16 |||
    (bs.getD 3 0).setWidth 32 <<< 24

/-- `RTMPSoftEncryptWEP`: what it returns and the memory at `pData`. -/
def rtmpSoftEncryptWEP (env : WepEnv) (ivHdr : List Byte) (key : CipherKey) (m : Traced)
    (dataByteCnt : ℕ) : Bool × Traced :=
  if env.arc4Ctx = false then (false, m)
  else if key.keyLen = 0 then (false, m)
  else
    let arc4Ctx := rtmpInitWepEngine env (ivHdr.take 3) key
    let fcs := rtmpCalcFcs32 dataByteCnt 0xffffffff 0 m
    let m := fcs.2.stores dataByteCnt (octets32 (fcs.1 ^^^ 0xffffffff))
    (true, arc4ComputeAt 0 0 (dataByteCnt + 4) arc4Ctx m)

/-- `RTMPSoftDecryptWEP`: what it returns, the memory at `pData` and `*DataByteCnt`. -/
def rtmpSoftDecryptWEP (env : WepEnv) (key : CipherKey) (m : Traced) (dataByteCnt : BitVec 16) :
    Bool × Traced × BitVec 16 :=
  if env.arc4Ctx = false then (false, m, dataByteCnt)
  else if key.keyLen = 0 then (false, m, dataByteCnt)
  else
    let iv := if env.seed then m.loads 0 3 else ([], m)
    let arc4Ctx := rtmpInitWepEngine env iv.1 key
    let ciphertextLen := dataByteCnt - 4
    let m := arc4ComputeAt 4 0 ciphertextLen.toNat arc4Ctx iv.2
    let plaintextLen := ciphertextLen - 4
    let trailfcs := m.loads plaintextLen.toNat 4
    let crc32 := rtmpCalcFcs32 plaintextLen.toNat 0xffffffff 0 trailfcs.2
    if crc32.1 ^^^ 0xffffffff ≠ ofOctets32 trailfcs.1 then (false, crc32.2, dataByteCnt)
    else (true, crc32.2, plaintextLen)

/-! ### The check value -/

def crcPoly : BitVec 32 := 0xedb88320

theorem fcstab32_eq : ∀ b : Byte, fcstab32.getD b.toNat 0 = crcShifts crcPoly 8 (b.setWidth 32) := by
  decide

theorem fcsStep_eq (fcs : BitVec 32) (b : Byte) : fcsStep fcs b = crcByte crcPoly fcs b := by
  rw [fcsStep, crcByte_eq, fcstab32_eq]

theorem readAt_succ (m : ℕ → Byte) (off n : ℕ) : readAt m off (n + 1) = m off :: readAt m (off + 1) n := by
  rw [Nat.add_comm n 1, readAt, read_add]
  exact congrArg₂ (· ++ ·) rfl (readAt_shift m off 1 n)

theorem rtmpCalcFcs32_cells (len : ℕ) (fcs : BitVec 32) (cp : ℕ) (m : Traced) :
    (rtmpCalcFcs32 len fcs cp m).2.cells = m.cells := by
  induction len generalizing fcs cp m with
  | zero => rfl
  | succ len ih => exact ih _ _ _

theorem rtmpCalcFcs32_eq (len : ℕ) (fcs : BitVec 32) (cp : ℕ) (m : Traced) :
    (rtmpCalcFcs32 len fcs cp m).1 = crcRemainder crcPoly fcs (readAt m.cells cp len) := by
  induction len generalizing fcs cp m with
  | zero => rfl
  | succ len ih =>
    rw [rtmpCalcFcs32, ih, readAt_succ, fcsStep_eq]
    rfl

theorem rtmpCalcFcs32_touched (len : ℕ) (fcs : BitVec 32) (cp : ℕ) (m : Traced) (a : ℕ) :
    a ∈ (rtmpCalcFcs32 len fcs cp m).2.touched ↔ a ∈ m.touched ∨ cp ≤ a ∧ a < cp + len := by
  induction len generalizing fcs cp m with
  | zero => exact ⟨Or.inl, fun h => h.resolve_right (by omega)⟩
  | succ len ih =>
    rw [rtmpCalcFcs32, ih]
    simp only [Traced.load, List.mem_cons]
    constructor
    · rintro ((rfl | h) | h)
      · exact Or.inr (by omega)
      · exact Or.inl h
      · exact Or.inr (by omega)
    · rintro (h | h)
      · exact Or.inl (Or.inr h)
      · rcases Nat.eq_or_lt_of_le h.1 with rfl | hlt
        · exact Or.inl (Or.inl rfl)
        · exact Or.inr (by omega)

theorem mem_loads_touched (m : Traced) (off n a : ℕ) :
    a ∈ (m.loads off n).2.touched ↔ a ∈ m.touched ∨ off ≤ a ∧ a < off + n := by
  simp only [Traced.loads, List.mem_append, List.mem_map, List.mem_range]
  constructor
  · rintro (⟨i, hi, rfl⟩ | h)
    · exact Or.inr (by omega)
    · exact Or.inl h
  · rintro (h | h)
    · exact Or.inr h
    · exact Or.inl ⟨a - off, by omega, by omega⟩

theorem ofOctets32_octets32 (n : BitVec 32) : ofOctets32 (octets32 n) = n := by
  refine BitVec.eq_of_getLsbD_eq fun i hi => ?_
  simp only [ofOctets32, octets32, List.getD_cons_zero, List.getD_cons_succ, BitVec.getLsbD_or,
    BitVec.getLsbD_shiftLeft, BitVec.getLsbD_setWidth, BitVec.getLsbD_ushiftRight]
  by_cases h8 : i < 8
  · simp [h8, hi, show i < 16 by omega, show i < 24 by omega]
  · by_cases h16 : i < 16
    · simp [h8, h16, hi, show i < 24 by omega, show i - 8 < 32 by omega, show i - 8 < 8 by omega,
        show 8 + (i - 8) = i by omega]
    · by_cases h24 : i < 24
      · simp [h8, h16, h24, hi, show i - 16 < 32 by omega, show i - 16 < 8 by omega,
          show ¬i - 8 < 8 by omega, show 16 + (i - 16) = i by omega]
      · simp [h8, h16, h24, hi, show i - 24 < 32 by omega, show i - 24 < 8 by omega,
          show ¬i - 8 < 8 by omega, show ¬i - 16 < 8 by omega, show 24 + (i - 24) = i by omega]

/-! ### The key stream in place -/

theorem readAt_update_of_lt {m : ℕ → Byte} {i off n : ℕ} (h : i < off) (b : Byte) :
    readAt (Function.update m i b) off n = readAt m off n := by
  unfold readAt Lib.read
  refine List.map_congr_left fun j _ => ?_
  exact Function.update_of_ne (show off + j ≠ i by omega) b m

theorem copy_cons (m : ℕ → Byte) (off : ℕ) (b : Byte) (bs : List Byte) :
    copy (Function.update m off b) (off + 1) bs = copy m off (b :: bs) := by
  funext i
  unfold copy
  rw [List.length_cons]
  rcases Nat.lt_trichotomy i off with h | rfl | h
  · rw [if_neg (by omega), if_neg (by omega), Function.update_of_ne (by omega)]
  · rw [if_neg (by omega), if_pos (by omega), Function.update_self, Nat.sub_self]
    rfl
  · by_cases hi : i < off + 1 + bs.length
    · rw [if_pos (by omega), if_pos (by omega), show i - off = (i - (off + 1)) + 1 by omega]
      rfl
    · rw [if_neg (by omega), if_neg (by omega), Function.update_of_ne (by omega)]

theorem arc4ComputeAt_cells (n : ℕ) (ctx : Arc4Ctx) (m : Traced) {input output : ℕ} (h : output ≤ input) :
    (arc4ComputeAt input output n ctx m).cells =
      copy m.cells output (arc4Compute ctx (readAt m.cells input n)) := by
  induction n generalizing ctx m input output with
  | zero => exact (copy_of_holdsAt (holdsAt_nil _ _)).symm
  | succ n ih =>
    rw [arc4ComputeAt, ih _ _ (by omega), readAt_succ, arc4Compute, ← copy_cons]
    simp only [Traced.store, Traced.load, readAt_update_of_lt (show output < input + 1 by omega)]

theorem arc4ComputeAt_touched (n : ℕ) (ctx : Arc4Ctx) (m : Traced) (input output a : ℕ) :
    a ∈ (arc4ComputeAt input output n ctx m).touched ↔
      a ∈ m.touched ∨ (input ≤ a ∧ a < input + n) ∨ output ≤ a ∧ a < output + n := by
  induction n generalizing ctx m input output with
  | zero => exact ⟨Or.inl, fun h => h.resolve_right (by omega)⟩
  | succ n ih =>
    rw [arc4ComputeAt, ih]
    simp only [Traced.store, Traced.load, List.mem_cons]
    constructor
    · rintro ((rfl | rfl | h) | h)
      · exact Or.inr (Or.inr (by omega))
      · exact Or.inr (Or.inl (by omega))
      · exact Or.inl h
      · exact Or.inr (by omega)
    · rintro (h | h)
      · exact Or.inl (Or.inr (Or.inr h))
      · by_cases ho : a = output
        · exact Or.inl (Or.inl ho)
        · by_cases hi : a = input
          · exact Or.inl (Or.inr (Or.inl hi))
          · exact Or.inr (by omega)

/-! ### Decryption -/

/-- The text of a body of `n` bytes under its key: the payload and the check value behind it. -/
def wepText (env : WepEnv) (key : CipherKey) (m : ℕ → Byte) (n : ℕ) : List Byte :=
  arc4Compute (rtmpInitWepEngine env (readAt m 0 3) key) (readAt m 4 (n - 4))

def IcvOk (env : WepEnv) (key : CipherKey) (m : ℕ → Byte) (n : ℕ) : Prop :=
  ofOctets32 ((wepText env key m n).drop (n - 8)) = crc32 crcPoly ((wepText env key m n).take (n - 8))

instance (env : WepEnv) (key : CipherKey) (m : ℕ → Byte) (n : ℕ) : Decidable (IcvOk env key m n) :=
  inferInstanceAs (Decidable (_ = _))

theorem length_wepText (env : WepEnv) (key : CipherKey) (m : ℕ → Byte) (n : ℕ) :
    (wepText env key m n).length = n - 4 := by
  rw [wepText, length_arc4Compute, length_readAt]

theorem engine_loads (env : WepEnv) (key : CipherKey) (m : Traced) :
    rtmpInitWepEngine env (if env.seed then m.loads 0 3 else ([], m)).1 key =
      rtmpInitWepEngine env (readAt m.cells 0 3) key := by
  unfold rtmpInitWepEngine
  split_ifs <;> rfl

theorem cells_loads (env : WepEnv) (m : Traced) :
    (if env.seed then m.loads 0 3 else ([], m)).2.cells = m.cells := by
  split_ifs <;> rfl

theorem crcRemainder_eq (bs : List Byte) : crcRemainder crcPoly 0xffffffff bs ^^^ 0xffffffff = crc32 crcPoly bs :=
  rfl

theorem toNat_sub_four (n : BitVec 16) : (n - 4).toNat = (n.toNat + 65532) % 65536 := by
  rw [BitVec.toNat_sub, Nat.add_comm]
  rfl

def deciphered (env : WepEnv) (key : CipherKey) (m : Traced) (n : BitVec 16) : Traced :=
  let iv := if env.seed then m.loads 0 3 else ([], m)
  arc4ComputeAt 4 0 (n - 4).toNat (rtmpInitWepEngine env iv.1 key) iv.2

def checked (env : WepEnv) (key : CipherKey) (m : Traced) (n : BitVec 16) : Traced :=
  let trailfcs := (deciphered env key m n).loads (n - 4 - 4).toNat 4
  (rtmpCalcFcs32 (n - 4 - 4).toNat 0xffffffff 0 trailfcs.2).2

def passes (env : WepEnv) (key : CipherKey) (m : Traced) (n : BitVec 16) : Prop :=
  crc32 crcPoly (readAt (deciphered env key m n).cells 0 (n - 4 - 4).toNat) =
    ofOctets32 (readAt (deciphered env key m n).cells (n - 4 - 4).toNat 4)

instance (env : WepEnv) (key : CipherKey) (m : Traced) (n : BitVec 16) : Decidable (passes env key m n) :=
  inferInstanceAs (Decidable (_ = _))

section Body

variable {env : WepEnv} {key : CipherKey} {m : Traced} {n : BitVec 16}

theorem rtmpSoftDecryptWEP_eq (hctx : env.arc4Ctx = true) (hkey : key.keyLen ≠ 0) :
    rtmpSoftDecryptWEP env key m n =
      if passes env key m n then (true, checked env key m n, n - 4 - 4) else (false, checked env key m n, n) := by
  unfold rtmpSoftDecryptWEP
  rw [if_neg (by simp [hctx]), if_neg hkey]
  dsimp only
  rw [rtmpCalcFcs32_eq, crcRemainder_eq]
  exact ite_not _ _ _

theorem textLen_eq (hn : 8 ≤ n.toNat) : (n - 4).toNat = n.toNat - 4 := by
  have := n.isLt
  rw [toNat_sub_four]
  omega

theorem payloadLen_eq (hn : 8 ≤ n.toNat) : (n - 4 - 4).toNat = n.toNat - 8 := by
  have := n.isLt
  rw [toNat_sub_four, textLen_eq hn]
  omega

theorem payloadLen_short (hn : n.toNat < 8) : 65528 ≤ (n - 4 - 4).toNat := by
  rw [toNat_sub_four, toNat_sub_four]
  omega

theorem deciphered_cells (hn : 8 ≤ n.toNat) :
    (deciphered env key m n).cells = copy m.cells 0 (wepText env key m.cells n.toNat) := by
  unfold deciphered
  rw [arc4ComputeAt_cells _ _ _ (by omega), cells_loads, engine_loads, textLen_eq hn]
  rfl

theorem checked_cells : (checked env key m n).cells = (deciphered env key m n).cells := rtmpCalcFcs32_cells _ _ _ _

theorem passes_iff (hn : 8 ≤ n.toNat) : passes env key m n ↔ IcvOk env key m.cells n.toNat := by
  have hlen := length_wepText env key m.cells n.toNat
  have hholds : HoldsAt (deciphered env key m n).cells 0 (wepText env key m.cells n.toNat) := by
    rw [deciphered_cells hn]
    exact holdsAt_copy _ _ _
  rw [← List.take_append_drop (n.toNat - 8) (wepText env key m.cells n.toNat), holdsAt_append] at hholds
  obtain ⟨htake, hdrop⟩ := hholds
  unfold HoldsAt at htake hdrop
  rw [List.length_take, hlen, show min (n.toNat - 8) (n.toNat - 4) = n.toNat - 8 by omega] at htake hdrop
  rw [List.length_drop, hlen, show n.toNat - 4 - (n.toNat - 8) = 4 by omega, Nat.zero_add] at hdrop
  unfold passes IcvOk
  rw [payloadLen_eq hn, htake, hdrop]
  exact eq_comm

theorem deciphered_touched (a : ℕ) :
    a ∈ (deciphered env key m n).touched ↔
      a ∈ m.touched ∨ (env.seed = true ∧ a < 3) ∨ (4 ≤ a ∧ a < 4 + (n - 4).toNat) ∨ a < (n - 4).toNat := by
  have hiv : a ∈ (if env.seed then m.loads 0 3 else ([], m)).2.touched ↔
      a ∈ m.touched ∨ (env.seed = true ∧ a < 3) := by
    cases env.seed with
    | false => simp
    | true => simp [mem_loads_touched]
  unfold deciphered
  rw [arc4ComputeAt_touched, hiv, or_assoc, Nat.zero_add]
  simp only [Nat.zero_le, true_and]

theorem checked_touched (a : ℕ) :
    a ∈ (checked env key m n).touched ↔
      a ∈ (deciphered env key m n).touched ∨ a < (n - 4 - 4).toNat + 4 := by
  unfold checked
  rw [rtmpCalcFcs32_touched, mem_loads_touched, or_assoc]
  refine or_congr Iff.rfl ?_
  omega

end Body

/-- What is asked of decrypting the `n` bytes at `pData`: the payload is accepted only with its check value,
and only bytes of the body are read or written. -/
def WepSound (env : WepEnv) (key : CipherKey) (m : ℕ → Byte) (n : BitVec 16) : Prop :=
  ((rtmpSoftDecryptWEP env key ⟨m, []⟩ n).1 = true → IcvOk env key m n.toNat) ∧
    ∀ a ∈ (rtmpSoftDecryptWEP env key ⟨m, []⟩ n).2.1.touched, a < n.toNat

theorem wepSound_of_long {env : WepEnv} {key : CipherKey} {m : ℕ → Byte} {n : BitVec 16}
    (hctx : env.arc4Ctx = true) (hkey : key.keyLen ≠ 0) (hn : 8 ≤ n.toNat) : WepSound env key m n := by
  have htouched : ∀ a ∈ (checked env key ⟨m, []⟩ n).touched, a < n.toNat := by
    intro a ha
    rw [checked_touched, deciphered_touched, textLen_eq hn, payloadLen_eq hn] at ha
    rcases ha with (h | h | h | h) | h
    · exact absurd h (List.not_mem_nil)
    all_goals omega
  have hpasses : passes env key ⟨m, []⟩ n ↔ IcvOk env key m n.toNat := passes_iff hn
  unfold WepSound
  rw [rtmpSoftDecryptWEP_eq hctx hkey]
  by_cases h : passes env key ⟨m, []⟩ n
  · rw [if_pos h]
    exact ⟨fun _ => hpasses.1 h, htouched⟩
  · rw [if_neg h]
    exact ⟨fun hacc => absurd hacc Bool.false_ne_true, htouched⟩

theorem not_wepSound_of_short {env : WepEnv} {key : CipherKey} {m : ℕ → Byte} {n : BitVec 16}
    (hctx : env.arc4Ctx = true) (hkey : key.keyLen ≠ 0) (hn : n.toNat < 8) : ¬WepSound env key m n := by
  rintro ⟨-, htouched⟩
  have hmem : 8 ∈ (checked env key ⟨m, []⟩ n).touched :=
    (checked_touched 8).2 (Or.inr (by have := payloadLen_short hn; omega))
  rw [rtmpSoftDecryptWEP_eq hctx hkey] at htouched
  have h8 : 8 < n.toNat := by
    split_ifs at htouched
    · exact htouched 8 hmem
    · exact htouched 8 hmem
  omega

/-! ### The round trip -/

/-- The body that `RTMPConstructWEPIVHdr` and `RTMPSoftEncryptWEP` make of a payload of `n` bytes at `pData`. -/
def wepBody (env : WepEnv) (key : CipherKey) (keyIdx : Byte) (pn : Bytes 3) (m : Traced) (n : ℕ) : List Byte :=
  let ivHdr := rtmpConstructWEPIVHdr keyIdx pn
  ivHdr ++ Lib.read (rtmpSoftEncryptWEP env ivHdr key m n).2.cells (n + 4)

def sealedText (payload : List Byte) : List Byte := payload ++ octets32 (crc32 crcPoly payload)

theorem length_sealedText (payload : List Byte) : (sealedText payload).length = payload.length + 4 :=
  List.length_append

section RoundTrip

variable {env : WepEnv} {key : CipherKey} {m : Traced} {payload : List Byte}

theorem rtmpSoftEncryptWEP_eq (hctx : env.arc4Ctx = true) (hkey : key.keyLen ≠ 0) (ivHdr : List Byte)
    (hm : Holds m.cells payload) :
    (rtmpSoftEncryptWEP env ivHdr key m payload.length).1 = true ∧
      Lib.read (rtmpSoftEncryptWEP env ivHdr key m payload.length).2.cells (payload.length + 4) =
        arc4Compute (rtmpInitWepEngine env (ivHdr.take 3) key) (sealedText payload) := by
  have hpay : HoldsAt m.cells 0 payload := by
    simp only [HoldsAt, readAt, Nat.zero_add]
    exact hm
  have hfcs : (rtmpCalcFcs32 payload.length 0xffffffff 0 m).1 ^^^ 0xffffffff = crc32 crcPoly payload := by
    rw [rtmpCalcFcs32_eq, hpay, crcRemainder_eq]
  have hsealed : HoldsAt (copy m.cells payload.length (octets32 (crc32 crcPoly payload))) 0 (sealedText payload) :=
    hpay.append_copy _ (Nat.zero_add _).symm
  unfold HoldsAt at hsealed
  unfold rtmpSoftEncryptWEP
  rw [if_neg (by simp [hctx]), if_neg hkey]
  refine ⟨rfl, ?_⟩
  dsimp only [Traced.stores]
  rw [arc4ComputeAt_cells _ _ _ le_rfl, rtmpCalcFcs32_cells, hfcs]
  rw [length_sealedText] at hsealed
  rw [hsealed]
  have hread := holds_copy (copy m.cells payload.length (octets32 (crc32 crcPoly payload)))
    (arc4Compute (rtmpInitWepEngine env (ivHdr.take 3) key) (sealedText payload))
  unfold Holds at hread
  rw [length_arc4Compute, length_sealedText] at hread
  exact hread

theorem icvOk_of_text {m : ℕ → Byte} {n : ℕ} (hn : n = payload.length + 8)
    (htext : wepText env key m n = sealedText payload) : IcvOk env key m n := by
  unfold IcvOk
  rw [htext, hn, Nat.add_sub_cancel, sealedText, List.drop_left, List.take_left, ofOctets32_octets32]

theorem take_rtmpConstructWEPIVHdr (keyIdx : Byte) (pn : Bytes 3) :
    (rtmpConstructWEPIVHdr keyIdx pn).take 3 = List.ofFn pn :=
  List.take_left' (List.length_ofFn)

theorem length_rtmpConstructWEPIVHdr (keyIdx : Byte) (pn : Bytes 3) :
    (rtmpConstructWEPIVHdr keyIdx pn).length = 4 := by
  simp [rtmpConstructWEPIVHdr]

theorem wepBody_eq (hctx : env.arc4Ctx = true) (hseed : env.seed = true) (hkey : key.keyLen ≠ 0)
    (hm : Holds m.cells payload) (keyIdx : Byte) (pn : Bytes 3) :
    wepBody env key keyIdx pn m payload.length = rtmpConstructWEPIVHdr keyIdx pn ++
      arc4Compute (arc4Init (List.ofFn pn ++ (List.ofFn key.key).take key.keyLen)) (sealedText payload) := by
  unfold wepBody
  dsimp only
  rw [(rtmpSoftEncryptWEP_eq hctx hkey _ hm).2, take_rtmpConstructWEPIVHdr, rtmpInitWepEngine, if_pos hseed]

theorem wepText_of_body (hseed : env.seed = true) {keyIdx : Byte} {pn : Bytes 3} {m : ℕ → Byte} {n : ℕ}
    (hn : n = payload.length + 8)
    (hbody : Holds m (rtmpConstructWEPIVHdr keyIdx pn ++
      arc4Compute (arc4Init (List.ofFn pn ++ (List.ofFn key.key).take key.keyLen)) (sealedText payload))) :
    wepText env key m n = sealedText payload := by
  rw [holds_append, length_rtmpConstructWEPIVHdr] at hbody
  obtain ⟨hhdr, htext⟩ := hbody
  have hiv : readAt m 0 3 = List.ofFn pn := by
    unfold rtmpConstructWEPIVHdr at hhdr
    have h := (holds_append.1 hhdr).1
    simp only [Holds, List.length_ofFn] at h
    simp only [readAt, Nat.zero_add]
    exact h
  unfold Holds at htext
  rw [length_arc4Compute, length_sealedText] at htext
  unfold wepText readAt at *
  rw [hiv, rtmpInitWepEngine, if_pos hseed, hn, show payload.length + 8 - 4 = payload.length + 4 by omega, htext,
    arc4Compute_arc4Compute]

/-- **Decryption gives back what encryption was given.** Whatever else lies in the memory of the two. -/
theorem rtmpSoftDecryptWEP_encrypt (hctx : env.arc4Ctx = true) (hseed : env.seed = true) (hkey : key.keyLen ≠ 0)
    {keyIdx : Byte} {pn : Bytes 3} {n : BitVec 16} (hn : n.toNat = payload.length + 8)
    (hbody : Holds m.cells (rtmpConstructWEPIVHdr keyIdx pn ++
      arc4Compute (arc4Init (List.ofFn pn ++ (List.ofFn key.key).take key.keyLen)) (sealedText payload))) :
    (rtmpSoftDecryptWEP env key m n).1 = true ∧ Holds (rtmpSoftDecryptWEP env key m n).2.1.cells payload ∧
      (rtmpSoftDecryptWEP env key m n).2.2 = n - 8 := by
  have h8 : 8 ≤ n.toNat := by omega
  have htext := @wepText_of_body env _ _ hseed _ _ _ _ hn hbody
  have hpasses : passes env key m n := (passes_iff h8).2 (icvOk_of_text hn htext)
  rw [rtmpSoftDecryptWEP_eq hctx hkey, if_pos hpasses]
  refine ⟨rfl, ?_, ?_⟩
  · rw [checked_cells, deciphered_cells h8, htext]
    exact (holds_append.1 (holds_copy _ _)).1
  · rw [BitVec.sub_sub]
    rfl

end RoundTrip

/-- **WEP in software.** A body that was made of a payload gives the payload back, with the length reduced by
eight; and a body is handled soundly exactly if there was no memory to begin with or it has the eight bytes of IV
header and check value. The length of the payload is a number of 16 bits: for a shorter body it wraps around, and
the check runs over nearly 64 KiB behind it. -/
theorem wep_sound_iff {key : CipherKey} (hkey : key.keyLen = 5 ∨ key.keyLen = 13) :
    (∀ (env env' : WepEnv) (keyIdx : Byte) (pn : Bytes 3) (m m' : Traced) (payload : List Byte) (n : BitVec 16),
      env.arc4Ctx = true → env.seed = true → env'.arc4Ctx = true → env'.seed = true →
      Holds m.cells payload → n.toNat = payload.length + 8 →
      Holds m'.cells (wepBody env key keyIdx pn m payload.length) →
        (rtmpSoftEncryptWEP env (rtmpConstructWEPIVHdr keyIdx pn) key m payload.length).1 = true ∧
        wepBody env key keyIdx pn m payload.length = rtmpConstructWEPIVHdr keyIdx pn ++
          arc4Compute (arc4Init (List.ofFn pn ++ (List.ofFn key.key).take key.keyLen)) (sealedText payload) ∧
        (rtmpSoftDecryptWEP env' key m' n).1 = true ∧
        Holds (rtmpSoftDecryptWEP env' key m' n).2.1.cells payload ∧
        (rtmpSoftDecryptWEP env' key m' n).2.2 = n - 8) ∧
    ∀ (env : WepEnv) (m : ℕ → Byte) (n : BitVec 16),
      WepSound env key m n ↔ env.arc4Ctx = false ∨ 8 ≤ n.toNat := by
  have hkey0 : key.keyLen ≠ 0 := by omega
  constructor
  · intro env env' keyIdx pn m m' payload n hctx hseed hctx' hseed' hm hn hbody
    have heq := wepBody_eq hctx hseed hkey0 hm keyIdx pn
    rw [heq] at hbody
    exact ⟨(rtmpSoftEncryptWEP_eq hctx hkey0 _ hm).1, heq, rtmpSoftDecryptWEP_encrypt hctx' hseed' hkey0 hn hbody⟩
  · intro env m n
    cases hctx : env.arc4Ctx with
    | false =>
      refine iff_of_true ?_ (Or.inl rfl)
      unfold WepSound rtmpSoftDecryptWEP
      rw [if_pos hctx]
      exact ⟨fun hacc => absurd hacc Bool.false_ne_true, fun a ha => absurd ha List.not_mem_nil⟩
    | true =>
      rcases Nat.lt_or_ge n.toNat 8 with hn | hn
      · exact iff_of_false (not_wepSound_of_short hctx hkey0 hn) (by simp; omega)
      · exact iff_of_true (wepSound_of_long hctx hkey0 hn) (Or.inr hn)

def zeroWepKey : CipherKey := ⟨zeros 16, zeros 8, zeros 8, zeros 16, zeros 16, .wep64, 5⟩

def roomyWepEnv : WepEnv := ⟨true, true, ⟨0, 0, []⟩⟩

theorem wep_sound_empty_payload : zeroWepKey.keyLen = 5 ∧ WepSound roomyWepEnv zeroWepKey (mem []) 8 :=
  ⟨rfl, ((@wep_sound_iff zeroWepKey (Or.inl rfl)).2 roomyWepEnv (mem []) 8).2 (Or.inr (by decide))⟩

/-- A body that ends with the IV header is not handled soundly. -/
theorem not_wepSound_header_only : ¬WepSound roomyWepEnv zeroWepKey (mem []) 4 :=
  not_wepSound_of_short rfl (by decide) (by decide)

end Mt7610u.Data
