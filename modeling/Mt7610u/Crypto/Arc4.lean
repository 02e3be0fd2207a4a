import Mt7610u.Lib.Bytes

/-! # ARC4 (`common/crypt_arc4.c`, `TKIP_GTK_KEY_WRAP` of `common/cmm_tkip.c`)

The stream cipher that hides the key data of a handshake under TKIP. -/

namespace Mt7610u.Crypto

open Lib

/-- `ARC4_CTX_STRUC`. The two indices are bytes, as `& 0xff` makes them. -/
structure Arc4Ctx where
  blockIndex1 : Byte
  blockIndex2 : Byte
  keyBlock : List Byte

def blockAt (keyBlock : List Byte) (i : Byte) : Byte := keyBlock.getD i.toNat 0

def swapBlock (keyBlock : List Byte) (i j : Byte) : List Byte :=
  (keyBlock.set i.toNat (blockAt keyBlock j)).set j.toNat (blockAt keyBlock i)

/-- The key schedule of `ARC4_INIT`, for the listed values of `BlockIndex`. -/
def arc4Schedule (key : List Byte) : List ℕ → Byte → List Byte → List Byte
  | [], _, keyBlock => keyBlock
  | blockIndex :: rest, swapIndex, keyBlock =>
    let i := BitVec.ofNat 8 blockIndex
    let swapIndex := swapIndex + blockAt keyBlock i + key.getD (blockIndex % key.length) 0
    arc4Schedule key rest swapIndex (swapBlock keyBlock i swapIndex)

def arc4Init (key : List Byte) : Arc4Ctx :=
  ⟨0, 0, arc4Schedule key (List.range 256) 0 ((List.range 256).map (BitVec.ofNat 8))⟩

def arc4Advance (ctx : Arc4Ctx) : Arc4Ctx :=
  let blockIndex1 := ctx.blockIndex1 + 1
  let blockIndex2 := ctx.blockIndex2 + blockAt ctx.keyBlock blockIndex1
  ⟨blockIndex1, blockIndex2, swapBlock ctx.keyBlock blockIndex1 blockIndex2⟩

def arc4Byte (ctx : Arc4Ctx) : Byte :=
  blockAt ctx.keyBlock (blockAt ctx.keyBlock ctx.blockIndex2 + blockAt ctx.keyBlock ctx.blockIndex1)

/-- `ARC4_Compute`: every input byte xored with the next byte of the key stream. -/
def arc4Compute (ctx : Arc4Ctx) : List Byte → List Byte
  | [] => []
  | b :: rest => (b ^^^ arc4Byte (arc4Advance ctx)) :: arc4Compute (arc4Advance ctx) rest

def arc4DiscardKeyLength (ctx : Arc4Ctx) : ℕ → Arc4Ctx
  | 0 => ctx
  | n + 1 => arc4DiscardKeyLength (arc4Advance ctx) n

/-- `TKIP_GTK_KEY_WRAP`, which is also `TKIP_GTK_KEY_UNWRAP`. -/
def tkipGtkKeyWrap (kek keyIv input : List Byte) : List Byte :=
  arc4Compute (arc4DiscardKeyLength (arc4Init (keyIv ++ kek)) 256) input

@[simp] theorem length_arc4Compute : ∀ (ctx : Arc4Ctx) (bs : List Byte), (arc4Compute ctx bs).length = bs.length
  | _, [] => rfl
  | ctx, _ :: bs => congrArg (· + 1) (length_arc4Compute (arc4Advance ctx) bs)

@[simp] theorem length_tkipGtkKeyWrap (kek keyIv input : List Byte) :
    (tkipGtkKeyWrap kek keyIv input).length = input.length :=
  length_arc4Compute _ _

theorem arc4Compute_arc4Compute : ∀ (ctx : Arc4Ctx) (bs : List Byte), arc4Compute ctx (arc4Compute ctx bs) = bs
  | _, [] => rfl
  | ctx, b :: bs => by
    rw [arc4Compute, arc4Compute, arc4Compute_arc4Compute, BitVec.xor_assoc, BitVec.xor_self, BitVec.xor_zero]

/-- **Unwrapping undoes wrapping.** The same key stream is xored in twice. -/
theorem tkipGtkKeyUnwrap_wrap (kek keyIv input : List Byte) :
    tkipGtkKeyWrap kek keyIv (tkipGtkKeyWrap kek keyIv input) = input :=
  arc4Compute_arc4Compute _ _

end Mt7610u.Crypto
