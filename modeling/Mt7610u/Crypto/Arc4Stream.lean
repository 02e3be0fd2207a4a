import Mt7610u.Crypto.Arc4
import Mt7610u.Lib.BlockMode
import Mathlib.Data.List.Perm.Basic

/-! # The key stream of ARC4 (`common/crypt_arc4.c`)

`ARC4_Compute` on memory, in one call or in pieces. -/

namespace Mt7610u.Crypto

open Lib List

/-- `ARC4_Compute` of `n` bytes at `input` to `output`, in the order of the loop, with the context it leaves. -/
def arc4ComputeInto : ℕ → ℕ → ℕ → Arc4Ctx × (ℕ → Byte) → Arc4Ctx × (ℕ → Byte)
  | _, _, 0, s => s
  | input, output, n + 1, (ctx, m) =>
    let ctx := arc4Advance ctx
    arc4ComputeInto (input + 1) (output + 1) n (ctx, copy m output [m input ^^^ arc4Byte ctx])

/-- `ARC4_Compute` of consecutive pieces of the lengths `ns`. -/
def arc4ComputePieces : ℕ → ℕ → List ℕ → Arc4Ctx × (ℕ → Byte) → Arc4Ctx × (ℕ → Byte)
  | _, _, [], s => s
  | input, output, n :: ns, s =>
    arc4ComputePieces (input + n) (output + n) ns (arc4ComputeInto input output n s)

def allBytes : List Byte := (List.range 256).map (BitVec.ofNat 8)

/-- Byte `k` of the key stream. -/
def keyStream (ctx : Arc4Ctx) (k : ℕ) : Byte := arc4Byte (arc4DiscardKeyLength ctx (k + 1))

/-! ### The key block -/

theorem swapBlock_perm {keyBlock : List Byte} (h : keyBlock ~ allBytes) (i j : Byte) :
    swapBlock keyBlock i j ~ allBytes := by
  have hlen : keyBlock.length = 256 := h.length_eq.trans (by simp [allBytes])
  have hi : i.toNat < keyBlock.length := hlen ▸ i.isLt
  have hj : j.toNat < keyBlock.length := hlen ▸ j.isLt
  unfold swapBlock blockAt
  rw [List.getD_eq_getElem _ _ hi, List.getD_eq_getElem _ _ hj]
  exact (List.set_set_perm hi hj).trans h

theorem arc4Schedule_perm (key : List Byte) (is : List ℕ) (swapIndex : Byte) {keyBlock : List Byte}
    (h : keyBlock ~ allBytes) : arc4Schedule key is swapIndex keyBlock ~ allBytes := by
  induction is generalizing swapIndex keyBlock with
  | nil => exact h
  | cons i is ih => exact ih _ (swapBlock_perm h _ _)

theorem arc4Init_perm (key : List Byte) : (arc4Init key).keyBlock ~ allBytes := by
  have hstart : (List.range 256).map (BitVec.ofNat 8) = allBytes := rfl
  simp only [arc4Init, hstart]
  exact arc4Schedule_perm key (List.range 256) 0 (Perm.refl allBytes)

theorem arc4Advance_perm {ctx : Arc4Ctx} (h : ctx.keyBlock ~ allBytes) : (arc4Advance ctx).keyBlock ~ allBytes :=
  swapBlock_perm h _ _

theorem arc4DiscardKeyLength_perm {ctx : Arc4Ctx} (h : ctx.keyBlock ~ allBytes) (n : ℕ) :
    (arc4DiscardKeyLength ctx n).keyBlock ~ allBytes := by
  induction n generalizing ctx with
  | zero => exact h
  | succ n ih => exact ih (arc4Advance_perm h)

/-! ### The stream -/

theorem arc4DiscardKeyLength_add (ctx : Arc4Ctx) (a b : ℕ) :
    arc4DiscardKeyLength ctx (a + b) = arc4DiscardKeyLength (arc4DiscardKeyLength ctx a) b := by
  induction a generalizing ctx with
  | zero => rw [Nat.zero_add]; rfl
  | succ a ih =>
    rw [Nat.succ_add]
    exact ih (arc4Advance ctx)

theorem keyStream_discard (ctx : Arc4Ctx) (n k : ℕ) :
    keyStream (arc4DiscardKeyLength ctx n) k = keyStream ctx (n + k) := by
  rw [keyStream, ← arc4DiscardKeyLength_add, ← Nat.add_assoc]
  rfl

theorem arc4Compute_eq (ctx : Arc4Ctx) (n : ℕ) (bs : List Byte) :
    arc4Compute (arc4DiscardKeyLength ctx n) bs = xorFrom (keyStream ctx) n bs := by
  induction bs generalizing n with
  | nil => rfl
  | cons b bs ih =>
    have hstep : arc4Advance (arc4DiscardKeyLength ctx n) = arc4DiscardKeyLength ctx (n + 1) :=
      (arc4DiscardKeyLength_add ctx n 1).symm
    rw [arc4Compute, hstep, ih, xorFrom, keyStream]

/-! ### The loop -/

/-- The context moves on by the length alone, and the memory changes as under the key bytes one by one. -/
theorem arc4ComputeInto_eq (ctx : Arc4Ctx) (m : ℕ → Byte) (input output n : ℕ) :
    arc4ComputeInto input output n (ctx, m) =
      (arc4DiscardKeyLength ctx n, xorInto m output input ((List.range n).map (keyStream ctx))) := by
  induction n generalizing ctx m input output with
  | zero => rfl
  | succ n ih =>
    rw [arc4ComputeInto, ih, List.range_succ_eq_map, List.map_cons, List.map_map]
    refine Prod.ext rfl ?_
    have htail : (List.range n).map (keyStream (arc4Advance ctx)) =
        (List.range n).map (keyStream ctx ∘ Nat.succ) :=
      List.map_congr_left fun k _ => rfl
    rw [htail]
    rfl

theorem arc4ComputeInto_add (s : Arc4Ctx × (ℕ → Byte)) (input output a b : ℕ) :
    arc4ComputeInto input output (a + b) s =
      arc4ComputeInto (input + a) (output + a) b (arc4ComputeInto input output a s) := by
  induction a generalizing s input output with
  | zero => rw [Nat.zero_add]; rfl
  | succ a ih =>
    rw [Nat.succ_add, arc4ComputeInto, ih, arc4ComputeInto, Nat.add_right_comm, Nat.add_right_comm output]
    rfl

theorem arc4ComputePieces_eq (s : Arc4Ctx × (ℕ → Byte)) (input output : ℕ) (ns : List ℕ) :
    arc4ComputePieces input output ns s = arc4ComputeInto input output ns.sum s := by
  induction ns generalizing s input output with
  | nil => rfl
  | cons n ns ih => rw [arc4ComputePieces, ih, List.sum_cons, arc4ComputeInto_add]

/-- **ARC4 is a stream.** The key block stays a permutation, pieces make the whole, an output that does not run
into the input behind it gets the plain sum, and what is discarded is the front of the key stream. -/
structure Streams : Prop where
  init : ∀ key : List Byte, (arc4Init key).keyBlock ~ allBytes
  compute : ∀ (ctx : Arc4Ctx) (m : ℕ → Byte) (input output n : ℕ), ctx.keyBlock ~ allBytes →
    (arc4ComputeInto input output n (ctx, m)).1.keyBlock ~ allBytes
  discard : ∀ (ctx : Arc4Ctx) (n : ℕ), ctx.keyBlock ~ allBytes → (arc4DiscardKeyLength ctx n).keyBlock ~ allBytes
  pieces : ∀ (s : Arc4Ctx × (ℕ → Byte)) (input output : ℕ) (ns : List ℕ),
    arc4ComputePieces input output ns s = arc4ComputeInto input output ns.sum s
  overlap : ∀ (ctx : Arc4Ctx) (m : ℕ → Byte) (input output n : ℕ), Clear output input n →
    arc4ComputeInto input output n (ctx, m) =
      (arc4DiscardKeyLength ctx n, copy m output (arc4Compute ctx (readAt m input n)))
  whole : ∀ (ctx : Arc4Ctx) (bs : List Byte), arc4Compute ctx bs = xorFrom (keyStream ctx) 0 bs
  dropped : ∀ (ctx : Arc4Ctx) (n : ℕ) (bs : List Byte),
    arc4Compute (arc4DiscardKeyLength ctx n) bs = xorFrom (fun k => keyStream ctx (n + k)) 0 bs

theorem arc4_streams : Streams where
  init := arc4Init_perm
  compute ctx m input output n h := by
    rw [arc4ComputeInto_eq]
    exact arc4DiscardKeyLength_perm h n
  discard ctx n h := arc4DiscardKeyLength_perm h n
  pieces := arc4ComputePieces_eq
  overlap ctx m input output n h := by
    have hlen : ((List.range n).map (keyStream ctx)).length = n := by simp
    have hks : ∀ i < ((List.range n).map (keyStream ctx)).length,
        ((List.range n).map (keyStream ctx)).getD i 0 = keyStream ctx (0 + i) := by
      intro i hi
      rw [hlen] at hi
      simp [hi]
    rw [arc4ComputeInto_eq, xorInto_eq_of_clear (keyStream ctx) m 0 (by rwa [hlen]) hks, hlen]
    exact Prod.ext rfl (congrArg (copy m output) (arc4Compute_eq ctx 0 _).symm)
  whole ctx bs := arc4Compute_eq ctx 0 bs
  dropped ctx n bs := by
    have hrec := arc4Compute_eq (arc4DiscardKeyLength ctx n) 0 bs
    rw [arc4DiscardKeyLength] at hrec
    rw [hrec]
    exact xorFrom_congr fun i _ _ => keyStream_discard ctx n i

end Mt7610u.Crypto
