import Mt7610u.Lib.BlockHash

/-! # Hash contexts (`common/crypt_sha2.c`, `common/crypt_md5.c`)

SHA-1, SHA-256 and MD5 share the handling of the partial block, the message length and the padding; they differ in
the computation for one block, the byte order of the length and the output. -/

namespace Mt7610u.Crypto

open Lib Lib.BlockHash

variable {σ : Type}

/-- `SHA1_BLOCK_SIZE`, `SHA256_BLOCK_SIZE` and `MD5_BLOCK_SIZE`. -/
def blockSize : ℕ := 64

/-- `SHA1_CTX_STRUC`, `SHA256_CTX_STRUC` and `MD5_CTX_STRUC`. -/
structure HashCtx (σ : Type) where
  hashValue : σ
  messageLen : BitVec 64
  block : ℕ → Byte
  blockLen : BitVec 32

def hashInit (defaultHashValue : σ) : HashCtx σ := ⟨defaultHashValue, 0, mem [], 0⟩

/-- The hash functions: `comp` computes the next hash value from the block, which is zeroed. -/
def hashBlock (comp : σ → List Byte → σ) (ctx : HashCtx σ) : HashCtx σ :=
  { ctx with hashValue := comp ctx.hashValue (Lib.read ctx.block blockSize), block := mem [], blockLen := 0 }

/-- `NdisMoveMemory` to the end of what is in the block; `none` if it writes behind the block. -/
def fillBlock (ctx : HashCtx σ) (bs : List Byte) : Option (HashCtx σ) :=
  if ctx.blockLen.toNat + bs.length ≤ blockSize then
    some { ctx with block := copy ctx.block ctx.blockLen.toNat bs }
  else none

/-- The loop of the append functions, on the part of the message that has not been taken in; `none` if it goes out
of a buffer or does not end in `fuel` rounds. -/
def appendLoop (comp : σ → List Byte → σ) : ℕ → List Byte → HashCtx σ → Option (HashCtx σ)
  | _, [], ctx => some ctx
  | 0, _ :: _, _ => none
  | fuel + 1, message, ctx =>
    let diffLen := BitVec.ofNat 32 message.length
    if (ctx.blockLen + diffLen).toNat < blockSize then
      (fillBlock ctx message).map fun ctx => { ctx with blockLen := ctx.blockLen + diffLen }
    else
      let n := (64 - ctx.blockLen).toNat
      if message.length < n then none
      else
        (fillBlock ctx (message.take n)).bind fun ctx =>
          appendLoop comp fuel (message.drop n) (hashBlock comp { ctx with blockLen := 64 })

/-- A message that can be handed over at once: its length is a `UINT`. -/
abbrev Piece := { bs : List Byte // bs.length < 2 ^ 32 }

def hashAppend (comp : σ → List Byte → σ) (ctx : HashCtx σ) (message : Piece) : Option (HashCtx σ) :=
  (appendLoop comp message.1.length message.1 ctx).map fun ctx =>
    { ctx with messageLen := ctx.messageLen + BitVec.ofNat 64 message.1.length }

def hashEnd (comp : σ → List Byte → σ) (lenBytes : BitVec 64 → List Byte) (ctx : HashCtx σ) : Option σ :=
  (fillBlock ctx [0x80]).map fun ctx =>
    let ctx := if 55 < ctx.blockLen.toNat then hashBlock comp ctx else ctx
    let messageLengthBits := ctx.messageLen * 8
    (hashBlock comp { ctx with block := copy ctx.block 56 (lenBytes messageLengthBits) }).hashValue

def hashPieces (comp : σ → List Byte → σ) (lenBytes : BitVec 64 → List Byte) (iv : σ) (pieces : List Piece) :
    Option σ :=
  (pieces.foldlM (hashAppend comp) (hashInit iv)).bind (hashEnd comp lenBytes)

/-- The sum that the append functions test does not wrap: behind `n` bytes, the bytes in the block and those of the
piece are fewer than `2 ^ 32`. -/
def Fits : ℕ → List Piece → Prop
  | _, [] => True
  | n, p :: ps => n % blockSize + p.1.length < 2 ^ 32 ∧ Fits (n + p.1.length) ps

def joined (pieces : List Piece) : List Byte := (pieces.map Subtype.val).flatten

/-! ### What a context has taken in -/

variable {comp : σ → List Byte → σ} {iv : σ} {ctx : HashCtx σ} {m : List Byte}

/-- The context has the hash value `h` and the bytes `r` in its block. -/
structure Holding (ctx : HashCtx σ) (h : σ) (r : List Byte) : Prop where
  hashValue : ctx.hashValue = h
  block : ctx.block = mem r
  blockLen : ctx.blockLen.toNat = r.length

/-- The context has taken in the message `m`. -/
structure Follows (comp : σ → List Byte → σ) (iv : σ) (ctx : HashCtx σ) (m : List Byte) : Prop where
  holding : Holding ctx (absorb comp blockSize iv m).1 (absorb comp blockSize iv m).2
  messageLen : ctx.messageLen = BitVec.ofNat 64 m.length

theorem blockSize_pos : 0 < blockSize := by decide

theorem follows_init (comp : σ → List Byte → σ) (iv : σ) : Follows comp iv (hashInit iv) [] := by
  have hnil : absorb comp blockSize iv [] = (iv, []) := absorb_of_lt blockSize_pos
  refine ⟨?_, rfl⟩
  rw [hnil]
  exact ⟨rfl, rfl, rfl⟩

theorem Holding.fill {h : σ} {r b : List Byte} (hctx : Holding ctx h r) (hlen : r.length + b.length ≤ blockSize) :
    fillBlock ctx b = some { ctx with block := mem (r ++ b) } := by
  unfold fillBlock
  rw [hctx.blockLen, if_pos hlen, hctx.block, copy_mem]

theorem toNat_room {r : List Byte} (hr : r.length < blockSize) (hlen : ctx.blockLen.toNat = r.length) :
    (64 - ctx.blockLen).toNat = blockSize - r.length := by
  have h64 : (64 : BitVec 32).toNat = 64 := rfl
  unfold blockSize at hr ⊢
  rw [BitVec.toNat_sub, h64]
  omega

variable (comp) in
/-- **The loop takes the message in**, if the sum of the first round does not wrap. -/
theorem appendLoop_eq (fuel : ℕ) {h : σ} {r b : List Byte} (hctx : Holding ctx h r) (hr : r.length < blockSize)
    (hfuel : b.length ≤ fuel) (hfits : r.length + b.length < 2 ^ 32) :
    ∃ ctx', appendLoop comp fuel b ctx = some ctx' ∧
      Holding ctx' (absorb comp blockSize h (r ++ b)).1 (absorb comp blockSize h (r ++ b)).2 ∧
      ctx'.messageLen = ctx.messageLen := by
  induction fuel generalizing ctx h r b with
  | zero =>
    obtain rfl := List.length_eq_zero_iff.1 (Nat.le_zero.1 hfuel)
    rw [List.append_nil, absorb_of_lt hr]
    exact ⟨ctx, rfl, hctx, rfl⟩
  | succ fuel ih =>
    cases b with
    | nil =>
      rw [List.append_nil, absorb_of_lt hr]
      exact ⟨ctx, rfl, hctx, rfl⟩
    | cons b bs =>
      generalize hms : b :: bs = message at hfuel hfits ⊢
      have hpos : 0 < message.length := by rw [← hms]; simp
      have hloop : appendLoop comp (fuel + 1) message ctx =
          let diffLen := BitVec.ofNat 32 message.length
          if (ctx.blockLen + diffLen).toNat < blockSize then
            (fillBlock ctx message).map fun ctx => { ctx with blockLen := ctx.blockLen + diffLen }
          else
            let n := (64 - ctx.blockLen).toNat
            if message.length < n then none
            else
              (fillBlock ctx (message.take n)).bind fun ctx =>
                appendLoop comp fuel (message.drop n) (hashBlock comp { ctx with blockLen := 64 }) := by
        rw [← hms]
        rfl
      have hsum : (ctx.blockLen + BitVec.ofNat 32 message.length).toNat = r.length + message.length := by
        rw [BitVec.toNat_add, hctx.blockLen, BitVec.toNat_ofNat]
        omega
      rw [hloop]
      dsimp only
      rw [hsum, toNat_room hr hctx.blockLen]
      by_cases hlt : r.length + message.length < blockSize
      · have hlen : (r ++ message).length < blockSize := by rwa [List.length_append]
        rw [if_pos hlt, hctx.fill (by omega), absorb_of_lt hlen]
        exact ⟨_, rfl, ⟨hctx.hashValue, rfl, by rw [List.length_append]; exact hsum⟩, rfl⟩
      · have hge : blockSize - r.length ≤ message.length := by omega
        have htake : (message.take (blockSize - r.length)).length = blockSize - r.length :=
          List.length_take_of_le hge
        have hblock : (r ++ message.take (blockSize - r.length)).length = blockSize := by
          rw [List.length_append, htake]
          omega
        rw [if_neg hlt, if_neg (by omega), hctx.fill (by omega), Option.bind_some]
        have hread : Lib.read (mem (r ++ message.take (blockSize - r.length))) blockSize =
            r ++ message.take (blockSize - r.length) := by
          rw [read_mem_of_le hblock.le, hblock, Nat.sub_self]
          exact List.append_nil _
        have hnext : Holding (hashBlock comp { ctx with
            block := mem (r ++ message.take (blockSize - r.length)), blockLen := 64 })
            (comp h (r ++ message.take (blockSize - r.length))) [] :=
          ⟨by rw [hashBlock, hread, hctx.hashValue], rfl, rfl⟩
        obtain ⟨ctx', hctx', hholding, hml⟩ := ih hnext blockSize_pos
          (b := message.drop (blockSize - r.length))
          (by rw [List.length_drop]; unfold blockSize at *; omega)
          (by rw [List.length_drop, List.length_nil]; omega)
        refine ⟨ctx', hctx', ?_, hml⟩
        have hsplit : r ++ message = (r ++ message.take (blockSize - r.length)) ++
            message.drop (blockSize - r.length) := by
          rw [List.append_assoc, List.take_append_drop]
        rw [hsplit, absorb_block blockSize_pos hblock]
        exact hholding

theorem Follows.append (h : Follows comp iv ctx m) (message : Piece)
    (hfits : m.length % blockSize + message.1.length < 2 ^ 32) :
    ∃ ctx', hashAppend comp ctx message = some ctx' ∧ Follows comp iv ctx' (m ++ message.1) := by
  have hlen : (absorb comp blockSize iv m).2.length = m.length % blockSize := length_absorb blockSize_pos iv m
  obtain ⟨ctx', hctx', hholding, hml⟩ := appendLoop_eq comp message.1.length h.holding
    (by rw [hlen]; exact Nat.mod_lt _ blockSize_pos) le_rfl (by rw [hlen]; exact hfits)
  unfold hashAppend
  rw [hctx']
  refine ⟨_, rfl, ⟨?_, ?_⟩⟩
  · rw [absorb_append blockSize_pos]
    exact ⟨hholding.hashValue, hholding.block, hholding.blockLen⟩
  · show ctx'.messageLen + BitVec.ofNat 64 message.1.length = _
    rw [hml, h.messageLen, List.length_append, BitVec.ofNat_add]

/-- **A sum that wraps.** The whole piece is copied behind what is in the block. -/
theorem hashAppend_wrap (h : Follows comp iv ctx m) (message : Piece)
    (hwrap : 2 ^ 32 ≤ m.length % blockSize + message.1.length) : hashAppend comp ctx message = none := by
  have hlen : (absorb comp blockSize iv m).2.length = m.length % blockSize := length_absorb blockSize_pos iv m
  have hmod : m.length % blockSize < blockSize := Nat.mod_lt _ blockSize_pos
  have hblock := h.holding.blockLen
  have hlt := message.2
  rw [hlen] at hblock
  obtain ⟨message, hmsg⟩ := message
  dsimp only at *
  unfold hashAppend
  cases message with
  | nil =>
    rw [List.length_nil] at hwrap
    unfold blockSize at hmod
    omega
  | cons b bs =>
    have hsum : (ctx.blockLen + BitVec.ofNat 32 (b :: bs).length).toNat < blockSize := by
      rw [BitVec.toNat_add, hblock, BitVec.toNat_ofNat, Nat.mod_eq_of_lt hlt, Nat.mod_eq_sub_mod hwrap,
        Nat.mod_eq_of_lt (by unfold blockSize at hmod; omega)]
      omega
    have hfill : fillBlock ctx (b :: bs) = none := by
      unfold fillBlock
      rw [hblock, if_neg]
      unfold blockSize at hwrap ⊢
      omega
    show ((if (ctx.blockLen + BitVec.ofNat 32 (b :: bs).length).toNat < blockSize then _ else _ :
      Option (HashCtx σ)).map _) = none
    rw [if_pos hsum, hfill]
    rfl

theorem Follows.finish (h : Follows comp iv ctx m) {lenBytes : BitVec 64 → List Byte}
    (hlen : ∀ n, (lenBytes n).length = 8) :
    hashEnd comp lenBytes ctx = some (digest comp blockSize iv lenBytes m) := by
  have hr : (absorb comp blockSize iv m).2.length < blockSize := by
    rw [length_absorb blockSize_pos]
    exact Nat.mod_lt _ blockSize_pos
  have hbits : ctx.messageLen * 8 = BitVec.ofNat 64 (8 * m.length) := by
    rw [h.messageLen, Nat.mul_comm 8]
    exact (BitVec.ofNat_mul _ _).symm
  have hdig := fun hshort => @digest_of_short _ comp blockSize iv _ m hlen hshort
  have hdig' := fun hlong => @digest_of_long _ comp blockSize iv _ m (by decide) hlen hlong
  unfold hashEnd
  rw [h.holding.fill (b := [0x80]) (by rw [List.length_singleton]; omega), Option.map_some]
  refine congrArg some ?_
  dsimp only
  rw [h.holding.blockLen]
  have hval := h.holding.hashValue
  generalize (absorb comp blockSize iv m).1 = v at *
  generalize (absorb comp blockSize iv m).2 = r at *
  by_cases hlong : 55 < r.length
  · rw [if_pos hlong, hdig' (by unfold blockSize; omega)]
    have hfirst : Lib.read (mem (r ++ [0x80])) blockSize =
        r ++ 0x80 :: List.replicate (blockSize - 1 - r.length) 0 := by
      have hone : (r ++ [(0x80 : Byte)]).length ≤ blockSize := by
        rw [List.length_append, List.length_singleton]
        omega
      rw [read_mem_of_le hone, List.length_append, List.append_assoc, Nat.sub_sub, Nat.add_comm 1]
      rfl
    have hzeros : (mem [] : ℕ → Byte) = mem (List.replicate 56 0) := (mem_append_zeros [] 56).symm
    have hsecond : Lib.read (copy (mem []) 56 (lenBytes (ctx.messageLen * 8))) blockSize =
        List.replicate (blockSize - 8) 0 ++ lenBytes (BitVec.ofNat 64 (8 * m.length)) := by
      have hcopy := copy_mem (List.replicate 56 0) (lenBytes (ctx.messageLen * 8))
      rw [List.length_replicate] at hcopy
      have hfull : (List.replicate 56 (0 : Byte) ++ lenBytes (ctx.messageLen * 8)).length = blockSize := by
        rw [List.length_append, List.length_replicate, hlen]
        rfl
      rw [hzeros, hcopy, read_mem_of_le hfull.le, hfull, Nat.sub_self, hbits]
      exact List.append_nil _
    unfold hashBlock
    dsimp only
    rw [hfirst, hsecond, hval]
  · rw [if_neg hlong, hdig (by unfold blockSize; omega)]
    have hpad : (mem (r ++ [0x80]) : ℕ → Byte) = mem (r ++ 0x80 :: List.replicate (blockSize - 9 - r.length) 0) := by
      rw [← mem_append_zeros (r ++ [0x80]) (blockSize - 9 - r.length), List.append_assoc]
      rfl
    have hfull : (r ++ 0x80 :: List.replicate (blockSize - 9 - r.length) (0 : Byte)).length = 56 := by
      rw [List.length_append, List.length_cons, List.length_replicate]
      unfold blockSize
      omega
    have hread : Lib.read (copy (mem (r ++ [0x80])) 56 (lenBytes (ctx.messageLen * 8))) blockSize =
        r ++ 0x80 :: (List.replicate (blockSize - 9 - r.length) 0 ++
          lenBytes (BitVec.ofNat 64 (8 * m.length))) := by
      have hcopy := copy_mem (r ++ 0x80 :: List.replicate (blockSize - 9 - r.length) 0)
        (lenBytes (ctx.messageLen * 8))
      rw [hfull] at hcopy
      have hall : ((r ++ 0x80 :: List.replicate (blockSize - 9 - r.length) (0 : Byte)) ++
          lenBytes (ctx.messageLen * 8)).length = blockSize := by
        rw [List.length_append, hfull, hlen]
        rfl
      rw [hpad, hcopy, read_mem_of_le hall.le, hall, Nat.sub_self, hbits]
      simp
    unfold hashBlock
    dsimp only
    rw [hread, hval]

/-- **Incremental hashing.** From a context that has taken in `m`, the pieces give the hash value of the whole
message if no sum wraps, and none otherwise. -/
theorem foldlM_append_eq (pieces : List Piece) (h : Follows comp iv ctx m) {lenBytes : BitVec 64 → List Byte}
    (hlen : ∀ n, (lenBytes n).length = 8) :
    (Fits m.length pieces → (pieces.foldlM (hashAppend comp) ctx).bind (hashEnd comp lenBytes) =
      some (digest comp blockSize iv lenBytes (m ++ joined pieces))) ∧
    (¬Fits m.length pieces → (pieces.foldlM (hashAppend comp) ctx).bind (hashEnd comp lenBytes) = none) := by
  induction pieces generalizing ctx m with
  | nil =>
    refine ⟨fun _ => ?_, fun hn => absurd trivial hn⟩
    have hm : m ++ joined [] = m := List.append_nil m
    rw [hm]
    exact h.finish hlen
  | cons p ps ih =>
    rw [List.foldlM_cons]
    have hjoin : m ++ joined (p :: ps) = (m ++ p.1) ++ joined ps := by
      unfold joined
      rw [List.map_cons, List.flatten_cons, List.append_assoc]
    by_cases hp : m.length % blockSize + p.1.length < 2 ^ 32
    · obtain ⟨ctx', hctx', hfollows⟩ := h.append p hp
      have := ih hfollows
      rw [List.length_append] at this
      rw [hctx', hjoin]
      refine ⟨fun hfits => this.1 hfits.2, fun hn => this.2 fun hc => hn ⟨hp, hc⟩⟩
    · rw [hashAppend_wrap h p (by omega)]
      exact ⟨fun hfits => absurd hfits.1 hp, fun _ => rfl⟩

theorem hashPieces_none (comp : σ → List Byte → σ) (iv : σ) {lenBytes : BitVec 64 → List Byte}
    (hlen : ∀ n, (lenBytes n).length = 8) {pieces : List Piece} (hn : ¬Fits 0 pieces) :
    hashPieces comp lenBytes iv pieces = none :=
  (foldlM_append_eq pieces (follows_init comp iv) hlen).2 hn

/-- **The digest is that of the whole message exactly if no sum wraps.** -/
theorem hashPieces_iff (comp : σ → List Byte → σ) (iv : σ) {lenBytes : BitVec 64 → List Byte}
    (hlen : ∀ n, (lenBytes n).length = 8) (pieces : List Piece) :
    hashPieces comp lenBytes iv pieces = some (digest comp blockSize iv lenBytes (joined pieces)) ↔
      Fits 0 pieces := by
  constructor
  · intro heq
    by_contra hn
    rw [hashPieces_none comp iv hlen hn] at heq
    exact absurd heq (by simp)
  · exact (foldlM_append_eq pieces (follows_init comp iv) hlen).1

end Mt7610u.Crypto
