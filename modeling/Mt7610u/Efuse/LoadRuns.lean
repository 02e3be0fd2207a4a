import Mt7610u.Efuse.LoadFromBin

/-! # The blocks of an image

The loop over the bytes of the file is a loop over its blocks, and what is done for one block does not matter for the
others, as long as only registers of the eFuse are written to. -/

namespace Mt7610u.Efuse.Device

open Mt7610u.Lib

variable {map : UsageMap} {r : Regs}

/-! ### The blocks of an image -/

def imageBlock (byte : ℕ → Byte) (j : ℕ) (i : Fin 8) : BitVec 16 := word byte (16 * j + 2 * i.1)

def blockOffset (j : ℕ) : BitVec 16 := BitVec.ofNat 16 (16 * j)

def loadBlock (map : UsageMap) (byte : ℕ → Byte) (r : Regs) (j : ℕ) : Regs :=
  if ¬AllOnes (imageBlock byte j) then
    (eFuseWriteRegistersFromBin map (blockOffset j) (imageBlock byte j) r).2
  else
    let x := eFuseReadRegisters map r (BitVec.ofNat 16 (16 * j + 15))
    if x.1.1 ≠ 0x3f then (eFuseWriteRegistersFromBin map (blockOffset j) (imageBlock byte j) x.2).2 else x.2

theorem word_mask (high low : Byte) :
    (high.setWidth 16 <<< 8 &&& 0xff00#16) ||| low.setWidth 16 = high.setWidth 16 <<< 8 ||| low.setWidth 16 := by
  refine BitVec.eq_of_getLsbD_eq fun i hi => ?_
  have hmask : 0xff00#16 = BitVec.allOnes 16 <<< 8 := rfl
  rw [hmask]
  simp only [BitVec.getLsbD_or, BitVec.getLsbD_and, BitVec.getLsbD_shiftLeft, BitVec.getLsbD_allOnes]
  rcases Nat.lt_or_ge i 8 with h | h
  · simp [h]
  · simp [hi, Nat.not_lt.2 h, show i - 8 < 16 by omega]

theorem and_eq_ones (a b : Byte) : a &&& b = 0xff ↔ a = 0xff ∧ b = 0xff := BitVec.and_eq_allOnes_iff

theorem allOnes_iff (byte : ℕ → Byte) (j : ℕ) :
    AllOnes (imageBlock byte j) ↔ ∀ t < 16, byte (16 * j + t) = 0xff := by
  have hword : ∀ a, word byte a = 0xffff ↔ byte a = 0xff ∧ byte (a + 1) = 0xff := by
    intro a
    constructor
    · intro h
      exact ⟨by rw [← lowByte_word byte a, h]; rfl, by rw [← highByte_word byte a, h]; rfl⟩
    · rintro ⟨h0, h1⟩
      rw [word, h0, h1]
      rfl
  constructor
  · intro h t ht
    have := (hword _).1 (h ⟨t / 2, by omega⟩)
    rcases (by omega : t = 2 * (t / 2) ∨ t = 2 * (t / 2) + 1) with he | he
    · rw [he]
      exact this.1
    · rw [he]
      exact this.2
  · intro h i
    exact (hword _).2 ⟨h _ (by omega), h (2 * i.1 + 1) (by omega)⟩

/-- The loop is `t` bytes into block `j`. -/
structure Inside (byte : ℕ → Byte) (r : Regs) (j t : ℕ) (l : Load) : Prop where
  regs : l.regs = r
  pdata : ∀ i : Fin 8, 2 * i.1 + 1 < t → l.pdata i = imageBlock byte j i
  compareBuf : 0 < t → (l.compareBuf = 0xff ↔ ∀ u < t, byte (16 * j + u) = 0xff)

section Bytes

variable {byte buffer : ℕ → Byte} {j t : ℕ} {l : Load}

theorem putByte_same (buffer : ℕ → Byte) (l : Load) (readedByte : ℕ) :
    (l.putByte buffer readedByte).regs = l.regs ∧ (l.putByte buffer readedByte).compareBuf = l.compareBuf := by
  unfold Load.putByte
  split_ifs <;> exact ⟨rfl, rfl⟩

variable (hbuffer : ∀ u < 16, buffer (16 * j + u) = byte (16 * j + u))
include hbuffer

theorem Inside.putByte (h : Inside byte r j t l) (ht : t < 16) (i : Fin 8) (hi : 2 * i.1 + 1 < t + 1) :
    (l.putByte buffer (16 * j + t)).pdata i = imageBlock byte j i := by
  unfold Load.putByte
  by_cases hodd : (16 * j + t + 1) % 2 = 0
  · rw [if_pos hodd]
    by_cases hlast : i.1 = t / 2
    · have hindex : i = ⟨(16 * j + t) / 2 % 8, Nat.mod_lt _ (by decide)⟩ := Fin.ext (by dsimp only; omega)
      have hprev : 16 * j + t - 1 = 16 * j + (t - 1) := by omega
      have haddr : 16 * j + t = 16 * j + 2 * i.1 + 1 ∧ 16 * j + (t - 1) = 16 * j + 2 * i.1 := by omega
      show Function.update l.pdata _ _ i = _
      rw [← hindex, Function.update_self, word_mask, hprev, hbuffer _ ht, hbuffer _ (by omega), haddr.1, haddr.2]
      rfl
    · have hindex : i ≠ ⟨(16 * j + t) / 2 % 8, Nat.mod_lt _ (by decide)⟩ :=
        fun he => hlast ((congrArg Fin.val he).trans (by dsimp only; omega))
      exact (Function.update_of_ne hindex _ _).trans (h.pdata i (by omega))
  · rw [if_neg hodd]
    exact h.pdata i (by omega)

theorem Inside.compareBuf_step (h : Inside byte r j t l) (ht : t < 16) :
    (if t = 0 then buffer (16 * j + t) else l.compareBuf &&& buffer (16 * j + t)) = 0xff ↔
      ∀ u < t + 1, byte (16 * j + u) = 0xff := by
  rw [hbuffer t ht]
  split_ifs with h0
  · subst h0
    exact ⟨fun he u hu => by rw [Nat.lt_one_iff.1 hu]; exact he, fun he => he 0 Nat.one_pos⟩
  · rw [and_eq_ones, h.compareBuf (Nat.pos_of_ne_zero h0)]
    constructor
    · rintro ⟨hbefore, hlast⟩ u hu
      rcases Nat.lt_succ_iff_lt_or_eq.1 hu with hlt | rfl
      · exact hbefore u hlt
      · exact hlast
    · exact fun he => ⟨fun u hu => he u (by omega), he t (Nat.lt_succ_self t)⟩

theorem Inside.step (map : UsageMap) (h : Inside byte r j t l) (ht : t < 15) :
    Inside byte r j (t + 1) (l.step map buffer (16 * j + t)) := by
  obtain ⟨hregs, hcompare⟩ := putByte_same buffer l (16 * j + t)
  have hstep : l.step map buffer (16 * j + t) =
      { l.putByte buffer (16 * j + t) with
        compareBuf := if t = 0 then buffer (16 * j + t) else l.compareBuf &&& buffer (16 * j + t) } := by
    unfold Load.step
    dsimp only
    by_cases h0 : t = 0
    · rw [if_pos (by omega), if_pos h0]
    · rw [if_neg (by omega), if_neg (by omega), if_neg h0, hcompare]
  rw [hstep]
  exact ⟨hregs.trans h.regs, fun i hi => h.putByte hbuffer (by omega) i hi,
    fun _ => h.compareBuf_step hbuffer (by omega)⟩

theorem Inside.step_last (map : UsageMap) (h : Inside byte r j 15 l) :
    Inside byte (loadBlock map byte r j) (j + 1) 0 (l.step map buffer (16 * j + 15)) := by
  obtain ⟨hregs, hcompare⟩ := putByte_same buffer l (16 * j + 15)
  have hwords : (l.putByte buffer (16 * j + 15)).pdata = imageBlock byte j :=
    funext fun i => h.putByte hbuffer (by decide) i (by omega)
  have hones : (l.putByte buffer (16 * j + 15)).compareBuf &&& buffer (16 * j + 15) = 0xff ↔
      AllOnes (imageBlock byte j) := by
    rw [allOnes_iff, hcompare]
    exact h.compareBuf_step hbuffer (by decide)
  have hoffset : BitVec.ofNat 16 (16 * j + 15) - 15 = blockOffset j := by
    rw [BitVec.ofNat_add]
    exact BitVec.add_sub_cancel _ _
  refine ⟨?_, fun i hi => absurd hi (Nat.not_lt_zero _), fun h0 => absurd h0 (lt_irrefl 0)⟩
  unfold Load.step
  dsimp only
  rw [if_neg (by omega), if_pos (by omega)]
  unfold Load.block loadBlock
  dsimp only
  rw [hwords, hoffset, hregs, h.regs]
  exact if_congr (not_congr hones) rfl rfl

theorem Inside.block (map : UsageMap) (h : Inside byte r j 0 l) :
    Inside byte (loadBlock map byte r j) (j + 1) 0 ((List.range' (16 * j) 16).foldl (Load.step map buffer) l) := by
  have hinside : ∀ t ≤ 15, Inside byte r j t ((List.range' (16 * j) t).foldl (Load.step map buffer) l) := by
    intro t ht
    induction t with
    | zero => exact h
    | succ t ih =>
      rw [List.range'_concat, List.foldl_append, Nat.one_mul]
      exact (ih (by omega)).step hbuffer map (by omega)
  rw [List.range'_concat, List.foldl_append, Nat.one_mul]
  exact (hinside 15 le_rfl).step_last hbuffer map

end Bytes

def loadBlocks (map : UsageMap) (byte : ℕ → Byte) (n : ℕ) (r : Regs) : Regs :=
  (List.range n).foldl (loadBlock map byte) r

theorem foldl_step (map : UsageMap) {byte buffer : ℕ → Byte} {n : ℕ} (hbuffer : ∀ a < 16 * n, buffer a = byte a)
    (r : Regs) : ((List.range (16 * n)).foldl (Load.step map buffer)
      { pdata := fun _ => 0, compareBuf := 1, regs := r }).regs = loadBlocks map byte n r := by
  have hblocks : ∀ j ≤ n, Inside byte (loadBlocks map byte j r) j 0 ((List.range (16 * j)).foldl (Load.step map buffer)
      { pdata := fun _ => 0, compareBuf := 1, regs := r }) := by
    intro j hj
    induction j with
    | zero => exact ⟨rfl, fun i hi => absurd hi (Nat.not_lt_zero _), fun h0 => absurd h0 (lt_irrefl 0)⟩
    | succ j ih =>
      have hrange : List.range (16 * (j + 1)) = List.range (16 * j) ++ List.range' (16 * j) 16 := by
        have happend := @List.range'_append_1 0 (16 * j) 16
        rw [Nat.zero_add] at happend
        rw [List.range_eq_range', List.range_eq_range', happend, Nat.mul_add_one]
      rw [hrange, List.foldl_append, loadBlocks, List.range_succ, List.foldl_append]
      exact (ih (by omega)).block (fun u hu => hbuffer _ (by omega)) map
  exact (hblocks n le_rfl).regs

/-! ### One block, all blocks -/

variable {byte : ℕ → Byte} {n j : ℕ}

theorem toNat_blockOffset (hj : j < 32) : (blockOffset j).toNat = 16 * j := by
  unfold blockOffset
  rw [BitVec.toNat_ofNat]
  omega

theorem toNat_logicalBlock_blockOffset (hj : j < 32) : (logicalBlock (blockOffset j)).toNat = j := by
  rw [toNat_logicalBlock, toNat_blockOffset hj]
  omega

theorem logicalBlock_blockOffset_ne {i : ℕ} (hi : i < 32) (hj : j < 32) (hne : i ≠ j) :
    logicalBlock (blockOffset i) ≠ logicalBlock (blockOffset j) := by
  intro h
  have := congrArg BitVec.toNat h
  rw [toNat_logicalBlock_blockOffset hi, toNat_logicalBlock_blockOffset hj] at this
  exact hne this

theorem loadBlock_outcome (hj : j < 32) (byte : ℕ → Byte) (r : Regs) :
    0x20 ∈ (loadBlock map byte r j).written ∧ ¬AllOnes (imageBlock byte j) ∧
        ¬Fits map r (blockOffset j) (imageBlock byte j) ∨
      Quiet r (loadBlock map byte r j) ∧
        (∀ L', L' ≠ logicalBlock (blockOffset j) → Apart map L' r.fuse (loadBlock map byte r j).fuse) ∧
        (¬AllOnes (imageBlock byte j) →
          (Reads map (loadBlock map byte r j).fuse (logicalBlock (blockOffset j)) (imageBlock byte j) ↔
            Fits map r (blockOffset j) (imageBlock byte j))) := by
  have htoNat := toNat_blockOffset hj
  have hclean : Clean (blockOffset j) := clean_of_lt (by omega)
  have hlast : logicalBlock (blockOffset j) ≠ 63 := by
    intro h
    have h63 := congrArg BitVec.toNat h
    rw [toNat_logicalBlock_blockOffset hj] at h63
    have : (63 : BitVec 6).toNat = 63 := rfl
    omega
  have houtcome := @writeFromBin_outcome map (blockOffset j) hclean hlast (imageBlock byte j)
  unfold loadBlock
  by_cases hones : AllOnes (imageBlock byte j)
  · rw [if_neg (not_not.2 hones)]
    have hsame : logicalBlock (BitVec.ofNat 16 (16 * j + 15)) = logicalBlock (blockOffset j) := by
      refine BitVec.eq_of_toNat_eq ?_
      rw [toNat_logicalBlock_blockOffset hj, toNat_logicalBlock, BitVec.toNat_ofNat]
      omega
    have hfst := (fst_eFuseReadRegisters map r (BitVec.ofNat 16 (16 * j + 15))).1
    have hsnd := snd_eFuseReadRegisters map r (BitVec.ofNat 16 (16 * j + 15))
    have hfuse := fuse_kick_zero map r (BitVec.ofNat 16 (16 * j + 15))
    have hquiet := quiet_kick map r (BitVec.ofNat 16 (16 * j + 15)).toNat 0
    rw [← hsnd] at hfuse hquiet
    unfold Efuse.eFuseReadRegisters at hfst
    rw [hsame] at hfst
    dsimp only
    generalize eFuseReadRegisters map r (BitVec.ofNat 16 (16 * j + 15)) = x at *
    split_ifs with haout
    · refine Or.inr ?_
      rcases houtcome x.2 with ⟨-, -, hnone | hne⟩ | ⟨hquiet2, hapart, -⟩
      · -- the call is only made where a block serves
        rw [hfuse, ← (shows_shown map r.fuse).served] at hnone
        rw [hnone] at hfst
        exact absurd (BitVec.eq_of_toNat_eq hfst) haout
      · exact absurd hones hne
      · rw [hfuse] at hapart
        exact ⟨hquiet.trans hquiet2, hapart, fun h => absurd hones h⟩
    · refine Or.inr ⟨hquiet, fun L' _ => ?_, fun h => absurd hones h⟩
      rw [hfuse]
      exact Apart.refl map L' r.fuse
  · rw [if_pos hones]
    rcases houtcome r with ⟨hstray, hfits, -⟩ | hquiet
    · exact Or.inl ⟨hstray, hones, hfits⟩
    · exact Or.inr hquiet

theorem grows_loadBlock (byte : ℕ → Byte) (r : Regs) (j : ℕ) : r.written ⊆ (loadBlock map byte r j).written := by
  have hread : r.written ⊆ (eFuseReadRegisters map r (BitVec.ofNat 16 (16 * j + 15))).2.written := by
    rw [snd_eFuseReadRegisters]
    exact (quiet_kick map r _ 0).grows
  unfold loadBlock
  dsimp only
  split_ifs
  · exact fun a ha => grows_binRounds 2 true _ (hread ha)
  · exact hread
  · exact grows_binRounds 2 true r

theorem loadBlocks_zero (map : UsageMap) (byte : ℕ → Byte) (r : Regs) : loadBlocks map byte 0 r = r := rfl

theorem loadBlocks_succ (map : UsageMap) (byte : ℕ → Byte) (n : ℕ) (r : Regs) :
    loadBlocks map byte (n + 1) r = loadBlock map byte (loadBlocks map byte n r) n := by
  rw [loadBlocks, List.range_succ, List.foldl_append]
  rfl

theorem not_isEfuse_stray : ¬IsEfuse 0x20 := by decide

theorem loadBlocks_quiet (hn : n ≤ 32) (hsilent : Silent (loadBlocks map byte n r)) :
    Quiet r (loadBlocks map byte n r) ∧
      ∀ L', (∀ j < n, L' ≠ logicalBlock (blockOffset j)) → Apart map L' r.fuse (loadBlocks map byte n r).fuse := by
  induction n with
  | zero => exact ⟨Quiet.refl r, fun L' _ => Apart.refl map L' r.fuse⟩
  | succ n ih =>
    rw [loadBlocks_succ] at hsilent ⊢
    obtain ⟨hquiet, hapart⟩ := ih (by omega) fun a ha => hsilent a (grows_loadBlock byte _ n ha)
    rcases @loadBlock_outcome map n (by omega) byte (loadBlocks map byte n r) with
      ⟨hstray, -⟩ | ⟨hquiet2, hapart2, -⟩
    · exact absurd (hsilent _ hstray) not_isEfuse_stray
    · exact ⟨hquiet.trans hquiet2, fun L' hL =>
        (hapart L' fun j hj => hL j (by omega)).trans (hapart2 L' (hL n (Nat.lt_succ_self n)))⟩

theorem loadBlocks_iff (hn : n ≤ 32) (hr : Silent r) :
    (Silent (loadBlocks map byte n r) ∧ ∀ j < n, ¬AllOnes (imageBlock byte j) →
        Reads map (loadBlocks map byte n r).fuse (logicalBlock (blockOffset j)) (imageBlock byte j)) ↔
      ∀ j < n, ¬AllOnes (imageBlock byte j) → Fits map r (blockOffset j) (imageBlock byte j) := by
  induction n with
  | zero => exact ⟨fun _ j hj => absurd hj (Nat.not_lt_zero j), fun _ => ⟨hr, fun j hj => absurd hj (Nat.not_lt_zero j)⟩⟩
  | succ n ih =>
    have hn32 : n < 32 := by omega
    rw [loadBlocks_succ]
    have houtcome := @loadBlock_outcome map n hn32 byte (loadBlocks map byte n r)
    have hgrows := @grows_loadBlock map byte (loadBlocks map byte n r) n
    -- what the block finds is what the image found
    have hsame : Silent (loadBlocks map byte n r) → (Fits map (loadBlocks map byte n r) (blockOffset n)
        (imageBlock byte n) ↔ Fits map r (blockOffset n) (imageBlock byte n)) := by
      intro hsilent
      obtain ⟨hquiet, hapart⟩ := loadBlocks_quiet (by omega) hsilent
      exact fits_congr hquiet (hapart _ fun j hj => logicalBlock_blockOffset_ne hn32 (by omega) (by omega))
    have hkeep : (∀ L', L' ≠ logicalBlock (blockOffset n) → Apart map L' (loadBlocks map byte n r).fuse
        (loadBlock map byte (loadBlocks map byte n r) n).fuse) → ∀ j < n,
        (Reads map (loadBlock map byte (loadBlocks map byte n r) n).fuse (logicalBlock (blockOffset j))
          (imageBlock byte j) ↔
          Reads map (loadBlocks map byte n r).fuse (logicalBlock (blockOffset j)) (imageBlock byte j)) :=
      fun hapart j hj => (hapart _ (logicalBlock_blockOffset_ne (by omega) hn32 (by omega))).read
    constructor
    · rintro ⟨hsilent, hreads⟩ j hj hones
      have hsilent' : Silent (loadBlocks map byte n r) := fun a ha => hsilent a (hgrows ha)
      rcases houtcome with ⟨hstray, -⟩ | ⟨-, hapart, hlast⟩
      · exact absurd (hsilent _ hstray) not_isEfuse_stray
      · rcases Nat.lt_succ_iff_lt_or_eq.1 hj with hlt | rfl
        · refine (ih (by omega)).1 ⟨hsilent', fun i hi hi1 => ?_⟩ j hlt hones
          exact (hkeep hapart i hi).1 (hreads i (by omega) hi1)
        · exact (hsame hsilent').1 ((hlast hones).1 (hreads j hj hones))
    · intro hfits
      obtain ⟨hsilent, hreads⟩ := (ih (by omega)).2 fun j hj => hfits j (by omega)
      rcases houtcome with ⟨-, hones, hnot⟩ | ⟨hquiet, hapart, hlast⟩
      · exact absurd ((hsame hsilent).2 (hfits n (Nat.lt_succ_self n) hones)) hnot
      · refine ⟨hquiet.silent hsilent, fun j hj hones => ?_⟩
        rcases Nat.lt_succ_iff_lt_or_eq.1 hj with hlt | rfl
        · exact (hkeep hapart j hlt).2 (hreads j hlt hones)
        · exact (hlast hones).2 ((hsame hsilent).2 (hfits j hj hones))

/-! ### What the call is for -/

/-- The file with an image of `n` blocks. -/
def imageFile (n : ℕ) (byte : ℕ → Byte) : List Byte := (List.range (16 * n)).map byte

def ReadsBack (map : UsageMap) (n : ℕ) (byte : ℕ → Byte) (r : Regs) : Prop :=
  ∀ j < n, ¬AllOnes (imageBlock byte j) →
    ∀ i : Fin 8, (eFuseReadRegisters map r (BitVec.ofNat 16 (16 * j + 2 * i.1))).1.2 = imageBlock byte j i

/-- What the call is for: the image reads back, and only registers of the eFuse were written to. -/
def Programs (map : UsageMap) (n : ℕ) (byte : ℕ → Byte) (r : Regs) : Prop := ReadsBack map n byte r ∧ Silent r

theorem readsBack_iff (hn : n ≤ 32) : ReadsBack map n byte r ↔ ∀ j < n, ¬AllOnes (imageBlock byte j) →
    Reads map r.fuse (logicalBlock (blockOffset j)) (imageBlock byte j) := by
  refine forall_congr' fun j => forall_congr' fun hj => forall_congr' fun _ => forall_congr' fun i => ?_
  have hi := i.isLt
  have htoNat : (BitVec.ofNat 16 (16 * j + 2 * i.1)).toNat = 16 * j + 2 * i.1 := by
    rw [BitVec.toNat_ofNat]
    omega
  have hblock : logicalBlock (BitVec.ofNat 16 (16 * j + 2 * i.1)) = logicalBlock (blockOffset j) := by
    refine BitVec.eq_of_toNat_eq ?_
    rw [toNat_logicalBlock_blockOffset (by omega), toNat_logicalBlock, htoNat]
    omega
  have hword : wordOf (BitVec.ofNat 16 (16 * j + 2 * i.1)) = i := by
    refine Fin.ext ?_
    rw [val_wordOf, htoNat]
    omega
  rw [(fst_eFuseReadRegisters map r _).2, ((shows_shown map r.fuse).eFuseReadRegisters (by omega)).1, hblock, hword]

/-- **An image is programmed** exactly if it is not too long and every block that is not all ones fits: a block of the
eFuse serves it already, and can be burnt to it. A refused image has to be there already. -/
theorem programs_iff (map : UsageMap) (n : ℕ) (byte : ℕ → Byte) (r : Regs) :
    Programs map n byte
        (setEFuseLoadFromBinProc map true (some (imageFile n byte)) { r with written := [] }).2 ↔
      if 16 * n ≤ maxEepromBinFileSize then
        ∀ j < n, ¬AllOnes (imageBlock byte j) → Fits map r (blockOffset j) (imageBlock byte j)
      else ReadsBack map n byte r := by
  have hlength : (imageFile n byte).length = 16 * n := by rw [imageFile, List.length_map, List.length_range]
  have hempty : Silent { r with written := [] } := fun a ha => absurd ha List.not_mem_nil
  unfold setEFuseLoadFromBinProc
  rw [if_neg nofun]
  dsimp only
  rw [hlength]
  by_cases hn : 16 * n ≤ maxEepromBinFileSize
  · have hn32 : n ≤ 32 := by
      unfold maxEepromBinFileSize at hn
      omega
    have hbuffer : ∀ a < 16 * n, (imageFile n byte).getD a 0 = byte a := by
      intro a ha
      simp [imageFile, ha]
    rw [if_neg (Nat.not_lt.2 hn), if_pos hn]
    dsimp only
    rw [foldl_step map hbuffer]
    unfold Programs
    rw [readsBack_iff hn32, and_comm]
    exact loadBlocks_iff hn32 hempty
  · rw [if_pos (Nat.not_le.1 hn), if_neg hn]
    have hread : ReadsBack map n byte { r with written := [] } ↔ ReadsBack map n byte r := by
      unfold ReadsBack
      simp only [(fst_eFuseReadRegisters map _ _).2]
    exact ⟨fun h => hread.1 h.1, fun h => ⟨hread.2 h, hempty⟩⟩

def blankRegs : Regs where
  ctrl := EfuseCtrl.ofWord 0
  data := fun _ => 0
  other := fun _ => 0
  fuse := blank
  written := []

/-- An image of one block, on a blank device: the words go to registers in front of those of the eFuse. -/
theorem not_programs_blank : ¬∀ (n : ℕ) (byte : ℕ → Byte) (r : Regs), 16 * n ≤ maxEepromBinFileSize →
    n ≤ ((shown .mt76x0 r.fuse).free UsageMap.mt76x0.size).length →
    Programs .mt76x0 n byte
      (setEFuseLoadFromBinProc .mt76x0 true (some (imageFile n byte)) { r with written := [] }).2 := by
  intro h
  have hprograms := h 1 (fun a => BitVec.ofNat 8 a) blankRegs (by decide) (by decide)
  have hbuffer : ∀ a < 16 * 1, (imageFile 1 fun a => BitVec.ofNat 8 a).getD a 0 = BitVec.ofNat 8 a := by decide
  have hones : ¬AllOnes (imageBlock (fun a => BitVec.ofNat 8 a) 0) := by decide
  have hnone : (shown .mt76x0 blank).served UsageMap.mt76x0.size (logicalBlock (blockOffset 0)) = none := by
    decide
  have hfree : (shown .mt76x0 blank).free UsageMap.mt76x0.size ≠ [] := by decide
  have hstray := (binRounds_none (imageBlock (fun a => BitVec.ofNat 8 a) 0) (r := blankRegs)
    (shows_shown .mt76x0 blank) hnone 1 true).2 hfree
  have hrun : loadBlocks .mt76x0 (fun a => BitVec.ofNat 8 a) 1 blankRegs =
      (binRounds .mt76x0 (blockOffset 0) (imageBlock (fun a => BitVec.ofNat 8 a) 0) 2 true blankRegs).2 := by
    rw [loadBlocks_succ, loadBlocks_zero, loadBlock, if_pos hones, eFuseWriteRegistersFromBin]
  have hsilent := hprograms.2
  have hloop := foldl_step .mt76x0 hbuffer blankRegs
  rw [← hrun, ← hloop] at hstray
  exact not_isEfuse_stray (hsilent _ hstray)

end Mt7610u.Efuse.Device
