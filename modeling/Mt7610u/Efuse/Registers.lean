import Mt7610u.Lib.Bytes

/-! # eFuse registers

The one-time-programmable bytes behind the eFuse registers, and the functions that read and write them.

A physical address has ten bits (`EFSROM_AIN`), a block has sixteen bytes, and the entry of block `k` lies at
`EFUSE_USAGE_MAP_START + k`. -/

namespace Mt7610u.Efuse

open Mt7610u.Lib

/-- The usage map of a chip. The blocks lie in front of it, and all of it has an address. -/
structure UsageMap where
  /-- `EFUSE_USAGE_MAP_START` -/
  first : ℕ
  /-- `EFUSE_USAGE_MAP_END` -/
  last : ℕ
  three : first + 2 ≤ last
  inFront : 16 * (last + 1 - first) ≤ first
  inside : last + 1 < 1024

def UsageMap.size (map : UsageMap) : ℕ := map.last + 1 - map.first

/-- The map of `mt76x0`. -/
def UsageMap.mt76x0 : UsageMap := ⟨0x1e0, 0x1fc, by decide, by decide, by decide⟩

abbrev Content := ℕ → Byte

def blank : Content := fun _ => 0

/-! ### The device -/

/-- The block address that `EFSROM_AIN` keeps of an offset. -/
def ain (offset : ℕ) : ℕ := offset % 1024 / 16 * 16

def word (m : Content) (a : ℕ) : BitVec 16 := (m (a + 1)).setWidth 16 <<< 8 ||| (m a).setWidth 16

/-- Four bytes, the way an `EFUSE_DATA` register shows them. -/
def dword (m : Content) (a : ℕ) : BitVec 32 := (word m (a + 2)).setWidth 32 <<< 16 ||| (word m a).setWidth 32

def program (m : Content) (a : ℕ) (data : ℕ → BitVec 32) : Content := fun x =>
  if a ≤ x ∧ x < a + 16 then m x ||| (data ((x - a) / 4) >>> (8 * ((x - a) % 4))).setWidth 8 else m x

def parityLow (t : BitVec 16) : BitVec 16 :=
  (~~~((t &&& 1#16) ^^^ (t >>> 1 &&& 1#16) ^^^ (t >>> 2 &&& 1#16) ^^^ (t >>> 3 &&& 1#16))) <<< 6 &&& 0x40#16

def parityHigh (t : BitVec 16) : BitVec 16 :=
  (~~~((t >>> 2 &&& 1#16) ^^^ (t >>> 3 &&& 1#16) ^^^ (t >>> 4 &&& 1#16) ^^^ (t >>> 5 &&& 1#16))) <<< 7 &&& 0x80#16

def mapEntry (offset : BitVec 16) : BitVec 16 :=
  let t := offset >>> 4
  let t := t ||| parityLow t
  t ||| parityHigh t

def logicalBlock (offset : BitVec 16) : BitVec 6 := (offset >>> 4).setWidth 6

def entryCode (L : BitVec 6) : Byte := (mapEntry (L.setWidth 16 <<< 4)).setWidth 8

def served (map : UsageMap) (m : Content) (L : BitVec 6) : Option ℕ :=
  (List.range map.size).find? fun k => m (map.first + k) = entryCode L

/-! ### Reading and writing -/

/-- `eFuseReadRegisters`, two bytes: `EFSROM_AOUT` and the data. -/
def eFuseReadRegisters (map : UsageMap) (m : Content) (offset : BitVec 16) : ℕ × BitVec 16 :=
  match served map m (logicalBlock offset) with
  | none => (0x3f, 0xffff)
  | some k => (k, (dword m (16 * k + offset.toNat % 16 / 4 * 4) >>> (8 * (offset.toNat % 4))).setWidth 16)

/-- `eFusePhysicalReadRegisters`, two bytes. -/
def eFusePhysicalReadRegisters (m : Content) (offset : ℕ) : BitVec 16 :=
  (dword m (ain offset + offset % 16 / 4 * 4) >>> (8 * (offset % 4))).setWidth 16

def withHalf (d : BitVec 32) (offset : ℕ) (v : BitVec 16) : BitVec 32 :=
  if offset % 4 ≠ 0 then (d &&& 0xffff#32) ||| v.setWidth 32 <<< 16 else (d &&& 0xffff0000#32) ||| v.setWidth 32

/-- `eFusePhysicalWriteRegisters`: the block is read, one half word replaced, and all of it written.
`eFuseWritePhysical` calls it once for two bytes. -/
def eFusePhysicalWriteRegisters (m : Content) (offset : ℕ) (v : BitVec 16) : Content :=
  let eFuseDataBuffer := fun i => dword m (ain offset + 4 * i)
  let j := offset % 16 / 4
  program m (ain offset) (Function.update eFuseDataBuffer j (withHalf (eFuseDataBuffer j) offset v))

/-- `EndBlock`, the even address at or below the first entry. -/
def UsageMap.endBlock (map : UsageMap) : ℕ := if map.first % 2 ≠ 0 then map.first - 1 else map.first

/-- `StartBlock`, the even address at or below the last entry. -/
def UsageMap.startBlock (map : UsageMap) : ℕ := if map.last % 2 ≠ 0 then map.last - 1 else map.last

def searchFrom (map : UsageMap) (m : Content) : ℕ → Option ℕ
  | 0 => none
  | turns + 1 =>
    let i := map.endBlock + 2 * turns
    let logicalAddress := eFusePhysicalReadRegisters m i
    if (logicalAddress >>> 8) &&& 0xff = 0 ∧ i ≠ map.last then some (i + 1 - map.first)
    else if logicalAddress &&& 0xff = 0 ∧ i ≠ map.first - 1 then some (i - map.first)
    else searchFrom map m turns

/-- The block whose entry is free, `none` for `0xffff`. -/
def findFree (map : UsageMap) (m : Content) : Option ℕ := searchFrom map m ((map.startBlock - map.endBlock) / 2 + 1)

def readBlock (m : Content) (blkNum : ℕ) : Fin 8 → BitVec 16 := fun i =>
  eFusePhysicalReadRegisters m (blkNum * 0x10 + 2 * i)

def writeBlock (m : Content) (blkNum : ℕ) (buffer : Fin 8 → BitVec 16) : Content :=
  (List.finRange 8).foldl (fun m i => eFusePhysicalWriteRegisters m (blkNum * 0x10 + 2 * i.1) (buffer i)) m

def pairAddr (addr : ℕ) : ℕ := if addr % 2 ≠ 0 then addr - 1 else addr

def writeEntry (map : UsageMap) (m : Content) (blkNum : ℕ) (offset : BitVec 16) : Content :=
  let addr := map.first + blkNum
  eFusePhysicalWriteRegisters m (pairAddr addr) (if addr % 2 ≠ 0 then mapEntry offset <<< 8 else mapEntry offset)

def setFirstClear (x : BitVec 16) : List ℕ → BitVec 16
  | [] => x
  | i :: is => if x >>> i &&& 1#16 = 0 then x ||| 1#16 <<< i else setFirstClear x is

def invalidateEntry (map : UsageMap) (m : Content) (blkNum : ℕ) : Content :=
  let addr := map.first + blkNum
  let inBuf := eFusePhysicalReadRegisters m (pairAddr addr)
  eFusePhysicalWriteRegisters m (pairAddr addr)
    (setFirstClear inBuf (if addr % 2 ≠ 0 then [8, 9, 10, 11, 12, 13, 14] else [0, 1, 2, 3, 4, 5, 6, 7]))

/-- The rounds of `eFuseWriteRegisters` that are left. The first one writes a word, a later one all eight. -/
def writeRounds (map : UsageMap) (offset : BitVec 16) (v : BitVec 16) (buffer : Fin 8 → BitVec 16) :
    ℕ → Bool → ℕ → Content → Bool × Content
  | 0, _, _, m => (true, m)
  | rounds + 1, bWriteSuccess, blkNum, m =>
    let m := if bWriteSuccess then eFusePhysicalWriteRegisters m (blkNum * 0x10 + offset.toNat % 16) v
      else writeBlock m blkNum buffer
    let m := writeEntry map m blkNum offset
    if ∀ i, readBlock m blkNum i = buffer i then (true, m)
    else
      match findFree map m with
      | none => (false, m)
      | some new => writeRounds map offset v buffer rounds false new (invalidateEntry map m blkNum)

/-- The number of the word in its block, `(Offset >> 1) % 8`. -/
def wordOf (offset : BitVec 16) : Fin 8 := ⟨(offset >>> 1).toNat % 8, Nat.mod_lt _ (by decide)⟩

/-- `eFuseWriteRegisters`: what it returns and the content afterwards. -/
def eFuseWriteRegisters (map : UsageMap) (m : Content) (offset v : BitVec 16) : Bool × Content :=
  let aout := (eFuseReadRegisters map m (offset &&& 0xfffe)).1
  match if aout = 0x3f then findFree map m else some aout with
  | none => (false, m)
  | some blkNum => writeRounds map offset v (Function.update (readBlock m blkNum) (wordOf offset) v) 2 true blkNum m

/-! ### Words at an address -/

def lowByte (v : BitVec 16) : Byte := v.setWidth 8

def highByte (v : BitVec 16) : Byte := (v >>> 8).setWidth 8

theorem lowByte_word (m : Content) (a : ℕ) : lowByte (word m a) = m a := by
  unfold lowByte word
  refine BitVec.eq_of_getLsbD_eq fun i hi => ?_
  simp [hi]

theorem highByte_word (m : Content) (a : ℕ) : highByte (word m a) = m (a + 1) := by
  unfold highByte word
  refine BitVec.eq_of_getLsbD_eq fun i hi => ?_
  simp [hi, show 8 + i < 16 by omega]

theorem dword_low (m : Content) (a : ℕ) : (dword m a).setWidth 16 = word m a := by
  unfold dword
  refine BitVec.eq_of_getLsbD_eq fun i hi => ?_
  simp [hi]

theorem dword_high (m : Content) (a : ℕ) : (dword m a >>> 16).setWidth 16 = word m (a + 2) := by
  unfold dword
  refine BitVec.eq_of_getLsbD_eq fun i hi => ?_
  simp [hi, show 16 + i < 32 by omega]

theorem word_ext {x y : BitVec 16} (hlow : lowByte x = lowByte y) (hhigh : highByte x = highByte y) : x = y := by
  refine BitVec.eq_of_getLsbD_eq fun i hi => ?_
  by_cases h : i < 8
  · have := congrArg (BitVec.getLsbD · i) hlow
    simpa [lowByte, h] using this
  · have h8 : 8 + (i - 8) = i := by omega
    have := congrArg (BitVec.getLsbD · (i - 8)) hhigh
    simpa [highByte, h8, show i - 8 < 8 by omega] using this

theorem lowByte_or (x y : BitVec 16) : lowByte (x ||| y) = lowByte x ||| lowByte y := by
  simp [lowByte, BitVec.setWidth_or]

theorem highByte_or (x y : BitVec 16) : highByte (x ||| y) = highByte x ||| highByte y := by
  simp [highByte, BitVec.setWidth_or, BitVec.ushiftRight_or_distrib]

theorem half_eq {m : Content} {a r : ℕ} (hr : r % 2 = 0) (hr4 : r < 4) :
    (dword m a >>> (8 * r)).setWidth 16 = word m (a + r) := by
  obtain rfl | rfl : r = 0 ∨ r = 2 := by omega
  · exact dword_low m a
  · exact dword_high m a

theorem eFusePhysicalReadRegisters_eq {m : Content} {a : ℕ} (heven : a % 2 = 0) (ha : a < 1024) :
    eFusePhysicalReadRegisters m a = word m a := by
  unfold eFusePhysicalReadRegisters
  rw [half_eq (by omega) (Nat.mod_lt _ (by decide))]
  congr 1
  unfold ain
  omega

theorem eFuseReadRegisters_of_served {map : UsageMap} {m : Content} {offset : BitVec 16} {k : ℕ}
    (heven : offset.toNat % 2 = 0) (hk : served map m (logicalBlock offset) = some k) :
    eFuseReadRegisters map m offset = (k, word m (16 * k + offset.toNat % 16)) := by
  unfold eFuseReadRegisters
  rw [hk]
  dsimp only
  rw [half_eq (by omega) (Nat.mod_lt _ (by decide))]
  congr 2
  omega

/-- The address of the word that a physical write at `a` replaces. -/
def target (a : ℕ) : ℕ := ain a + a % 16 / 4 * 4 + if a % 4 ≠ 0 then 2 else 0

/-- Byte `j` of a double word. -/
def byteAt (d : BitVec 32) (j : ℕ) : Byte := (d >>> (8 * j)).setWidth 8

theorem byteAt_zero (d : BitVec 32) : byteAt d 0 = lowByte (d.setWidth 16) := by
  unfold byteAt lowByte
  refine BitVec.eq_of_getLsbD_eq fun i hi => ?_
  simp [hi]

theorem byteAt_one (d : BitVec 32) : byteAt d 1 = highByte (d.setWidth 16) := by
  unfold byteAt highByte
  refine BitVec.eq_of_getLsbD_eq fun i hi => ?_
  simp [hi, show 8 + i < 16 by omega]

theorem byteAt_two (d : BitVec 32) : byteAt d 2 = lowByte ((d >>> 16).setWidth 16) := by
  unfold byteAt lowByte
  refine BitVec.eq_of_getLsbD_eq fun i hi => ?_
  simp [hi]

theorem byteAt_three (d : BitVec 32) : byteAt d 3 = highByte ((d >>> 16).setWidth 16) := by
  unfold byteAt highByte
  refine BitVec.eq_of_getLsbD_eq fun i hi => ?_
  simp [hi, show 8 + i < 16 by omega, ← Nat.add_assoc]

theorem getLsbD_lowMask {i : ℕ} (hi : i < 32) : (0xffff#32).getLsbD i = decide (i < 16) := by
  have h : 0xffff#32 = (BitVec.allOnes 16).setWidth 32 := rfl
  rw [h]
  simp only [BitVec.getLsbD_setWidth, BitVec.getLsbD_allOnes, hi, decide_true, Bool.true_and]

theorem getLsbD_highMask {i : ℕ} (hi : i < 32) : (0xffff0000#32).getLsbD i = decide (16 ≤ i) := by
  have h : 0xffff0000#32 = ~~~0xffff#32 := rfl
  rw [h, BitVec.getLsbD_not, getLsbD_lowMask hi]
  rcases Nat.lt_or_ge i 16 with h16 | h16
  · simp [h16, Nat.not_le.2 h16]
  · simp [hi, h16, Nat.not_lt.2 h16]

theorem withHalf_low (d : BitVec 32) (offset : ℕ) (v : BitVec 16) :
    (withHalf d offset v).setWidth 16 = if offset % 4 ≠ 0 then d.setWidth 16 else v := by
  unfold withHalf
  refine BitVec.eq_of_getLsbD_eq fun i hi => ?_
  have hmask := getLsbD_lowMask (show i < 32 by omega)
  have hmask' := getLsbD_highMask (show i < 32 by omega)
  split_ifs
  · simp only [BitVec.getLsbD_setWidth, BitVec.getLsbD_or, BitVec.getLsbD_and, hmask, BitVec.getLsbD_shiftLeft]
    simp [hi]
  · simp only [BitVec.getLsbD_setWidth, BitVec.getLsbD_or, BitVec.getLsbD_and, hmask']
    simp [hi, show ¬16 ≤ i by omega, show i < 32 by omega]

theorem withHalf_high (d : BitVec 32) (offset : ℕ) (v : BitVec 16) :
    (withHalf d offset v >>> 16).setWidth 16 = if offset % 4 ≠ 0 then v else (d >>> 16).setWidth 16 := by
  unfold withHalf
  refine BitVec.eq_of_getLsbD_eq fun i hi => ?_
  have hmask := getLsbD_lowMask (show 16 + i < 32 by omega)
  have hmask' := getLsbD_highMask (show 16 + i < 32 by omega)
  split_ifs
  · simp only [BitVec.getLsbD_setWidth, BitVec.getLsbD_ushiftRight, BitVec.getLsbD_or, BitVec.getLsbD_and, hmask,
      BitVec.getLsbD_shiftLeft]
    simp [hi, show 16 + i < 32 by omega, show i < 32 by omega]
  · simp only [BitVec.getLsbD_setWidth, BitVec.getLsbD_ushiftRight, BitVec.getLsbD_or, BitVec.getLsbD_and, hmask']
    simp [hi]

theorem byteAt_withHalf (m : Content) (b : ℕ) (offset : ℕ) (v : BitVec 16) {r : ℕ} (hr : r < 4) :
    byteAt (withHalf (dword m b) offset v) r =
      if r = (if offset % 4 ≠ 0 then 2 else 0) then lowByte v
      else if r = (if offset % 4 ≠ 0 then 2 else 0) + 1 then highByte v else m (b + r) := by
  have hlow := withHalf_low (dword m b) offset v
  have hhigh := withHalf_high (dword m b) offset v
  rw [dword_low] at hlow
  rw [dword_high] at hhigh
  by_cases h : offset % 4 ≠ 0
  · rw [if_pos h] at hlow hhigh ⊢
    obtain rfl | rfl | rfl | rfl : r = 0 ∨ r = 1 ∨ r = 2 ∨ r = 3 := by omega
    · exact (byteAt_zero _).trans ((congrArg lowByte hlow).trans (lowByte_word m b))
    · exact (byteAt_one _).trans ((congrArg highByte hlow).trans (highByte_word m b))
    · exact (byteAt_two _).trans (congrArg lowByte hhigh)
    · exact (byteAt_three _).trans (congrArg highByte hhigh)
  · rw [if_neg h] at hlow hhigh ⊢
    obtain rfl | rfl | rfl | rfl : r = 0 ∨ r = 1 ∨ r = 2 ∨ r = 3 := by omega
    · exact (byteAt_zero _).trans (congrArg lowByte hlow)
    · exact (byteAt_one _).trans (congrArg highByte hlow)
    · exact (byteAt_two _).trans ((congrArg lowByte hhigh).trans (lowByte_word m (b + 2)))
    · exact (byteAt_three _).trans ((congrArg highByte hhigh).trans (highByte_word m (b + 2)))

theorem byteAt_dword (m : Content) (b : ℕ) {r : ℕ} (hr : r < 4) : byteAt (dword m b) r = m (b + r) := by
  obtain rfl | rfl | rfl | rfl : r = 0 ∨ r = 1 ∨ r = 2 ∨ r = 3 := by omega
  · rw [byteAt_zero, dword_low, lowByte_word]
    rfl
  · rw [byteAt_one, dword_low, highByte_word]
  · rw [byteAt_two, dword_high, lowByte_word]
  · rw [byteAt_three, dword_high, highByte_word]

theorem eFusePhysicalWriteRegisters_eq (m : Content) (a : ℕ) (v : BitVec 16) (x : ℕ) :
    eFusePhysicalWriteRegisters m a v x =
      if x = target a then m x ||| lowByte v else if x = target a + 1 then m x ||| highByte v else m x := by
  unfold eFusePhysicalWriteRegisters program target
  dsimp only
  by_cases hx : ain a ≤ x ∧ x < ain a + 16
  · rw [if_pos hx]
    obtain ⟨y, rfl⟩ := Nat.exists_eq_add_of_le hx.1
    rw [Nat.add_sub_cancel_left]
    change m (ain a + y) ||| byteAt _ (y % 4) = _
    have hy : ain a + 4 * (y / 4) + y % 4 = ain a + y := by omega
    by_cases hj : y / 4 = a % 16 / 4
    · rw [hj, Function.update_self, byteAt_withHalf _ _ _ _ (Nat.mod_lt _ (by decide)), ← hj, hy]
      split_ifs <;> first | rfl | (exfalso; omega) | exact BitVec.or_self
    · rw [Function.update_of_ne hj, byteAt_dword _ _ (Nat.mod_lt _ (by decide)), hy, if_neg (by split_ifs <;> omega),
        if_neg (by split_ifs <;> omega), BitVec.or_self]
  · rw [if_neg hx, if_neg, if_neg]
    · split_ifs <;> omega
    · split_ifs <;> omega

end Mt7610u.Efuse
