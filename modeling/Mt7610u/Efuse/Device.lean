import Mt7610u.Efuse.Write

/-! # The eFuse behind its registers

The control register and the four data registers of the RT65xx layout, with the other registers of the chip, and the
functions of the driver as accesses to them.

The device has done what it was told when the register is read next. -/

namespace Mt7610u.Efuse.Device

open Mt7610u.Lib

/-! ### Registers -/

structure EfuseCtrl where
  efsromAout : BitVec 6
  efsromMode : BitVec 2
  efsromLdoOffTime : BitVec 6
  efsromLdoOnTime : BitVec 2
  efsromAin : BitVec 10
  reserved : BitVec 4
  efsromKick : BitVec 1
  selEfuse : BitVec 1

namespace EfuseCtrl

def word (c : EfuseCtrl) : BitVec 32 :=
  c.selEfuse ++ c.efsromKick ++ c.reserved ++ c.efsromAin ++ c.efsromLdoOnTime ++ c.efsromLdoOffTime ++
    c.efsromMode ++ c.efsromAout

def ofWord (w : BitVec 32) : EfuseCtrl where
  efsromAout := w.extractLsb' 0 6
  efsromMode := w.extractLsb' 6 2
  efsromLdoOffTime := w.extractLsb' 8 6
  efsromLdoOnTime := w.extractLsb' 14 2
  efsromAin := w.extractLsb' 16 10
  reserved := w.extractLsb' 26 4
  efsromKick := w.extractLsb' 30 1
  selEfuse := w.extractLsb' 31 1

def settings (c : EfuseCtrl) : BitVec 6 × BitVec 2 × BitVec 4 × BitVec 1 :=
  (c.efsromLdoOffTime, c.efsromLdoOnTime, c.reserved, c.selEfuse)

end EfuseCtrl

/-- `EFUSE_CTRL` and `EFUSE_DATA0` of the RT65xx. -/
abbrev efuseCtrl : ℕ := 0x24

abbrev efuseData0 : ℕ := 0x28

def IsEfuse (a : ℕ) : Prop := a = efuseCtrl ∨ a = efuseData0 ∨ a = 0x2c ∨ a = 0x30 ∨ a = 0x34

instance (a : ℕ) : Decidable (IsEfuse a) := inferInstanceAs (Decidable (_ ∨ _))

/-- The registers of the chip, the programmed bytes, and the addresses that were written to. -/
structure Regs where
  ctrl : EfuseCtrl
  data : ℕ → BitVec 32
  other : ℕ → BitVec 32
  fuse : Content
  written : List ℕ

namespace Regs

variable (map : UsageMap)

def perform (r : Regs) : Regs :=
  if r.ctrl.efsromKick = 1 then
    let block := r.ctrl.efsromAin.toNat / 16 * 16
    let ctrl := { r.ctrl with efsromKick := 0 }
    if r.ctrl.efsromMode = 0 then
      match served map r.fuse ((r.ctrl.efsromAin >>> 4).setWidth 6) with
      | none => { r with ctrl := { ctrl with efsromAout := 0x3f } }
      | some k =>
        { r with ctrl := { ctrl with efsromAout := BitVec.ofNat 6 k }, data := fun i => dword r.fuse (16 * k + 4 * i) }
    else if r.ctrl.efsromMode = 1 then { r with ctrl := ctrl, data := fun i => dword r.fuse (block + 4 * i) }
    else if r.ctrl.efsromMode = 3 then { r with ctrl := ctrl, fuse := program r.fuse block r.data }
    else { r with ctrl := ctrl }
  else r

def writeCtrl (r : Regs) (c : EfuseCtrl) : Regs :=
  perform map { r with ctrl := c, written := r.written ++ [efuseCtrl] }

def write32 (r : Regs) (a : ℕ) (v : BitVec 32) : Regs :=
  if a = efuseCtrl then r.writeCtrl map (EfuseCtrl.ofWord v)
  else if IsEfuse a then
    { r with data := Function.update r.data ((a - efuseData0) / 4) v, written := r.written ++ [a] }
  else { r with other := Function.update r.other a v, written := r.written ++ [a] }

def read32 (r : Regs) (a : ℕ) : BitVec 32 :=
  if a = efuseCtrl then r.ctrl.word else if IsEfuse a then r.data ((a - efuseData0) / 4) else r.other a

def kick (r : Regs) (offset : ℕ) (mode : BitVec 2) : Regs :=
  r.writeCtrl map
    { r.ctrl with efsromAin := BitVec.ofNat 10 (offset / 16 * 16), efsromMode := mode, efsromKick := 1 }

end Regs

/-! ### The functions -/

section Functions

variable (map : UsageMap)

/-- `eFuseReadRegisters`, two bytes. -/
def eFuseReadRegisters (r : Regs) (offset : BitVec 16) : (BitVec 6 × BitVec 16) × Regs :=
  let r := r.kick map offset.toNat 0
  if r.ctrl.efsromAout = 0x3f then ((r.ctrl.efsromAout, 0xffff), r)
  else
    let data := r.read32 (efuseData0 + offset.toNat % 16 / 4 * 4)
    ((r.ctrl.efsromAout, (data >>> (8 * (offset.toNat % 4))).setWidth 16), r)

/-- `eFusePhysicalReadRegisters`, two bytes. -/
def eFusePhysicalReadRegisters (r : Regs) (offset : ℕ) : BitVec 16 × Regs :=
  let r := r.kick map offset 1
  let data := r.read32 (efuseData0 + offset % 16 / 4 * 4)
  ((data >>> (8 * (offset % 4))).setWidth 16, r)

def eFusePhysicalWriteRegisters (r : Regs) (offset : ℕ) (v : BitVec 16) : Regs :=
  let r := r.kick map offset 1
  let eFuseDataBuffer := fun i => r.read32 (efuseData0 + 4 * i)
  let j := offset % 16 / 4
  let eFuseDataBuffer := Function.update eFuseDataBuffer j (withHalf (eFuseDataBuffer j) offset v)
  let r := (List.range 4).foldl (fun r i => r.write32 map (efuseData0 + 4 * i) (eFuseDataBuffer i)) r
  r.kick map offset 3

def searchFrom : ℕ → Regs → Option ℕ × Regs
  | 0, r => (none, r)
  | turns + 1, r =>
    let i := map.endBlock + 2 * turns
    let x := eFusePhysicalReadRegisters map r i
    if (x.1 >>> 8) &&& 0xff = 0 ∧ i ≠ map.last then (some (i + 1 - map.first), x.2)
    else if x.1 &&& 0xff = 0 ∧ i ≠ map.first - 1 then (some (i - map.first), x.2)
    else searchFrom turns x.2

def findFree (r : Regs) : Option ℕ × Regs := searchFrom map ((map.startBlock - map.endBlock) / 2 + 1) r

def writeBlock (r : Regs) (blkNum : ℕ) (pData : Fin 8 → BitVec 16) : Regs :=
  (List.finRange 8).foldl (fun r i => eFusePhysicalWriteRegisters map r (blkNum * 0x10 + 2 * i.1) (pData i)) r

def writeEntry (r : Regs) (blkNum : ℕ) (offset : BitVec 16) : Regs :=
  let addr := map.first + blkNum
  eFusePhysicalWriteRegisters map r (pairAddr addr) (if addr % 2 ≠ 0 then mapEntry offset <<< 8 else mapEntry offset)

def invalidateEntry (r : Regs) (blkNum : ℕ) : Regs :=
  let addr := map.first + blkNum
  let x := eFusePhysicalReadRegisters map r (pairAddr addr)
  eFusePhysicalWriteRegisters map x.2 (pairAddr addr)
    (setFirstClear x.1 (if addr % 2 ≠ 0 then [8, 9, 10, 11, 12, 13, 14] else [0, 1, 2, 3, 4, 5, 6, 7]))

def compareWords (blkNum : ℕ) (pData : Fin 8 → BitVec 16) : List (Fin 8) → Regs → Bool × Regs
  | [], r => (true, r)
  | i :: is, r =>
    let x := eFusePhysicalReadRegisters map r (blkNum * 0x10 + 2 * i.1)
    if pData i ≠ x.1 then (false, x.2) else compareWords blkNum pData is x.2

end Functions

/-! ### What an access changes -/

/-- No register but those of the eFuse was written to. -/
structure Quiet (r r' : Regs) : Prop where
  other : r'.other = r.other
  settings : r'.ctrl.settings = r.ctrl.settings
  written : ∀ a ∈ r'.written, a ∈ r.written ∨ IsEfuse a
  grows : r.written ⊆ r'.written

variable {map : UsageMap} {r r' r'' : Regs}

theorem Quiet.refl (r : Regs) : Quiet r r := ⟨rfl, rfl, fun _ h => Or.inl h, fun _ h => h⟩

theorem Quiet.trans (h : Quiet r r') (h' : Quiet r' r'') : Quiet r r'' where
  other := h'.other.trans h.other
  settings := h'.settings.trans h.settings
  written a ha := (h'.written a ha).elim (h.written a) Or.inr
  grows _ ha := h'.grows (h.grows ha)

theorem written_perform (map : UsageMap) (r : Regs) : (r.perform map).written = r.written := by
  unfold Regs.perform
  dsimp only
  split_ifs
  · cases served map r.fuse ((r.ctrl.efsromAin >>> 4).setWidth 6) <;> rfl
  all_goals rfl

theorem other_perform (map : UsageMap) (r : Regs) : (r.perform map).other = r.other := by
  unfold Regs.perform
  dsimp only
  split_ifs
  · cases served map r.fuse ((r.ctrl.efsromAin >>> 4).setWidth 6) <;> rfl
  all_goals rfl

theorem settings_perform (map : UsageMap) (r : Regs) : (r.perform map).ctrl.settings = r.ctrl.settings := by
  unfold Regs.perform
  dsimp only
  split_ifs
  · cases served map r.fuse ((r.ctrl.efsromAin >>> 4).setWidth 6) <;> rfl
  all_goals rfl

theorem written_write32 (map : UsageMap) (r : Regs) (a : ℕ) (v : BitVec 32) :
    (r.write32 map a v).written = r.written ++ [a] := by
  unfold Regs.write32
  split_ifs with h
  · rw [Regs.writeCtrl, written_perform, h]
  · rfl
  · rfl

theorem quiet_kick (map : UsageMap) (r : Regs) (offset : ℕ) (mode : BitVec 2) : Quiet r (r.kick map offset mode) where
  other := other_perform map _
  settings := settings_perform map _
  written a ha := by
    rw [Regs.kick, Regs.writeCtrl, written_perform, List.mem_append, List.mem_singleton] at ha
    exact ha.imp_right Or.inl
  grows := by
    rw [Regs.kick, Regs.writeCtrl, written_perform]
    exact List.subset_append_left _ _

theorem isEfuse_data {i : ℕ} (h : i < 4) : IsEfuse (efuseData0 + 4 * i) := by
  unfold IsEfuse efuseData0
  omega

theorem write32_data (map : UsageMap) (r : Regs) {i : ℕ} (h : i < 4) (v : BitVec 32) :
    r.write32 map (efuseData0 + 4 * i) v =
      { r with data := Function.update r.data i v, written := r.written ++ [efuseData0 + 4 * i] } := by
  have hne : efuseData0 + 4 * i ≠ efuseCtrl := by
    unfold efuseData0 efuseCtrl
    omega
  have hi : (efuseData0 + 4 * i - efuseData0) / 4 = i := by omega
  rw [Regs.write32, if_neg hne, if_pos (isEfuse_data h), hi]

theorem read32_data (r : Regs) {i : ℕ} (h : i < 4) : r.read32 (efuseData0 + 4 * i) = r.data i := by
  have hne : efuseData0 + 4 * i ≠ efuseCtrl := by
    unfold efuseData0 efuseCtrl
    omega
  have hi : (efuseData0 + 4 * i - efuseData0) / 4 = i := by omega
  rw [Regs.read32, if_neg hne, if_pos (isEfuse_data h), hi]

theorem write32_data_four (map : UsageMap) (r : Regs) (buffer : ℕ → BitVec 32) :
    let r' := (List.range 4).foldl (fun r i => r.write32 map (efuseData0 + 4 * i) (buffer i)) r
    r'.fuse = r.fuse ∧ (∀ i < 4, r'.data i = buffer i) ∧ r'.ctrl = r.ctrl ∧ Quiet r r' := by
  have hlist : ∀ n ≤ 4, let r' := (List.range n).foldl (fun r i => r.write32 map (efuseData0 + 4 * i) (buffer i)) r
      r'.fuse = r.fuse ∧ (∀ i < n, r'.data i = buffer i) ∧ r'.ctrl = r.ctrl ∧ Quiet r r' := by
    intro n hn
    induction n with
    | zero => exact ⟨rfl, fun i hi => absurd hi (Nat.not_lt_zero i), rfl, Quiet.refl r⟩
    | succ n ih =>
      obtain ⟨hfuse, hdata, hctrl, hquiet⟩ := ih (by omega)
      dsimp only
      rw [List.range_succ, List.foldl_append, List.foldl_cons, List.foldl_nil, write32_data map _ (by omega)]
      refine ⟨hfuse, fun i hi => ?_, hctrl, hquiet.trans ⟨rfl, rfl, fun a ha => ?_, List.subset_append_left _ _⟩⟩
      · rcases (by omega : i = n ∨ i < n) with rfl | hlt
        · exact Function.update_self _ _ _
        · exact (Function.update_of_ne hlt.ne _ _).trans (hdata i hlt)
      · rcases List.mem_append.1 ha with ha | ha
        · exact Or.inl ha
        · rw [List.mem_singleton.1 ha]
          exact Or.inr (isEfuse_data (by omega))
  exact hlist 4 le_rfl

/-! ### What the functions do to the content -/

theorem toNat_ain (offset : ℕ) : (BitVec.ofNat 10 (offset / 16 * 16)).toNat / 16 * 16 = ain offset := by
  rw [BitVec.toNat_ofNat]
  unfold ain
  omega

theorem logicalBlock_ain (offset : BitVec 16) :
    (BitVec.ofNat 10 (offset.toNat / 16 * 16) >>> 4).setWidth 6 = logicalBlock offset := by
  refine BitVec.eq_of_toNat_eq ?_
  rw [toNat_logicalBlock, BitVec.toNat_setWidth, BitVec.toNat_ushiftRight, BitVec.toNat_ofNat, Nat.shiftRight_eq_div_pow]
  omega

theorem kick_one (map : UsageMap) (r : Regs) (offset : ℕ) :
    (r.kick map offset 1).fuse = r.fuse ∧ ∀ i, (r.kick map offset 1).data i = dword r.fuse (ain offset + 4 * i) := by
  have hkick : r.kick map offset 1 =
      { r with
        ctrl := { r.ctrl with efsromAin := BitVec.ofNat 10 (offset / 16 * 16), efsromMode := 1, efsromKick := 0 }
        data := fun i => dword r.fuse ((BitVec.ofNat 10 (offset / 16 * 16)).toNat / 16 * 16 + 4 * i)
        written := r.written ++ [efuseCtrl] } := rfl
  rw [hkick]
  exact ⟨rfl, fun i => by rw [toNat_ain]⟩

theorem kick_three (map : UsageMap) (r : Regs) (offset : ℕ) :
    (r.kick map offset 3).fuse = program r.fuse (ain offset) r.data := by
  rw [← toNat_ain]
  rfl

theorem kick_zero (map : UsageMap) (r : Regs) (offset : BitVec 16) :
    r.kick map offset.toNat 0 =
      let ctrl := { r.ctrl with
        efsromAin := BitVec.ofNat 10 (offset.toNat / 16 * 16), efsromMode := 0, efsromKick := 0 }
      match served map r.fuse (logicalBlock offset) with
      | none => { r with ctrl := { ctrl with efsromAout := 0x3f }, written := r.written ++ [efuseCtrl] }
      | some k =>
        { r with
          ctrl := { ctrl with efsromAout := BitVec.ofNat 6 k }
          data := fun i => dword r.fuse (16 * k + 4 * i)
          written := r.written ++ [efuseCtrl] } := by
  rw [← logicalBlock_ain]
  rfl

theorem program_congr (m : Content) (a : ℕ) {data data' : ℕ → BitVec 32} (h : ∀ i < 4, data i = data' i) :
    program m a data = program m a data' := by
  funext x
  unfold program
  split_ifs with hx
  · rw [h _ (by omega)]
  · rfl

theorem eFusePhysicalReadRegisters_spec (map : UsageMap) (r : Regs) (offset : ℕ) :
    (eFusePhysicalReadRegisters map r offset).1 = Efuse.eFusePhysicalReadRegisters r.fuse offset ∧
      (eFusePhysicalReadRegisters map r offset).2.fuse = r.fuse ∧
      Quiet r (eFusePhysicalReadRegisters map r offset).2 := by
  obtain ⟨hfuse, hdata⟩ := kick_one map r offset
  refine ⟨?_, hfuse, quiet_kick map r offset 1⟩
  have hword : offset % 16 / 4 * 4 = 4 * (offset % 16 / 4) := Nat.mul_comm _ _
  unfold eFusePhysicalReadRegisters Efuse.eFusePhysicalReadRegisters
  dsimp only
  rw [hword, read32_data _ (by omega), hdata]

theorem eFusePhysicalWriteRegisters_spec (map : UsageMap) (r : Regs) (offset : ℕ) (v : BitVec 16) :
    (eFusePhysicalWriteRegisters map r offset v).fuse = Efuse.eFusePhysicalWriteRegisters r.fuse offset v ∧
      Quiet r (eFusePhysicalWriteRegisters map r offset v) := by
  obtain ⟨hfuse, hdata⟩ := kick_one map r offset
  have hread : ∀ i < 4, (r.kick map offset 1).read32 (efuseData0 + 4 * i) = dword r.fuse (ain offset + 4 * i) :=
    fun i hi => by rw [read32_data _ hi, hdata]
  unfold eFusePhysicalWriteRegisters
  dsimp only
  generalize hbuffer : Function.update (fun i => (r.kick map offset 1).read32 (efuseData0 + 4 * i)) (offset % 16 / 4)
    (withHalf ((r.kick map offset 1).read32 (efuseData0 + 4 * (offset % 16 / 4))) offset v) = buffer
  obtain ⟨hfuse4, hdata4, -, hquiet4⟩ := write32_data_four map (r.kick map offset 1) buffer
  refine ⟨?_, (quiet_kick map r offset 1).trans (hquiet4.trans (quiet_kick map _ offset 3))⟩
  rw [kick_three, hfuse4, hfuse, Efuse.eFusePhysicalWriteRegisters]
  refine program_congr _ _ fun i hi => ?_
  rw [hdata4 i hi, ← hbuffer]
  by_cases hj : i = offset % 16 / 4
  · subst hj
    rw [Function.update_self, Function.update_self, hread _ hi]
  · rw [Function.update_of_ne hj, Function.update_of_ne hj, hread i hi]

theorem served_lt {m : Content} {L : BitVec 6} {k : ℕ} (h : served map m L = some k) : k < map.size :=
  (Store.served_eq_some.1 ((shows_shown map m).served.symm.trans h)).1

theorem ofNat_ne {k : ℕ} (hk : k < map.size) : (BitVec.ofNat 6 k).toNat = k ∧ BitVec.ofNat 6 k ≠ 0x3f := by
  have hsize := map.size_le
  have hfirst := map.first_lt
  have htoNat : (BitVec.ofNat 6 k).toNat = k := by
    rw [BitVec.toNat_ofNat]
    omega
  refine ⟨htoNat, fun h => ?_⟩
  rw [h] at htoNat
  have h63 : (0x3f : BitVec 6).toNat = 63 := rfl
  omega

theorem snd_eFuseReadRegisters (map : UsageMap) (r : Regs) (offset : BitVec 16) :
    (eFuseReadRegisters map r offset).2 = r.kick map offset.toNat 0 := by
  unfold eFuseReadRegisters
  dsimp only
  split_ifs <;> rfl

theorem fuse_kick_zero (map : UsageMap) (r : Regs) (offset : BitVec 16) :
    (r.kick map offset.toNat 0).fuse = r.fuse := by
  rw [kick_zero]
  dsimp only
  cases served map r.fuse (logicalBlock offset) <;> rfl

theorem fst_eFuseReadRegisters (map : UsageMap) (r : Regs) (offset : BitVec 16) :
    (eFuseReadRegisters map r offset).1.1.toNat = (Efuse.eFuseReadRegisters map r.fuse offset).1 ∧
      (eFuseReadRegisters map r offset).1.2 = (Efuse.eFuseReadRegisters map r.fuse offset).2 := by
  unfold eFuseReadRegisters Efuse.eFuseReadRegisters
  rw [kick_zero]
  dsimp only
  cases hk : served map r.fuse (logicalBlock offset) with
  | none => exact ⟨rfl, rfl⟩
  | some k =>
    obtain ⟨htoNat, hne⟩ := ofNat_ne (served_lt hk)
    have hword : offset.toNat % 16 / 4 * 4 = 4 * (offset.toNat % 16 / 4) := Nat.mul_comm _ _
    dsimp only
    rw [if_neg hne, hword, read32_data _ (by omega)]
    exact ⟨htoNat, rfl⟩

theorem searchFrom_spec (map : UsageMap) (turns : ℕ) (r : Regs) :
    (searchFrom map turns r).1 = Efuse.searchFrom map r.fuse turns ∧
      (searchFrom map turns r).2.fuse = r.fuse ∧ Quiet r (searchFrom map turns r).2 := by
  induction turns generalizing r with
  | zero => exact ⟨rfl, rfl, Quiet.refl r⟩
  | succ turns ih =>
    obtain ⟨hword, hfuse, hquiet⟩ := eFusePhysicalReadRegisters_spec map r (map.endBlock + 2 * turns)
    obtain ⟨hnext, hfuse', hquiet'⟩ := ih (eFusePhysicalReadRegisters map r (map.endBlock + 2 * turns)).2
    unfold searchFrom Efuse.searchFrom
    dsimp only
    rw [← hword]
    split_ifs
    · exact ⟨rfl, hfuse, hquiet⟩
    · exact ⟨rfl, hfuse, hquiet⟩
    · exact ⟨hnext.trans (by rw [hfuse]), hfuse'.trans hfuse, hquiet.trans hquiet'⟩

theorem findFree_spec (map : UsageMap) (r : Regs) : (findFree map r).1 = Efuse.findFree map r.fuse ∧
    (findFree map r).2.fuse = r.fuse ∧ Quiet r (findFree map r).2 := searchFrom_spec map _ r

theorem writeBlock_spec (map : UsageMap) (r : Regs) (blkNum : ℕ) (pData : Fin 8 → BitVec 16) :
    (writeBlock map r blkNum pData).fuse = Efuse.writeBlock r.fuse blkNum pData ∧
      Quiet r (writeBlock map r blkNum pData) := by
  unfold writeBlock Efuse.writeBlock
  induction List.finRange 8 generalizing r with
  | nil => exact ⟨rfl, Quiet.refl r⟩
  | cons i is ih =>
    obtain ⟨hfuse, hquiet⟩ := eFusePhysicalWriteRegisters_spec map r (blkNum * 0x10 + 2 * i.1) (pData i)
    obtain ⟨hfuse', hquiet'⟩ := ih (eFusePhysicalWriteRegisters map r (blkNum * 0x10 + 2 * i.1) (pData i))
    rw [List.foldl_cons, List.foldl_cons, ← hfuse]
    exact ⟨hfuse', hquiet.trans hquiet'⟩

theorem writeEntry_spec (map : UsageMap) (r : Regs) (blkNum : ℕ) (offset : BitVec 16) :
    (writeEntry map r blkNum offset).fuse = Efuse.writeEntry map r.fuse blkNum offset ∧
      Quiet r (writeEntry map r blkNum offset) :=
  eFusePhysicalWriteRegisters_spec map r _ _

theorem invalidateEntry_spec (map : UsageMap) (r : Regs) (blkNum : ℕ) :
    (invalidateEntry map r blkNum).fuse = Efuse.invalidateEntry map r.fuse blkNum ∧
      Quiet r (invalidateEntry map r blkNum) := by
  obtain ⟨hword, hfuse, hquiet⟩ := eFusePhysicalReadRegisters_spec map r (pairAddr (map.first + blkNum))
  unfold invalidateEntry Efuse.invalidateEntry
  dsimp only
  rw [← hword]
  obtain ⟨hfuse', hquiet'⟩ := eFusePhysicalWriteRegisters_spec map
    (eFusePhysicalReadRegisters map r (pairAddr (map.first + blkNum))).2 (pairAddr (map.first + blkNum))
    (setFirstClear (eFusePhysicalReadRegisters map r (pairAddr (map.first + blkNum))).1
      (if (map.first + blkNum) % 2 ≠ 0 then [8, 9, 10, 11, 12, 13, 14] else [0, 1, 2, 3, 4, 5, 6, 7]))
  exact ⟨hfuse'.trans (by rw [hfuse]), hquiet.trans hquiet'⟩

theorem compareWords_spec (map : UsageMap) (r : Regs) (blkNum : ℕ) (pData : Fin 8 → BitVec 16) (is : List (Fin 8)) :
    ((compareWords map blkNum pData is r).1 = true ↔ ∀ i ∈ is, readBlock r.fuse blkNum i = pData i) ∧
      (compareWords map blkNum pData is r).2.fuse = r.fuse ∧ Quiet r (compareWords map blkNum pData is r).2 := by
  induction is generalizing r with
  | nil => exact ⟨iff_of_true rfl fun i hi => absurd hi List.not_mem_nil, rfl, Quiet.refl r⟩
  | cons i is ih =>
    obtain ⟨hword, hfuse, hquiet⟩ := eFusePhysicalReadRegisters_spec map r (blkNum * 0x10 + 2 * i.1)
    obtain ⟨hnext, hfuse', hquiet'⟩ := ih (eFusePhysicalReadRegisters map r (blkNum * 0x10 + 2 * i.1)).2
    have hread : readBlock r.fuse blkNum i = (eFusePhysicalReadRegisters map r (blkNum * 0x10 + 2 * i.1)).1 := hword.symm
    unfold compareWords
    dsimp only
    split_ifs with hne
    · refine ⟨iff_of_false not_false fun h => hne ?_, hfuse, hquiet⟩
      rw [← hread, h i List.mem_cons_self]
    · rw [hnext, hfuse, List.forall_mem_cons, hread]
      exact ⟨(and_iff_right (not_not.1 hne).symm).symm, hfuse'.trans hfuse, hquiet.trans hquiet'⟩

end Mt7610u.Efuse.Device
