import Mt7610u.Efuse.Device

/-! # Programming from an image

`set_eFuseLoadFromBin_Proc` reads a file and hands its blocks of sixteen bytes to `eFuseWriteRegistersFromBin`, all but
those of all ones that no block serves. For a logical block that is served the function compares and burns the block;
for one that is not it writes the words to the data registers itself, in the direction of another register layout. -/

namespace Mt7610u.Efuse.Device

open Mt7610u.Lib

/-! ### The functions -/

section Functions

variable (map : UsageMap) (offset : BitVec 16) (pData : Fin 8 → BitVec 16)

/-- `tempbuffer`, the words `2 * i` and `2 * i + 1`. -/
def tempbuffer (pData : Fin 8 → BitVec 16) (i : Fin 4) : BitVec 32 :=
  ((pData ⟨2 * i + 1, by omega⟩).setWidth 32 <<< 16 &&& 0xffff0000#32) ||| (pData ⟨2 * i, by omega⟩).setWidth 32

/-- `efuseDataOffset` in the turns of a loop: it starts at `EFUSE_DATA0_3290` and goes down. -/
def efuseDataOffset (i : Fin 4) : ℕ := efuseData0 - 4 * i

def allocateBlock (r : Regs) (blkNum : ℕ) : Regs :=
  let r := (List.finRange 4).foldl (fun r i => r.write32 map (efuseDataOffset i) (tempbuffer pData i)) r
  r.kick map (blkNum * 0x10) 3

def sameData (r : Regs) : Bool :=
  decide (∀ i : Fin 4, r.read32 (efuseDataOffset i) &&& 0xffff0000#32 = (pData ⟨2 * i + 1, by omega⟩).setWidth 32 <<< 16 ∧
    r.read32 (efuseDataOffset i) &&& 0xffff#32 = (pData ⟨2 * i, by omega⟩).setWidth 32)

def finishBlock (r : Regs) (blkNum : ℕ) (next : Option (Regs → Bool × Regs)) : Bool × Regs :=
  let r := writeEntry map r blkNum offset
  let x := compareWords map blkNum pData (List.finRange 8) r
  if x.1 then (true, x.2)
  else
    match next with
    | none => (true, x.2)
    | some next =>
      let y := findFree map x.2
      match y.1 with
      | none => (false, y.2)
      | some _ => next (invalidateEntry map y.2 blkNum)

def again (rounds : ℕ) (next : Regs → Bool × Regs) : Option (Regs → Bool × Regs) :=
  if rounds = 0 then none else some next

def binRounds : ℕ → Bool → Regs → Bool × Regs
  | 0, _, r => (true, r)
  | rounds + 1, bNotWrite, r =>
    let x := eFuseReadRegisters map r (offset &&& 0xfffe)
    if x.1.1 = 0x3f then
      let y := findFree map x.2
      match y.1 with
      | none => (false, y.2)
      | some blkNum => finishBlock map offset pData (allocateBlock map pData y.2 blkNum) blkNum
          (again rounds (binRounds rounds bNotWrite))
    else
      let blkNum := x.1.1.toNat
      let r := x.2.kick map offset.toNat 0
      if bNotWrite && sameData pData r then (true, r)
      else finishBlock map offset pData (writeBlock map r blkNum pData) blkNum
        (again rounds (binRounds rounds false))

def eFuseWriteRegistersFromBin (r : Regs) : Bool × Regs := binRounds map offset pData 2 true r

end Functions

/-- `PDATA`, `CompareBuf` and the registers, in the loop over the bytes of the file. -/
structure Load where
  pdata : Fin 8 → BitVec 16
  compareBuf : Byte
  regs : Regs

section Load

variable (map : UsageMap) (buffer : ℕ → Byte)

def Load.block (l : Load) (readedByte : ℕ) : Regs :=
  let offset := BitVec.ofNat 16 readedByte - 15
  if l.compareBuf ≠ 0xff then (eFuseWriteRegistersFromBin map offset l.pdata l.regs).2
  else
    let x := eFuseReadRegisters map l.regs (BitVec.ofNat 16 readedByte)
    if x.1.1 ≠ 0x3f then (eFuseWriteRegistersFromBin map offset l.pdata x.2).2 else x.2

def Load.putByte (l : Load) (readedByte : ℕ) : Load :=
  if (readedByte + 1) % 2 = 0 then
    { l with pdata := Function.update l.pdata ⟨readedByte / 2 % 8, Nat.mod_lt _ (by decide)⟩
                (((buffer readedByte).setWidth 16 <<< 8 &&& 0xff00#16) ||| (buffer (readedByte - 1)).setWidth 16) }
  else l

def Load.step (l : Load) (readedByte : ℕ) : Load :=
  let l := l.putByte buffer readedByte
  if readedByte % 16 = 0 then { l with compareBuf := buffer readedByte }
  else
    let l := { l with compareBuf := l.compareBuf &&& buffer readedByte }
    if (readedByte + 1) % 16 = 0 then { l with regs := l.block map readedByte, pdata := fun _ => 0 } else l

abbrev maxEepromBinFileSize : ℕ := 512

/-- `set_eFuseLoadFromBin_Proc`: `memory` tells that the buffers could be allocated, `file` is what can be read of the
file, if it can be opened. -/
def setEFuseLoadFromBinProc (memory : Bool) (file : Option (List Byte)) (r : Regs) : Bool × Regs :=
  if memory = false then (false, r)
  else
    match file with
    | none => (false, r)
    | some bytes =>
      if bytes.length > maxEepromBinFileSize then (false, r)
      else
        (true, ((List.range bytes.length).foldl (Load.step map fun i => bytes.getD i 0)
          { pdata := fun _ => 0, compareBuf := 1, regs := r }).regs)

end Load

/-! ### The registers that are written to -/

variable {map : UsageMap} {r : Regs} {offset : BitVec 16} {pData : Fin 8 → BitVec 16}

def Silent (r : Regs) : Prop := ∀ a ∈ r.written, IsEfuse a

theorem Quiet.silent {r' : Regs} (h : Quiet r r') (hr : Silent r) : Silent r' :=
  fun a ha => (h.written a ha).elim (hr a) id

theorem written_allocateBlock (map : UsageMap) (pData : Fin 8 → BitVec 16) (r : Regs) (blkNum : ℕ) :
    (allocateBlock map pData r blkNum).written = r.written ++ [0x28, 0x24, 0x20, 0x1c, 0x24] := by
  unfold allocateBlock
  rw [Regs.kick, Regs.writeCtrl, written_perform]
  show (Regs.written (List.foldl _ r [0, 1, 2, 3])) ++ [0x24] = _
  simp only [List.foldl_cons, List.foldl_nil, written_write32, List.append_assoc]
  rfl

theorem grows_finishBlock {next : Option (Regs → Bool × Regs)} {blkNum : ℕ}
    (hnext : ∀ f, next = some f → ∀ r, r.written ⊆ (f r).2.written) (r : Regs) :
    r.written ⊆ (finishBlock map offset pData r blkNum next).2.written := by
  have h1 := (writeEntry_spec map r blkNum offset).2.grows
  have h2 := (compareWords_spec map (writeEntry map r blkNum offset) blkNum pData (List.finRange 8)).2.2.grows
  unfold finishBlock
  dsimp only
  split_ifs
  · exact fun a ha => h2 (h1 ha)
  · cases next with
    | none => exact fun a ha => h2 (h1 ha)
    | some f =>
      generalize (compareWords map blkNum pData (List.finRange 8) (writeEntry map r blkNum offset)).2 = r2 at *
      have h3 := (findFree_spec map r2).2.2.grows
      dsimp only
      cases (findFree map r2).1 with
      | none => exact fun a ha => h3 (h2 (h1 ha))
      | some _ =>
        exact fun a ha => hnext f rfl _ ((invalidateEntry_spec map _ blkNum).2.grows (h3 (h2 (h1 ha))))

theorem grows_binRounds (rounds : ℕ) (bNotWrite : Bool) (r : Regs) :
    r.written ⊆ (binRounds map offset pData rounds bNotWrite r).2.written := by
  induction rounds generalizing bNotWrite r with
  | zero => exact fun _ ha => ha
  | succ rounds ih =>
    have hnext : ∀ b f, again rounds (binRounds map offset pData rounds b) = some f →
        ∀ r, r.written ⊆ (f r).2.written := by
      intro b f hf r
      unfold again at hf
      split_ifs at hf
      obtain rfl := Option.some.inj hf
      exact ih b r
    have h1 : r.written ⊆ (eFuseReadRegisters map r (offset &&& 0xfffe)).2.written := by
      rw [snd_eFuseReadRegisters]
      exact (quiet_kick map r _ 0).grows
    unfold binRounds
    dsimp only
    generalize eFuseReadRegisters map r (offset &&& 0xfffe) = x at *
    split_ifs
    · have h2 := (findFree_spec map x.2).2.2.grows
      cases (findFree map x.2).1 with
      | none => exact fun a ha => h2 (h1 ha)
      | some blkNum =>
        refine fun a ha => grows_finishBlock (hnext _) _ ?_
        rw [written_allocateBlock]
        exact List.mem_append_left _ (h2 (h1 ha))
    · exact fun a ha => (quiet_kick map x.2 _ 0).grows (h1 ha)
    · refine fun a ha => grows_finishBlock (hnext _) _ ((writeBlock_spec map _ _ pData).2.grows ?_)
      exact (quiet_kick map x.2 _ 0).grows (h1 ha)

/-! ### One block -/

variable {s : Store} {k : ℕ}

theorem finishBlock_spec (pData : Fin 8 → BitVec 16) (hclean : Clean offset) (h : Shows map r.fuse s) (hk : k < map.size)
    (hcode : s.entry k = entryCode (logicalBlock offset)) (next : Option (Regs → Bool × Regs)) :
    ((∀ i, s.block k i = pData i) ∨ next = none ∨ s.free map.size = [] →
      Quiet r (finishBlock map offset pData r k next).2 ∧ Shows map (finishBlock map offset pData r k next).2.fuse s) ∧
    ((¬∀ i, s.block k i = pData i) → s.free map.size ≠ [] → ∀ f, next = some f →
      ∃ r', Quiet r r' ∧ Shows map r'.fuse (s.spoil k) ∧ finishBlock map offset pData r k next = f r') := by
  obtain ⟨hfuse1, hquiet1⟩ := writeEntry_spec map r k offset
  obtain ⟨hsame, hfuse2, hquiet2⟩ := compareWords_spec map (writeEntry map r k offset) k pData (List.finRange 8)
  have hmark : s.mark k (logicalBlock offset) = s := by
    unfold Store.mark
    rw [hcode, BitVec.or_self, ← hcode, Function.update_eq_self]
  have hshows1 := shows_mark hclean h hk
  rw [hmark, ← hfuse1] at hshows1
  have hquiet := hquiet1.trans hquiet2
  have hsame' : (compareWords map k pData (List.finRange 8) (writeEntry map r k offset)).1 = true ↔
      ∀ i, s.block k i = pData i := by
    rw [hsame, hshows1.readBlock hk]
    exact ⟨fun h i => h i (List.mem_finRange i), fun h i _ => h i⟩
  rw [← hfuse2] at hshows1
  unfold finishBlock
  dsimp only
  generalize compareWords map k pData (List.finRange 8) (writeEntry map r k offset) = x at *
  obtain ⟨hfree, hfuse3, hquiet3⟩ := findFree_spec map x.2
  rw [hshows1.findFree] at hfree
  constructor
  · intro hend
    split_ifs with hx
    · exact ⟨hquiet, hshows1⟩
    · cases next with
      | none => exact ⟨hquiet, hshows1⟩
      | some f =>
        have hempty : s.free map.size = [] := by
          rcases hend with hend | hend | hend
          · exact absurd (hsame'.2 hend) hx
          · exact absurd hend nofun
          · exact hend
        rw [hempty] at hfree
        dsimp only
        rw [hfree]
        refine ⟨hquiet.trans hquiet3, ?_⟩
        show Shows map (findFree map x.2).2.fuse s
        rwa [hfuse3]
  · intro hne hfree0 f hf
    obtain ⟨new, rest, hlist⟩ := List.exists_cons_of_ne_nil hfree0
    obtain ⟨hfuse4, hquiet4⟩ := invalidateEntry_spec map (findFree map x.2).2 k
    rw [hlist] at hfree
    rw [hf, if_neg fun hx => hne (hsame'.1 hx)]
    refine ⟨invalidateEntry map (findFree map x.2).2 k, hquiet.trans (hquiet3.trans hquiet4), ?_, ?_⟩
    · rw [hfuse4, hfuse3]
      exact shows_spoil hshows1 hk hcode
    · dsimp only
      rw [hfree]
      rfl

/-- The four words that step 1.2.4 reads when block `k` serves the logical block: the first is that of the block, the
others are the control register and two registers in front of it. -/
def seen (r : Regs) (offset : BitVec 16) (k : ℕ) : Fin 4 → BitVec 32
  | 0 => dword r.fuse (16 * k)
  | 1 => EfuseCtrl.word { r.ctrl with
      efsromAout := BitVec.ofNat 6 k, efsromAin := BitVec.ofNat 10 (offset.toNat / 16 * 16), efsromMode := 0,
      efsromKick := 0 }
  | 2 => r.other 0x20
  | 3 => r.other 0x1c

theorem seen_congr {r r' : Regs} (hquiet : Quiet r r') (hword : dword r'.fuse (16 * k) = dword r.fuse (16 * k)) :
    seen r' offset k = seen r offset k := by
  have hsettings := hquiet.settings
  unfold EfuseCtrl.settings at hsettings
  simp only [Prod.mk.injEq] at hsettings
  obtain ⟨h1, h2, h3, h4⟩ := hsettings
  funext i
  match i with
  | 0 => exact hword
  | 1 => simp only [seen, EfuseCtrl.word, h1, h2, h3, h4]
  | 2 => exact congrFun hquiet.other 0x20
  | 3 => exact congrFun hquiet.other 0x1c

theorem halves_iff (d : BitVec 32) (high low : BitVec 16) :
    (d &&& 0xffff0000#32 = high.setWidth 32 <<< 16 ∧ d &&& 0xffff#32 = low.setWidth 32) ↔
      d = (high.setWidth 32 <<< 16 &&& 0xffff0000#32) ||| low.setWidth 32 := by
  constructor
  · rintro ⟨hhigh, hlow⟩
    rw [← hhigh, ← hlow]
    refine BitVec.eq_of_getLsbD_eq fun i hi => ?_
    simp only [BitVec.getLsbD_or, BitVec.getLsbD_and, getLsbD_highMask hi, getLsbD_lowMask hi]
    rcases Nat.lt_or_ge i 16 with h | h
    · simp [h, Nat.not_le.2 h]
    · simp [h, Nat.not_lt.2 h]
  · rintro rfl
    constructor
    · refine BitVec.eq_of_getLsbD_eq fun i hi => ?_
      simp only [BitVec.getLsbD_or, BitVec.getLsbD_and, getLsbD_highMask hi, BitVec.getLsbD_shiftLeft,
        BitVec.getLsbD_setWidth]
      rcases Nat.lt_or_ge i 16 with h | h
      · simp [h]
      · simp [h, hi, Nat.not_lt.2 h]
    · refine BitVec.eq_of_getLsbD_eq fun i hi => ?_
      simp only [BitVec.getLsbD_or, BitVec.getLsbD_and, getLsbD_highMask hi, getLsbD_lowMask hi,
        BitVec.getLsbD_setWidth]
      rcases Nat.lt_or_ge i 16 with h | h
      · simp [h, hi, Nat.not_le.2 h]
      · simp [Nat.not_lt.2 h, BitVec.getLsbD_of_ge low i h]

theorem sameData_iff (hk : served map r.fuse (logicalBlock offset) = some k) :
    sameData pData (r.kick map offset.toNat 0) = true ↔ ∀ i, seen r offset k i = tempbuffer pData i := by
  have hread : ∀ i, (r.kick map offset.toNat 0).read32 (efuseDataOffset i) = seen r offset k i := by
    intro i
    rw [kick_zero, hk]
    match i with
    | 0 => rfl
    | 1 => rfl
    | 2 => rfl
    | 3 => rfl
  rw [sameData, decide_eq_true_eq]
  refine forall_congr' fun i => ?_
  rw [hread, halves_iff]
  rfl

theorem aout_first (h : Shows map r.fuse s) : let x := eFuseReadRegisters map r (offset &&& 0xfffe)
    Quiet r x.2 ∧ Shows map x.2.fuse s ∧
      match s.served map.size (logicalBlock offset) with
      | none => x.1.1 = 0x3f
      | some k => x.1.1.toNat = k ∧ x.1.1 ≠ 0x3f := by
  have hfst := (fst_eFuseReadRegisters map r (offset &&& 0xfffe)).1
  have hsnd := snd_eFuseReadRegisters map r (offset &&& 0xfffe)
  unfold Efuse.eFuseReadRegisters at hfst
  rw [logicalBlock_and_even, h.served] at hfst
  dsimp only
  rw [hsnd]
  refine ⟨quiet_kick map r _ 0, by rwa [fuse_kick_zero], ?_⟩
  cases hk : s.served map.size (logicalBlock offset) with
  | none =>
    rw [hk] at hfst
    exact BitVec.eq_of_toNat_eq hfst
  | some k =>
    rw [hk] at hfst
    obtain ⟨htoNat, hne⟩ := ofNat_ne (Store.served_eq_some.1 hk).1
    refine ⟨hfst, fun heq => hne (BitVec.eq_of_toNat_eq ?_)⟩
    rw [htoNat, ← heq]
    exact hfst.symm

theorem binRounds_none (pData : Fin 8 → BitVec 16) (h : Shows map r.fuse s)
    (hnone : s.served map.size (logicalBlock offset) = none) (rounds : ℕ) (bNotWrite : Bool) :
    (s.free map.size = [] → Quiet r (binRounds map offset pData (rounds + 1) bNotWrite r).2 ∧
      Shows map (binRounds map offset pData (rounds + 1) bNotWrite r).2.fuse s) ∧
    (s.free map.size ≠ [] → 0x20 ∈ (binRounds map offset pData (rounds + 1) bNotWrite r).2.written) := by
  obtain ⟨hquiet, hshows, haout⟩ := @aout_first _ _ offset _ h
  rw [hnone] at haout
  unfold binRounds
  dsimp only
  rw [if_pos haout]
  generalize eFuseReadRegisters map r (offset &&& 0xfffe) = x at *
  obtain ⟨hfree, hfuse, hquiet2⟩ := findFree_spec map x.2
  rw [hshows.findFree] at hfree
  constructor
  · intro hempty
    rw [hempty] at hfree
    rw [hfree]
    refine ⟨hquiet.trans hquiet2, ?_⟩
    show Shows map (findFree map x.2).2.fuse s
    rwa [hfuse]
  · intro hne
    obtain ⟨new, rest, hlist⟩ := List.exists_cons_of_ne_nil hne
    rw [hlist] at hfree
    rw [hfree]
    refine grows_finishBlock (fun f hf r => ?_) _ ?_
    · unfold again at hf
      split_ifs at hf
      obtain rfl := Option.some.inj hf
      exact grows_binRounds rounds bNotWrite r
    · rw [written_allocateBlock]
      exact List.mem_append_right _ (by decide)

theorem binRounds_served (pData : Fin 8 → BitVec 16) (h : Shows map r.fuse s)
    (hk : s.served map.size (logicalBlock offset) = some k) (rounds : ℕ) (bNotWrite : Bool) :
    ∃ r1 r2, Quiet r r1 ∧ Shows map r1.fuse s ∧ Quiet r r2 ∧ Shows map r2.fuse (s.fill k pData) ∧
      binRounds map offset pData (rounds + 1) bNotWrite r =
        if bNotWrite = true ∧ ∀ i, seen r offset k i = tempbuffer pData i then (true, r1)
        else finishBlock map offset pData r2 k (again rounds (binRounds map offset pData rounds false)) := by
  obtain ⟨hquiet, hshows, haout⟩ := @aout_first _ _ offset _ h
  rw [hk] at haout
  have hkn := (Store.served_eq_some.1 hk).1
  generalize hx : eFuseReadRegisters map r (offset &&& 0xfffe) = x at hquiet hshows haout
  have hquiet2 := quiet_kick map x.2 offset.toNat 0
  have hshows2 : Shows map (x.2.kick map offset.toNat 0).fuse s := by rwa [fuse_kick_zero]
  obtain ⟨hfuse3, hquiet3⟩ := writeBlock_spec map (x.2.kick map offset.toNat 0) k pData
  have hseen : seen x.2 offset k = seen r offset k := by
    refine seen_congr hquiet ?_
    have h0 := (hshows k hkn).2 0
    have h1 := (hshows k hkn).2 1
    rw [← (h k hkn).2 0] at h0
    rw [← (h k hkn).2 1] at h1
    exact congrArg₂ (fun low high => BitVec.setWidth 32 high <<< 16 ||| BitVec.setWidth 32 low) h0 h1
  refine ⟨x.2.kick map offset.toNat 0, writeBlock map (x.2.kick map offset.toNat 0) k pData, hquiet.trans hquiet2,
    hshows2, hquiet.trans (hquiet2.trans hquiet3), ?_, ?_⟩
  · rw [hfuse3]
    exact shows_fill pData hshows2 hkn
  · unfold binRounds
    dsimp only
    rw [hx, if_neg haout.2, haout.1]
    refine if_congr ?_ rfl rfl
    rw [Bool.and_eq_true, sameData_iff (hshows.served.trans hk), hseen]

/-! ### What a block is for -/

def Reads (map : UsageMap) (m : Content) (L : BitVec 6) (pData : Fin 8 → BitVec 16) : Prop :=
  ∀ i, (shown map m).read map.size L i = pData i

/-- **When a block of the image is programmed**: a block of the eFuse serves it, and

* if the four registers that step 1.2.4 reads agree with the image by chance, it holds the image already,
* else it can be burnt to the image; or it cannot, a block is free so that its entry is invalidated, and the next block
  with the same code can. -/
def Fits (map : UsageMap) (r : Regs) (offset : BitVec 16) (pData : Fin 8 → BitVec 16) : Prop :=
  let s := shown map r.fuse
  ∃ k, s.served map.size (logicalBlock offset) = some k ∧
    if ∀ i, seen r offset k i = tempbuffer pData i then ∀ i, s.block k i = pData i
    else Store.Covers (s.block k) pData ∨
      s.free map.size ≠ [] ∧
        ∃ k', (s.spoil k).served map.size (logicalBlock offset) = some k' ∧ Store.Covers (s.block k') pData

structure Apart (map : UsageMap) (L : BitVec 6) (m m' : Content) : Prop where
  entry : ∀ j < map.size, m' (map.first + j) = entryCode L ↔ m (map.first + j) = entryCode L
  block : ∀ j < map.size, m (map.first + j) = entryCode L →
    ∀ i : Fin 8, word m' (16 * j + 2 * i.1) = word m (16 * j + 2 * i.1)
  free : ∀ j < map.size, m' (map.first + j) = 0 ↔ m (map.first + j) = 0

theorem Apart.refl (map : UsageMap) (L : BitVec 6) (m : Content) : Apart map L m m :=
  ⟨fun _ _ => Iff.rfl, fun _ _ _ _ => rfl, fun _ _ => Iff.rfl⟩

theorem Apart.trans {L : BitVec 6} {m m' m'' : Content} (h : Apart map L m m') (h' : Apart map L m' m'') :
    Apart map L m m'' where
  entry j hj := (h'.entry j hj).trans (h.entry j hj)
  block j hj he i := (h'.block j hj ((h.entry j hj).2 he) i).trans (h.block j hj he i)
  free j hj := (h'.free j hj).trans (h.free j hj)

theorem apart_of_aside {L L' : BitVec 6} {s s' : Store} {m m' : Content} (h : Shows map m s) (h' : Shows map m' s')
    (haside : Store.Aside L s s') (hfree : ∀ j, s'.entry j = 0 ↔ s.entry j = 0) (hL : L' ≠ L) :
    Apart map L' m m' where
  entry j hj := by
    rw [(h' j hj).1, (h j hj).1]
    exact haside.entry L' hL j
  block j hj he i := by
    rw [(h j hj).1] at he
    rw [(h' j hj).2 i, (h j hj).2 i, haside.block L' hL j he]
  free j hj := by
    rw [(h' j hj).1, (h j hj).1]
    exact hfree j

theorem Apart.served {L : BitVec 6} {m m' : Content} (h : Apart map L m m') :
    (shown map m').served map.size L = (shown map m).served map.size L := by
  unfold Store.served
  refine List.find?_congr fun j hj => ?_
  exact decide_eq_decide.2 (h.entry j (List.mem_range.1 hj))

theorem Apart.read {L : BitVec 6} {m m' : Content} (h : Apart map L m m') :
    Reads map m' L pData ↔ Reads map m L pData := by
  unfold Reads Store.read
  rw [h.served]
  cases hk : (shown map m).served map.size L with
  | none => exact Iff.rfl
  | some k =>
    obtain ⟨hkn, he, -⟩ := Store.served_eq_some.1 hk
    refine forall_congr' fun i => ?_
    exact iff_of_eq (congrArg (· = pData i) (h.block k hkn he i))

theorem Apart.served_spoil {m m' : Content} {L : BitVec 6} (h : Apart map L m m') (hk : k < map.size)
    (he : m (map.first + k) = entryCode L) :
    ((shown map m').spoil k).served map.size L = ((shown map m).spoil k).served map.size L := by
  unfold Store.served
  refine List.find?_congr fun j hj => ?_
  rw [decide_eq_decide]
  unfold Store.spoil
  dsimp only
  by_cases hjk : j = k
  · subst hjk
    rw [Function.update_self, Function.update_self]
    show spoiled (m' (map.first + j)) = _ ↔ spoiled (m (map.first + j)) = _
    rw [he, (h.entry j hk).2 he]
  · rw [Function.update_of_ne hjk, Function.update_of_ne hjk]
    exact h.entry j (List.mem_range.1 hj)

theorem Apart.free_eq {m m' : Content} {L : BitVec 6} (h : Apart map L m m') :
    (shown map m').free map.size = (shown map m).free map.size := by
  unfold Store.free
  refine List.filter_congr fun j hj => ?_
  exact decide_eq_decide.2 (h.free j (List.mem_range.1 (List.mem_reverse.1 hj)))

theorem entry_of_served_spoil {m : Content} {L : BitVec 6} {k' : ℕ} (hk : (shown map m).served map.size L = some k)
    (hk' : ((shown map m).spoil k).served map.size L = some k') :
    k' < map.size ∧ m (map.first + k') = entryCode L := by
  obtain ⟨hkn, he, -⟩ := Store.served_eq_some.1 hk
  obtain ⟨hkn', he', -⟩ := Store.served_eq_some.1 hk'
  refine ⟨hkn', ?_⟩
  by_cases hkk : k' = k
  · rw [hkk]
    exact he
  · exact (Function.update_of_ne hkk _ _).symm.trans he'

theorem fits_congr {r' : Regs} (hquiet : Quiet r r') (h : Apart map (logicalBlock offset) r.fuse r'.fuse) :
    Fits map r' offset pData ↔ Fits map r offset pData := by
  unfold Fits
  dsimp only
  rw [h.served, h.free_eq]
  refine exists_congr fun k => and_congr_right fun hk => ?_
  obtain ⟨hkn, he, -⟩ := Store.served_eq_some.1 hk
  have hblock : ∀ i : Fin 8, (shown map r'.fuse).block k i = (shown map r.fuse).block k i := h.block k hkn he
  have hseen : seen r' offset k = seen r offset k := seen_congr hquiet
    (congrArg₂ (fun low high => BitVec.setWidth 32 high <<< 16 ||| BitVec.setWidth 32 low) (hblock 0) (hblock 1))
  rw [hseen, funext hblock, h.served_spoil hkn he]
  split_ifs
  · exact Iff.rfl
  refine or_congr_right (and_congr_right fun _ => exists_congr fun k' => and_congr_right fun hk' => ?_)
  obtain ⟨hkn', he'⟩ := entry_of_served_spoil hk hk'
  exact iff_of_eq (congrArg (Store.Covers · pData) (funext (h.block k' hkn' he')))

def AllOnes (pData : Fin 8 → BitVec 16) : Prop := ∀ i, pData i = 0xffff

instance (pData : Fin 8 → BitVec 16) : Decidable (AllOnes pData) :=
  inferInstanceAs (Decidable (∀ i, pData i = 0xffff))

theorem AllOnes.covers (h : AllOnes pData) (d : Fin 8 → BitVec 16) : Store.Covers d pData := by
  intro i
  rw [h i]
  refine BitVec.eq_of_getLsbD_eq fun j hj => ?_
  have hones : (0xffff : BitVec 16) = BitVec.allOnes 16 := rfl
  rw [hones, BitVec.getLsbD_or, BitVec.getLsbD_allOnes]
  simp [hj]

def Outcome (map : UsageMap) (offset : BitVec 16) (pData : Fin 8 → BitVec 16) (r r' : Regs) : Prop :=
  0x20 ∈ r'.written ∧ ¬Fits map r offset pData ∧
      ((shown map r.fuse).served map.size (logicalBlock offset) = none ∨ ¬AllOnes pData) ∨
    Quiet r r' ∧ (∀ L', L' ≠ logicalBlock offset → Apart map L' r.fuse r'.fuse) ∧
      (¬AllOnes pData → (Reads map r'.fuse (logicalBlock offset) pData ↔ Fits map r offset pData))

theorem reads_iff {m : Content} {L : BitVec 6} (h : Shows map m s) :
    Reads map m L pData ↔ ∀ i, s.read map.size L i = pData i := by
  have hserved : (shown map m).served map.size L = s.served map.size L :=
    (shows_shown map m).served.symm.trans h.served
  unfold Reads Store.read
  rw [hserved]
  cases hk : s.served map.size L with
  | none => exact Iff.rfl
  | some k =>
    exact forall_congr' fun i => iff_of_eq (congrArg (· = pData i) ((h k (Store.served_eq_some.1 hk).1).2 i))

theorem reads_iff_of_served {m : Content} {L : BitVec 6} (h : Shows map m s) (hk : s.served map.size L = some k) :
    Reads map m L pData ↔ ∀ i, s.block k i = pData i := by
  rw [reads_iff h]
  unfold Store.read
  rw [hk]

theorem entry_spoil_eq_zero {L : BitVec 6} (hcode : s.entry k = entryCode L) (j : ℕ) :
    (s.spoil k).entry j = 0 ↔ s.entry j = 0 := by
  unfold Store.spoil
  dsimp only
  by_cases hjk : j = k
  · subst hjk
    rw [Function.update_self, hcode]
    exact iff_of_false (spoiled_ne_zero L) (entryCode_ne_zero L)
  · rw [Function.update_of_ne hjk]

theorem second_outcome (hclean : Clean offset) (hlast : logicalBlock offset ≠ 63) {m : Content} (hm : Shows map m s)
    (hk : k < map.size) (hcode : s.entry k = entryCode (logicalBlock offset)) (hfree : s.free map.size ≠ [])
    (h : Shows map r.fuse ((s.fill k pData).spoil k)) :
    ((s.spoil k).served map.size (logicalBlock offset) = none →
      0x20 ∈ (binRounds map offset pData 1 false r).2.written) ∧
    ∀ k', (s.spoil k).served map.size (logicalBlock offset) = some k' →
      Quiet r (binRounds map offset pData 1 false r).2 ∧
      (∀ L', L' ≠ logicalBlock offset → Apart map L' m (binRounds map offset pData 1 false r).2.fuse) ∧
      (Reads map (binRounds map offset pData 1 false r).2.fuse (logicalBlock offset) pData ↔
        Store.Covers (s.block k') pData) := by
  have hcode2 : (s.fill k pData).entry k = entryCode (logicalBlock offset) := hcode
  have hfree2 : ((s.fill k pData).spoil k).free map.size ≠ [] := by
    rw [Store.free_spoil hcode2]
    exact hfree
  refine ⟨fun hnone => (binRounds_none pData h hnone 0 false).2 hfree2, fun k' hk' => ?_⟩
  obtain ⟨hkn', hcode', -⟩ := Store.served_eq_some.1 hk'
  have hne : k' ≠ k := by
    rintro rfl
    have hspoiled : (s.spoil k').entry k' = spoiled (entryCode (logicalBlock offset)) :=
      (Function.update_self _ _ _).trans (congrArg spoiled hcode)
    exact spoiled_ne hlast _ (hspoiled.symm.trans hcode')
  have hserved : ((s.fill k pData).spoil k).served map.size (logicalBlock offset) = some k' := hk'
  obtain ⟨r1, r2, -, -, hquiet2, hshows2, hrun⟩ := binRounds_served pData h hserved 0 false
  have hcode3 : (((s.fill k pData).spoil k).fill k' pData).entry k' = entryCode (logicalBlock offset) := hcode'
  obtain ⟨hq, hshows⟩ := (finishBlock_spec pData hclean hshows2 hkn' hcode3
    (again 0 (binRounds map offset pData 0 false))).1 (Or.inr (Or.inl rfl))
  rw [hrun, if_neg fun hand => Bool.false_ne_true hand.1]
  have hown : s.Own (logicalBlock offset) k := Or.inr hcode
  have hown' : ((s.fill k pData).spoil k).Own (logicalBlock offset) k' := Or.inr hcode'
  have haside : Store.Aside (logicalBlock offset) s (((s.fill k pData).spoil k).fill k' pData) :=
    (Store.Aside.trans hown.aside_block (Store.aside_spoil hcode2)).trans hown'.aside_block
  refine ⟨hquiet2.trans hq, fun L' hL => apart_of_aside hm hshows haside (fun j => entry_spoil_eq_zero hcode2 j) hL, ?_⟩
  have hserved3 : (((s.fill k pData).spoil k).fill k' pData).served map.size (logicalBlock offset) = some k' := hk'
  rw [reads_iff_of_served hshows hserved3]
  have hblock : (((s.fill k pData).spoil k).fill k' pData).block k' = fun i => s.block k' i ||| pData i := by
    have hsame : ((s.fill k pData).spoil k).block k' = s.block k' := Function.update_of_ne hne _ _
    rw [← hsame]
    exact Function.update_self _ _ _
  rw [hblock]
  exact Iff.rfl

theorem writeFromBin_outcome (hclean : Clean offset) (hlast : logicalBlock offset ≠ 63) (pData : Fin 8 → BitVec 16)
    (r : Regs) : Outcome map offset pData r (eFuseWriteRegistersFromBin map offset pData r).2 := by
  have h := shows_shown map r.fuse
  generalize hs : shown map r.fuse = s at h
  unfold Outcome eFuseWriteRegistersFromBin
  rw [hs]
  cases hk : s.served map.size (logicalBlock offset) with
  | none =>
    have hnot : ¬Fits map r offset pData := by
      rintro ⟨k, hk', -⟩
      rw [hs, hk] at hk'
      exact absurd hk' nofun
    obtain ⟨hquiet, hstray⟩ := binRounds_none pData h hk 1 true
    by_cases hfree : s.free map.size = []
    · obtain ⟨hq, hshows⟩ := hquiet hfree
      refine Or.inr ⟨hq, fun L' hL => apart_of_aside h hshows (Store.Aside.refl _ s) (fun _ => Iff.rfl) hL,
        fun hones => ?_⟩
      refine iff_of_false (fun hread => hones fun i => ?_) hnot
      rw [reads_iff hshows] at hread
      rw [← hread i, Store.read, hk]
    · exact Or.inl ⟨hstray hfree, hnot, Or.inl rfl⟩
  | some k =>
    obtain ⟨hkn, hcode, -⟩ := Store.served_eq_some.1 hk
    have hcode' : (s.fill k pData).entry k = entryCode (logicalBlock offset) := hcode
    have hown : s.Own (logicalBlock offset) k := Or.inr hcode
    have hfill : Store.Aside (logicalBlock offset) s (s.fill k pData) := hown.aside_block
    have hblock : (∀ i, (s.fill k pData).block k i = pData i) ↔ Store.Covers (s.block k) pData := by
      unfold Store.fill
      dsimp only
      rw [Function.update_self]
      exact Iff.rfl
    obtain ⟨r1, r2, hquiet1, hshows1, hquiet2, hshows2, hrun⟩ := binRounds_served pData h hk 1 true
    have hfits : Fits map r offset pData ↔
        if ∀ i, seen r offset k i = tempbuffer pData i then ∀ i, s.block k i = pData i
        else Store.Covers (s.block k) pData ∨ s.free map.size ≠ [] ∧
          ∃ k', (s.spoil k).served map.size (logicalBlock offset) = some k' ∧ Store.Covers (s.block k') pData := by
      unfold Fits
      dsimp only
      rw [hs, hk]
      exact ⟨fun ⟨k', hk', hfit⟩ => Option.some.inj hk' ▸ hfit, fun hfit => ⟨k, rfl, hfit⟩⟩
    rw [hrun, hfits]
    by_cases hseen : ∀ i, seen r offset k i = tempbuffer pData i
    · -- the comparison finds no difference
      rw [if_pos ⟨rfl, hseen⟩, if_pos hseen]
      exact Or.inr ⟨hquiet1, fun L' hL => apart_of_aside h hshows1 (Store.Aside.refl _ s) (fun _ => Iff.rfl) hL,
        fun _ => reads_iff_of_served hshows1 hk⟩
    rw [if_neg fun hand => hseen hand.2, if_neg hseen]
    have hserved : (s.fill k pData).served map.size (logicalBlock offset) = some k := hk
    obtain ⟨hend, hgo⟩ := finishBlock_spec pData hclean hshows2 hkn hcode'
      (again 1 (binRounds map offset pData 1 false))
    rw [hblock] at hend hgo
    by_cases hcovers : Store.Covers (s.block k) pData
    · obtain ⟨hq, hshows⟩ := hend (Or.inl hcovers)
      exact Or.inr ⟨hquiet2.trans hq, fun L' hL => apart_of_aside h hshows hfill (fun _ => Iff.rfl) hL,
        fun _ => (reads_iff_of_served hshows hserved).trans (hblock.trans (iff_of_true hcovers (Or.inl hcovers)))⟩
    by_cases hfree : s.free map.size = []
    · obtain ⟨hq, hshows⟩ := hend (Or.inr (Or.inr hfree))
      refine Or.inr ⟨hquiet2.trans hq, fun L' hL => apart_of_aside h hshows hfill (fun _ => Iff.rfl) hL, fun _ => ?_⟩
      rw [reads_iff_of_served hshows hserved, hblock]
      exact iff_of_false hcovers fun hor => hor.elim hcovers fun hand => hand.1 hfree
    -- the entry is invalidated, and a second round follows
    obtain ⟨r3, hquiet3, hshows3, hrun3⟩ := hgo hcovers hfree _ rfl
    obtain ⟨hnone, hsome⟩ := second_outcome hclean hlast h hkn hcode hfree hshows3
    rw [hrun3]
    cases hk' : (s.spoil k).served map.size (logicalBlock offset) with
    | none =>
      refine Or.inl ⟨hnone hk', ?_, Or.inr fun hones => hcovers (hones.covers _)⟩
      rintro (hc | ⟨-, k', hk2, -⟩)
      · exact hcovers hc
      · exact absurd hk2 nofun
    | some k' =>
      obtain ⟨hquiet4, hapart, hreads⟩ := hsome k' hk'
      refine Or.inr ⟨hquiet2.trans (hquiet3.trans hquiet4), hapart, fun _ => hreads.trans ?_⟩
      exact ⟨fun hc => Or.inr ⟨hfree, k', rfl, hc⟩, fun hor => hor.elim (fun hc => absurd hc hcovers)
        fun ⟨_, k2, hk2, hc⟩ => Option.some.inj hk2 ▸ hc⟩

end Mt7610u.Efuse.Device
