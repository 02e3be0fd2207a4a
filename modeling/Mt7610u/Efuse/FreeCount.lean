import Mt7610u.Efuse.Write

/-! # The free blocks

`eFuseGetFreeBlockCount` looks for the first and for the last free entry of the usage map and takes all between them for
free. It is right because a free entry is only ever taken from the end of the map. -/

namespace Mt7610u.Efuse

open Mt7610u.Lib

/-! ### The function -/

/-- The first loop, `turns` turns from the address `i` on: `FirstFreeBlock`, `none` for `0xffff`. -/
def firstFreeFrom (map : UsageMap) (m : Content) : ℕ → ℕ → Option ℕ
  | 0, _ => none
  | turns + 1, i =>
    let logicalAddress := eFusePhysicalReadRegisters m i
    if logicalAddress &&& 0xff = 0 ∧ i ≠ map.first - 1 then some i
    else if (logicalAddress >>> 8) &&& 0xff = 0 ∧ i ≠ map.last then some (i + 1)
    else firstFreeFrom map m turns (i + 2)

/-- The second loop, from the end: `LastFreeBlock`. -/
def lastFreeFrom (map : UsageMap) (m : Content) : ℕ → Option ℕ
  | 0 => none
  | turns + 1 =>
    let i := map.endBlock + 2 * turns
    let logicalAddress := eFusePhysicalReadRegisters m i
    if (logicalAddress >>> 8) &&& 0xff = 0 ∧ i ≠ map.last then some (i + 1)
    else if logicalAddress &&& 0xff = 0 ∧ i ≠ map.first - 1 then some i
    else lastFreeFrom map m turns

/-- `eFuseGetFreeBlockCount`, with what `*EfuseFreeBlock` was before. -/
def eFuseGetFreeBlockCount (map : UsageMap) (m : Content) (bUseEfuse : Bool) (efuseFreeBlock : ℕ) : ℕ :=
  if bUseEfuse = false then efuseFreeBlock
  else
    let turns := (map.startBlock - map.endBlock) / 2 + 1
    match firstFreeFrom map m turns map.endBlock with
    | none => 0
    | some firstFreeBlock =>
      match lastFreeFrom map m turns with
      | none => 0
      | some lastFreeBlock => if lastFreeBlock < firstFreeBlock then 0 else lastFreeBlock - firstFreeBlock + 1

/-! ### Contents -/

variable {map : UsageMap} {m m' : Content} {c k : ℕ}

/-- The contents that writes lead to from an empty usage map. The bytes in the blocks may become anything, so that
every write can fail its comparison or not, in each of its rounds. -/
inductive Reachable (map : UsageMap) : Content → Prop
  | empty {m : Content} (h : ∀ j < map.size, m (map.first + j) = 0) : Reachable map m
  | write {m : Content} (h : Reachable map m) (offset v : BitVec 16) :
    Reachable map (eFuseWriteRegisters map m offset v).2
  | disturb {m m' : Content} (h : Reachable map m) (hsame : ∀ x, map.first ≤ x → m' x = m x) : Reachable map m'

/-- The free entries are the first `c` ones. -/
def FreeBelow (map : UsageMap) (c : ℕ) (m : Content) : Prop :=
  c ≤ map.size ∧ ∀ j < map.size, m (map.first + j) = 0 ↔ j < c

theorem FreeBelow.congr (h : FreeBelow map c m) (hsame : ∀ j < map.size, m' (map.first + j) = m (map.first + j)) :
    FreeBelow map c m' :=
  ⟨h.1, fun j hj => by rw [hsame j hj]; exact h.2 j hj⟩

theorem UsageMap.ends (map : UsageMap) :
    (map.startBlock ≤ map.last ∧ map.last ≤ map.startBlock + 1 ∧ map.startBlock % 2 = 0) ∧
      map.endBlock ≤ map.first ∧ map.first ≤ map.endBlock + 1 ∧ map.endBlock % 2 = 0 := by
  unfold UsageMap.startBlock UsageMap.endBlock
  split_ifs <;> omega

/-! ### The search -/

theorem FreeBelow.findFree (h : FreeBelow map c m) : findFree map m = if c = 0 then none else some (c - 1) := by
  obtain ⟨hstart, hend⟩ := map.ends
  have hthree := map.three
  have hsize : map.size = map.last + 1 - map.first := rfl
  obtain ⟨hsome, hnone⟩ := searchFrom_spec map m ((map.startBlock - map.endBlock) / 2 + 1) (by omega)
  have hle := h.1
  unfold Efuse.findFree
  cases hk : searchFrom map m ((map.startBlock - map.endBlock) / 2 + 1) with
  | none =>
    rw [if_pos]
    by_contra hc
    exact hnone hk 0 (by omega) (by omega) ((h.2 0 (by omega)).2 (by omega))
  | some k =>
    obtain ⟨hkn, -, hzero, hmax⟩ := hsome k hk
    have hkc := (h.2 k hkn).1 hzero
    rw [if_neg (by omega)]
    by_contra hne
    exact hmax (c - 1) (by omega) (by
      have : k ≠ c - 1 := fun he => hne (congrArg some he)
      omega) (by omega) ((h.2 (c - 1) (by omega)).2 (by omega))

theorem byte_or_eq_zero {x y : Byte} : x ||| y = 0 ↔ x = 0 ∧ y = 0 := BitVec.or_eq_zero_iff

theorem findFree_le (map : UsageMap) (m : Content) (hk : findFree map m = some k) : k ≤ map.last - map.first := by
  obtain ⟨hstart, hend⟩ := map.ends
  have hsize : map.size = map.last + 1 - map.first := rfl
  obtain ⟨hsome, -⟩ := searchFrom_spec map m ((map.startBlock - map.endBlock) / 2 + 1) (by have := map.three; omega)
  have := (hsome k hk).1
  omega

/-! ### A write keeps the order -/

theorem lowByte_mapEntry_ne_zero (offset : BitVec 16) : lowByte (mapEntry offset) ≠ 0 := by
  intro h
  have hmerge := (lowByte_mapEntry offset).2.trans h
  exact entryCode_ne_zero _ (byte_or_eq_zero.1 hmerge).1

theorem entry_burn {o : ℕ} (v : BitVec 16) (hk : k < map.size) (ho : o < 16) (j : ℕ) :
    eFusePhysicalWriteRegisters m (k * 0x10 + o) v (map.first + j) = m (map.first + j) := by
  have hsize := map.size_le
  have htarget := target_block hk ho
  have hhit := (hit o).isLt
  rw [eFusePhysicalWriteRegisters_eq, if_neg (by omega), if_neg (by omega)]

theorem entry_writeBlock (b : Fin 8 → BitVec 16) (hk : k < map.size) (j : ℕ) :
    writeBlock m k b (map.first + j) = m (map.first + j) := by
  unfold writeBlock
  induction List.finRange 8 generalizing m with
  | nil => rfl
  | cons i l ih =>
    rw [List.foldl_cons, ih]
    exact entry_burn (b i) hk (by omega) j

/-- The entry that is written is taken. A block that was not free keeps the order, and so does the last free one. Bits
that go to the next entry find it taken. -/
theorem FreeBelow.writeEntry (h : FreeBelow map c m) (hk : k < map.size) (hck : c ≤ k + 1) (offset : BitVec 16) :
    FreeBelow map (min c k) (writeEntry map m k offset) := by
  refine ⟨by omega, fun j hj => ?_⟩
  rw [writeEntry_eq hk]
  have hzero := h.2 j hj
  by_cases hjk : j = k
  · subst hjk
    rw [if_pos rfl, byte_or_eq_zero]
    exact iff_of_false (fun hor => lowByte_mapEntry_ne_zero offset hor.2) (by omega)
  · rw [if_neg (by omega)]
    by_cases hnext : (map.first + k) % 2 = 0 ∧ map.first + j = map.first + k + 1
    · rw [if_pos hnext, byte_or_eq_zero, hzero]
      exact iff_of_false (fun hor => by omega) (by omega)
    · rw [if_neg hnext, hzero]
      omega

theorem invalidateEntry_ne_zero {x : ℕ} (hx : m x ≠ 0) (k : ℕ) : invalidateEntry map m k x ≠ 0 := by
  unfold invalidateEntry
  rw [eFusePhysicalWriteRegisters_eq]
  by_cases h₁ : x = target (pairAddr (map.first + k))
  · rw [if_pos h₁]
    exact fun h => hx (byte_or_eq_zero.1 h).1
  · rw [if_neg h₁]
    by_cases h₂ : x = target (pairAddr (map.first + k)) + 1
    · rw [if_pos h₂]
      exact fun h => hx (byte_or_eq_zero.1 h).1
    · rwa [if_neg h₂]

theorem invalidateEntry_of_ne {x : ℕ} (hk : k < map.size) (hx : x ≠ map.first + k) :
    invalidateEntry map m k x = m x := by
  have haddr := map.addr_le hk
  have hinside := map.inside
  unfold invalidateEntry
  have hpair : pairAddr (map.first + k) < 1024 := by
    unfold pairAddr
    split_ifs <;> omega
  rw [pair_write hk, eFusePhysicalReadRegisters_eq (pairAddr_even _) hpair]
  unfold pairAddr
  by_cases hodd : (map.first + k) % 2 ≠ 0
  · have hlow := (setFirstClear_high [0, 1, 2, 3, 4, 5, 6] (word m (map.first + k - 1)) (by decide)).2
    rw [lowByte_word] at hlow
    rw [if_pos hodd, if_pos hodd]
    change (if x = map.first + k - 1 then
      m x ||| lowByte (setFirstClear _ ([0, 1, 2, 3, 4, 5, 6].map (8 + ·))) else _) = _
    rw [hlow]
    split_ifs with h₁ h₂
    · rw [h₁, BitVec.or_self]
    · omega
    · rfl
  · have hhigh := (setFirstClear_low [0, 1, 2, 3, 4, 5, 6, 7] (word m (map.first + k)) (by decide)).2
    rw [highByte_word] at hhigh
    rw [if_neg hodd, if_neg hodd, if_neg hx, hhigh]
    split_ifs with h₁
    · rw [h₁, BitVec.or_self]
    · rfl

theorem FreeBelow.invalidateEntry (h : FreeBelow map c m) (hk : k < map.size) (hck : c ≤ k) :
    FreeBelow map c (invalidateEntry map m k) := by
  refine ⟨h.1, fun j hj => ?_⟩
  by_cases hjk : j = k
  · subst hjk
    have htaken : m (map.first + j) ≠ 0 := fun hz => by
      have := (h.2 j hj).1 hz
      omega
    exact iff_of_false (invalidateEntry_ne_zero htaken j) (by omega)
  · rw [invalidateEntry_of_ne hk (by omega)]
    exact h.2 j hj

/-- The rounds. A round writes to a block that is taken or is the last free one, and the next one takes the last one
that is free then. -/
theorem FreeBelow.writeRounds {offset v : BitVec 16} {b : Fin 8 → BitVec 16} (r : ℕ) {first : Bool}
    (h : FreeBelow map c m) (hk : k < map.size) (hck : c ≤ k + 1) :
    ∃ c', FreeBelow map c' (writeRounds map offset v b r first k m).2 := by
  induction r generalizing first k m c with
  | zero => exact ⟨c, h⟩
  | succ r ih =>
    unfold Efuse.writeRounds
    dsimp only
    generalize hm₁ : (if first then eFusePhysicalWriteRegisters m (k * 0x10 + offset.toNat % 16) v
      else writeBlock m k b) = m₁
    have hdata : FreeBelow map c m₁ := by
      refine h.congr fun j _ => ?_
      rw [← hm₁]
      split_ifs
      · exact entry_burn v hk (Nat.mod_lt _ (by decide)) j
      · exact entry_writeBlock b hk j
    have hentry := hdata.writeEntry hk hck offset
    split_ifs with hgood
    · exact ⟨_, hentry⟩
    · rw [hentry.findFree]
      by_cases hc : min c k = 0
      · rw [if_pos hc]
        exact ⟨_, hentry⟩
      · rw [if_neg hc]
        exact ih (hentry.invalidateEntry hk (by omega)) (by omega) (by omega)

theorem FreeBelow.le_of_aout (h : FreeBelow map c m) {offset : BitVec 16}
    (haout : (eFuseReadRegisters map m offset).1 ≠ 0x3f) :
    (eFuseReadRegisters map m offset).1 < map.size ∧ c ≤ (eFuseReadRegisters map m offset).1 := by
  unfold eFuseReadRegisters at haout ⊢
  cases hserved : served map m (logicalBlock offset) with
  | none =>
    rw [hserved] at haout
    exact absurd rfl haout
  | some k =>
    obtain ⟨hk, hcode, -⟩ := Store.served_eq_some.1 ((shows_shown map m).served.symm.trans hserved)
    refine ⟨hk, Nat.not_lt.1 fun hlt => ?_⟩
    exact entryCode_ne_zero _ (hcode.symm.trans ((h.2 k hk).2 hlt))

/-- **One write keeps the order of the entries**, at every offset and whichever rounds fail their comparison. -/
theorem FreeBelow.eFuseWriteRegisters (h : FreeBelow map c m) (offset v : BitVec 16) :
    ∃ c', FreeBelow map c' (eFuseWriteRegisters map m offset v).2 := by
  have hle := h.1
  unfold Efuse.eFuseWriteRegisters
  dsimp only
  by_cases haout : (eFuseReadRegisters map m (offset &&& 0xfffe)).1 = 0x3f
  · rw [if_pos haout, h.findFree]
    by_cases hc : c = 0
    · rw [if_pos hc]
      exact ⟨c, h⟩
    · rw [if_neg hc]
      exact h.writeRounds 2 (by omega) (by omega)
  · obtain ⟨hk, hck⟩ := h.le_of_aout haout
    rw [if_neg haout]
    exact h.writeRounds 2 hk (by omega)

theorem Reachable.freeBelow (h : Reachable map m) : ∃ c, FreeBelow map c m := by
  induction h with
  | empty hempty => exact ⟨map.size, le_rfl, fun j hj => iff_of_true (hempty j hj) hj⟩
  | write _ offset v ih =>
    obtain ⟨c, hc⟩ := ih
    exact hc.eFuseWriteRegisters offset v
  | disturb _ hsame ih =>
    obtain ⟨c, hc⟩ := ih
    exact ⟨c, hc.congr fun j _ => hsame _ (Nat.le_add_right _ _)⟩

/-! ### The count -/

theorem read_pair {i : ℕ} (heven : i % 2 = 0) (hi : i < 1024) :
    ((eFusePhysicalReadRegisters m i >>> 8) &&& 0xff = 0 ↔ m (i + 1) = 0) ∧
      (eFusePhysicalReadRegisters m i &&& 0xff = 0 ↔ m i = 0) := by
  rw [eFusePhysicalReadRegisters_eq heven hi, and_byte_eq_zero, and_byte_eq_zero, lowByte_word]
  exact ⟨iff_of_eq (congrArg (· = 0) (highByte_word m _)), Iff.rfl⟩

theorem FreeBelow.firstFreeFrom_pos (h : FreeBelow map c m) (hc : 0 < c) (turns : ℕ) :
    firstFreeFrom map m (turns + 1) map.endBlock = some map.first := by
  obtain ⟨-, hend⟩ := map.ends
  have hfirst := map.first_lt
  have hthree := map.three
  have hzero : m map.first = 0 := (h.2 0 (by have := h.1; omega)).2 hc
  obtain ⟨hhigh, hlow⟩ := read_pair (m := m) hend.2.2 (by omega)
  unfold firstFreeFrom
  dsimp only
  simp only [hlow, hhigh]
  by_cases heven : map.endBlock = map.first
  · have hne : map.first ≠ map.first - 1 := by
      have := map.inFront
      omega
    rw [heven, if_pos ⟨hzero, hne⟩]
  · have hodd : map.endBlock + 1 = map.first := by omega
    rw [if_neg (fun hlow => hlow.2 (by omega)), hodd, if_pos ⟨hzero, by omega⟩]

theorem FreeBelow.firstFreeFrom_zero (h : FreeBelow map 0 m) (turns : ℕ) {i : ℕ} (hi : map.endBlock ≤ i)
    (heven : i % 2 = 0) (hturns : i + 2 * turns ≤ map.startBlock + 2) : firstFreeFrom map m turns i = none := by
  obtain ⟨hstart, hend⟩ := map.ends
  have hinside := map.inside
  have hsize : map.size = map.last + 1 - map.first := rfl
  have htaken : ∀ x, map.first ≤ x → x ≤ map.last → m x ≠ 0 := by
    intro x hx hx' hz
    obtain ⟨j, rfl⟩ := Nat.exists_eq_add_of_le hx
    exact Nat.not_lt_zero j ((h.2 j (by omega)).1 hz)
  induction turns generalizing i with
  | zero => rfl
  | succ turns ih =>
    obtain ⟨hhigh, hlow⟩ := read_pair (m := m) heven (by omega)
    unfold firstFreeFrom
    dsimp only
    simp only [hlow, hhigh]
    rw [if_neg, if_neg]
    · exact ih (by omega) (by omega) (by omega)
    · exact fun hz => htaken (i + 1) (by omega) (by omega) hz.1
    · exact fun hz => htaken i (by omega) (by omega) hz.1

theorem lastFreeFrom_eq (map : UsageMap) (m : Content) (turns : ℕ) :
    lastFreeFrom map m turns = (searchFrom map m turns).map (map.first + ·) := by
  have hend := map.ends.2
  induction turns with
  | zero => rfl
  | succ turns ih =>
    unfold lastFreeFrom searchFrom
    dsimp only
    rw [ih]
    split_ifs with h₁ h₂
    · rw [Option.map_some]
      exact congrArg some (by omega)
    · rw [Option.map_some]
      exact congrArg some (by omega)
    · rfl

def freeBlocks (map : UsageMap) (m : Content) : ℕ := (List.range map.size).countP fun j => m (map.first + j) = 0

theorem FreeBelow.freeBlocks (h : FreeBelow map c m) : freeBlocks map m = c := by
  have hcount : ∀ n, (List.range n).countP (fun j => decide (j < c)) = min n c := by
    intro n
    induction n with
    | zero => simp
    | succ n ih =>
      rw [List.range_succ, List.countP_append, ih, List.countP_singleton]
      by_cases hn : n < c
      · rw [decide_eq_true hn, if_pos rfl]
        omega
      · rw [decide_eq_false hn, if_neg (by decide)]
        omega
  have hsame : ∀ j ∈ List.range map.size, decide (m (map.first + j) = 0) = true ↔ decide (j < c) = true := by
    intro j hj
    rw [decide_eq_true_iff, decide_eq_true_iff]
    exact h.2 j (List.mem_range.1 hj)
  unfold Efuse.freeBlocks
  rw [List.countP_congr hsame, hcount, min_eq_right h.1]

theorem FreeBelow.eFuseGetFreeBlockCount (h : FreeBelow map c m) (efuseFreeBlock : ℕ) :
    eFuseGetFreeBlockCount map m true efuseFreeBlock = c := by
  obtain ⟨hstart, hend⟩ := map.ends
  have hthree := map.three
  have hfree := h.findFree
  unfold Efuse.findFree at hfree
  unfold Efuse.eFuseGetFreeBlockCount
  rw [if_neg (by decide)]
  dsimp only
  rw [lastFreeFrom_eq, hfree]
  rcases Nat.eq_zero_or_pos c with rfl | hc
  · rw [h.firstFreeFrom_zero _ le_rfl hend.2.2 (by omega)]
  · rw [h.firstFreeFrom_pos hc, if_neg (by omega), Option.map_some]
    dsimp only
    rw [if_neg (by omega)]
    omega

/-- **The free entries are the first ones after any writes**, the function returns their number, and no search leaves
the map. -/
theorem freeBlocks_of_reachable (h : Reachable map m) (efuseFreeBlock : ℕ) :
    (∃ c ≤ map.size, ∀ j < map.size, m (map.first + j) = 0 ↔ j < c) ∧
      eFuseGetFreeBlockCount map m true efuseFreeBlock = freeBlocks map m ∧
      ∀ (m' : Content) (k : ℕ), findFree map m' = some k → k ≤ map.last - map.first := by
  obtain ⟨c, hc⟩ := h.freeBelow
  refine ⟨⟨c, hc.1, hc.2⟩, ?_, fun m' k hk => findFree_le map m' hk⟩
  rw [hc.eFuseGetFreeBlockCount, hc.freeBlocks]

theorem freeBlocks_of_one_write :
    eFuseGetFreeBlockCount .mt76x0 (eFuseWriteRegisters .mt76x0 blank 0x3f0 1).2 true 0 =
      freeBlocks .mt76x0 (eFuseWriteRegisters .mt76x0 blank 0x3f0 1).2 :=
  (freeBlocks_of_reachable (.write (.empty fun _ _ => rfl) 0x3f0 1) 0).2.1

end Mt7610u.Efuse
