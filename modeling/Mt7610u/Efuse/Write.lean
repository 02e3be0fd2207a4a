import Mathlib.Data.List.Find
import Mathlib.Data.List.Induction
import Mt7610u.Efuse.Store

/-! # What an eFuse write does to the store

The registers against the store of logical blocks. -/

namespace Mt7610u.Efuse

open Mt7610u.Lib

variable {map : UsageMap} {m : Content} {s : Store} {k : ℕ}

/-! ### Addresses -/

theorem UsageMap.size_le (map : UsageMap) : 16 * map.size ≤ map.first := map.inFront

theorem UsageMap.first_lt (map : UsageMap) : map.first < 1022 := by
  have := map.inside
  have := map.three
  omega

theorem UsageMap.addr_le (hk : k < map.size) : map.first + k ≤ map.last := by
  have := map.three
  unfold UsageMap.size at hk
  omega

def hit (offset : ℕ) : Fin 8 := ⟨offset % 16 / 4 * 2 + if offset % 4 ≠ 0 then 1 else 0, by split_ifs <;> omega⟩

theorem target_of_even {a : ℕ} (heven : a % 2 = 0) (ha : a < 1024) : target a = a := by
  unfold target ain
  split_ifs <;> omega

theorem target_block {o : ℕ} (hk : k < map.size) (ho : o < 16) :
    target (k * 0x10 + o) = 16 * k + 2 * (hit o).1 := by
  have := map.size_le
  have := map.first_lt
  unfold target ain hit
  dsimp only
  have h4 : (k * 0x10 + o) % 4 = o % 4 := by omega
  rw [h4]
  split_ifs <;> omega

theorem hit_word (i : Fin 8) : hit (2 * i.1) = i := by
  revert i
  decide

theorem word_write (m : Content) {a x : ℕ} (v : BitVec 16) (heven : x % 2 = 0) :
    word (eFusePhysicalWriteRegisters m a v) x = if x = target a then word m x ||| v else word m x := by
  have htarget : target a % 2 = 0 := by
    unfold target ain
    split_ifs <;> omega
  by_cases hx : x = target a
  · rw [if_pos hx]
    refine word_ext ?_ ?_
    · rw [lowByte_word, eFusePhysicalWriteRegisters_eq, if_pos hx, lowByte_or, lowByte_word]
    · rw [highByte_word, eFusePhysicalWriteRegisters_eq, if_neg (by omega), if_pos (by omega), highByte_or, highByte_word]
  · rw [if_neg hx]
    refine word_ext ?_ ?_
    · rw [lowByte_word, eFusePhysicalWriteRegisters_eq, if_neg hx, if_neg (by omega), lowByte_word]
    · rw [highByte_word, eFusePhysicalWriteRegisters_eq, if_neg (by omega), if_neg (by omega), highByte_word]

/-! ### The store that a content shows -/

def shown (map : UsageMap) (m : Content) : Store where
  entry k := m (map.first + k)
  block k i := word m (16 * k + 2 * i.1)

def Shows (map : UsageMap) (m : Content) (s : Store) : Prop :=
  ∀ k < map.size, m (map.first + k) = s.entry k ∧ ∀ i : Fin 8, word m (16 * k + 2 * i.1) = s.block k i

theorem shows_shown (map : UsageMap) (m : Content) : Shows map m (shown map m) := fun _ _ => ⟨rfl, fun _ => rfl⟩

theorem Shows.readBlock (h : Shows map m s) (hk : k < map.size) : readBlock m k = s.block k := by
  have := map.size_le
  have := map.first_lt
  funext i
  have hi := i.isLt
  unfold Efuse.readBlock
  rw [eFusePhysicalReadRegisters_eq (by omega) (by omega), ← (h k hk).2 i]
  congr 1
  omega

theorem shows_burn {o : ℕ} (v : BitVec 16) (h : Shows map m s) (hk : k < map.size) (ho : o < 16) :
    Shows map (eFusePhysicalWriteRegisters m (k * 0x10 + o) v) (s.burn k (hit o) v) := by
  have hsize := map.size_le
  have htarget := target_block hk ho
  have hhit := (hit o).isLt
  intro j hj
  refine ⟨?_, fun i => ?_⟩
  · rw [eFusePhysicalWriteRegisters_eq, if_neg (by omega), if_neg (by omega)]
    exact (h j hj).1
  · have hi := i.isLt
    rw [word_write _ _ (by omega), htarget, (h j hj).2 i]
    unfold Store.burn
    dsimp only
    by_cases hjk : j = k
    · subst hjk
      rw [Function.update_self]
      by_cases hip : i = hit o
      · subst hip
        rw [Function.update_self, if_pos rfl]
      · have : i.1 ≠ (hit o).1 := fun h => hip (Fin.ext h)
        rw [Function.update_of_ne hip, if_neg (by omega)]
    · rw [Function.update_of_ne hjk, if_neg (by omega)]

theorem shows_fill (b : Fin 8 → BitVec 16) (h : Shows map m s) (hk : k < map.size) :
    Shows map (writeBlock m k b) (s.fill k b) := by
  have hlist : ∀ l : List (Fin 8), l.Nodup →
      Shows map (l.foldl (fun m i => eFusePhysicalWriteRegisters m (k * 0x10 + 2 * i.1) (b i)) m)
        { s with block := Function.update s.block k fun i => if i ∈ l then s.block k i ||| b i else s.block k i } := by
    intro l hl
    induction l using List.reverseRecOn with
    | nil =>
      have hsame : (fun i : Fin 8 => if i ∈ ([] : List (Fin 8)) then s.block k i ||| b i else s.block k i) =
          s.block k := by
        funext i
        simp
      rw [hsame, Function.update_eq_self]
      exact h
    | append_singleton l i ih =>
      have hi : i ∉ l := fun hmem => (List.nodup_append.1 hl).2.2 i hmem i (List.mem_singleton_self i) rfl
      have hstep := shows_burn (b i) (ih (List.nodup_append.1 hl).1) hk (show 2 * i.1 < 16 by omega)
      rw [List.foldl_append]
      rw [hit_word] at hstep
      refine cast ?_ hstep
      congr 1
      unfold Store.burn
      dsimp only
      rw [Function.update_self, Function.update_idem]
      refine congrArg (Store.mk s.entry) (congrArg (Function.update s.block k) (funext fun j => ?_))
      by_cases hj : j = i
      · subst hj
        rw [Function.update_self]
        simp [hi]
      · rw [Function.update_of_ne hj]
        simp [hj]
  have hall := hlist (List.finRange 8) (List.nodup_finRange 8)
  simp only [List.mem_finRange, if_true] at hall
  exact hall

/-! ### Entries -/

theorem pairAddr_even (a : ℕ) : pairAddr a % 2 = 0 := by
  unfold pairAddr
  split_ifs <;> omega

theorem pair_write {v : BitVec 16} (hk : k < map.size) (x : ℕ) :
    eFusePhysicalWriteRegisters m (pairAddr (map.first + k)) v x =
      if x = pairAddr (map.first + k) then m x ||| lowByte v
      else if x = pairAddr (map.first + k) + 1 then m x ||| highByte v else m x := by
  have := map.addr_le hk
  have := map.inside
  have hle : pairAddr (map.first + k) ≤ map.first + k := by
    unfold pairAddr
    split_ifs <;> omega
  rw [eFusePhysicalWriteRegisters_eq, target_of_even (pairAddr_even _) (by omega)]

theorem Shows.of_entries {m' : Content} {e : ℕ → Byte} (h : Shows map m s)
    (hentry : ∀ j < map.size, m' (map.first + j) = e j) (hblock : ∀ x < map.first, m' x = m x) :
    Shows map m' { s with entry := e } := by
  have hsize := map.size_le
  intro j hj
  refine ⟨hentry j hj, fun i => ?_⟩
  have hi := i.isLt
  have hword : word m' (16 * j + 2 * i.1) = word m (16 * j + 2 * i.1) := by
    unfold word
    rw [hblock _ (by omega), hblock _ (by omega)]
  exact hword.trans ((h j hj).2 i)

theorem Shows.update_entry {m' : Content} {e : Byte} (h : Shows map m s)
    (hm : ∀ x, m' x = if x = map.first + k then e else m x) :
    Shows map m' { s with entry := Function.update s.entry k e } := by
  refine h.of_entries (fun j hj => ?_) fun x hx => ?_
  · rw [hm]
    by_cases hjk : j = k
    · subst hjk
      rw [if_pos rfl, Function.update_self]
    · rw [if_neg (by omega), Function.update_of_ne hjk]
      exact (h j hj).1
  · rw [hm, if_neg (by omega)]

theorem lowByte_shiftLeft (v : BitVec 16) : lowByte (v <<< 8) = 0#8 := by
  unfold lowByte
  refine BitVec.eq_of_getLsbD_eq fun i hi => ?_
  simp [hi]

theorem highByte_shiftLeft (v : BitVec 16) : highByte (v <<< 8) = lowByte v := by
  unfold highByte lowByte
  refine BitVec.eq_of_getLsbD_eq fun i hi => ?_
  simp [hi, show 8 + i < 16 by omega, BitVec.getLsbD_eq_getElem (show i < 16 by omega)]

/-- **An entry is written.** At an even address, bits beyond the byte go to the next entry. -/
theorem writeEntry_eq (hk : k < map.size) (offset : BitVec 16) (x : ℕ) :
    writeEntry map m k offset x =
      if x = map.first + k then m x ||| lowByte (mapEntry offset)
      else if (map.first + k) % 2 = 0 ∧ x = map.first + k + 1 then m x ||| highByte (mapEntry offset)
      else m x := by
  unfold writeEntry
  rw [pair_write hk]
  unfold pairAddr
  by_cases hodd : (map.first + k) % 2 ≠ 0
  · rw [if_pos hodd, if_pos hodd, lowByte_shiftLeft, highByte_shiftLeft]
    have hpair : map.first + k - 1 + 1 = map.first + k := by omega
    rw [hpair, if_neg (show ¬((map.first + k) % 2 = 0 ∧ x = map.first + k + 1) from fun h => hodd h.1)]
    by_cases hx : x = map.first + k
    · rw [if_neg (by omega), if_pos hx]
    · rw [if_neg hx, BitVec.or_zero, ite_self]
  · rw [if_neg hodd, if_neg hodd]
    simp only [show (map.first + k) % 2 = 0 by omega, true_and]

/-- The entry of an offset is the code of its logical block, with no bit beyond. -/
def Clean (offset : BitVec 16) : Prop := mapEntry offset = (entryCode (logicalBlock offset)).setWidth 16

theorem lowByte_setWidth (e : Byte) : lowByte (e.setWidth 16) = e := by
  unfold lowByte
  refine BitVec.eq_of_getLsbD_eq fun i hi => ?_
  simp [hi]

theorem highByte_setWidth (e : Byte) : highByte (e.setWidth 16) = 0#8 := by
  unfold highByte
  refine BitVec.eq_of_getLsbD_eq fun i hi => ?_
  simp [hi]

theorem shows_mark {offset : BitVec 16} (hclean : Clean offset) (h : Shows map m s) (hk : k < map.size) :
    Shows map (writeEntry map m k offset) (s.mark k (logicalBlock offset)) := by
  refine h.update_entry fun x => ?_
  rw [writeEntry_eq hk, hclean, lowByte_setWidth, highByte_setWidth, BitVec.or_zero, ite_self]
  split_ifs with hx
  · rw [hx, (h k hk).1]
  · rfl

theorem shiftRight_and_one {w : ℕ} (hw : 0 < w) (x : BitVec w) (i : ℕ) :
    x >>> i &&& 1#w = 0#w ↔ x.getLsbD i = false := by
  rw [BitVec.and_one_eq_setWidth_ofBool_getLsbD, BitVec.getLsbD_ushiftRight, Nat.add_zero]
  cases x.getLsbD i with
  | false => simp
  | true =>
    refine iff_of_false (fun h => ?_) (by simp)
    have := congrArg (BitVec.getLsbD · 0) h
    simp [hw] at this

theorem setFirstClear_low : ∀ (bits : List ℕ) (x : BitVec 16), (∀ i ∈ bits, i < 8) →
    lowByte (setFirstClear x bits) = setFirstClearByte (lowByte x) bits ∧ highByte (setFirstClear x bits) = highByte x
  | [], x, _ => ⟨rfl, rfl⟩
  | i :: bits, x, h => by
    have hi : i < 8 := h i List.mem_cons_self
    have hbit : (x >>> i &&& 1#16 = 0) ↔ (lowByte x >>> i &&& 1#8 = 0) := by
      refine (shiftRight_and_one (by decide) x i).trans (Iff.trans ?_ (shiftRight_and_one (by decide) (lowByte x) i).symm)
      simp [lowByte, hi]
    unfold setFirstClear setFirstClearByte
    by_cases hx : x >>> i &&& 1#16 = 0
    · rw [if_pos hx, if_pos (hbit.1 hx)]
      refine ⟨(lowByte_or _ _).trans (congrArg _ ?_), (highByte_or _ _).trans ?_⟩
      · unfold lowByte
        refine BitVec.eq_of_getLsbD_eq fun j hj => ?_
        simp [hj]
      · have hhigh : highByte (1#16 <<< i) = 0#8 := by
          unfold highByte
          refine BitVec.eq_of_getLsbD_eq fun j hj => ?_
          simp [hj]
          omega
        rw [hhigh, BitVec.or_zero]
    · rw [if_neg hx, if_neg fun h => hx (hbit.2 h)]
      exact setFirstClear_low bits x fun j hj => h j (List.mem_cons_of_mem _ hj)

theorem setFirstClear_high : ∀ (bits : List ℕ) (x : BitVec 16), (∀ i ∈ bits, i < 8) →
    highByte (setFirstClear x (bits.map (8 + ·))) = setFirstClearByte (highByte x) bits ∧
      lowByte (setFirstClear x (bits.map (8 + ·))) = lowByte x
  | [], x, _ => ⟨rfl, rfl⟩
  | i :: bits, x, h => by
    have hi : i < 8 := h i List.mem_cons_self
    have hbit : (x >>> (8 + i) &&& 1#16 = 0) ↔ (highByte x >>> i &&& 1#8 = 0) := by
      refine (shiftRight_and_one (by decide) x _).trans
        (Iff.trans ?_ (shiftRight_and_one (by decide) (highByte x) i).symm)
      simp [highByte, hi]
    rw [List.map_cons]
    unfold setFirstClear setFirstClearByte
    by_cases hx : x >>> (8 + i) &&& 1#16 = 0
    · rw [if_pos hx, if_pos (hbit.1 hx)]
      refine ⟨(highByte_or _ _).trans (congrArg _ ?_), (lowByte_or _ _).trans ?_⟩
      · unfold highByte
        refine BitVec.eq_of_getLsbD_eq fun j hj => ?_
        simp [hj, show 8 + j < 16 by omega, show 8 + j - (8 + i) = j - i by omega]
      · have hlow : lowByte (1#16 <<< (8 + i)) = 0#8 := by
          unfold lowByte
          refine BitVec.eq_of_getLsbD_eq fun j hj => ?_
          simp [hj]
        rw [hlow, BitVec.or_zero]
    · rw [if_neg hx, if_neg fun h => hx (hbit.2 h)]
      exact setFirstClear_high bits x fun j hj => h j (List.mem_cons_of_mem _ hj)

theorem shows_spoil {L : BitVec 6} (h : Shows map m s) (hk : k < map.size) (hcode : s.entry k = entryCode L) :
    Shows map (invalidateEntry map m k) (s.spoil k) := by
  have haddr := map.addr_le hk
  have hinside := map.inside
  have hm : m (map.first + k) = entryCode L := (h k hk).1.trans hcode
  refine h.update_entry fun x => ?_
  rw [hcode]
  unfold invalidateEntry
  have hpair : pairAddr (map.first + k) < 1024 := by
    unfold pairAddr
    split_ifs <;> omega
  rw [pair_write hk, eFusePhysicalReadRegisters_eq (pairAddr_even _) hpair]
  unfold pairAddr
  by_cases hodd : (map.first + k) % 2 ≠ 0
  · have heq : map.first + k - 1 + 1 = map.first + k := by omega
    obtain ⟨hhigh, hlow⟩ := setFirstClear_high [0, 1, 2, 3, 4, 5, 6] (word m (map.first + k - 1)) (by decide)
    rw [highByte_word, heq, hm] at hhigh
    rw [lowByte_word] at hlow
    rw [if_pos hodd, if_pos hodd, heq]
    change (if x = map.first + k - 1 then
        m x ||| lowByte (setFirstClear _ ([0, 1, 2, 3, 4, 5, 6].map (8 + ·))) else
      if x = map.first + k then m x ||| highByte (setFirstClear _ ([0, 1, 2, 3, 4, 5, 6].map (8 + ·))) else m x) = _
    rw [hhigh, hlow]
    split_ifs with h₁ h₂ h₂
    · omega
    · rw [h₁, BitVec.or_self]
    · rw [h₂, hm]
      exact or_spoiled L
    · rfl
  · obtain ⟨hlow, hhigh⟩ := setFirstClear_low [0, 1, 2, 3, 4, 5, 6, 7] (word m (map.first + k)) (by decide)
    rw [lowByte_word, hm, setFirstClearByte_entryCode] at hlow
    rw [highByte_word] at hhigh
    rw [if_neg hodd, if_neg hodd, hlow, hhigh]
    split_ifs with h₁ h₂
    · rw [h₁, hm]
      exact or_spoiled L
    · rw [h₂, BitVec.or_self]
    · rfl

/-! ### The search -/

theorem and_byte_eq_zero (x : BitVec 16) : x &&& 0xff = 0 ↔ lowByte x = 0 := by
  have hmask : x &&& 0xff = (lowByte x).setWidth 16 := by
    unfold lowByte
    refine BitVec.eq_of_getLsbD_eq fun i hi => ?_
    have hff : 0xff#16 = (BitVec.allOnes 8).setWidth 16 := rfl
    change (x &&& 0xff#16).getLsbD i = _
    rw [hff, BitVec.getLsbD_and]
    simp only [BitVec.getLsbD_setWidth, BitVec.getLsbD_allOnes]
    simp [hi, Bool.and_comm]
  rw [hmask]
  constructor
  · intro h
    rw [← lowByte_setWidth (lowByte x), h]
    rfl
  · intro h
    rw [h]
    rfl

theorem searchFrom_spec (map : UsageMap) (m : Content) (turns : ℕ)
    (hturns : map.endBlock + 2 * turns ≤ map.startBlock + 2) :
    (∀ k, searchFrom map m turns = some k → k < map.size ∧ map.first + k < map.endBlock + 2 * turns ∧
      m (map.first + k) = 0 ∧ ∀ j < map.size, k < j → map.first + j < map.endBlock + 2 * turns → m (map.first + j) ≠ 0) ∧
    (searchFrom map m turns = none →
      ∀ j < map.size, map.first + j < map.endBlock + 2 * turns → m (map.first + j) ≠ 0) := by
  have hstart : map.startBlock ≤ map.last ∧ map.last ≤ map.startBlock + 1 ∧ map.startBlock % 2 = 0 := by
    unfold UsageMap.startBlock
    split_ifs <;> omega
  have hend : map.endBlock ≤ map.first ∧ map.first ≤ map.endBlock + 1 ∧ map.endBlock % 2 = 0 := by
    unfold UsageMap.endBlock
    split_ifs <;> omega
  have hinside := map.inside
  have hthree := map.three
  have hinFront := map.size_le
  have hsize : map.size = map.last + 1 - map.first := rfl
  induction turns with
  | zero => exact ⟨fun k hk => absurd hk (by simp [searchFrom]), fun _ j _ hj => by omega⟩
  | succ turns ih =>
    obtain ⟨ihs, ihn⟩ := ih (by omega)
    have hread := eFusePhysicalReadRegisters_eq (m := m) (a := map.endBlock + 2 * turns) (by omega) (by omega)
    have hhigh : (eFusePhysicalReadRegisters m (map.endBlock + 2 * turns) >>> 8) &&& 0xff = 0 ↔
        m (map.endBlock + 2 * turns + 1) = 0 := by
      rw [hread, and_byte_eq_zero]
      exact iff_of_eq (congrArg (· = 0) (highByte_word m _))
    have hlow : eFusePhysicalReadRegisters m (map.endBlock + 2 * turns) &&& 0xff = 0 ↔
        m (map.endBlock + 2 * turns) = 0 := by
      rw [hread, and_byte_eq_zero, lowByte_word]
    unfold searchFrom
    dsimp only
    simp only [hhigh, hlow]
    generalize hi : map.endBlock + 2 * turns = i at *
    have hbound : map.endBlock + 2 * (turns + 1) = i + 2 := by omega
    rw [hbound] at hturns ⊢
    by_cases h₁ : m (i + 1) = 0 ∧ i ≠ map.last
    · rw [if_pos h₁]
      refine ⟨fun k hk => ?_, fun h => absurd h (by simp)⟩
      obtain rfl := Option.some.inj hk
      have haddr : map.first + (i + 1 - map.first) = i + 1 := by omega
      rw [haddr]
      exact ⟨by omega, by omega, h₁.1, fun j hj hlt hle => by omega⟩
    · rw [if_neg h₁]
      have hhi : ∀ j < map.size, map.first + j = i + 1 → m (map.first + j) ≠ 0 := by
        intro j hj he hz
        refine h₁ ⟨he ▸ hz, ?_⟩
        omega
      by_cases h₂ : m i = 0 ∧ i ≠ map.first - 1
      · rw [if_pos h₂]
        refine ⟨fun k hk => ?_, fun h => absurd h (by simp)⟩
        obtain rfl := Option.some.inj hk
        have haddr : map.first + (i - map.first) = i := by omega
        rw [haddr]
        exact ⟨by omega, by omega, h₂.1, fun j hj hlt hle => hhi j hj (by omega)⟩
      · rw [if_neg h₂]
        have hlo : ∀ j < map.size, map.first + j = i → m (map.first + j) ≠ 0 := by
          intro j hj he hz
          refine h₂ ⟨he ▸ hz, ?_⟩
          omega
        refine ⟨fun k hk => ?_, fun hnone j hj hlt => ?_⟩
        · obtain ⟨hkn, hlt, hz, hmax⟩ := ihs k hk
          refine ⟨hkn, by omega, hz, fun j hj hkj hlt' => ?_⟩
          by_cases he₁ : map.first + j = i + 1
          · exact hhi j hj he₁
          · by_cases he₂ : map.first + j = i
            · exact hlo j hj he₂
            · exact hmax j hj hkj (by omega)
        · by_cases he₁ : map.first + j = i + 1
          · exact hhi j hj he₁
          · by_cases he₂ : map.first + j = i
            · exact hlo j hj he₂
            · exact ihn hnone j hj (by omega)

theorem Shows.findFree (h : Shows map m s) : findFree map m = (s.free map.size).head? := by
  have hstart : map.startBlock ≤ map.last ∧ map.last ≤ map.startBlock + 1 ∧ map.startBlock % 2 = 0 := by
    unfold UsageMap.startBlock
    split_ifs <;> omega
  have hend : map.endBlock ≤ map.first ∧ map.first ≤ map.endBlock + 1 ∧ map.endBlock % 2 = 0 := by
    unfold UsageMap.endBlock
    split_ifs <;> omega
  have hthree := map.three
  have hsize : map.size = map.last + 1 - map.first := rfl
  obtain ⟨hsome, hnone⟩ := searchFrom_spec map m ((map.startBlock - map.endBlock) / 2 + 1) (by omega)
  have hbelow : ∀ j < map.size, map.first + j < map.endBlock + 2 * ((map.startBlock - map.endBlock) / 2 + 1) := by
    intro j hj
    omega
  cases hfind : searchFrom map m ((map.startBlock - map.endBlock) / 2 + 1) with
  | none =>
    have hempty : s.free map.size = [] := by
      refine List.eq_nil_iff_forall_not_mem.2 fun j hj => ?_
      obtain ⟨hjn, hz⟩ := Store.mem_free.1 hj
      exact hnone hfind j hjn (hbelow j hjn) ((h j hjn).1.trans hz)
    rw [hempty]
    exact hfind
  | some k =>
    obtain ⟨hkn, -, hz, hmax⟩ := hsome k hfind
    have hmem : k ∈ s.free map.size := Store.mem_free.2 ⟨hkn, (h k hkn).1.symm.trans hz⟩
    refine hfind.trans ?_
    cases hfree : s.free map.size with
    | nil =>
      rw [hfree] at hmem
      exact absurd hmem List.not_mem_nil
    | cons j rest =>
      obtain ⟨hjn, hj⟩ := Store.mem_free.1 (hfree ▸ List.mem_cons_self : j ∈ s.free map.size)
      have hsorted := Store.pairwise_free (n := map.size) (s := s)
      rw [hfree] at hmem hsorted
      rcases List.mem_cons.1 hmem with rfl | hrest
      · rfl
      · have hlt := (List.pairwise_cons.1 hsorted).1 k hrest
        exact absurd ((h j hjn).1.trans hj) (hmax j hjn hlt (hbelow j hjn))

/-! ### Reading and writing the store -/

theorem Shows.served {L : BitVec 6} (h : Shows map m s) : served map m L = s.served map.size L := by
  unfold Efuse.served Store.served
  refine List.find?_congr fun k hk => ?_
  rw [(h k (List.mem_range.1 hk)).1]

theorem toNat_logicalBlock (offset : BitVec 16) : (logicalBlock offset).toNat = offset.toNat / 16 % 64 := by
  unfold logicalBlock
  rw [BitVec.toNat_setWidth, BitVec.toNat_ushiftRight, Nat.shiftRight_eq_div_pow]

theorem val_wordOf (offset : BitVec 16) : (wordOf offset).1 = offset.toNat / 2 % 8 := by
  unfold wordOf
  dsimp only
  rw [BitVec.toNat_ushiftRight, Nat.shiftRight_eq_div_pow]

theorem Shows.eFuseReadRegisters (h : Shows map m s) {offset : BitVec 16} (heven : offset.toNat % 2 = 0) :
    (eFuseReadRegisters map m offset).2 = s.read map.size (logicalBlock offset) (wordOf offset) ∧
      ((eFuseReadRegisters map m offset).1 = 0x3f ↔ s.served map.size (logicalBlock offset) = none) := by
  unfold Store.read
  cases hk : s.served map.size (logicalBlock offset) with
  | none =>
    have hread : Efuse.eFuseReadRegisters map m offset = (0x3f, 0xffff) := by
      unfold Efuse.eFuseReadRegisters
      rw [h.served, hk]
    rw [hread]
    exact ⟨rfl, iff_of_true rfl rfl⟩
  | some k =>
    have hkn := (Store.served_eq_some.1 hk).1
    have hsize := map.size_le
    have hfirst := map.first_lt
    rw [eFuseReadRegisters_of_served heven (h.served.trans hk)]
    refine ⟨?_, iff_of_false (by dsimp only; omega) (by simp)⟩
    have hword := (h k hkn).2 (wordOf offset)
    rw [val_wordOf] at hword
    refine Eq.trans (congrArg (word m) ?_) hword
    omega

theorem Shows.writeRounds {offset v : BitVec 16} {b : Fin 8 → BitVec 16} (hclean : Clean offset) (r : ℕ) {first : Bool}
    (h : Shows map m s) (hk : k < map.size) (hown : s.Own (logicalBlock offset) k) :
    (writeRounds map offset v b r first k m).1 =
        (Store.rounds map.size (logicalBlock offset) (hit offset.toNat) v b r first k s).1 ∧
      Shows map (writeRounds map offset v b r first k m).2
        (Store.rounds map.size (logicalBlock offset) (hit offset.toNat) v b r first k s).2 := by
  induction r generalizing first k m s with
  | zero => exact ⟨rfl, h⟩
  | succ r ih =>
    unfold Efuse.writeRounds Store.rounds
    dsimp only
    generalize hm₁ : (if first then eFusePhysicalWriteRegisters m (k * 0x10 + offset.toNat % 16) v
      else writeBlock m k b) = m₁
    generalize hs₁ : (if first then s.burn k (hit offset.toNat) v else s.fill k b) = s₁
    have hshows : Shows map m₁ s₁ := by
      rw [← hm₁, ← hs₁]
      split_ifs
      · have hhit : hit offset.toNat = hit (offset.toNat % 16) := by
          unfold hit
          refine Fin.ext ?_
          dsimp only
          rw [Nat.mod_mod, Nat.mod_mod_of_dvd _ (by decide)]
        rw [hhit]
        exact shows_burn v h hk (Nat.mod_lt _ (by decide))
      · exact shows_fill b h hk
    have hown₁ : s₁.Own (logicalBlock offset) k := by
      have hentry : s₁.entry = s.entry := by
        rw [← hs₁]
        split_ifs <;> rfl
      unfold Store.Own
      rw [hentry]
      exact hown
    have hmarked := shows_mark hclean hshows hk
    have hcode : (s₁.mark k (logicalBlock offset)).entry k = entryCode (logicalBlock offset) := by
      rw [Store.entry_mark hown₁, Function.update_self]
    rw [hmarked.readBlock hk, hmarked.findFree]
    by_cases hgood : ∀ i, (s₁.mark k (logicalBlock offset)).block k i = b i
    · rw [if_pos hgood, if_pos hgood]
      exact ⟨rfl, hmarked⟩
    · rw [if_neg hgood, if_neg hgood]
      cases hfree : ((s₁.mark k (logicalBlock offset)).free map.size).head? with
      | none => exact ⟨rfl, hmarked⟩
      | some new =>
        obtain ⟨hnewn, hnew⟩ := Store.mem_free.1 (List.mem_of_head? hfree)
        have hne : new ≠ k := by
          rintro rfl
          exact entryCode_ne_zero _ (hcode.symm.trans hnew)
        exact ih (shows_spoil hmarked hk hcode) hnewn (Or.inl ((Function.update_of_ne hne _ _).trans hnew))

theorem toNat_and_even (offset : BitVec 16) : (offset &&& 0xfffe).toNat = offset.toNat / 2 * 2 := by
  have heven : offset &&& 0xfffe#16 = (offset >>> 1) <<< 1 := by
    have hmask : 0xfffe#16 = BitVec.allOnes 16 <<< 1 := rfl
    refine BitVec.eq_of_getLsbD_eq fun i hi => ?_
    rw [hmask, BitVec.getLsbD_and, BitVec.getLsbD_shiftLeft, BitVec.getLsbD_allOnes, BitVec.getLsbD_shiftLeft,
      BitVec.getLsbD_ushiftRight]
    rcases Nat.eq_zero_or_pos i with rfl | hpos
    · simp
    · simp [hi, show 1 + (i - 1) = i by omega, show i - 1 < 16 by omega, Nat.ne_of_gt hpos]
  have hlt := offset.isLt
  change (offset &&& 0xfffe#16).toNat = _
  rw [heven, BitVec.toNat_shiftLeft, BitVec.toNat_ushiftRight, Nat.shiftRight_eq_div_pow, Nat.shiftLeft_eq]
  omega

theorem logicalBlock_and_even (offset : BitVec 16) : logicalBlock (offset &&& 0xfffe) = logicalBlock offset := by
  refine BitVec.eq_of_toNat_eq ?_
  rw [toNat_logicalBlock, toNat_logicalBlock, toNat_and_even]
  omega

theorem shows_write {offset : BitVec 16} (hclean : Clean offset) (v : BitVec 16) (h : Shows map m s) :
    (eFuseWriteRegisters map m offset v).1 =
        (s.write map.size (logicalBlock offset) (wordOf offset) (hit offset.toNat) v).1 ∧
      Shows map (eFuseWriteRegisters map m offset v).2
        (s.write map.size (logicalBlock offset) (wordOf offset) (hit offset.toNat) v).2 := by
  have hmask : (offset &&& 0xfffe).toNat = offset.toNat / 2 * 2 := toNat_and_even offset
  have hblock := logicalBlock_and_even offset
  have heven : (offset &&& 0xfffe).toNat % 2 = 0 := by omega
  have haout := (h.eFuseReadRegisters heven).2
  rw [hblock] at haout
  have htried : (if (eFuseReadRegisters map m (offset &&& 0xfffe)).1 = 0x3f then findFree map m
      else some (eFuseReadRegisters map m (offset &&& 0xfffe)).1) =
      (s.served map.size (logicalBlock offset)).or (s.free map.size).head? := by
    cases hk : s.served map.size (logicalBlock offset) with
    | none => rw [if_pos (haout.2 hk), h.findFree, Option.none_or]
    | some k =>
      have hserved : served map m (logicalBlock (offset &&& 0xfffe)) = some k := by
        rw [hblock, h.served, hk]
      have hne : (eFuseReadRegisters map m (offset &&& 0xfffe)).1 ≠ 0x3f := by
        intro hc
        rw [haout.1 hc] at hk
        exact absurd hk (by simp)
      rw [if_neg hne, Option.some_or, eFuseReadRegisters_of_served (by omega) hserved]
  unfold eFuseWriteRegisters Store.write
  dsimp only
  rw [htried]
  cases hk : (s.served map.size (logicalBlock offset)).or (s.free map.size).head? with
  | none => exact ⟨rfl, h⟩
  | some k =>
    obtain ⟨hown, hkn⟩ := Store.own_of_tried hk
    dsimp only
    rw [h.readBlock hkn]
    exact h.writeRounds hclean 2 hkn hown

/-! ### When a write is well -/

def OneEntry (map : UsageMap) (m : Content) : Prop :=
  ∀ L : BitVec 6, ∀ j < map.size, ∀ k < map.size,
    m (map.first + j) = entryCode L → m (map.first + k) = entryCode L → j = k

def SameWord (o o' : BitVec 16) : Prop := o.toNat % 1024 / 2 = o'.toNat % 1024 / 2

/-- What `eFuseWriteRegisters` should do. When it succeeds, the word reads as `v`, every other word that a block
served reads as before, and no logical block has two entries; when it fails, every word reads as before. -/
structure WriteKeeps (map : UsageMap) (m : Content) (offset v : BitVec 16) : Prop where
  written : (eFuseWriteRegisters map m offset v).1 = true →
    (eFuseReadRegisters map (eFuseWriteRegisters map m offset v).2 (offset &&& 0xfffe)).2 = v
  kept : (eFuseWriteRegisters map m offset v).1 = true → ∀ o : BitVec 16, o.toNat % 2 = 0 → ¬SameWord o offset →
    (eFuseReadRegisters map m o).1 ≠ 0x3f →
      (eFuseReadRegisters map (eFuseWriteRegisters map m offset v).2 o).2 = (eFuseReadRegisters map m o).2
  once : (eFuseWriteRegisters map m offset v).1 = true → OneEntry map (eFuseWriteRegisters map m offset v).2
  failed : (eFuseWriteRegisters map m offset v).1 = false → ∀ o : BitVec 16, o.toNat % 2 = 0 →
    (eFuseReadRegisters map (eFuseWriteRegisters map m offset v).2 o).2 = (eFuseReadRegisters map m o).2

def WritesWell (map : UsageMap) (m : Content) (offset v : BitVec 16) : Prop :=
  (shown map m).WritesWell map.size (logicalBlock offset) (wordOf offset) (hit offset.toNat) v

theorem Shows.oneEntry (h : Shows map m s) : OneEntry map m ↔ s.AtMostOne map.size := by
  unfold OneEntry Store.AtMostOne
  refine forall_congr' fun L => forall₂_congr fun j hj => forall₂_congr fun k hk => ?_
  rw [(h j hj).1, (h k hk).1]

def offsetOf (L : BitVec 6) (i : Fin 8) : BitVec 16 := BitVec.ofNat 16 (16 * L.toNat + 2 * i.1)

theorem toNat_offsetOf (L : BitVec 6) (i : Fin 8) : (offsetOf L i).toNat = 16 * L.toNat + 2 * i.1 := by
  have := L.isLt
  have := i.isLt
  unfold offsetOf
  rw [BitVec.toNat_ofNat]
  omega

theorem logicalBlock_offsetOf (L : BitVec 6) (i : Fin 8) : logicalBlock (offsetOf L i) = L := by
  have := L.isLt
  have := i.isLt
  refine BitVec.eq_of_toNat_eq ?_
  rw [toNat_logicalBlock, toNat_offsetOf]
  omega

theorem wordOf_offsetOf (L : BitVec 6) (i : Fin 8) : wordOf (offsetOf L i) = i := by
  have := i.isLt
  refine Fin.ext ?_
  rw [val_wordOf, toNat_offsetOf]
  omega

theorem sameWord_iff (o o' : BitVec 16) :
    SameWord o o' ↔ (logicalBlock o, wordOf o) = (logicalBlock o', wordOf o') := by
  unfold SameWord
  rw [Prod.mk.injEq, ← BitVec.toNat_inj, Fin.ext_iff, toNat_logicalBlock, toNat_logicalBlock, val_wordOf, val_wordOf]
  omega

theorem wordOf_and_even (offset : BitVec 16) : wordOf (offset &&& 0xfffe) = wordOf offset := by
  refine Fin.ext ?_
  rw [val_wordOf, val_wordOf, toNat_and_even]
  omega

theorem Shows.writeKeeps_iff (h : Shows map m s) {offset v : BitVec 16} (hclean : Clean offset) :
    WriteKeeps map m offset v ↔ Store.Keeps map.size s (logicalBlock offset) (wordOf offset) v
      (s.write map.size (logicalBlock offset) (wordOf offset) (hit offset.toNat) v) := by
  obtain ⟨hret, h'⟩ := shows_write hclean v h
  have hread : ∀ o : BitVec 16, o.toNat % 2 = 0 → _ := fun o ho => (h.eFuseReadRegisters ho).1
  have hserved : ∀ o : BitVec 16, o.toNat % 2 = 0 → _ := fun o ho => (h.eFuseReadRegisters ho).2
  have hread' : ∀ o : BitVec 16, o.toNat % 2 = 0 → _ := fun o ho => (h'.eFuseReadRegisters ho).1
  have heven : (offset &&& 0xfffe).toNat % 2 = 0 := by
    rw [toNat_and_even]
    omega
  have hoffset : ∀ L i, (offsetOf L i).toNat % 2 = 0 := by
    intro L i
    rw [toNat_offsetOf]
    omega
  have hword := hread' _ heven
  rw [logicalBlock_and_even, wordOf_and_even] at hword
  constructor
  · intro hk
    refine ⟨fun hr => hword.symm.trans (hk.written (hret.trans hr)), fun hr L i hne hm => ?_,
      fun hr => h'.oneEntry.1 (hk.once (hret.trans hr)), fun hr L i => ?_⟩
    · have := hk.kept (hret.trans hr) (offsetOf L i) (hoffset L i)
        (by rwa [sameWord_iff, logicalBlock_offsetOf, wordOf_offsetOf])
        (by rwa [Ne, hserved _ (hoffset L i), logicalBlock_offsetOf])
      rwa [hread' _ (hoffset L i), hread _ (hoffset L i), logicalBlock_offsetOf, wordOf_offsetOf] at this
    · have := hk.failed (hret.trans hr) (offsetOf L i) (hoffset L i)
      rwa [hread' _ (hoffset L i), hread _ (hoffset L i), logicalBlock_offsetOf, wordOf_offsetOf] at this
  · intro hk
    refine ⟨fun hr => hword.trans (hk.written (hret.symm.trans hr)), fun hr o ho hne hm => ?_,
      fun hr => h'.oneEntry.2 (hk.once (hret.symm.trans hr)), fun hr o ho => ?_⟩
    · rw [hread' o ho, hread o ho]
      exact hk.kept (hret.symm.trans hr) _ _ (fun he => hne ((sameWord_iff o offset).2 he))
        fun he => hm ((hserved o ho).2 he)
    · rw [hread' o ho, hread o ho]
      exact hk.failed (hret.symm.trans hr) _ _

/-! ### Offsets with bits beyond the block number -/

theorem shiftRight_and_one_congr {t t' : BitVec 16} {i : ℕ} (h : t.getLsbD i = t'.getLsbD i) :
    t >>> i &&& 1#16 = t' >>> i &&& 1#16 := by
  rw [BitVec.and_one_eq_setWidth_ofBool_getLsbD, BitVec.and_one_eq_setWidth_ofBool_getLsbD,
    BitVec.getLsbD_ushiftRight, BitVec.getLsbD_ushiftRight, Nat.add_zero, h]

theorem parity_congr {t t' : BitVec 16} (h : ∀ i < 6, t.getLsbD i = t'.getLsbD i) :
    parityLow t = parityLow t' ∧ parityHigh t = parityHigh t' := by
  have h0 : t &&& 1#16 = t' &&& 1#16 := by simpa using shiftRight_and_one_congr (h 0 (by decide))
  have h1 := shiftRight_and_one_congr (h 1 (by decide))
  have h2 := shiftRight_and_one_congr (h 2 (by decide))
  have h3 := shiftRight_and_one_congr (h 3 (by decide))
  have h4 := shiftRight_and_one_congr (h 4 (by decide))
  have h5 := shiftRight_and_one_congr (h 5 (by decide))
  unfold parityLow parityHigh
  rw [h0, h1, h2, h3, h4, h5]
  exact ⟨rfl, rfl⟩

def parity (L : BitVec 6) : BitVec 16 := parityLow (L.setWidth 16) ||| parityHigh (L.setWidth 16)

theorem parity_bits : ∀ L : BitVec 6, highByte (parity L) = 0#8 ∧ (parity L).setWidth 6 = 0#6 := by
  decide

theorem getLsbD_parityLow (t : BitVec 16) {i : ℕ} (hi : i < 6) : (parityLow t).getLsbD i = false := by
  have hbit : (0x40#16).getLsbD i = false := by
    have h : ∀ j : Fin 6, (0x40#16).getLsbD j.1 = false := by decide
    exact h ⟨i, hi⟩
  unfold parityLow
  rw [BitVec.getLsbD_and, hbit, Bool.and_false]

/-- **The entry of an offset** is its block number with the parity of its low six bits. -/
theorem mapEntry_eq (offset : BitVec 16) : mapEntry offset = offset >>> 4 ||| parity (logicalBlock offset) := by
  have hlow : ∀ i < 6, (offset >>> 4).getLsbD i = ((logicalBlock offset).setWidth 16).getLsbD i := by
    intro i hi
    unfold logicalBlock
    simp [hi, show i < 16 by omega]
  have hhigh : ∀ i < 6, (offset >>> 4 ||| parityLow (offset >>> 4)).getLsbD i =
      ((logicalBlock offset).setWidth 16).getLsbD i := by
    intro i hi
    rw [BitVec.getLsbD_or, getLsbD_parityLow _ hi, Bool.or_false, hlow i hi]
  unfold mapEntry parity
  dsimp only
  rw [(parity_congr hhigh).2, (parity_congr hlow).1, BitVec.or_assoc]

theorem entryCode_eq (L : BitVec 6) : entryCode L = lowByte (L.setWidth 16 ||| parity L) := by
  have hshift : (L.setWidth 16 <<< 4) >>> 4 = L.setWidth 16 := by
    refine BitVec.eq_of_toNat_eq ?_
    have := L.isLt
    rw [BitVec.toNat_ushiftRight, BitVec.toNat_shiftLeft, BitVec.toNat_setWidth, Nat.shiftRight_eq_div_pow,
      Nat.shiftLeft_eq]
    omega
  have hL : logicalBlock (L.setWidth 16 <<< 4) = L := by
    unfold logicalBlock
    rw [hshift]
    simp
  unfold entryCode
  rw [mapEntry_eq, hL, hshift]
  rfl

theorem lowByte_mapEntry (offset : BitVec 16) :
    (lowByte (mapEntry offset)).setWidth 6 = logicalBlock offset ∧
      entryCode (logicalBlock offset) ||| lowByte (mapEntry offset) = lowByte (mapEntry offset) := by
  constructor
  · have hpar := (parity_bits (logicalBlock offset)).2
    rw [mapEntry_eq]
    refine BitVec.eq_of_getLsbD_eq fun i hi => ?_
    have hbit := congrArg (BitVec.getLsbD · i) hpar
    simp only [BitVec.getLsbD_setWidth, hi, decide_true, Bool.true_and, BitVec.getLsbD_zero] at hbit
    unfold lowByte
    rw [BitVec.getLsbD_setWidth, BitVec.getLsbD_setWidth, BitVec.getLsbD_or, hbit]
    unfold logicalBlock
    simp [hi, show i < 8 by omega]
  · have hmerge : (logicalBlock offset).setWidth 16 ||| offset >>> 4 = offset >>> 4 := by
      unfold logicalBlock
      refine BitVec.eq_of_getLsbD_eq fun i hi => ?_
      simp [hi]
    rw [entryCode_eq, mapEntry_eq, ← lowByte_or, BitVec.or_assoc, ← BitVec.or_assoc (parity _),
      BitVec.or_comm (parity _), BitVec.or_assoc, BitVec.or_self, ← BitVec.or_assoc, hmerge]

theorem highByte_mapEntry (offset : BitVec 16) : highByte (mapEntry offset) = (offset >>> 12).setWidth 8 := by
  rw [mapEntry_eq, highByte_or, (parity_bits _).1, BitVec.or_zero]
  unfold highByte
  rw [← BitVec.shiftRight_add]

theorem clean_of_lt {offset : BitVec 16} (h : offset.toNat < 1024) : Clean offset := by
  have hsame : offset >>> 4 = (logicalBlock offset).setWidth 16 := by
    refine BitVec.eq_of_toNat_eq ?_
    rw [BitVec.toNat_setWidth, toNat_logicalBlock, BitVec.toNat_ushiftRight, Nat.shiftRight_eq_div_pow]
    omega
  unfold Clean
  refine word_ext ?_ ?_
  · rw [lowByte_setWidth, entryCode_eq, mapEntry_eq, hsame]
  · rw [highByte_setWidth, highByte_mapEntry]
    refine BitVec.eq_of_toNat_eq ?_
    rw [BitVec.toNat_setWidth, BitVec.toNat_ushiftRight, Nat.shiftRight_eq_div_pow]
    simp
    omega

theorem dirty_entries {offset : BitVec 16} (h : ¬Clean offset) {L' : BitVec 6} (hL' : entryCode L' &&& 0x0f#8 = 0#8)
    (hne : L' ≠ logicalBlock offset) :
    entryCode (logicalBlock offset) ||| lowByte (mapEntry offset) ≠ entryCode L' ∧
      (entryCode L' ||| highByte (mapEntry offset) = entryCode L' →
        entryCode (logicalBlock offset) ||| lowByte (mapEntry offset) ≠ entryCode (logicalBlock offset)) := by
  obtain ⟨hsix, hmerge⟩ := lowByte_mapEntry offset
  refine ⟨fun he => hne ?_, fun hhigh hlow => h ?_⟩
  · rw [← setWidth_entryCode L', ← he, hmerge, hsix]
  · rw [hmerge] at hlow
    have hzero : highByte (mapEntry offset) = 0#8 := by
      rw [highByte_mapEntry] at hhigh ⊢
      refine BitVec.eq_of_getLsbD_eq fun i hi => ?_
      by_cases h4 : i < 4
      · have hmask : ∀ j : Fin 4, (0x0f#8).getLsbD j.1 = true := by decide
        have hcode := congrArg (BitVec.getLsbD · i) hL'
        have hbit := congrArg (BitVec.getLsbD · i) hhigh
        simp only [BitVec.getLsbD_and, hmask ⟨i, h4⟩, Bool.and_true, BitVec.getLsbD_zero] at hcode
        simp only [BitVec.getLsbD_or, hcode, Bool.false_or] at hbit
        rw [hbit, BitVec.getLsbD_zero]
      · rw [BitVec.getLsbD_setWidth, BitVec.getLsbD_ushiftRight, BitVec.getLsbD_of_ge _ _ (by omega), Bool.and_false,
          BitVec.getLsbD_zero]
    unfold Clean
    refine word_ext ?_ ?_
    · rw [lowByte_setWidth, hlow]
    · rw [highByte_setWidth, hzero]

def pairOf (map : UsageMap) (L L' : BitVec 6) : Content := fun x =>
  let a := map.first + map.first % 2
  if x = a then entryCode L else if x = a + 1 then entryCode L' else 0

theorem pairOf_entry {L L' : BitVec 6} (x : ℕ) (hx : pairOf map L L' x ≠ 0) :
    x = map.first + map.first % 2 ∧ pairOf map L L' x = entryCode L ∨
      x = map.first + map.first % 2 + 1 ∧ pairOf map L L' x = entryCode L' := by
  unfold pairOf at hx ⊢
  dsimp only at hx ⊢
  split_ifs at hx ⊢ with h₁ h₂
  · exact Or.inl ⟨h₁, rfl⟩
  · exact Or.inr ⟨h₂, rfl⟩
  · exact absurd rfl hx

theorem oneEntry_pairOf {L L' : BitVec 6} (hne : L' ≠ L) : OneEntry map (pairOf map L L') := by
  intro M j hj k hk hej hek
  have hcode := entryCode_ne_zero M
  rcases pairOf_entry _ (hej.trans_ne hcode) with ⟨haj, hj'⟩ | ⟨haj, hj'⟩
  · rcases pairOf_entry _ (hek.trans_ne hcode) with ⟨hak, -⟩ | ⟨-, hk'⟩
    · omega
    · exact absurd (entryCode_inj ((hk'.symm.trans hek).trans (hej.symm.trans hj'))) hne
  · rcases pairOf_entry _ (hek.trans_ne hcode) with ⟨-, hk'⟩ | ⟨hak, -⟩
    · exact absurd (entryCode_inj ((hj'.symm.trans hej).trans (hek.symm.trans hk'))) hne
    · omega

theorem pairOf_of_ne {L L' : BitVec 6} {x : ℕ} (hx : x ≠ map.first + map.first % 2)
    (hx' : x ≠ map.first + map.first % 2 + 1) : pairOf map L L' x = 0 := by
  by_contra h
  rcases pairOf_entry x h with ⟨he, -⟩ | ⟨he, -⟩
  · exact hx he
  · exact hx' he

theorem physicalWrite_zero (m : Content) (a : ℕ) : eFusePhysicalWriteRegisters m a 0 = m := by
  funext x
  rw [eFusePhysicalWriteRegisters_eq]
  split_ifs
  · exact BitVec.or_zero
  · exact BitVec.or_zero
  · rfl

theorem eFuseWriteRegisters_zero {offset : BitVec 16} (hk : served map m (logicalBlock offset) = some k)
    (hzero : ∀ x < map.first, m x = 0) :
    eFuseWriteRegisters map m offset 0 = (true, writeEntry map m k offset) := by
  have hkn := (Store.served_eq_some.1 ((shows_shown map m).served.symm.trans hk)).1
  have hsize := map.size_le
  have hfirst := map.first_lt
  have hblocks : ∀ m' : Content, (∀ x < map.first, m' x = 0) → ∀ i, readBlock m' k i = 0 := by
    intro m' hm' i
    have hi := i.isLt
    rw [(shows_shown map m').readBlock hkn]
    unfold shown word
    dsimp only
    rw [hm' _ (by omega), hm' _ (by omega)]
    rfl
  have hentry : ∀ x < map.first, writeEntry map m k offset x = 0 := by
    intro x hx
    rw [writeEntry_eq hkn, if_neg (by omega), if_neg (by omega), hzero x hx]
  unfold eFuseWriteRegisters
  rw [eFuseReadRegisters_of_served (by rw [toNat_and_even]; omega) (by rwa [logicalBlock_and_even])]
  dsimp only
  rw [if_neg (show k ≠ 0x3f by omega)]
  dsimp only
  unfold writeRounds
  dsimp only
  rw [if_pos rfl, physicalWrite_zero, if_pos]
  intro i
  rw [hblocks _ hentry]
  by_cases hi : i = wordOf offset
  · subst hi
    rw [Function.update_self]
  · rw [Function.update_of_ne hi, hblocks m hzero]

theorem not_writeKeeps_dirty (map : UsageMap) {offset : BitVec 16} (h : ¬Clean offset) :
    ∃ m, OneEntry map m ∧ ¬WriteKeeps map m offset 0 := by
  obtain ⟨L', hL', hne⟩ : ∃ L' : BitVec 6, entryCode L' &&& 0x0f#8 = 0#8 ∧ L' ≠ logicalBlock offset := by
    by_cases h0 : logicalBlock offset = 0
    · exact ⟨16, by decide, by rw [h0]; decide⟩
    · exact ⟨0, by decide, fun he => h0 he.symm⟩
  obtain ⟨hother, hown⟩ := dirty_entries h hL' hne
  generalize hL : logicalBlock offset = L at hne hother hown
  have hthree := map.three
  have hsize : map.size = map.last + 1 - map.first := rfl
  have hk : map.first % 2 < map.size := by omega
  have hk' : map.first % 2 + 1 < map.size := by omega
  have heven : (map.first + map.first % 2) % 2 = 0 := by omega
  have hfst : pairOf map L L' (map.first + map.first % 2) = entryCode L := if_pos rfl
  have hsnd : pairOf map L L' (map.first + map.first % 2 + 1) = entryCode L' := by
    unfold pairOf
    dsimp only
    rw [if_neg (by omega), if_pos rfl]
  refine ⟨pairOf map L L', oneEntry_pairOf hne, fun hkeeps => ?_⟩
  have hshown := shows_shown map (pairOf map L L')
  have hserved : served map (pairOf map L L') (logicalBlock offset) = some (map.first % 2) := by
    rw [hL, hshown.served]
    refine Store.served_eq_some.2 ⟨hk, hfst, fun j hj => ?_⟩
    exact ((pairOf_of_ne (by omega) (by omega)).trans_ne (entryCode_ne_zero L).symm)
  have hwrite := eFuseWriteRegisters_zero (m := pairOf map L L') hserved
    fun x hx => pairOf_of_ne (by omega) (by omega)
  have hafter := writeEntry_eq (m := pairOf map L L') hk offset
  have hshown' := shows_shown map (writeEntry map (pairOf map L L') (map.first % 2) offset)
  -- the entries after the write, away from the pair
  have hzero : ∀ (M : BitVec 6) (j : ℕ), j ≠ map.first % 2 → j ≠ map.first % 2 + 1 →
      writeEntry map (pairOf map L L') (map.first % 2) offset (map.first + j) ≠ entryCode M := by
    intro M j h₁ h₂
    rw [hafter, if_neg (by omega), if_neg (by omega), pairOf_of_ne (by omega) (by omega)]
    exact (entryCode_ne_zero M).symm
  have hentry : writeEntry map (pairOf map L L') (map.first % 2) offset (map.first + map.first % 2) =
      entryCode L ||| lowByte (mapEntry offset) := by
    rw [hafter, if_pos rfl, hfst]
  have hentry' : writeEntry map (pairOf map L L') (map.first % 2) offset (map.first + (map.first % 2 + 1)) =
      entryCode L' ||| highByte (mapEntry offset) := by
    rw [hafter, if_neg (by omega), if_pos ⟨heven, by omega⟩, ← Nat.add_assoc, hsnd]
  by_cases hhigh : entryCode L' ||| highByte (mapEntry offset) = entryCode L'
  · -- the block that was written is lost
    have hnone : ∀ j < map.size, (shown map (writeEntry map (pairOf map L L') (map.first % 2) offset)).entry j ≠
        entryCode L := by
      intro j _
      by_cases h₁ : j = map.first % 2
      · subst h₁
        exact hentry.trans_ne (hown hhigh)
      · by_cases h₂ : j = map.first % 2 + 1
        · subst h₂
          exact (hentry'.trans hhigh).trans_ne fun he => hne (entryCode_inj he)
        · exact hzero L j h₁ h₂
    have heven : (offset &&& 0xfffe).toNat % 2 = 0 := by
      rw [toNat_and_even]
      omega
    have hread := (hshown'.eFuseReadRegisters heven).1
    have hwritten := hkeeps.written (by rw [hwrite])
    rw [hwrite, hread, logicalBlock_and_even, hL, Store.read_of_none hnone] at hwritten
    exact absurd hwritten (by decide)
  · -- the block next to it is lost
    have hnone : ∀ j < map.size, (shown map (writeEntry map (pairOf map L L') (map.first % 2) offset)).entry j ≠
        entryCode L' := by
      intro j _
      by_cases h₁ : j = map.first % 2
      · subst h₁
        exact hentry.trans_ne hother
      · by_cases h₂ : j = map.first % 2 + 1
        · subst h₂
          exact hentry'.trans_ne hhigh
        · exact hzero L' j h₁ h₂
    have hoffset : (offsetOf L' 0).toNat % 2 = 0 := by
      rw [toNat_offsetOf]
      omega
    have hserved' : (shown map (pairOf map L L')).served map.size L' = some (map.first % 2 + 1) := by
      refine Store.served_eq_some.2 ⟨hk', hsnd, fun j hj => ?_⟩
      by_cases h₁ : j = map.first % 2
      · subst h₁
        exact hfst.trans_ne fun he => hne (entryCode_inj he).symm
      · exact ((pairOf_of_ne (by omega) (by omega)).trans_ne (entryCode_ne_zero L').symm)
    obtain ⟨hread, haout⟩ := hshown.eFuseReadRegisters hoffset
    have hread' := (hshown'.eFuseReadRegisters hoffset).1
    have hkept := hkeeps.kept (by rw [hwrite]) (offsetOf L' 0) hoffset
      (by
        rw [sameWord_iff, logicalBlock_offsetOf, hL]
        exact fun he => hne (Prod.mk.inj he).1)
      (by
        rw [Ne, haout, logicalBlock_offsetOf, hserved']
        simp)
    rw [hwrite, hread, hread', logicalBlock_offsetOf, wordOf_offsetOf, Store.read_of_none hnone] at hkept
    have hword : (shown map (pairOf map L L')).read map.size L' 0 = 0 := by
      unfold Store.read
      rw [hserved']
      have hsize' := map.size_le
      unfold shown word
      dsimp only
      rw [pairOf_of_ne (by omega) (by omega), pairOf_of_ne (by omega) (by omega)]
      rfl
    rw [hword] at hkept
    exact absurd hkept (by decide)

/-! ### The result -/

def contentAfter (map : UsageMap) (writes : List (BitVec 16 × BitVec 16)) : Content :=
  writes.foldl (fun m w => (eFuseWriteRegisters map m w.1 w.2).2) blank

theorem oneEntry_blank (map : UsageMap) : OneEntry map blank :=
  fun L _ _ _ _ he => absurd he.symm (entryCode_ne_zero L)

attribute [local instance] neZero_eight in
def lastWritten : Store := ((shown .mt76x0 blank).burn 28 0 1).mark 28 63

theorem shows_lastWritten : Shows .mt76x0 (contentAfter .mt76x0 [(0x3f0, 1)]) lastWritten := by
  have hclean : Clean 0x3f0 := clean_of_lt (by decide)
  have htried : ((shown .mt76x0 blank).served UsageMap.mt76x0.size (logicalBlock 0x3f0)).or
      ((shown .mt76x0 blank).free UsageMap.mt76x0.size).head? = some 28 := by decide
  have h := (shows_write hclean 1 (shows_shown .mt76x0 blank)).2
  rw [Store.write_eq htried (Or.inl rfl)] at h
  dsimp only at h
  rw [if_pos (by decide)] at h
  exact h

theorem lastWritten_entry {L : BitVec 6} : lastWritten.entry k = entryCode L → k = 28 := by
  intro he
  by_contra hne
  have hzero : lastWritten.entry k = 0 := Function.update_of_ne hne _ _
  exact entryCode_ne_zero L (he.symm.trans hzero)

end Mt7610u.Efuse
