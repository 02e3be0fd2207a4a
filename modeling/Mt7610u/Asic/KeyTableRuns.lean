import Mt7610u.Asic.KeyTables

/-! # Runs on the hardware tables

What each operation does to the tables by entry, and from it what any sequence does. -/

namespace Mt7610u.Asic

open Lib Lib.Runs

variable {m : WordMem}

/-! ### Shared keys -/

theorem cipherAlgField_eq (b : ℕ) (i : Fin 4) : cipherAlgField b i = 4 * (4 * (b % 2) + i) := by
  unfold cipherAlgField
  split_ifs <;> omega

/-- The address of the word that `AsicRemoveSharedKeyEntry` reads. -/
def readAddr (bss : ℕ) : ℕ :=
  if bss < 8 then 0xac00 + 4 * (bss / 2) else 0xb400 + 4 * ((bss - 8) / 2)

theorem asicAddSharedKeyEntry_eq (b : Fin 16) (i : Fin 4) (k : CipherKey) :
    asicAddSharedKeyEntry m b i k =
      (writeKeyMaterial m (sharedKeyAddr b i) k).writeWord (modeAddr b)
        (setField (writeKeyMaterial m (sharedKeyAddr b i) k (modeAddr b / 4)) (4 * (4 * (b % 2) + i))
          k.cipherAlg.mode) := by
  unfold asicAddSharedKeyEntry sharedKeyAddr modeAddr
  simp only [cipherAlgField_eq, hwKeyEntrySize, Cipher.mode]
  by_cases hb : (b : ℕ) < 8
  · simp only [show ¬ 8 ≤ (b : ℕ) by omega, if_pos hb, if_false, sharedKeyTableBase, sharedKeyModeBase]
    rw [show (4 * (b : ℕ) + i) * 0x20 = 32 * (4 * b + i) by omega]
  · simp only [show 8 ≤ (b : ℕ) by omega, if_neg hb, if_true, sharedKeyTableBaseExt, sharedKeyModeBaseExt]
    rw [show (4 * ((b : ℕ) - 8) + i) * 0x20 = 32 * (4 * (b - 8) + i) by omega,
      show ((b : ℕ) - 8) % 2 = b % 2 by omega]

theorem asicRemoveSharedKeyEntry_eq (b : Fin 16) (i : Fin 4) :
    asicRemoveSharedKeyEntry m b i =
      m.writeWord (modeAddr b) (setField (m (readAddr b / 4)) (4 * (4 * (b % 2) + i)) Cipher.none.mode) := by
  unfold asicRemoveSharedKeyEntry readAddr modeAddr
  simp only [cipherAlgField_eq]
  by_cases hb : (b : ℕ) < 8
  · simp only [show ¬ 8 ≤ (b : ℕ) by omega, if_pos hb, if_false, sharedKeyTableBase, sharedKeyModeBase]
    rfl
  · simp only [show 8 ≤ (b : ℕ) by omega, if_neg hb, if_true, sharedKeyTableBaseExt, sharedKeyModeBaseExt]
    rw [show ((b : ℕ) - 8) % 2 = b % 2 by omega]
    rfl

/-- The fields of the mode word other than that of the key `i` of the BSS `b` have in `w` the modes of the
tables. -/
def OthersAre (m : WordMem) (b : Fin 16) (i : Fin 4) (w : BitVec 32) : Prop :=
  ∀ (b' : Fin 16) (i' : Fin 4), (b' : ℕ) / 2 = b / 2 → ¬ (b' = b ∧ i' = i) →
    w.extractLsb' (4 * (4 * (b' % 2) + i')) 4 = (tables m).sharedMode b' i'

theorem othersAre_self (b : Fin 16) (i : Fin 4) : OthersAre m b i (m (modeAddr b / 4)) := by
  intro b' i' hb' _
  rw [← modeAddr_eq_iff.2 hb']
  rfl

/-- Writing one field into a word `w` and the word over the modes is writing one mode if the other fields of
`w` are the other modes. -/
theorem tables_writeField_iff (b : Fin 16) (i : Fin 4) (w : BitVec 32) (v : BitVec 4) :
    tables (m.writeWord (modeAddr b) (setField w (4 * (4 * (b % 2) + i)) v)) = (tables m).setMode b i v ↔
      OthersAre m b i w := by
  have hother {b' : Fin 16} {i' : Fin 4} (hb' : (b' : ℕ) / 2 = b / 2) (hne : ¬ (b' = b ∧ i' = i)) :
      (setField w (4 * (4 * (b % 2) + i)) v).extractLsb' (4 * (4 * (b' % 2) + i')) 4 =
        w.extractLsb' (4 * (4 * (b' % 2) + i')) 4 := by
    have hapart : ¬ ((b' : ℕ) = b ∧ (i' : ℕ) = i) := by rwa [Fin.val_inj, Fin.val_inj]
    exact extract_setField_of_disjoint (by omega) (by omega)
  have hmode {b' : Fin 16} {i' : Fin 4} (hne : ¬ (b' = b ∧ i' = i)) :
      ((tables m).setMode b i v).sharedMode b' i' = (tables m).sharedMode b' i' := by
    by_cases hb : b' = b
    · subst hb
      have hi : i' ≠ i := fun hi => hne ⟨rfl, hi⟩
      simp [Tables.setMode, Function.update_of_ne hi]
    · simp [Tables.setMode, Function.update_of_ne hb]
  rw [tables_writeMode]
  constructor
  · intro heq b' i' hb' hne
    have hfield := congrFun (congrFun (congrArg Tables.sharedMode heq) b') i'
    dsimp only at hfield
    rwa [if_pos hb', hother hb' hne, hmode hne] at hfield
  · intro hothers
    refine Tables.ext (funext fun b' => funext fun i' => ?_) rfl rfl rfl rfl rfl
    dsimp only
    by_cases hsame : b' = b ∧ i' = i
    · obtain ⟨rfl, rfl⟩ := hsame
      rw [if_pos rfl, extract_setField_self (by omega)]
      simp [Tables.setMode]
    · rw [hmode hsame]
      split_ifs with hb'
      · rw [hother hb' hsame, hothers b' i' hb' hsame]
      · rfl

theorem tables_addSharedKey (b : Fin 16) (i : Fin 4) (k : CipherKey) :
    tables (asicAddSharedKeyEntry m b i k) = (tables m).step (.addSharedKey b i k) := by
  rw [asicAddSharedKeyEntry_eq, (tables_writeField_iff b i _ _).2 (othersAre_self b i), tables_writeSharedKey]
  rfl

theorem tables_removeSharedKey_iff (b : Fin 16) (i : Fin 4) :
    tables (asicRemoveSharedKeyEntry m b i) = (tables m).step (.removeSharedKey b i) ↔
      OthersAre m b i (m (readAddr b / 4)) := by
  rw [asicRemoveSharedKeyEntry_eq]
  exact tables_writeField_iff b i _ _

/-! ### Stations -/

theorem tables_addPairwiseKey (w : Fin 256) (k : CipherKey) :
    tables (asicAddPairwiseKeyEntry m w k) = (tables m).step (.addPairwiseKey w k) := by
  unfold asicAddPairwiseKeyEntry pairwiseKeyTableBase hwKeyEntrySize
  rw [mul_comm (w : ℕ)]
  exact tables_writePairwiseKey w k

theorem attributeOf_wcidAttri (b : Fin 16) (c : Cipher) (t : KeyTab) :
    attributeOf (wcidAttri (BitVec.ofNat 8 b) c.toByte t.toBit) = attributeFor b c t := by
  refine HwWcidAttribute.ext ?_ ?_ ?_ ?_ ?_
  · cases t <;> cases c <;> revert b <;> decide
  · cases t <;> cases c <;> revert b <;> decide
  · cases t <;> cases c <;> revert b <;> decide
  · cases t <;> cases c <;> revert b <;> decide
  · cases t <;> cases c <;> revert b <;> decide

theorem tables_updateWcidAttribute (b : Fin 16) (c : Cipher) (w : Fin 256) (t : KeyTab) :
    tables (asicUpdateWcidAttributeEntry m (BitVec.ofNat 8 b) c.toByte w t.toBit) =
      (tables m).setAttribute w (attributeFor b c t) := by
  unfold asicUpdateWcidAttributeEntry Tables.setAttribute
  by_cases hw : w = 255
  · subst hw
    rfl
  · have hle : ¬ 254 < (w : ℕ) := by omega
    rw [if_neg hle, if_neg hw, ← attributeOf_wcidAttri]
    unfold macWcidAttributeBase hwWcidAttriSize
    rw [mul_comm (w : ℕ)]
    exact tables_writeAttribute w _

theorem extract_pack (x₀ x₁ x₂ x₃ : Byte) {w : BitVec 32}
    (hw : w = x₀.setWidth 32 + x₁.setWidth 32 <<< 8 + x₂.setWidth 32 <<< 16 + x₃.setWidth 32 <<< 24) :
    w.extractLsb' 0 8 = x₀ ∧ w.extractLsb' 8 8 = x₁ ∧ w.extractLsb' 16 8 = x₂ ∧ w.extractLsb' 24 8 = x₃ := by
  have h₀ := x₀.isLt
  have h₁ := x₁.isLt
  have h₂ := x₂.isLt
  have h₃ := x₃.isLt
  have hnat : w.toNat = x₀.toNat + x₁.toNat * 256 + x₂.toNat * 65536 + x₃.toNat * 16777216 := by
    rw [hw]
    simp only [BitVec.toNat_add, BitVec.toNat_shiftLeft, BitVec.toNat_setWidth, Nat.shiftLeft_eq]
    omega
  refine ⟨?_, ?_, ?_, ?_⟩ <;> apply BitVec.eq_of_toNat_eq <;>
    simp only [BitVec.extractLsb'_toNat, Nat.shiftRight_eq_div_pow] <;> omega

theorem wcidEntryOf_pack (a : Bytes 6) :
    wcidEntryOf
        ((a 0).setWidth 32 + (a 1).setWidth 32 <<< 8 + (a 2).setWidth 32 <<< 16 + (a 3).setWidth 32 <<< 24)
        ((a 4).setWidth 32 + (a 5).setWidth 32 <<< 8) = ⟨a, zeros 2⟩ := by
  obtain ⟨h₀, h₁, h₂, h₃⟩ := extract_pack (a 0) (a 1) (a 2) (a 3) rfl
  obtain ⟨h₄, h₅, h₆, h₇⟩ := extract_pack (a 4) (a 5) 0 0
    (w := (a 4).setWidth 32 + (a 5).setWidth 32 <<< 8) (by simp)
  refine HwWcidEntry.ext (funext fun j => ?_) (funext fun j => ?_)
  · match j with
    | 0 => exact h₀
    | 1 => exact h₁
    | 2 => exact h₂
    | 3 => exact h₃
    | 4 => exact h₄
    | 5 => exact h₅
  · match j with
    | 0 => exact h₆
    | 1 => exact h₇

theorem tables_updateRxWCID (w : Fin 256) (a : Bytes 6) :
    tables (asicUpdateRxWCIDTable m w a) = (tables m).step (.updateRxWCID w a) := by
  unfold asicUpdateRxWCIDTable macWcidBase hwWcidEntrySize
  rw [mul_comm (w : ℕ)]
  change tables (writeWcidEntry m w _ _) = _
  rw [tables_writeWcidEntry, wcidEntryOf_pack]
  rfl

theorem delWcidLoop_eq (m : WordMem) {cnt cntS cntE : ℕ} (hle : cntS ≤ cntE) :
    delWcidLoop m cnt cntS cntE = writeWcidEntry m cnt 0#32 0#32 := by
  have hclear (m : WordMem) : (m.writeWord (macWcidBase + cnt * hwWcidEntrySize) 0#32).writeWord
      (macWcidBase + cnt * hwWcidEntrySize + 4) 0#32 = writeWcidEntry m cnt 0#32 0#32 := by
    unfold writeWcidEntry macWcidBase hwWcidEntrySize
    rw [mul_comm cnt]
  induction hn : cntE - cntS generalizing m cntS with
  | zero =>
    rw [delWcidLoop, if_pos hle]
    dsimp only
    rw [delWcidLoop, if_neg (by omega), hclear]
  | succ n ih =>
    rw [delWcidLoop, if_pos hle]
    dsimp only
    rw [ih _ (by omega) (by omega), hclear]
    funext a
    unfold writeWcidEntry WordMem.writeWord
    simp only [Function.update_apply]
    split_ifs <;> rfl

theorem wcidEntryOf_zero : wcidEntryOf 0#32 0#32 = .empty := by
  refine HwWcidEntry.ext (funext fun j => ?_) (funext fun j => ?_)
  · simp [wcidEntryOf, HwWcidEntry.empty, zeros]
  · simp [wcidEntryOf, HwWcidEntry.empty, zeros]

theorem tables_delWcid (w : Fin 256) (hw : w ≠ 255) :
    tables (asicDelWcidTab m w) = (tables m).step (.delWcid w) := by
  have hall : (w : ℕ) ≠ wcidAll := fun hc => hw (Fin.ext hc)
  unfold asicDelWcidTab
  rw [if_neg hall, delWcidLoop_eq m le_rfl, tables_writeWcidEntry, wcidEntryOf_zero]
  simp only [Tables.step, if_neg hw]

theorem tables_delWcidAll_iff :
    tables (asicDelWcidTab m (255 : Fin 256)) = (tables m).step (.delWcid 255) ↔
      ∀ v : Fin 256, v ≠ 0 → v ≠ 255 → (tables m).wcid v = .empty := by
  have hcode : tables (asicDelWcidTab m (255 : Fin 256)) =
      { tables m with wcid := Function.update (tables m).wcid 0 .empty } := by
    have hloop := tables_writeWcidEntry (m := m) 0 0#32 0#32
    rw [wcidEntryOf_zero] at hloop
    rw [← hloop]
    exact congrArg tables (delWcidLoop_eq m (by decide))
  rw [hcode]
  simp only [Tables.step, if_true]
  constructor
  · intro heq v h₀ h₁
    have hv := congrFun (congrArg Tables.wcid heq) v
    dsimp only at hv
    rwa [Function.update_of_ne h₀, if_neg h₁] at hv
  · intro hempty
    refine Tables.ext rfl rfl rfl rfl (funext fun v => ?_) rfl
    dsimp only
    by_cases h₀ : v = 0
    · subst h₀
      rfl
    · rw [Function.update_of_ne h₀]
      split_ifs with h₁
      · rfl
      · exact hempty v h₀ h₁

/-! ### Sequences -/

attribute [local instance] neZero_256 in
def Meets (m : WordMem) : Op → Prop
  | .removeSharedKey b i => OthersAre m b i (m (readAddr b / 4))
  | .delWcid w => w = 255 → ∀ v : Fin 256, v ≠ 0 → v ≠ 255 → (tables m).wcid v = .empty
  | _ => True

theorem tables_step_iff (m : WordMem) (op : Op) : tables (step m op) = (tables m).step op ↔ Meets m op := by
  cases op with
  | addSharedKey b i k => exact iff_of_true (tables_addSharedKey b i k) trivial
  | removeSharedKey b i => exact tables_removeSharedKey_iff b i
  | addPairwiseKey w k => exact iff_of_true (tables_addPairwiseKey w k) trivial
  | removePairwiseKey w => exact iff_of_true (tables_updateWcidAttribute 0 .none w .pairwise) trivial
  | updateWcidAttribute b c w t => exact iff_of_true (tables_updateWcidAttribute b c w t) trivial
  | updateRxWCID w a => exact iff_of_true (tables_updateRxWCID w a) trivial
  | delWcid w =>
    by_cases hw : w = 255
    · subst hw
      exact tables_delWcidAll_iff.trans ⟨fun h _ => h, fun h => h rfl⟩
    · exact iff_of_true (tables_delWcid w hw) fun hc => absurd hc hw

/-- The registers hold after every part of the sequence what the operations are for. -/
def HoldTables (m : WordMem) (ops : List Op) : Prop :=
  ∀ pre, pre <+: ops → tables (run step m pre) = run Tables.step (tables m) pre

/-- **The registers hold the tables.** Whatever they hold at first, a sequence of operations keeps them what
the tables should be exactly if every removal of a shared key finds the other modes where it reads, and every
removal of all stations finds the stations behind the first without an address. -/
theorem tables_run_iff (m : WordMem) (ops : List Op) : HoldTables m ops ↔ Along step Meets m ops :=
  refines_prefix_iff_along tables_step_iff ops m

def zeroKey : CipherKey := ⟨zeros 16, zeros 8, zeros 8, .aes⟩

/-- Removing one of two keys of a BSS takes the mode of the other, and removing all stations leaves the
address of the second. -/
theorem not_holdTables :
    ¬ HoldTables (fun _ => 0) [.addSharedKey 0 0 zeroKey, .removeSharedKey 0 1] ∧
      ¬ HoldTables (fun _ => 0) [.updateRxWCID 1 fun _ => 1, .delWcid 255] := by
  constructor
  · intro h
    have hmode := congrFun (congrFun (congrArg Tables.sharedMode (h _ List.prefix_rfl)) 0) 0
    exact absurd hmode (by decide)
  · intro h
    have hone := h [.updateRxWCID 1 fun _ => 1] ⟨[.delWcid 255], rfl⟩
    have htwo := (h _ List.prefix_rfl).trans (congrArg (·.step (.delWcid 255)) hone.symm)
    have hempty := (tables_step_iff _ (.delWcid 255)).1 htwo rfl 1 (by decide) (by decide)
    exact absurd (congrFun (congrArg HwWcidEntry.address hempty) 0) (by decide)

/-! ### Entries that are not named -/

end Mt7610u.Asic
