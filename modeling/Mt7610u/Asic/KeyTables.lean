import Mt7610u.Lib.Runs
import Mt7610u.Lib.WordMemory

/-! # Key and station tables of the hardware (`common/cmm_asic.c`)

The hardware looks up the cipher of a shared key, the key material, the attributes of a station and its
address in tables that the driver writes through registers. -/

namespace Mt7610u.Asic

open Lib Lib.Runs

/-! ### The operations -/

/-- The ciphers, `CIPHER_NONE` to `CIPHER_SMS4`. -/
inductive Cipher
  | none | wep64 | wep128 | tkip | aes | ckip64 | ckip128 | ckip152 | sms4
deriving DecidableEq, Repr

def Cipher.toByte : Cipher → Byte
  | .none => 0
  | .wep64 => 1
  | .wep128 => 2
  | .tkip => 3
  | .aes => 4
  | .ckip64 => 5
  | .ckip128 => 6
  | .ckip152 => 7
  | .sms4 => 8

/-- `CIPHER_KEY`, what is written to the hardware. -/
structure CipherKey where
  key : Bytes 16
  txMic : Bytes 8
  rxMic : Bytes 8
  cipherAlg : Cipher

/-- `SHAREDKEYTABLE` and `PAIRWISEKEYTABLE`. -/
inductive KeyTab
  | shared | pairwise
deriving DecidableEq, Repr

def KeyTab.toBit : KeyTab → BitVec 1
  | .shared => 0
  | .pairwise => 1

def sharedKeyTableBase : ℕ := 0xac00
def sharedKeyModeBase : ℕ := 0xb000
def sharedKeyTableBaseExt : ℕ := 0xb400
def sharedKeyModeBaseExt : ℕ := 0xb3f0
def pairwiseKeyTableBase : ℕ := 0x8000
def macWcidBase : ℕ := 0x1800
def macWcidAttributeBase : ℕ := 0xa800
def hwKeyEntrySize : ℕ := 0x20
def hwWcidEntrySize : ℕ := 8
def hwWcidAttriSize : ℕ := 4

def wcidAll : ℕ := 0xff

/-- The first bit of the field of `SHAREDKEY_MODE_STRUC` that the two indices select. -/
def cipherAlgField (bssIndex keyIdx : ℕ) : ℕ :=
  if bssIndex % 2 = 0 then
    if keyIdx = 0 then 0 else if keyIdx = 1 then 4 else if keyIdx = 2 then 8 else 12
  else
    if keyIdx = 0 then 16 else if keyIdx = 1 then 20 else if keyIdx = 2 then 24 else 28

def writeKeyMaterial (m : WordMem) (offset : ℕ) (k : CipherKey) : WordMem :=
  ((m.writeHalves offset (List.ofFn k.key)).writeHalves (offset + 16) (List.ofFn k.txMic)).writeHalves
    (offset + 24) (List.ofFn k.rxMic)

def asicAddSharedKeyEntry (m : WordMem) (bssIndex keyIdx : ℕ) (k : CipherKey) : WordMem :=
  let tableBase := if 8 ≤ bssIndex then sharedKeyTableBaseExt else sharedKeyTableBase
  let modeBase := if 8 ≤ bssIndex then sharedKeyModeBaseExt else sharedKeyModeBase
  let bssIndex := if 8 ≤ bssIndex then bssIndex - 8 else bssIndex
  let m := writeKeyMaterial m (tableBase + (4 * bssIndex + keyIdx) * hwKeyEntrySize) k
  let csr1 := m ((modeBase + 4 * (bssIndex / 2)) / 4)
  m.writeWord (modeBase + 4 * (bssIndex / 2))
    (setField csr1 (cipherAlgField bssIndex keyIdx) (k.cipherAlg.toByte.setWidth 4))

/-- `AsicRemoveSharedKeyEntry`. The word is read from the table of the keys and written to that of the
modes. -/
def asicRemoveSharedKeyEntry (m : WordMem) (bssIndex keyIdx : ℕ) : WordMem :=
  let tableBase := if 8 ≤ bssIndex then sharedKeyTableBaseExt else sharedKeyTableBase
  let modeBase := if 8 ≤ bssIndex then sharedKeyModeBaseExt else sharedKeyModeBase
  let bssIndex := if 8 ≤ bssIndex then bssIndex - 8 else bssIndex
  let csr1 := m ((tableBase + 4 * (bssIndex / 2)) / 4)
  m.writeWord (modeBase + 4 * (bssIndex / 2)) (setField csr1 (cipherAlgField bssIndex keyIdx) 0#4)

def asicUpdateRxWCIDTable (m : WordMem) (wcid : ℕ) (pAddr : Bytes 6) : WordMem :=
  let offset := macWcidBase + wcid * hwWcidEntrySize
  let m := m.writeWord offset
    ((pAddr 0).setWidth 32 + (pAddr 1).setWidth 32 <<< 8 + (pAddr 2).setWidth 32 <<< 16 +
      (pAddr 3).setWidth 32 <<< 24)
  m.writeWord (offset + 4) ((pAddr 4).setWidth 32 + (pAddr 5).setWidth 32 <<< 8)

/-- The word of `WCID_ATTRIBUTE_STRUC` that `AsicUpdateWcidAttributeEntry` composes. -/
def wcidAttri (bssIdx cipherAlg : Byte) (keyTabFlag : BitVec 1) : BitVec 32 :=
  let w := setField 0#32 10 (((cipherAlg &&& 0x08) >>> 3).setWidth 1)
  let w := setField w 1 ((cipherAlg &&& 0x07).setWidth 3)
  let w := setField w 11 (((bssIdx &&& 0x08) >>> 3).setWidth 1)
  let w := setField w 4 ((bssIdx &&& 0x07).setWidth 3)
  setField w 0 keyTabFlag

/-- `AsicUpdateWcidAttributeEntry`; the key index is only printed. -/
def asicUpdateWcidAttributeEntry (m : WordMem) (bssIdx cipherAlg : Byte) (wcid : ℕ)
    (keyTabFlag : BitVec 1) : WordMem :=
  if 254 < wcid then m
  else m.writeWord (macWcidAttributeBase + wcid * hwWcidAttriSize) (wcidAttri bssIdx cipherAlg keyTabFlag)

/-- The loop of `AsicDelWcidTab`: `cntS` runs up to `cntE`, and `cnt` stays. -/
def delWcidLoop (m : WordMem) (cnt cntS cntE : ℕ) : WordMem :=
  if cntS ≤ cntE then
    let offset := macWcidBase + cnt * hwWcidEntrySize
    delWcidLoop ((m.writeWord offset 0#32).writeWord (offset + 4) 0#32) cnt (cntS + 1) cntE
  else m
termination_by cntE + 1 - cntS

def asicDelWcidTab (m : WordMem) (wcidIdx : ℕ) : WordMem :=
  if wcidIdx = wcidAll then delWcidLoop m 0 0 (wcidAll - 1) else delWcidLoop m wcidIdx wcidIdx wcidIdx

/-- `AsicAddPairwiseKeyEntry`; what it reads back is not used. -/
def asicAddPairwiseKeyEntry (m : WordMem) (wcid : ℕ) (k : CipherKey) : WordMem :=
  writeKeyMaterial m (pairwiseKeyTableBase + wcid * hwKeyEntrySize) k

/-- `AsicRemovePairwiseKeyEntry`: the station becomes one without encryption. -/
def asicRemovePairwiseKeyEntry (m : WordMem) (wcid : ℕ) : WordMem :=
  asicUpdateWcidAttributeEntry m 0 Cipher.none.toByte wcid KeyTab.pairwise.toBit

inductive Op
  | addSharedKey (bssIndex : Fin 16) (keyIdx : Fin 4) (k : CipherKey)
  | removeSharedKey (bssIndex : Fin 16) (keyIdx : Fin 4)
  | addPairwiseKey (wcid : Fin 256) (k : CipherKey)
  | removePairwiseKey (wcid : Fin 256)
  | updateWcidAttribute (bssIdx : Fin 16) (cipherAlg : Cipher) (wcid : Fin 256) (keyTabFlag : KeyTab)
  | updateRxWCID (wcid : Fin 256) (pAddr : Bytes 6)
  | delWcid (wcidIdx : Fin 256)

def step (m : WordMem) : Op → WordMem
  | .addSharedKey b i k => asicAddSharedKeyEntry m b i k
  | .removeSharedKey b i => asicRemoveSharedKeyEntry m b i
  | .addPairwiseKey w k => asicAddPairwiseKeyEntry m w k
  | .removePairwiseKey w => asicRemovePairwiseKeyEntry m w
  | .updateWcidAttribute b c w t => asicUpdateWcidAttributeEntry m (BitVec.ofNat 8 b) c.toByte w t.toBit
  | .updateRxWCID w a => asicUpdateRxWCIDTable m w a
  | .delWcid w => asicDelWcidTab m w

/-! ### The tables by entry -/

@[ext]
structure HwKeyEntry where
  key : Bytes 16
  txMic : Bytes 8
  rxMic : Bytes 8

/-- The fields of `WCID_ATTRIBUTE_STRUC`; the cipher and the BSS have their extension bit on top, and `upper`
is the rest of the word. -/
@[ext]
structure HwWcidAttribute where
  keyTab : BitVec 1
  pairKeyMode : BitVec 4
  bssIdx : BitVec 4
  rxWiUdf : BitVec 3
  upper : BitVec 20

@[ext]
structure HwWcidEntry where
  address : Bytes 6
  rsv : Bytes 2

/-- The five tables, and the registers that belong to none. -/
@[ext]
structure Tables where
  sharedMode : Fin 16 → Fin 4 → BitVec 4
  sharedKey : Fin 16 → Fin 4 → HwKeyEntry
  pairwiseKey : Fin 256 → HwKeyEntry
  wcidAttribute : Fin 256 → HwWcidAttribute
  wcid : Fin 256 → HwWcidEntry
  rest : ℕ → Option (BitVec 32)

def modeAddr (bss : ℕ) : ℕ :=
  if bss < 8 then 0xb000 + 4 * (bss / 2) else 0xb3f0 + 4 * ((bss - 8) / 2)

def sharedKeyAddr (bss key : ℕ) : ℕ :=
  if bss < 8 then 0xac00 + 32 * (4 * bss + key) else 0xb400 + 32 * (4 * (bss - 8) + key)

def InTables (a : ℕ) : Prop :=
  0x1800 ≤ 4 * a ∧ 4 * a < 0x2000 ∨ 0x8000 ≤ 4 * a ∧ 4 * a < 0xa000 ∨ 0xa800 ≤ 4 * a ∧ 4 * a < 0xb010 ∨
    0xb3f0 ≤ 4 * a ∧ 4 * a < 0xb800

instance : DecidablePred InTables := fun _ => inferInstanceAs (Decidable (_ ∨ _))

def keyEntryAt (m : WordMem) (addr : ℕ) : HwKeyEntry where
  key j := m.byte (addr + j)
  txMic j := m.byte (addr + 16 + j)
  rxMic j := m.byte (addr + 24 + j)

def attributeOf (w : BitVec 32) : HwWcidAttribute where
  keyTab := w.extractLsb' 0 1
  pairKeyMode := w.extractLsb' 10 1 ++ w.extractLsb' 1 3
  bssIdx := w.extractLsb' 11 1 ++ w.extractLsb' 4 3
  rxWiUdf := w.extractLsb' 7 3
  upper := w.extractLsb' 12 20

def wcidEntryAt (m : WordMem) (addr : ℕ) : HwWcidEntry where
  address j := m.byte (addr + j)
  rsv j := m.byte (addr + 6 + j)

def tables (m : WordMem) : Tables where
  sharedMode b i := (m (modeAddr b / 4)).extractLsb' (4 * (4 * (b % 2) + i)) 4
  sharedKey b i := keyEntryAt m (sharedKeyAddr b i)
  pairwiseKey w := keyEntryAt m (0x8000 + 32 * w)
  wcidAttribute w := attributeOf (m ((0xa800 + 4 * w) / 4))
  wcid w := wcidEntryAt m (0x1800 + 8 * w)
  rest a := if InTables a then none else some (m a)

def Cipher.mode (c : Cipher) : BitVec 4 := c.toByte.setWidth 4

def CipherKey.entry (k : CipherKey) : HwKeyEntry := ⟨k.key, k.txMic, k.rxMic⟩

def attributeFor (bssIdx : Fin 16) (c : Cipher) (t : KeyTab) : HwWcidAttribute :=
  ⟨t.toBit, c.mode, BitVec.ofNat 4 bssIdx, 0, 0⟩

def HwWcidEntry.empty : HwWcidEntry := ⟨zeros 6, zeros 2⟩

namespace Tables

def setMode (t : Tables) (b : Fin 16) (i : Fin 4) (v : BitVec 4) : Tables :=
  { t with sharedMode := Function.update t.sharedMode b (Function.update (t.sharedMode b) i v) }

def setSharedKey (t : Tables) (b : Fin 16) (i : Fin 4) (e : HwKeyEntry) : Tables :=
  { t with sharedKey := Function.update t.sharedKey b (Function.update (t.sharedKey b) i e) }

def setAttribute (t : Tables) (w : Fin 256) (e : HwWcidAttribute) : Tables :=
  if w = 255 then t else { t with wcidAttribute := Function.update t.wcidAttribute w e }

/-- **What the operations are for.** Each writes the entry that it names and no other, and the removal of
`WCID_ALL` empties the address of every station index. -/
def step (t : Tables) : Op → Tables
  | .addSharedKey b i k => (t.setSharedKey b i k.entry).setMode b i k.cipherAlg.mode
  | .removeSharedKey b i => t.setMode b i Cipher.none.mode
  | .addPairwiseKey w k => { t with pairwiseKey := Function.update t.pairwiseKey w k.entry }
  | .removePairwiseKey w => t.setAttribute w (attributeFor 0 .none .pairwise)
  | .updateWcidAttribute b c w kt => t.setAttribute w (attributeFor b c kt)
  | .updateRxWCID w a => { t with wcid := Function.update t.wcid w ⟨a, zeros 2⟩ }
  | .delWcid w =>
    if w = 255 then { t with wcid := fun v => if v = 255 then t.wcid v else .empty }
    else { t with wcid := Function.update t.wcid w .empty }

end Tables

/-! ### Which entries a write leaves alone -/

/-- `m'` is `m` but for the bytes from `lo` on and before `hi`, whole words. -/
structure Frame (m m' : WordMem) (lo hi : ℕ) : Prop where
  aligned : lo % 4 = 0 ∧ hi % 4 = 0
  same : ∀ a, 4 * a + 4 ≤ lo ∨ hi ≤ 4 * a → m' a = m a

namespace Frame

variable {m m' m'' : WordMem} {lo hi addr : ℕ}

theorem writeWord (haddr : addr % 4 = 0) (v : BitVec 32) : Frame m (m.writeWord addr v) addr (addr + 4) where
  aligned := by omega
  same a ha := WordMem.writeWord_of_ne (by omega) v

theorem writeKeyMaterial (haddr : addr % 4 = 0) (k : CipherKey) :
    Frame m (writeKeyMaterial m addr k) addr (addr + 32) where
  aligned := by omega
  same a ha := by
    unfold Asic.writeKeyMaterial
    rw [WordMem.writeHalves_of_lt (by omega) (by simp) (by simp; omega),
      WordMem.writeHalves_of_lt (by omega) (by simp) (by simp; omega),
      WordMem.writeHalves_of_lt (by omega) (by simp) (by simp; omega)]

theorem trans {mid : ℕ} (h : Frame m m' lo mid) (h' : Frame m' m'' mid hi) (hle : lo ≤ mid ∧ mid ≤ hi) :
    Frame m m'' lo hi where
  aligned := ⟨h.aligned.1, h'.aligned.2⟩
  same a ha := (h'.same a (by omega)).trans (h.same a (by omega))

variable (h : Frame m m' lo hi)
include h

theorem byte (ha : addr < lo ∨ hi ≤ addr) : m'.byte addr = m.byte addr := by
  have := h.aligned
  unfold WordMem.byte
  rw [h.same _ (by omega)]

theorem keyEntryAt (ha : addr + 32 ≤ lo ∨ hi ≤ addr) : keyEntryAt m' addr = keyEntryAt m addr := by
  refine HwKeyEntry.ext (funext fun j => ?_) (funext fun j => ?_) (funext fun j => ?_)
  · exact h.byte (by omega)
  · exact h.byte (by omega)
  · exact h.byte (by omega)

theorem wcidEntryAt (ha : addr + 8 ≤ lo ∨ hi ≤ addr) : wcidEntryAt m' addr = wcidEntryAt m addr := by
  refine HwWcidEntry.ext (funext fun j => ?_) (funext fun j => ?_)
  · exact h.byte (by omega)
  · exact h.byte (by omega)

theorem sharedMode {b : Fin 16} (ha : modeAddr b + 4 ≤ lo ∨ hi ≤ modeAddr b) (i : Fin 4) :
    (tables m').sharedMode b i = (tables m).sharedMode b i := by
  have halign : modeAddr b % 4 = 0 := by
    unfold modeAddr
    split_ifs <;> omega
  change (m' _).extractLsb' _ _ = (m _).extractLsb' _ _
  rw [h.same _ (by omega)]

theorem wcidAttribute {w : Fin 256} (ha : 0xa800 + 4 * (w : ℕ) + 4 ≤ lo ∨ hi ≤ 0xa800 + 4 * (w : ℕ)) :
    (tables m').wcidAttribute w = (tables m).wcidAttribute w := by
  change attributeOf _ = attributeOf _
  rw [h.same _ (by omega)]

theorem rest (hin : ∀ a, lo ≤ 4 * a → 4 * a < hi → InTables a) : (tables m').rest = (tables m).rest := by
  have := h.aligned
  funext a
  change (if _ then _ else _) = if _ then _ else _
  split_ifs with ha
  · rfl
  · rw [h.same a]
    by_contra hc
    exact ha (hin a (by omega) (by omega))

end Frame

/-! ### What the writes do to the tables -/

theorem modeAddr_eq_iff {b b' : Fin 16} : modeAddr b' = modeAddr b ↔ (b' : ℕ) / 2 = b / 2 := by
  unfold modeAddr
  split_ifs <;> omega

theorem modeAddr_bounds (b : Fin 16) :
    modeAddr b % 4 = 0 ∧ (0xb000 ≤ modeAddr b ∧ modeAddr b < 0xb010 ∨ 0xb3f0 ≤ modeAddr b ∧ modeAddr b < 0xb400) := by
  unfold modeAddr
  split_ifs <;> omega

theorem sharedKeyAddr_bounds (b : Fin 16) (i : Fin 4) :
    sharedKeyAddr b i % 32 = 0 ∧ (0xac00 ≤ sharedKeyAddr b i ∧ sharedKeyAddr b i + 32 ≤ 0xb000 ∨
      0xb400 ≤ sharedKeyAddr b i ∧ sharedKeyAddr b i + 32 ≤ 0xb800) := by
  unfold sharedKeyAddr
  split_ifs <;> omega

theorem sharedKeyAddr_apart {b b' : Fin 16} {i i' : Fin 4} (h : ¬ (b' = b ∧ i' = i)) :
    sharedKeyAddr b' i' + 32 ≤ sharedKeyAddr b i ∨ sharedKeyAddr b i + 32 ≤ sharedKeyAddr b' i' := by
  have hne : ¬ ((b' : ℕ) = b ∧ (i' : ℕ) = i) := by rwa [Fin.val_inj, Fin.val_inj]
  unfold sharedKeyAddr
  split_ifs <;> omega

section writes

variable {m : WordMem}

theorem tables_writeMode (b : Fin 16) (v : BitVec 32) :
    tables (m.writeWord (modeAddr b) v) =
      { tables m with
        sharedMode := fun b' i' =>
          if (b' : ℕ) / 2 = b / 2 then v.extractLsb' (4 * (4 * (b' % 2) + i')) 4
          else (tables m).sharedMode b' i' } := by
  have hb := modeAddr_bounds b
  have hframe : Frame m (m.writeWord (modeAddr b) v) (modeAddr b) (modeAddr b + 4) := .writeWord (by omega) v
  refine Tables.ext ?_ ?_ ?_ ?_ ?_ ?_
  · funext b' i'
    dsimp only
    split_ifs with heq
    · change (m.writeWord (modeAddr b) v (modeAddr b' / 4)).extractLsb' _ _ = _
      rw [WordMem.writeWord_self (by rw [modeAddr_eq_iff.2 heq])]
    · have hne : modeAddr b' ≠ modeAddr b := fun hc => heq (modeAddr_eq_iff.1 hc)
      have hb' := modeAddr_bounds b'
      exact hframe.sharedMode (by omega) i'
  · funext b' i'
    have hk := sharedKeyAddr_bounds b' i'
    exact hframe.keyEntryAt (by omega)
  · funext w
    exact hframe.keyEntryAt (by omega)
  · funext w
    exact hframe.wcidAttribute (by omega)
  · funext w
    exact hframe.wcidEntryAt (by omega)
  · exact hframe.rest fun a _ _ => by unfold InTables; omega

theorem keyEntryAt_writeKeyMaterial {addr : ℕ} (haddr : addr % 4 = 0) (k : CipherKey) :
    keyEntryAt (writeKeyMaterial m addr k) addr = k.entry := by
  unfold writeKeyMaterial
  refine HwKeyEntry.ext (funext fun j => ?_) (funext fun j => ?_) (funext fun j => ?_)
  · change WordMem.byte _ _ = _
    rw [WordMem.byte_writeHalves (by omega) _ (by simp), dif_neg (by omega),
      WordMem.byte_writeHalves (by omega) _ (by simp), dif_neg (by omega),
      WordMem.byte_writeHalves (by omega) _ (by simp), dif_pos (by simp), List.getElem_ofFn]
    exact congrArg _ (Fin.ext (by simp))
  · change WordMem.byte _ _ = _
    rw [WordMem.byte_writeHalves (by omega) _ (by simp), dif_neg (by omega),
      WordMem.byte_writeHalves (by omega) _ (by simp), dif_pos (by simp), List.getElem_ofFn]
    exact congrArg _ (Fin.ext (by simp))
  · change WordMem.byte _ _ = _
    rw [WordMem.byte_writeHalves (by omega) _ (by simp), dif_pos (by simp), List.getElem_ofFn]
    exact congrArg _ (Fin.ext (by simp))

theorem tables_writeSharedKey (b : Fin 16) (i : Fin 4) (k : CipherKey) :
    tables (writeKeyMaterial m (sharedKeyAddr b i) k) = (tables m).setSharedKey b i k.entry := by
  have hk := sharedKeyAddr_bounds b i
  have hframe : Frame m (writeKeyMaterial m (sharedKeyAddr b i) k) (sharedKeyAddr b i) (sharedKeyAddr b i + 32) :=
    .writeKeyMaterial (by omega) k
  refine Tables.ext ?_ ?_ ?_ ?_ ?_ ?_
  · funext b' i'
    have hb' := modeAddr_bounds b'
    exact hframe.sharedMode (by omega) i'
  · funext b' i'
    by_cases hsame : b' = b ∧ i' = i
    · obtain ⟨rfl, rfl⟩ := hsame
      change keyEntryAt _ _ = _
      rw [keyEntryAt_writeKeyMaterial (by omega)]
      simp [Tables.setSharedKey]
    · have hapart := sharedKeyAddr_apart hsame
      have hkeep : (tables (writeKeyMaterial m (sharedKeyAddr b i) k)).sharedKey b' i' =
          (tables m).sharedKey b' i' := hframe.keyEntryAt (by omega)
      rw [hkeep]
      by_cases hb : b' = b
      · subst hb
        have hi : i' ≠ i := fun hi => hsame ⟨rfl, hi⟩
        simp [Tables.setSharedKey, Function.update_of_ne hi]
      · simp [Tables.setSharedKey, Function.update_of_ne hb]
  · funext w
    exact hframe.keyEntryAt (by omega)
  · funext w
    exact hframe.wcidAttribute (by omega)
  · funext w
    exact hframe.wcidEntryAt (by omega)
  · exact hframe.rest fun a _ _ => by unfold InTables; omega

theorem tables_writePairwiseKey (w : Fin 256) (k : CipherKey) :
    tables (writeKeyMaterial m (0x8000 + 32 * w) k) =
      { tables m with pairwiseKey := Function.update (tables m).pairwiseKey w k.entry } := by
  have hframe : Frame m (writeKeyMaterial m (0x8000 + 32 * w) k) (0x8000 + 32 * w) (0x8000 + 32 * w + 32) :=
    .writeKeyMaterial (by omega) k
  refine Tables.ext ?_ ?_ ?_ ?_ ?_ ?_
  · funext b' i'
    have hb' := modeAddr_bounds b'
    exact hframe.sharedMode (by omega) i'
  · funext b' i'
    have hk' := sharedKeyAddr_bounds b' i'
    exact hframe.keyEntryAt (by omega)
  · funext w'
    by_cases hw : w' = w
    · subst hw
      change keyEntryAt _ _ = _
      rw [keyEntryAt_writeKeyMaterial (by omega)]
      simp
    · have hne : (w' : ℕ) ≠ w := fun hc => hw (Fin.ext hc)
      dsimp only
      rw [Function.update_of_ne hw]
      exact hframe.keyEntryAt (by omega)
  · funext w
    exact hframe.wcidAttribute (by omega)
  · funext w
    exact hframe.wcidEntryAt (by omega)
  · exact hframe.rest fun a _ _ => by unfold InTables; omega

theorem tables_writeAttribute (w : Fin 256) (v : BitVec 32) :
    tables (m.writeWord (0xa800 + 4 * w) v) =
      { tables m with wcidAttribute := Function.update (tables m).wcidAttribute w (attributeOf v) } := by
  have hframe : Frame m (m.writeWord (0xa800 + 4 * w) v) (0xa800 + 4 * w) (0xa800 + 4 * w + 4) :=
    .writeWord (by omega) v
  refine Tables.ext ?_ ?_ ?_ ?_ ?_ ?_
  · funext b' i'
    have hb' := modeAddr_bounds b'
    exact hframe.sharedMode (by omega) i'
  · funext b' i'
    have hk' := sharedKeyAddr_bounds b' i'
    exact hframe.keyEntryAt (by omega)
  · funext w'
    exact hframe.keyEntryAt (by omega)
  · funext w'
    by_cases hw : w' = w
    · subst hw
      change attributeOf _ = _
      rw [WordMem.writeWord_self rfl]
      simp
    · have hne : (w' : ℕ) ≠ w := fun hc => hw (Fin.ext hc)
      dsimp only
      rw [Function.update_of_ne hw]
      exact hframe.wcidAttribute (by omega)
  · funext w
    exact hframe.wcidEntryAt (by omega)
  · exact hframe.rest fun a _ _ => by unfold InTables; omega

def writeWcidEntry (m : WordMem) (w : ℕ) (lo hi : BitVec 32) : WordMem :=
  (m.writeWord (0x1800 + 8 * w) lo).writeWord (0x1800 + 8 * w + 4) hi

def wcidEntryOf (lo hi : BitVec 32) : HwWcidEntry where
  address j := if (j : ℕ) < 4 then lo.extractLsb' (8 * j) 8 else hi.extractLsb' (8 * (j - 4)) 8
  rsv j := hi.extractLsb' (8 * (j + 2)) 8

theorem wcidEntryAt_writeWcidEntry (w : ℕ) (lo hi : BitVec 32) :
    wcidEntryAt (writeWcidEntry m w lo hi) (0x1800 + 8 * w) = wcidEntryOf lo hi := by
  unfold writeWcidEntry
  refine HwWcidEntry.ext (funext fun j => ?_) (funext fun j => ?_)
  · change WordMem.byte _ _ = if (j : ℕ) < 4 then _ else _
    split_ifs with hj
    · rw [WordMem.byte_writeWord_of_ne (by omega), WordMem.byte_writeWord_self (by omega),
        show (0x1800 + 8 * w + j) % 4 = j by omega]
    · rw [WordMem.byte_writeWord_self (by omega), show (0x1800 + 8 * w + j) % 4 = (j : ℕ) - 4 by omega]
  · change WordMem.byte _ _ = hi.extractLsb' _ _
    rw [WordMem.byte_writeWord_self (by omega), show (0x1800 + 8 * w + 6 + j) % 4 = (j : ℕ) + 2 by omega]

theorem tables_writeWcidEntry (w : Fin 256) (lo hi : BitVec 32) :
    tables (writeWcidEntry m w lo hi) =
      { tables m with wcid := Function.update (tables m).wcid w (wcidEntryOf lo hi) } := by
  have hfst : Frame m (m.writeWord (0x1800 + 8 * w) lo) (0x1800 + 8 * w) (0x1800 + 8 * w + 4) :=
    .writeWord (by omega) lo
  have hframe : Frame m (writeWcidEntry m w lo hi) (0x1800 + 8 * w) (0x1800 + 8 * w + 4 + 4) :=
    hfst.trans (.writeWord (by omega) hi) (by omega)
  refine Tables.ext ?_ ?_ ?_ ?_ ?_ ?_
  · funext b' i'
    have hb' := modeAddr_bounds b'
    exact hframe.sharedMode (by omega) i'
  · funext b' i'
    have hk' := sharedKeyAddr_bounds b' i'
    exact hframe.keyEntryAt (by omega)
  · funext w'
    exact hframe.keyEntryAt (by omega)
  · funext w'
    exact hframe.wcidAttribute (by omega)
  · funext w'
    by_cases hw : w' = w
    · subst hw
      change wcidEntryAt _ _ = _
      rw [wcidEntryAt_writeWcidEntry]
      simp
    · have hne : (w' : ℕ) ≠ w := fun hc => hw (Fin.ext hc)
      dsimp only
      rw [Function.update_of_ne hw]
      exact hframe.wcidEntryAt (by omega)
  · exact hframe.rest fun a _ _ => by unfold InTables; omega

end writes

end Mt7610u.Asic
