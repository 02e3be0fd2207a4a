import Mathlib.Tactic.IntervalCases
import Mt7610u.Lib.Bytes
import Mt7610u.Lib.Runs

/-! # Temperature compensation of the transmit power

The 2.4 GHz band and two groups of 5 GHz channels have boundary tables that turn a temperature into a level.
`mt76x0_temp_tx_alc` keeps the level, less the level at manufacture, added to a signed field of six bits; one
variable remembers for all three groups what was added last. -/

namespace Mt7610u.TxPower

open Lib Lib.Runs

attribute [local instance] neZero_two

/-! ### The code -/

/-- A table of eight `CHAR`s: the reference, then the boundaries outward from it. -/
abbrev Boundary := ℕ → Byte

/-- The loop over `idx` that leaves at the first range `found`, for `n` turns. -/
def rangeFound (found : ℕ → Bool) : ℕ → ℕ → ℕ
  | 0, idx => idx
  | n + 1, idx => if found idx then idx else rangeFound found n (idx + 1)

/-- What both functions below compute: minus or plus `step` for every boundary passed. -/
def compLevel (minus plus : Boundary) (maxLevel step : ℕ) (temp : Byte) : Byte :=
  if temp.toInt < (minus 1).toInt then
    BitVec.ofInt 8
      (-(step * (rangeFound (fun idx => (minus idx).toInt ≤ temp.toInt) (maxLevel - 1) 1 - 1 : ℕ)))
  else if (plus 1).toInt < temp.toInt then
    BitVec.ofInt 8 (step * (rangeFound (fun idx => temp.toInt ≤ (plus idx).toInt) (maxLevel - 1) 1 - 1 : ℕ))
  else 0#8

/-- `get_temp_tx_alc_level`; `none` is `FALSE`. -/
def getTempTxAlcLevel (enable : Bool) (minus plus : Boundary) (maxLevel step : ℕ) (temp : Byte) : Option Byte :=
  if enable then some (compLevel minus plus maxLevel step temp) else none

/-- The fields of the adapter that the compensation uses, and `TX_ALC_CFG_1`. -/
structure Adapter where
  autoTxAgcA : Bool
  autoTxAgcG : Bool
  chBndryIdx : Byte
  tssiMinusBoundaryA : Fin 2 → Boundary
  tssiPlusBoundaryA : Fin 2 → Boundary
  tssiMinusBoundaryG : Boundary
  tssiPlusBoundaryG : Boundary
  tssiRefA : Byte
  tssiRefG : Byte
  tssiCalibratedOffset : Byte
  txAgcCompensateA : Byte
  txAgcCompensateG : Byte
  currTemperature : Byte
  mpDeltaPwr : Byte
  deltaPwrBeforeTempComp : Byte
  lastTempCompDeltaPwr : Byte
  txAlcCfg1 : BitVec 32

/-- Six bits in two's complement as a `CHAR`. -/
def unpack (macVal : Byte) : Byte :=
  if macVal &&& 0x20#8 ≠ 0#8 then macVal &&& 0x3F#8 ||| 0xC0#8 else macVal &&& 0x3F#8

/-- A `CHAR` as six bits in two's complement. -/
def pack (deltaPwr : Byte) : Byte :=
  if deltaPwr &&& 0x80#8 ≠ 0#8 then deltaPwr &&& 0x1F#8 ||| 0x20#8 else deltaPwr &&& 0x3F#8

def Adapter.groupA (pAd : Adapter) (channel : Byte) : Fin 2 :=
  if channel ≤ pAd.chBndryIdx then 0 else 1

def Adapter.enabled (pAd : Adapter) (channel : Byte) : Bool :=
  if channel ≤ 14#8 then pAd.autoTxAgcG else pAd.autoTxAgcA

def Adapter.minusBdy (pAd : Adapter) (channel : Byte) : Boundary :=
  if channel ≤ 14#8 then pAd.tssiMinusBoundaryG else pAd.tssiMinusBoundaryA (pAd.groupA channel)

def Adapter.plusBdy (pAd : Adapter) (channel : Byte) : Boundary :=
  if channel ≤ 14#8 then pAd.tssiPlusBoundaryG else pAd.tssiPlusBoundaryA (pAd.groupA channel)

def Adapter.compensate (pAd : Adapter) (channel comp : Byte) : Adapter :=
  let deltaPwr := comp - pAd.mpDeltaPwr
  let before := unpack (pAd.txAlcCfg1.setWidth 8) - pAd.lastTempCompDeltaPwr
  { pAd with
    txAgcCompensateG := if channel ≤ 14#8 then comp else pAd.txAgcCompensateG
    txAgcCompensateA := if channel ≤ 14#8 then pAd.txAgcCompensateA else comp
    lastTempCompDeltaPwr := deltaPwr
    deltaPwrBeforeTempComp := before
    txAlcCfg1 := pAd.txAlcCfg1 &&& ~~~0x3F#32 ||| (pack (deltaPwr + before)).setWidth 32 }

/-- `mt76x0_temp_tx_alc`; `report` is what `mt76x0_get_tssi_report` reads, if it can. -/
def mt76x0TempTxAlc (pAd : Adapter) (channel : Byte) (report : Option Byte) : Adapter :=
  if pAd.enabled channel = false then pAd
  else
    match report with
    | none => pAd
    | some temp =>
      let pAd := { pAd with currTemperature := temp }
      match getTempTxAlcLevel (pAd.enabled channel) (pAd.minusBdy channel) (pAd.plusBdy channel) 8 2 temp with
      | none => pAd
      | some comp => pAd.compensate channel comp

/-- `adjust_temp_tx_alc_table`, which moves both tables by the reference and saturates them outward. -/
def adjustTempTxAlcTable (minus plus : Boundary) (reference : Byte) : Boundary × Boundary :=
  (fun idx => if -128 - (minus idx).toInt ≤ reference.toInt then minus idx + reference else 128#8,
    fun idx => if reference.toInt ≤ 127 - (plus idx).toInt then plus idx + reference else 127#8)

/-- `adjust_mp_temp` at the temperature of byte `10Dh` of the EEPROM. -/
def adjustMpTemp (pAd : Adapter) (mpTemp : Byte) (minus plus : Boundary) : Adapter :=
  { pAd with mpDeltaPwr := compLevel minus plus 8 2 mpTemp }

def Boundary.clear (table : Boundary) : Boundary := Function.update table 0 0#8

def Adapter.initA (pAd : Adapter) (mpTemp : Byte) (i : Fin 2) : Adapter :=
  let t := adjustTempTxAlcTable (pAd.tssiMinusBoundaryA i) (pAd.tssiPlusBoundaryA i) pAd.tssiCalibratedOffset
  adjustMpTemp
    { pAd with
      tssiMinusBoundaryA := Function.update pAd.tssiMinusBoundaryA i t.1
      tssiPlusBoundaryA := Function.update pAd.tssiPlusBoundaryA i t.2
      tssiRefA := t.1 0 } mpTemp t.1 t.2

def Adapter.initG (pAd : Adapter) (mpTemp : Byte) : Adapter :=
  let t := adjustTempTxAlcTable pAd.tssiMinusBoundaryG pAd.tssiPlusBoundaryG pAd.tssiCalibratedOffset
  adjustMpTemp
    { pAd with tssiMinusBoundaryG := t.1, tssiPlusBoundaryG := t.2, tssiRefG := t.1 0 } mpTemp t.1 t.2

def mt76x0TempTxAlcInit (pAd : Adapter) (mpTemp : Byte) : Adapter :=
  let cleared :=
    { pAd with
      txAgcCompensateA := 0#8, tssiRefA := 0#8
      tssiMinusBoundaryA := fun i => (pAd.tssiMinusBoundaryA i).clear
      tssiPlusBoundaryA := fun i => (pAd.tssiPlusBoundaryA i).clear
      txAgcCompensateG := 0#8, tssiRefG := 0#8
      tssiMinusBoundaryG := pAd.tssiMinusBoundaryG.clear
      tssiPlusBoundaryG := pAd.tssiPlusBoundaryG.clear
      deltaPwrBeforeTempComp := 0#8, lastTempCompDeltaPwr := 0#8 }
  ((cleared.initA mpTemp 0).initA mpTemp 1).initG mpTemp

/-- A call of the compensation, or a write of `TX_ALC_CFG_1` by another part that keeps the low six bits. -/
inductive Event
  | tempTxAlc (channel : Byte) (report : Option Byte)
  | writeHigh (high : BitVec 26)

def step (pAd : Adapter) : Event → Adapter
  | .tempTxAlc channel report => mt76x0TempTxAlc pAd channel report
  | .writeHigh high => { pAd with txAlcCfg1 := high ++ pAd.txAlcCfg1.setWidth 6 }

/-! ### The level -/

theorem rangeFound_bounds (found : ℕ → Bool) (n idx : ℕ) :
    idx ≤ rangeFound found n idx ∧ rangeFound found n idx ≤ idx + n := by
  induction n generalizing idx with
  | zero => exact ⟨Nat.le_refl _, Nat.le_refl _⟩
  | succ n ih =>
    obtain ⟨hlo, hhi⟩ := ih (idx + 1)
    rw [rangeFound]
    split <;> omega

/-- A loop that leaves wherever another does leaves no later. -/
theorem rangeFound_le {found found' : ℕ → Bool} (h : ∀ idx, found' idx = true → found idx = true) (n idx : ℕ) :
    rangeFound found n idx ≤ rangeFound found' n idx := by
  induction n generalizing idx with
  | zero => exact Nat.le_refl _
  | succ n ih =>
    rw [rangeFound, rangeFound]
    by_cases hf' : found' idx = true
    · rw [if_pos hf', if_pos (h idx hf')]
    · rw [if_neg hf']
      split
      · exact (Nat.le_succ idx).trans (rangeFound_bounds found' n (idx + 1)).1
      · exact ih (idx + 1)

theorem toInt_ofInt_step {k : ℕ} (hk : k ≤ 7) :
    (BitVec.ofInt 8 (2 * (k : ℤ))).toInt = 2 * k ∧ (BitVec.ofInt 8 (-(2 * (k : ℤ)))).toInt = -(2 * k) := by
  rw [BitVec.toInt_ofInt, BitVec.toInt_ofInt]
  constructor <;> rw [Int.bmod_eq_of_le] <;> omega

def steps (minus plus : Boundary) (temp : Byte) : ℤ :=
  if temp.toInt < (minus 1).toInt then
    -(2 * (rangeFound (fun idx => (minus idx).toInt ≤ temp.toInt) 7 1 - 1 : ℕ))
  else if (plus 1).toInt < temp.toInt then
    2 * (rangeFound (fun idx => temp.toInt ≤ (plus idx).toInt) 7 1 - 1 : ℕ)
  else 0

theorem toInt_compLevel (minus plus : Boundary) (temp : Byte) :
    (compLevel minus plus 8 2 temp).toInt = steps minus plus temp := by
  have hle (found : ℕ → Bool) : rangeFound found 7 1 - 1 ≤ 7 := by
    have := (rangeFound_bounds found 7 1).2
    omega
  unfold compLevel steps
  split
  · exact (toInt_ofInt_step (hle _)).2
  · split
    · exact (toInt_ofInt_step (hle _)).1
    · rfl

theorem steps_bounds (minus plus : Boundary) (temp : Byte) :
    -14 ≤ steps minus plus temp ∧ steps minus plus temp ≤ 14 := by
  have hm := rangeFound_bounds (fun idx => (minus idx).toInt ≤ temp.toInt) 7 1
  have hp := rangeFound_bounds (fun idx => temp.toInt ≤ (plus idx).toInt) 7 1
  unfold steps
  split
  · omega
  · split <;> omega

/-- **A warmer chip is never compensated less**, whatever the order of the boundaries. -/
theorem steps_mono (minus plus : Boundary) {t t' : Byte} (h : t.toInt ≤ t'.toInt) :
    steps minus plus t ≤ steps minus plus t' := by
  have hm : rangeFound (fun idx => (minus idx).toInt ≤ t'.toInt) 7 1 ≤
      rangeFound (fun idx => (minus idx).toInt ≤ t.toInt) 7 1 :=
    rangeFound_le (fun idx hidx => decide_eq_true ((of_decide_eq_true hidx).trans h)) 7 1
  have hp : rangeFound (fun idx => t.toInt ≤ (plus idx).toInt) 7 1 ≤
      rangeFound (fun idx => t'.toInt ≤ (plus idx).toInt) 7 1 :=
    rangeFound_le (fun idx hidx => decide_eq_true (h.trans (of_decide_eq_true hidx))) 7 1
  unfold steps
  by_cases hlow' : t'.toInt < (minus 1).toInt
  · rw [if_pos (h.trans_lt hlow'), if_pos hlow']
    omega
  · rw [if_neg hlow']
    split
    · split <;> omega
    · split <;> split <;> omega

/-! ### Six bits and eight -/

theorem unpack_bounds : ∀ b : Byte, -32 ≤ (unpack b).toInt ∧ (unpack b).toInt ≤ 31 := by decide

theorem unpack_pack : ∀ d : Byte, -32 ≤ d.toInt → d.toInt ≤ 31 → unpack (pack d) = d := by decide

theorem unpack_low (w p : Byte) : unpack (w &&& 0xC0#8 ||| p) = unpack p := by
  have h20 : (w &&& 0xC0#8 ||| p) &&& 0x20#8 = p &&& 0x20#8 := by
    rw [BitVec.and_or_distrib_right, BitVec.and_assoc]
    simp
  have h3f : (w &&& 0xC0#8 ||| p) &&& 0x3F#8 = p &&& 0x3F#8 := by
    rw [BitVec.and_or_distrib_right, BitVec.and_assoc]
    simp
  rw [unpack, unpack, h20, h3f]

theorem unpack_writeHigh (high : BitVec 26) (v : BitVec 32) :
    unpack ((high ++ v.setWidth 6 : BitVec 32).setWidth 8) = unpack (v.setWidth 8) := by
  have hlow : (high ++ v.setWidth 6 : BitVec 32).setWidth 8 &&& 0x3F#8 = v.setWidth 8 &&& 0x3F#8 := by
    ext i hi
    simp only [BitVec.getElem_and, BitVec.getElem_setWidth, BitVec.getLsbD_append, BitVec.getLsbD_setWidth]
    interval_cases i <;> simp
  have hunpack : ∀ b : Byte, unpack b = unpack (b &&& 0x3F#8) := by decide
  exact (hunpack _).trans ((congrArg unpack hlow).trans (hunpack _).symm)

/-! ### One step -/

/-- The low six bits of `TX_ALC_CFG_1`. -/
def Adapter.field (pAd : Adapter) : ℤ := (unpack (pAd.txAlcCfg1.setWidth 8)).toInt

def Adapter.compensationAt (pAd : Adapter) (channel temp : Byte) : ℤ :=
  steps (pAd.minusBdy channel) (pAd.plusBdy channel) temp - pAd.mpDeltaPwr.toInt

def Adapter.asked (pAd : Adapter) : Event → Option ℤ
  | .tempTxAlc channel (some temp) =>
    if pAd.enabled channel = true then some (pAd.compensationAt channel temp) else none
  | _ => none

structure Adapter.Ready (pAd : Adapter) : Prop where
  mp : -14 ≤ pAd.mpDeltaPwr.toInt ∧ pAd.mpDeltaPwr.toInt ≤ 14
  last : -28 ≤ pAd.lastTempCompDeltaPwr.toInt ∧ pAd.lastTempCompDeltaPwr.toInt ≤ 28

structure SameTables (pAd pAd' : Adapter) : Prop where
  asked : pAd'.asked = pAd.asked
  mp : pAd'.mpDeltaPwr = pAd.mpDeltaPwr

theorem Adapter.compensationAt_bounds {pAd : Adapter} (h : pAd.Ready) (channel temp : Byte) :
    -28 ≤ pAd.compensationAt channel temp ∧ pAd.compensationAt channel temp ≤ 28 := by
  have hs := steps_bounds (pAd.minusBdy channel) (pAd.plusBdy channel) temp
  have hm := h.mp
  unfold compensationAt
  omega

theorem toInt_sub_small {a b : Byte} (h : -128 ≤ a.toInt - b.toInt ∧ a.toInt - b.toInt ≤ 127) :
    (a - b).toInt = a.toInt - b.toInt := by
  rw [BitVec.toInt_sub, Int.bmod_eq_of_le] <;> omega

theorem toInt_add_small {a b : Byte} (h : -128 ≤ a.toInt + b.toInt ∧ a.toInt + b.toInt ≤ 127) :
    (a + b).toInt = a.toInt + b.toInt := by
  rw [BitVec.toInt_add, Int.bmod_eq_of_le] <;> omega

/-- What was added last is taken off before the new level is added, and six bits hold the sum if they can. -/
theorem compensate_spec {pAd : Adapter} (h : pAd.Ready) (channel temp : Byte) :
    let pAd' := pAd.compensate channel (compLevel (pAd.minusBdy channel) (pAd.plusBdy channel) 8 2 temp)
    pAd'.lastTempCompDeltaPwr.toInt = pAd.compensationAt channel temp ∧
      (-32 ≤ pAd.field - pAd.lastTempCompDeltaPwr.toInt + pAd.compensationAt channel temp →
        pAd.field - pAd.lastTempCompDeltaPwr.toInt + pAd.compensationAt channel temp ≤ 31 →
        pAd'.field = pAd.field - pAd.lastTempCompDeltaPwr.toInt + pAd.compensationAt channel temp) := by
  intro pAd'
  have hs := steps_bounds (pAd.minusBdy channel) (pAd.plusBdy channel) temp
  have hu := unpack_bounds (pAd.txAlcCfg1.setWidth 8)
  obtain ⟨hmp, hl⟩ := h
  have hdelta : (compLevel (pAd.minusBdy channel) (pAd.plusBdy channel) 8 2 temp - pAd.mpDeltaPwr).toInt =
      pAd.compensationAt channel temp := by
    rw [toInt_sub_small (by rw [toInt_compLevel]; omega), toInt_compLevel]
    rfl
  have hbefore : (unpack (pAd.txAlcCfg1.setWidth 8) - pAd.lastTempCompDeltaPwr).toInt =
      pAd.field - pAd.lastTempCompDeltaPwr.toInt :=
    toInt_sub_small (by omega)
  refine ⟨hdelta, fun hlo hhi => ?_⟩
  have hsum := toInt_add_small (a := compLevel (pAd.minusBdy channel) (pAd.plusBdy channel) 8 2 temp - pAd.mpDeltaPwr)
    (b := unpack (pAd.txAlcCfg1.setWidth 8) - pAd.lastTempCompDeltaPwr) (by omega)
  have hfield : pAd'.field = (unpack (pack (compLevel (pAd.minusBdy channel) (pAd.plusBdy channel) 8 2 temp -
      pAd.mpDeltaPwr + (unpack (pAd.txAlcCfg1.setWidth 8) - pAd.lastTempCompDeltaPwr)))).toInt := by
    simp only [Adapter.field, pAd', Adapter.compensate]
    rw [BitVec.setWidth_or, BitVec.setWidth_and, BitVec.setWidth_setWidth_of_le _ (by decide), BitVec.setWidth_eq]
    exact congrArg BitVec.toInt (unpack_low _ _)
  rw [hfield, unpack_pack _ (by omega) (by omega), hsum, hdelta, hbefore]
  omega

/-- **One step.** An event that compensates nothing leaves the field and what was added last, and every other one
replaces what was added last by what it asks for. -/
theorem step_spec {pAd : Adapter} (h : pAd.Ready) (e : Event) :
    SameTables pAd (step pAd e) ∧
      match pAd.asked e with
      | none => (step pAd e).field = pAd.field ∧ (step pAd e).lastTempCompDeltaPwr = pAd.lastTempCompDeltaPwr
      | some c =>
        (-28 ≤ c ∧ c ≤ 28) ∧ (step pAd e).lastTempCompDeltaPwr.toInt = c ∧
          (-32 ≤ pAd.field - pAd.lastTempCompDeltaPwr.toInt + c →
            pAd.field - pAd.lastTempCompDeltaPwr.toInt + c ≤ 31 →
            (step pAd e).field = pAd.field - pAd.lastTempCompDeltaPwr.toInt + c) := by
  match e with
  | .writeHigh high => exact ⟨⟨rfl, rfl⟩, congrArg BitVec.toInt (unpack_writeHigh high _), rfl⟩
  | .tempTxAlc channel none =>
    have hsame : step pAd (.tempTxAlc channel none) = pAd := by
      simp only [step, mt76x0TempTxAlc, ite_self]
    rw [hsame]
    exact ⟨⟨rfl, rfl⟩, rfl, rfl⟩
  | .tempTxAlc channel (some temp) =>
    by_cases hen : pAd.enabled channel = true
    · have hstep : step pAd (.tempTxAlc channel (some temp)) =
          { pAd with currTemperature := temp }.compensate channel
            (compLevel (pAd.minusBdy channel) (pAd.plusBdy channel) 8 2 temp) := by
        simp only [step, mt76x0TempTxAlc, hen, Bool.true_eq_false, if_false]
        have hen' : { pAd with currTemperature := temp }.enabled channel = true := hen
        simp only [getTempTxAlcLevel, hen', if_true]
        rfl
      have hspec := @compensate_spec { pAd with currTemperature := temp } ⟨h.mp, h.last⟩ channel temp
      rw [hstep]
      simp only [Adapter.asked, hen, if_true]
      exact ⟨⟨rfl, rfl⟩, pAd.compensationAt_bounds h channel temp, hspec⟩
    · have hsame : step pAd (.tempTxAlc channel (some temp)) = pAd := by
        simp only [step, mt76x0TempTxAlc, Bool.not_eq_true _ ▸ hen, if_true]
      rw [hsame]
      simp only [Adapter.asked, hen]
      exact ⟨⟨rfl, rfl⟩, trivial, trivial⟩

theorem ready_step {pAd : Adapter} (h : pAd.Ready) (e : Event) : (step pAd e).Ready := by
  obtain ⟨hsame, hspec⟩ := step_spec h e
  refine ⟨hsame.mp ▸ h.mp, ?_⟩
  cases hc : pAd.asked e with
  | none =>
    rw [hc] at hspec
    exact hspec.2 ▸ h.last
  | some c =>
    rw [hc] at hspec
    rw [hspec.2.1]
    exact hspec.1

/-! ### Runs -/

/-- What a run leaves added: what the last event that compensates asked for, or else `last`. -/
def compensation (asked : Event → Option ℤ) (last : ℤ) : List Event → ℤ
  | [] => last
  | e :: es => compensation asked ((asked e).getD last) es

theorem compensation_append (asked : Event → Option ℤ) (last : ℤ) (es : List Event) (e : Event) :
    compensation asked last (es ++ [e]) = (asked e).getD (compensation asked last es) := by
  induction es generalizing last with
  | nil => rfl
  | cons x es ih => exact ih _

/-- The sum of the base, which is the field without what was added last, and of `c` fits the six bits. -/
def Adapter.Fits (pAd : Adapter) (c : ℤ) : Prop :=
  -32 ≤ pAd.field - pAd.lastTempCompDeltaPwr.toInt + c ∧ pAd.field - pAd.lastTempCompDeltaPwr.toInt + c ≤ 31

/-- **One step keeps the base**, if it does not ask for more than fits. -/
theorem base_step {pAd : Adapter} (h : pAd.Ready) {e : Event} (hfits : ∀ c, pAd.asked e = some c → pAd.Fits c) :
    (step pAd e).field - (step pAd e).lastTempCompDeltaPwr.toInt = pAd.field - pAd.lastTempCompDeltaPwr.toInt ∧
      (step pAd e).lastTempCompDeltaPwr.toInt = (pAd.asked e).getD pAd.lastTempCompDeltaPwr.toInt := by
  have hspec := (step_spec h e).2
  cases hc : pAd.asked e with
  | none =>
    rw [hc] at hspec
    rw [hspec.1, hspec.2]
    exact ⟨rfl, rfl⟩
  | some c =>
    rw [hc] at hspec
    obtain ⟨hlo, hhi⟩ := hfits c hc
    rw [hspec.2.2 hlo hhi, hspec.2.1]
    exact ⟨Int.add_sub_cancel _ _, rfl⟩

/-- A run keeps the base. -/
theorem base_run {pAd : Adapter} (h : pAd.Ready) (es : List Event)
    (hfits : ∀ e ∈ es, ∀ c, pAd.asked e = some c → pAd.Fits c) :
    (run step pAd es).field - (run step pAd es).lastTempCompDeltaPwr.toInt =
        pAd.field - pAd.lastTempCompDeltaPwr.toInt ∧
      (run step pAd es).lastTempCompDeltaPwr.toInt =
        compensation pAd.asked pAd.lastTempCompDeltaPwr.toInt es := by
  induction es generalizing pAd with
  | nil => exact ⟨rfl, rfl⟩
  | cons e es ih =>
    obtain ⟨hbase, hlast⟩ := base_step h (hfits e List.mem_cons_self)
    have hasked := (step_spec h e).1.asked
    have hrest : ∀ x ∈ es, ∀ c, (step pAd e).asked x = some c → (step pAd e).Fits c := by
      intro x hx c hc
      rw [Adapter.Fits, hbase]
      exact hfits x (List.mem_cons_of_mem e hx) c (hasked ▸ hc)
    obtain ⟨hbase', hlast'⟩ := ih (ready_step h e) hrest
    rw [run_cons, compensation, hbase', hlast', hbase, hlast, hasked]
    exact ⟨rfl, rfl⟩

/-! ### From initialisation on -/

theorem ready_init (pAd : Adapter) (mpTemp : Byte) : (mt76x0TempTxAlcInit pAd mpTemp).Ready := by
  refine ⟨?_, (by decide : (-28 : ℤ) ≤ (0#8).toInt ∧ (0#8).toInt ≤ 28)⟩
  simp only [mt76x0TempTxAlcInit, Adapter.initG, adjustMpTemp, toInt_compLevel]
  exact steps_bounds _ _ _

/-- **The compensation does not drift.** After initialisation, whatever the tables of the EEPROM, the field is in
every state of a run the value it began with plus what the last measured temperature asks for in the tables of the
channel in use, exactly if these sums all fit the six bits; no earlier temperature, channel or band is left in
it. -/
theorem field_run_iff (pAd : Adapter) (mpTemp : Byte) (es : List Event) :
    let start := mt76x0TempTxAlcInit pAd mpTemp
    (∀ pre, pre <+: es → (run step start pre).field = pAd.field + compensation start.asked 0 pre) ↔
      ∀ e ∈ es, ∀ c, start.asked e = some c → -32 ≤ pAd.field + c ∧ pAd.field + c ≤ 31 := by
  intro start
  have hready : start.Ready := ready_init pAd mpTemp
  have hlast : start.lastTempCompDeltaPwr.toInt = 0 := rfl
  have hfield : start.field = pAd.field := rfl
  constructor
  · intro h e he c hc
    obtain ⟨before, after, rfl⟩ := List.append_of_mem he
    have hpre : before ++ [e] <+: before ++ e :: after := ⟨after, by simp⟩
    have hsum := h _ hpre
    rw [compensation_append, hc] at hsum
    exact hsum ▸ unpack_bounds _
  · intro h pre hpre
    have hfits : ∀ e ∈ pre, ∀ c, start.asked e = some c → start.Fits c := by
      intro e he c hc
      rw [Adapter.Fits, hlast, hfield, Int.sub_zero]
      exact h e (hpre.subset he) c hc
    obtain ⟨hbase, hcomp⟩ := base_run hready pre hfits
    rw [hlast] at hbase hcomp
    rw [← hcomp, ← hfield]
    omega

/-- **The sign of the compensation.** At the temperature of manufacture nothing is compensated in the 2.4 GHz
band, below it the power is never raised and above it never lowered, and in no table does it fall as the
temperature rises; in a group of 5 GHz channels this level is the one of its own table less that of the 2.4 GHz
table. -/
theorem compensationAt_init (pAd : Adapter) (mpTemp channel temp temp' : Byte) :
    let start := mt76x0TempTxAlcInit pAd mpTemp
    (temp.toInt ≤ temp'.toInt → start.compensationAt channel temp ≤ start.compensationAt channel temp') ∧
      start.compensationAt channel mpTemp =
        steps (start.minusBdy channel) (start.plusBdy channel) mpTemp -
          steps start.tssiMinusBoundaryG start.tssiPlusBoundaryG mpTemp ∧
      (channel ≤ 14#8 →
        start.compensationAt channel mpTemp = 0 ∧
          (temp.toInt ≤ mpTemp.toInt → start.compensationAt channel temp ≤ 0) ∧
          (mpTemp.toInt ≤ temp.toInt → 0 ≤ start.compensationAt channel temp)) := by
  intro start
  have hmono {t t' : Byte} (h : t.toInt ≤ t'.toInt) :
      start.compensationAt channel t ≤ start.compensationAt channel t' :=
    Int.sub_le_sub_right (steps_mono _ _ h) _
  have hmp : start.compensationAt channel mpTemp = steps (start.minusBdy channel) (start.plusBdy channel) mpTemp -
      steps start.tssiMinusBoundaryG start.tssiPlusBoundaryG mpTemp :=
    congrArg (steps (start.minusBdy channel) (start.plusBdy channel) mpTemp - ·) (toInt_compLevel _ _ mpTemp)
  refine ⟨hmono, hmp, fun hband => ?_⟩
  have hzero : start.compensationAt channel mpTemp = 0 := by
    rw [hmp, Adapter.minusBdy, Adapter.plusBdy, if_pos hband, if_pos hband]
    exact Int.sub_self _
  exact ⟨hzero, fun h => hzero ▸ hmono h, fun h => hzero ▸ hmono h⟩

end Mt7610u.TxPower
