import Mt7610u.RateCtrl.Tables
import Mathlib.Data.Nat.Bitwise

/-! # The rates of a peer

`RTMPSetSupportMCS` of `rate_ctrl/ra_ctrl.c` records which rates a peer supports: one array a mode, and
`SupportRateMode`, which has a bit for every mode with a recorded rate. -/

namespace Mt7610u.RateCtrl

/-- `SUPPORT_CCK_MODE` … `SUPPORT_VHT_MODE` -/
def supportCCKMode : ℕ := 1
def supportOFDMMode : ℕ := 2
def supportHTMode : ℕ := 4
def supportVHTMode : ℕ := 8

/-- `MAX_LEN_OF_CCK_RATES` … `MAX_LEN_OF_VHT_RATES` -/
def maxLenOfCCKRates : ℕ := 4
def maxLenOfOFDMRates : ℕ := 8
def maxLenOfHTRates : ℕ := 24
def maxLenOfVHTRates : ℕ := 16

def maxLenOfSupportedRates : ℕ := 12

/-- `VHT_MCS_CAP_8`, `VHT_MCS_CAP_9`, `VHT_MCS_CAP_NA` -/
def vhtMcsCap8 : ℕ := 1
def vhtMcsCap9 : ℕ := 2
def vhtMcsCapNA : ℕ := 3

structure SupportMcs where
  supportRateMode : ℕ
  supportCCKMCS : ℕ → Bool
  supportOFDMMCS : ℕ → Bool
  supportHTMCS : ℕ → Bool
  supportVHTMCS : ℕ → Bool

namespace SupportMcs

def zero : SupportMcs := ⟨0, fun _ => false, fun _ => false, fun _ => false, fun _ => false⟩

/-- `SupportRateMode & mode` -/
def claims (r : SupportMcs) (mode : ℕ) : Bool := r.supportRateMode &&& mode != 0

/-- `SupportOFDMMCS[i]`; behind the array lies `SupportHTMCS`. -/
def readOFDM (r : SupportMcs) (i : ℕ) : Bool :=
  if i < maxLenOfOFDMRates then r.supportOFDMMCS i else r.supportHTMCS (i - maxLenOfOFDMRates)

/-- `SupportCCKMCS[i]`; behind the array lies `SupportOFDMMCS`. -/
def readCCK (r : SupportMcs) (i : ℕ) : Bool :=
  if i < maxLenOfCCKRates then r.supportCCKMCS i else r.readOFDM (i - maxLenOfCCKRates)

def recorded (r : SupportMcs) (row : RateRow) : Bool :=
  if row.mode = modeCCK then row.currMCS < maxLenOfCCKRates && r.supportCCKMCS row.currMCS
  else if row.mode = modeOFDM then row.currMCS < maxLenOfOFDMRates && r.supportOFDMMCS row.currMCS
  else if row.mode = modeVHT then r.supportVHTMCS ((row.dataRate - 1) * 8 + row.currMCS)
  else row.currMCS < maxLenOfHTRates && r.supportHTMCS row.currMCS

end SupportMcs

/-! ### `RTMPSetSupportMCS` -/

/-- What a peer has announced: its two lists of legacy rates in units of 500 kb/s, the `MCSSet` of its HT
capabilities and the receive map of its VHT capabilities, streams 1 and 2. -/
structure PeerRates where
  supRate : List ℕ
  extRate : List ℕ
  htCapability : Option (List ℕ)
  vhtCap : Option (ℕ × ℕ)

/-- What the station wants: `DesiredHtPhyInfo.MCSSet`, `vht_bw == VHT_BW_80`, and `CommonCfg.TxStream`. -/
structure DesiredPhy where
  mcsSet : List ℕ
  vhtBw80 : Bool
  txStream : ℕ

def rateSlot : ℕ → Option (ℕ × ℕ)
  | 10 => some (modeCCK, 0)
  | 20 => some (modeCCK, 1)
  | 55 => some (modeCCK, 2)
  | 110 => some (modeCCK, 3)
  | 60 => some (modeOFDM, 0)
  | 90 => some (modeOFDM, 1)
  | 120 => some (modeOFDM, 2)
  | 180 => some (modeOFDM, 3)
  | 240 => some (modeOFDM, 4)
  | 360 => some (modeOFDM, 5)
  | 480 => some (modeOFDM, 6)
  | 540 => some (modeOFDM, 7)
  | _ => none

/-- `RateDefault`, for a list that is too long. -/
def rateDefault : List ℕ := [0x82, 0x84, 0x8b, 0x96, 0x12, 0x24, 0x48, 0x6c]

/-- The first `SupportedRatesLen` octets of `SupportedRates`. If the two lists do not fit, the length is that
of the array, and octets that were not copied are those of the `stack`. -/
def supportedRates (stack : ℕ → ℕ) (supRate extRate : List ℕ) : List ℕ :=
  let first := if supRate.length ≤ maxLenOfSupportedRates then supRate else rateDefault
  if extRate = [] then first
  else if supRate.length + extRate.length ≤ maxLenOfSupportedRates then supRate ++ extRate
  else (List.range maxLenOfSupportedRates).map fun i =>
    if i < first.length then first.getD i 0
    else if i < supRate.length then stack i
    else if i < supRate.length + (maxLenOfSupportedRates - extRate.length) then
      extRate.getD (i - supRate.length) 0
    else stack i

/-- One turn of the loop over `SupportedRates`. -/
def recordRate (r : SupportMcs) (rate : ℕ) : SupportMcs :=
  match rateSlot (rate % 128 * 5) with
  | none => r
  | some (mode, mcs) =>
    if mode = modeCCK then
      { r with
        supportCCKMCS := Function.update r.supportCCKMCS mcs true
        supportRateMode := r.supportRateMode ||| supportCCKMode }
    else
      { r with
        supportOFDMMCS := Function.update r.supportOFDMMCS mcs true
        supportRateMode := r.supportRateMode ||| supportOFDMMode }

/-- Bit `i` of an `MCSSet`. -/
def mcsBit (mcsSet : List ℕ) (i : ℕ) : Bool := (mcsSet.getD (i / 8) 0).testBit (i % 8)

def recordHT (desired : DesiredPhy) (mcsSet : List ℕ) (r : SupportMcs) : SupportMcs :=
  let both := fun i => decide (i < maxLenOfHTRates) && mcsBit desired.mcsSet i && mcsBit mcsSet i
  { r with
    supportHTMCS := both
    supportRateMode :=
      if (List.range maxLenOfHTRates).any both then r.supportRateMode ||| supportHTMode
      else r.supportRateMode }

/-- `case 2` of the switch over `TxStream`, which falls through to `case 1`. -/
def recordVHT2 (ss2 : ℕ) (r : SupportMcs) : SupportMcs :=
  if ss2 < vhtMcsCapNA then
    { r with
      supportVHTMCS := fun i => (8 ≤ i && i < maxLenOfVHTRates) || r.supportVHTMCS i
      supportRateMode := r.supportRateMode ||| supportVHTMode }
  else r

/-- `case 1` -/
def recordVHT1 (ss1 : ℕ) (r : SupportMcs) : SupportMcs :=
  if ss1 < vhtMcsCapNA then
    { r with
      supportVHTMCS := fun i =>
        i ≤ 7 || (ss1 = vhtMcsCap8 && i = 8) || (ss1 = vhtMcsCap9 && (i = 8 || i = 9)) || r.supportVHTMCS i
      supportRateMode := r.supportRateMode ||| supportVHTMode }
  else r

def recordVHT (desired : DesiredPhy) (vhtCap : Option (ℕ × ℕ)) (r : SupportMcs) : SupportMcs :=
  match vhtCap with
  | none => r
  | some (ss1, ss2) =>
    if desired.vhtBw80 then
      if desired.txStream = 2 then recordVHT1 ss1 (recordVHT2 ss2 r)
      else if desired.txStream = 1 then recordVHT1 ss1 r
      else r
    else r

def rtmpSetSupportMCS (stack : ℕ → ℕ) (desired : DesiredPhy) (p : PeerRates) : SupportMcs :=
  let r := (supportedRates stack p.supRate p.extRate).foldl recordRate .zero
  match p.htCapability with
  | none => r
  | some mcsSet => recordVHT desired p.vhtCap (recordHT desired mcsSet r)

end Mt7610u.RateCtrl
