import Mt7610u.RateCtrl.Entry

/-! # The legacy rate adaptation

`rate_ctrl/alg_legacy.c` for one entry whose table is a legacy table, with `MlmeGetSupportedMcs` and
`MlmeSelectTxRate` of `rate_ctrl/ra_ctrl.c`. -/

namespace Mt7610u.RateCtrl

open RateTable

/-! ### The choice by RSSI -/

/-- `mcs[k]` -/
def mcsAt (mcs : List ℤ) (k : ℕ) : ℤ := mcs.getD k (-1)

/-- Where `MlmeGetSupportedMcs` enters the row: HT and legacy rates have priority over CCK. -/
def mcsSlot (mcs : List ℤ) (row : RateRow) : Option ℕ :=
  if row.currMCS ≤ 2 ∧ (mcsAt mcs row.currMCS = -1 ∨ row.mode ≠ modeCCK) then some row.currMCS
  else if 3 ≤ row.currMCS ∧ row.currMCS ≤ 6 then some row.currMCS
  else if row.currMCS = 7 ∧ !row.shortGI then some 7
  else if 12 ≤ row.currMCS ∧ row.currMCS ≤ 14 then some row.currMCS
  else if row.currMCS = 15 ∧ !row.shortGI then some 15
  else none

/-- The loop over the rows of the table; `-1` is "not supported". -/
def fillMcs (slot : List ℤ → RateRow → Option ℕ) (t : RateTable) : List ℤ :=
  t.rows.zipIdx.foldl (fun mcs rowIdx =>
    match slot mcs rowIdx.1 with
    | some k => mcs.set k rowIdx.2
    | none => mcs) (List.replicate 24 (-1))

def mlmeGetSupportedMcs (t : RateTable) : List ℤ := fillMcs mcsSlot t

/-- A test of `MlmeSelectTxRate`: `mcs[mcs]` exists, the RSSI reaches `rssi`, the rate `tested` is recorded, and
`mcs[pick]` is taken. -/
structure Rung where
  mcs : ℕ
  rssi : ℤ
  tested : ℕ
  pick : ℕ

def Rung.of (mcs : ℕ) (rssi : ℤ) : Rung := ⟨mcs, rssi, mcs, mcs⟩

def climb (mcs : List ℤ) (takes : Rung → Bool) (fallback : ℤ) : List Rung → ℤ
  | [] => fallback
  | g :: gs => if takes g then mcsAt mcs g.pick else climb mcs takes fallback gs

/-- The test as `MlmeSelectTxRate` makes it. -/
def takesRung (mcs : List ℤ) (reaches : ℤ → Bool) (recorded : ℕ → Bool) (g : Rung) : Bool :=
  0 ≤ mcsAt mcs g.mcs && reaches g.rssi && recorded g.tested

def rungs2S : List Rung :=
  [.of 15 (-70), .of 14 (-72), .of 13 (-76), .of 12 (-78), .of 4 (-82), .of 3 (-84), .of 2 (-86), .of 1 (-88)]

def rungs1S : List Rung :=
  [.of 7 (-72), .of 6 (-74), .of 5 (-77), .of 4 (-79), .of 3 (-81), .of 2 (-83), .of 1 (-86)]

def rungsVht1S : List Rung := ⟨9, -72, 9, 8⟩ :: .of 8 (-72) :: rungs1S

def rungsHighOFDM : List Rung := [⟨7, -70, 7, 7⟩, ⟨6, -74, 7, 6⟩, ⟨5, -78, 7, 5⟩, ⟨4, -82, 7, 4⟩]

def rungsLow : List Rung := [.of 3 (-85), .of 2 (-87), .of 1 (-90)]

/-- The last case of `MlmeSelectTxRate`; without MCS 4 the table is the one for B only. -/
def selectLegacyMode (r : SupportMcs) (mcs : List ℤ) (rssi : ℤ) : ℤ :=
  let reaches := fun bound => decide (rssi > bound)
  let bOnly := climb mcs (takesRung mcs reaches r.supportCCKMCS)
    (if r.supportCCKMCS 0 then mcsAt mcs 0 else mcsAt mcs 3) rungsLow
  let low := climb mcs (takesRung mcs reaches r.supportOFDMMCS) (mcsAt mcs 0) rungsLow
  climb mcs (takesRung mcs reaches r.supportOFDMMCS) (if mcsAt mcs 4 = -1 then bOnly else low) rungsHighOFDM

def mlmeSelectTxRate (r : SupportMcs) (t : RateTable) (mcs : List ℤ) (rssi rssiOffset : ℤ) : ℕ :=
  let exceeds := fun bound => decide (rssi > bound + rssiOffset)
  let atLeast := fun bound => decide (rssi ≥ bound + rssiOffset)
  uchar <| match t with
    | rateTableVht2S => climb mcs (takesRung mcs atLeast r.supportVHTMCS) (mcsAt mcs 0) rungs2S
    | rateTableVht1S => climb mcs (takesRung mcs exceeds r.supportVHTMCS) (mcsAt mcs 0) rungsVht1S
    | rateTableVht1SMcs7 => climb mcs (takesRung mcs exceeds r.supportVHTMCS) (mcsAt mcs 0) rungs1S
    | rateSwitchTable11BGN2S | rateSwitchTable11BGN2SForABand | rateSwitchTable11N2S
    | rateSwitchTable11N2SForABand | rateSwitchTableAdapt11N2S =>
      climb mcs (takesRung mcs atLeast r.supportHTMCS) (mcsAt mcs 0) rungs2S
    | rateSwitchTable11BGN1S | rateSwitchTable11N1S | rateSwitchTable11N1SForABand
    | rateSwitchTableAdapt11N1S =>
      climb mcs (takesRung mcs exceeds r.supportHTMCS) (mcsAt mcs 0) rungs1S
    | rateSwitchTable11B | rateSwitchTable11BG | rateSwitchTable11G => selectLegacyMode r mcs rssi

/-! ### The next rates up and down -/

/-- The first index from `idx` on, of `n`, with `p`. -/
def firstFrom (p : ℕ → Bool) : ℕ → ℕ → Option ℕ
  | _, 0 => none
  | idx, n + 1 => if p idx then some idx else firstFrom p (idx + 1) n

/-- The last index below `n` with `p`. -/
def lastBelow (p : ℕ → Bool) : ℕ → Option ℕ
  | 0 => none
  | n + 1 => if p n then some n else lastBelow p n

def searchedArray (r : SupportMcs) (row : RateRow) : ℕ → Bool :=
  if row.mode ≤ modeCCK ∧ r.supportRateMode ≤ supportCCKMode then r.readCCK
  else if row.mode ≤ modeOFDM ∧ r.supportRateMode < supportHTMode then r.readOFDM
  else r.supportHTMCS

/-- The search stops at the row `idx`. -/
def searchHit (t : RateTable) (array : ℕ → Bool) (idx : ℕ) : Bool :=
  match t.rows[idx]? with
  | some row => array row.currMCS
  | none => false

/-- `UpRateIdx` and `DownRateIdx`; where nothing is found they are the current index. -/
def searchRates (t : RateTable) (array : ℕ → Bool) (curr : ℕ) : ℕ × ℕ :=
  ((firstFrom (searchHit t array) (curr + 1) (t.size - (curr + 1))).getD curr,
    (lastBelow (searchHit t array) curr).getD curr)

/-! ### `MlmeOldRateAdapt` -/

def decRates (curr up : ℕ) (e : RaEntry) : RaEntry :=
  let e := mlmeDecTxQuality e curr
  if e.txRateUpPenalty ≠ 0 then { e with txRateUpPenalty := e.txRateUpPenalty - 1 }
  else mlmeDecTxQuality e up

def oldTrain (t : RateTable) (e : RaEntry) (curr up down trainUp trainDown ratio : ℕ) :
    Except Fault RaEntry :=
  if ratio ≥ trainDown then do
    t.access curr
    let e := mlmeSetTxQuality e curr drsTxQualityWorstBound
    return if curr ≠ down then
      { e with currTxRateIndex := down, lastSecTxRateChangeAction := .down } else e
  else if ratio ≤ trainUp then do
    t.access curr
    t.access up
    let e := decRates curr up e
    return if curr ≠ up ∧ e.txQuality up = 0 then
      { e with currTxRateIndex := up, lastSecTxRateChangeAction := .up } else e
  else return e

def oldChange (pAd : Adapter) (t : RateTable) (e : RaEntry) (curr : ℕ) : Except Fault RaEntry :=
  if e.lastSecTxRateChangeAction ≠ .noChange then do
    let e := { e with txRateUpPenalty := 0, lastRateIdx := curr, quickTimerRunning := true }
    t.access e.currTxRateIndex
    mlmeNewTxRate pAd t <|
      if e.lastSecTxRateChangeAction = .up then
        if e.lastRateIdx ≠ e.currTxRateIndex then mlmeClearTxQuality e else e
      else setPER (mlmeSetTxQuality e e.currTxRateIndex 0) e.currTxRateIndex 0
  else return e

def mlmeOldRateAdapt (pAd : Adapter) (t : RateTable) (e : RaEntry)
    (curr up down trainUp trainDown ratio : ℕ) : Except Fault RaEntry := do
  let e ← oldTrain t { e with lastSecTxRateChangeAction := .noChange } curr up down trainUp trainDown ratio
  oldChange pAd t e curr

/-! ### `MlmeDynamicTxRateSwitching` -/

def legacyRssiOffset (pAd : Adapter) : ℤ :=
  if pAd.channel ≤ 14 then (if pAd.externalLNAForG then 2 else 5) else if pAd.externalLNAForA then 5 else 8

def legacyByRssi (pAd : Adapter) (rssi : ℤ) (t : RateTable) (e : RaEntry) : Except Fault RaEntry := do
  let idx := mlmeSelectTxRate e.support t (mlmeGetSupportedMcs t) rssi (legacyRssiOffset pAd)
  let e ← mlmeNewTxRate pAd t { e with currTxRateIndex := idx }
  return { mlmeClearTxQuality e with fLastSecAccordingRSSI := true }

def clampedIdx (t : RateTable) (e : RaEntry) : ℕ :=
  if e.currTxRateIndex ≥ t.size then t.size - 1 else e.currTxRateIndex

def storeLast (c : TxCount) (e : RaEntry) : RaEntry :=
  { e with
    lastTxOkCount := c.txSuccess
    lastTxPER := c.errorRatio
    lastTimeTxRateChangeAction := e.lastSecTxRateChangeAction }

def Sample.rssi (s : Sample) (pAd : Adapter) (e : RaEntry) (alone : Bool) : ℤ :=
  if alone ∨ (pAd.infraOn ∧ e.peer.wcid = 1) then s.staRssi else s.entryRssi

def legacyTick (pAd : Adapter) (s : Sample) (t : RateTable) (e : RaEntry) : Except Fault RaEntry := do
  let alone := pAd.macTabSize = 1 ∨ e.peer.isDls
  let c := s.count alone
  let rssi := s.rssi pAd e alone
  let curr := clampedIdx t e
  let e := storeLast c e
  let row ← t.entry curr
  if e.htPhyMode.mcs ≠ row.currMCS then
    -- from a fixed to an automatic rate
    mlmeNewTxRate pAd t { e with currTxRateIndex := t.initIndex }
  else if c.total ≤ 15 then legacyByRssi pAd rssi t e
  else if e.fLastSecAccordingRSSI then
    return { e with fLastSecAccordingRSSI := false, lastSecTxRateChangeAction := .noChange }
  else do
    let next := searchRates t (searchedArray e.support row) curr
    let train := trainThresholds rssi true row
    t.access curr
    mlmeOldRateAdapt pAd t (setPER e curr c.errorRatio) curr next.1 next.2 train.1 train.2 c.errorRatio

/-! ### `StaQuickResponeForRateUpExec` -/

def legacyCompare (pAd : Adapter) (c : TxCount) (trainDown : ℕ) (curr : ℕ) (e : RaEntry) : RaEntry :=
  let scaled := scaledSuccess pAd e c
  let e := if c.errorRatio ≥ trainDown then mlmeSetTxQuality e curr drsTxQualityWorstBound else e
  match e.lastSecTxRateChangeAction with
  | .up => if c.errorRatio ≥ trainDown then mlmeRestoreLastRate e else e
  | .down =>
    if c.errorRatio ≥ 50 ∨ c.errorRatio ≥ trainDown then e
    else if e.lastTxOkCount + 2 ≥ scaled then mlmeRestoreLastRate e
    else e
  | .noChange => e

/-- A rate other than `curr` is entered and set. -/
def legacyRestored (pAd : Adapter) (t : RateTable) (curr : ℕ) (e : RaEntry) : Except Fault RaEntry :=
  if e.currTxRateIndex ≠ curr then do
    t.access e.currTxRateIndex
    mlmeNewTxRate pAd t <|
      match e.lastSecTxRateChangeAction with
      | .down => mlmeClearTxQuality { e with txRateUpPenalty := 0 }
      | .up =>
        setPER (mlmeSetTxQuality { e with txRateUpPenalty := 0 } e.currTxRateIndex 0) e.currTxRateIndex 0
      | .noChange => e
  else return e

def legacyQuick (pAd : Adapter) (s : Sample) (t : RateTable) (e : RaEntry) : Except Fault RaEntry := do
  let curr := e.currTxRateIndex
  let row ← t.entry curr
  let c := s.count (pAd.macTabSize = 1)
  let train := trainThresholds (s.rssi pAd e false) true row
  t.access curr
  if c.total ≤ 12 then
    let e := mlmeClearTxQuality e
    let e := if e.lastSecTxRateChangeAction = .up then mlmeSetTxQuality e curr drsTxQualityWorstBound else e
    mlmeNewTxRate pAd t (mlmeRestoreLastRate e)
  else legacyRestored pAd t curr (legacyCompare pAd c train.2 curr (setPER e curr c.errorRatio))

end Mt7610u.RateCtrl
