import Mt7610u.RateCtrl.Legacy

/-! # The group rate adaptation

`rate_ctrl/alg_grp.c` for one entry whose table is a group table, in which every row names the next rate down
and, for each group of rates, the next rate up. -/

namespace Mt7610u.RateCtrl

open RateTable

/-! ### The next rate up -/

def threeStreams (pAd : Adapter) (p : Peer) : Bool := p.mcsOctet 2 = 0xff ∧ pAd.txStream = 3

def twoStreams (pAd : Adapter) (p : Peer) : Bool :=
  p.mcsOctet 0 = 0xff ∧ p.mcsOctet 1 = 0xff ∧ pAd.txStream > 1 ∧ (pAd.txStream = 2 ∨ p.mcsOctet 2 = 0)

/-- `UpRateIdx` gives way to a link of better quality, unless that is a link to the row itself. -/
def preferLink (t : RateTable) (e : RaEntry) (row : RateRow) (link up : ℕ) : Except Fault ℕ := do
  t.access up
  return if e.txQuality up > e.txQuality link ∧ link ≠ row.itemNo then link else up

/-- The switch over `mcsGroup`. In group 0 the best of the links is taken. -/
def groupLink (pAd : Adapter) (t : RateTable) (e : RaEntry) (row : RateRow) : Except Fault ℕ :=
  if threeStreams pAd e.peer then
    match e.mcsGroup with
    | 0 => do
      let up := if row.upMcs3 = row.itemNo then
          (if row.upMcs2 = row.itemNo then row.upMcs1 else row.upMcs2) else row.upMcs3
      let up ← preferLink t e row row.upMcs2 up
      preferLink t e row row.upMcs1 up
    | 3 => return row.upMcs3
    | 2 => return row.upMcs2
    | 1 => return row.upMcs1
    | _ => return 0
  else if twoStreams pAd e.peer ∨ t = rateTableVht2S then
    match e.mcsGroup with
    | 0 =>
      preferLink t e row row.upMcs1 (if row.upMcs2 = row.itemNo then row.upMcs1 else row.upMcs2)
    | 2 => return row.upMcs2
    | 1 => return row.upMcs1
    | _ => return 0
  else
    match e.mcsGroup with
    | 0 | 1 => return row.upMcs1
    | _ => return 0

def skipsMcs32 (pAd : Adapter) (p : Peer) : Bool :=
  p.maxHTPhyMode.bw ≠ .bw40 ∨ pAd.bbpCurrentBW ≠ .bw40 ∨ !(p.mcsOctet 4).testBit 0

def markShortGI (next : RateRow) (up : ℕ) (e : RaEntry) : RaEntry :=
  if next.shortGI ∧ !e.peer.maxHTPhyMode.shortGI then
    mlmeSetTxQuality e up (drsTxQualityWorstBound * 2)
  else e

/-- One turn of the loop of `MlmeSelectUpRate`, and whether another group is tried. -/
def upTurn (pAd : Adapter) (t : RateTable) (row : RateRow) (e : RaEntry) :
    Except Fault (ℕ × RaEntry × Bool) := do
  let up ← groupLink pAd t e row
  let next ← t.entry up
  if next.currMCS = 32 ∧ skipsMcs32 pAd e.peer then
    return (next.upMcs1, { e with mcsGroup := 1 }, false)
  else do
    t.access up
    let e := markShortGI next up e
    return if up = e.currTxRateIndex then (up, { e with mcsGroup := 0 }, false)
      else (up, e, 0 < e.txQuality up)

/-- The loop from group `group` on, which is `e.mcsGroup`. -/
def selectUpFrom (pAd : Adapter) (t : RateTable) (row : RateRow) :
    ℕ → RaEntry → Except Fault (ℕ × RaEntry)
  | 0, e => do
    let (up, e, _) ← upTurn pAd t row e
    return (up, e)
  | group + 1, e => do
    let (up, e, again) ← upTurn pAd t row e
    if again then selectUpFrom pAd t row group { e with mcsGroup := group } else return (up, e)

def mlmeSelectUpRate (pAd : Adapter) (t : RateTable) (row : RateRow) (e : RaEntry) :
    Except Fault (ℕ × RaEntry) :=
  selectUpFrom pAd t row e.mcsGroup e

/-! ### The next rate down -/

def validDown (pAd : Adapter) (p : Peer) (row : RateRow) : Bool :=
  if row.mode = modeCCK then pAd.channel ≤ 14
  else if row.currMCS = 32 then
    (p.maxHTPhyMode.bw = .bw40 ∧ pAd.bbpCurrentBW = .bw40) ∨ (p.maxHTPhyMode.bw = .bw80 ∧ pAd.bbpCurrentBW = .bw80)
  else true

/-- The loop of `MlmeSelectDownRate` from `down` on; `fuel` bounds its turns. -/
def downFrom (pAd : Adapter) (t : RateTable) (p : Peer) (curr : ℕ) : ℕ → ℕ → Except Fault ℕ
  | 0, _ => .error .endless
  | fuel + 1, down => do
    let row ← t.entry down
    if validDown pAd p row then return down
    else if down = row.downMcs then return curr
    else downFrom pAd t p curr fuel row.downMcs

def mlmeSelectDownRate (pAd : Adapter) (t : RateTable) (p : Peer) (curr : ℕ) : Except Fault ℕ := do
  let row ← t.entry curr
  downFrom pAd t p curr t.size row.downMcs

/-! ### The choice by RSSI -/

/-- `MlmeGetSupportedMcsAdapt` enters a row of a VHT table by its number of streams. -/
def mcsSlotVht (streams maxMcs : ℕ) (mcs : List ℤ) (row : RateRow) : Option ℕ :=
  if row.currMCS = 0 ∧ row.dataRate = 1 ∧ mcsAt mcs 0 = -1 then some 0
  else if 1 ≤ row.currMCS ∧ row.currMCS ≤ maxMcs ∧ row.dataRate = 1 then some row.currMCS
  else if streams = 2 ∧ row.currMCS ≤ 7 ∧ row.dataRate = 2 then some (8 + row.currMCS)
  else none

def mcsSlotHt (below2 below3 : Bool) (mcs : List ℤ) (row : RateRow) : Option ℕ :=
  if (8 ≤ row.currMCS ∧ below2) ∨ (16 ≤ row.currMCS ∧ below3) then none
  else if row.currMCS ≤ 2 then
    if mcsAt mcs row.currMCS = -1 ∨ row.mode ≠ modeCCK then some row.currMCS else none
  else if row.currMCS ∈ [7, 14, 15, 21, 22, 23] then
    if row.shortGI then none else some row.currMCS
  else if row.currMCS ≤ 20 then some row.currMCS
  else none

/-- `MlmeGetSupportedMcsAdapt`, with `mcs23GI` the long guard interval. -/
def mlmeGetSupportedMcsAdapt (pAd : Adapter) (t : RateTable) : List ℤ :=
  match t with
  | rateTableVht2S => fillMcs (mcsSlotVht 2 7) t
  | rateTableVht1S => fillMcs (mcsSlotVht 1 9) t
  | rateTableVht1SMcs7 => fillMcs (mcsSlotVht 1 7) t
  | _ => fillMcs (mcsSlotHt (pAd.txStream < 2) (pAd.txStream < 3)) t

def rungsAdaptVht2S : List Rung :=
  [.of 15 (-69), .of 14 (-71), .of 13 (-74), .of 12 (-76), .of 11 (-80), .of 10 (-82), .of 9 (-87)]

def rungsAdaptVht1SMcs7 : List Rung :=
  [.of 7 (-71), .of 6 (-73), .of 5 (-76), .of 4 (-78), .of 3 (-82), .of 2 (-84), .of 1 (-89)]

def rungsAdaptVht1S : List Rung := .of 9 (-67) :: .of 8 (-69) :: rungsAdaptVht1SMcs7

def rungsAdapt3S : List Rung :=
  [.of 23 (-72), .of 22 (-74), .of 21 (-77), .of 20 (-79), .of 11 (-81), .of 10 (-83), .of 2 (-86), .of 1 (-88)]

def rungsAdapt2S : List Rung :=
  [.of 15 (-72), .of 14 (-74), .of 13 (-77), .of 12 (-79), .of 11 (-81), .of 10 (-83), .of 2 (-86), .of 1 (-88)]

/-- `MlmeSelectTxRateAdapt` for a group table: the index, and the group that it sets. No test asks what the peer
supports; for a VHT table an index counts as present if it is not 0. -/
def mlmeSelectTxRateAdapt (pAd : Adapter) (p : Peer) (t : RateTable) (mcs : List ℤ)
    (rssi rssiOffset : ℤ) : ℕ × ℕ :=
  let reaches := fun g : Rung => decide (rssi > g.rssi + rssiOffset)
  let takesVht := fun g : Rung => mcsAt mcs g.mcs != 0 && reaches g
  let takesHt := fun g : Rung => 0 ≤ mcsAt mcs g.mcs && reaches g
  match t with
  | rateTableVht2S => (uchar (climb mcs takesVht (mcsAt mcs 0) rungsAdaptVht2S), 2)
  | rateTableVht1S => (uchar (climb mcs takesVht (mcsAt mcs 0) rungsAdaptVht1S), 1)
  | rateTableVht1SMcs7 => (uchar (climb mcs takesVht (mcsAt mcs 0) rungsAdaptVht1SMcs7), 1)
  | _ =>
    if threeStreams pAd p then (uchar (climb mcs takesHt (mcsAt mcs 0) rungsAdapt3S), 3)
    else if twoStreams pAd p then (uchar (climb mcs takesHt (mcsAt mcs 0) rungsAdapt2S), 2)
    else (uchar (climb mcs takesHt (mcsAt mcs 0) rungs1S), 1)

/-! ### `MlmeNewRateAdapt` -/

/-- The quality of a link is decremented once: not for the rates named in `done`. -/
def decLink (link : ℕ) (done : List ℕ) (e : RaEntry) : RaEntry :=
  if link ∈ done then e else mlmeDecTxQuality e link

def decLinks (row : RateRow) (curr up : ℕ) (e : RaEntry) : RaEntry :=
  let e := mlmeDecTxQuality e curr
  if e.txRateUpPenalty ≠ 0 then { e with txRateUpPenalty := e.txRateUpPenalty - 1 }
  else
    let e := mlmeDecTxQuality e up
    let e := decLink row.upMcs3 [curr, up] e
    let e := decLink row.upMcs2 [curr, up, row.upMcs3] e
    decLink row.upMcs1 [curr, up, row.upMcs3, row.upMcs2] e

def decGood (row : RateRow) (curr up trainUp ratio : ℕ) (e : RaEntry) : RaEntry :=
  if ratio ≤ trainUp then decLinks row curr up e
  else if 0 < e.mcsGroup then mlmeDecTxQuality (mlmeDecTxQuality e curr) up
  else e

/-- The first half of `MlmeNewRateAdapt`: the qualities, and whether the rate changes. -/
def newTrain (t : RateTable) (e : RaEntry) (up down trainUp trainDown ratio : ℕ) :
    Except Fault RaEntry := do
  let curr := e.currTxRateIndex
  let row ← t.entry curr
  t.access curr
  if ratio ≥ trainDown then
    let e := mlmeSetTxQuality e curr drsTxQualityWorstBound
    return if curr ≠ down then
      { e with currTxRateIndex := down, lastSecTxRateChangeAction := .down } else e
  else do
    t.access up
    let e := decGood row curr up trainUp ratio e
    return if curr ≠ up ∧ e.txQuality up = 0 ∧ (ratio ≤ trainUp ∨ 0 < e.mcsGroup) then
      { e with currTxRateIndex := up, lastSecTxRateChangeAction := .up } else e

def newChange (pAd : Adapter) (t : RateTable) (e : RaEntry) (curr : ℕ) : Except Fault RaEntry :=
  if e.lastSecTxRateChangeAction ≠ .noChange then do
    let e := { e with txRateUpPenalty := 0, lastRateIdx := curr, quickTimerRunning := true }
    t.access e.currTxRateIndex
    mlmeNewTxRate pAd t <|
      if e.lastSecTxRateChangeAction = .down then
        setPER (mlmeSetTxQuality e e.currTxRateIndex 0) e.currTxRateIndex 0
      else e
  else return e

def mlmeNewRateAdapt (pAd : Adapter) (t : RateTable) (e : RaEntry)
    (up down trainUp trainDown ratio : ℕ) : Except Fault RaEntry := do
  let curr := e.currTxRateIndex
  let e ← newTrain t { e with lastSecTxRateChangeAction := .noChange } up down trainUp trainDown ratio
  newChange pAd t e curr

/-! ### `MlmeDynamicTxRateSwitchingAdapt` -/

/-- `RssiOffset` for a group table. -/
def groupRssiOffset (pAd : Adapter) : ℤ :=
  if pAd.channel ≤ 14 then (if pAd.externalLNAForG then 2 else 0) else if pAd.externalLNAForA then 5 else 2

def groupByRssi (pAd : Adapter) (rssi : ℤ) (t : RateTable) (e : RaEntry) : Except Fault RaEntry := do
  let mcs := mlmeGetSupportedMcsAdapt pAd t
  let (idx, group) := mlmeSelectTxRateAdapt pAd e.peer t mcs rssi (groupRssiOffset pAd)
  let e := mlmeSetMcsGroup pAd { e with mcsGroup := group, lastRateIdx := e.currTxRateIndex }
  let e ← mlmeNewTxRate pAd t { e with currTxRateIndex := idx }
  return { mlmeClearTxQuality e with fLastSecAccordingRSSI := true }

/-- `MlmeDynamicTxRateSwitchingAdapt` -/
def groupTick (pAd : Adapter) (s : Sample) (t : RateTable) (e : RaEntry) : Except Fault RaEntry := do
  let alone := pAd.macTabSize = 1 ∨ e.peer.isDls
  let c := s.count alone
  let rssi := if alone then s.staRssi else s.entryRssi
  let e := storeLast c e
  let curr := e.currTxRateIndex
  let row ← t.entry curr
  let (up, e) ← mlmeSelectUpRate pAd t row e
  let down ← mlmeSelectDownRate pAd t e.peer curr
  let train := trainThresholds rssi (e.perThrdAdj = 1) row
  if c.total ≤ 15 then
    let e := { e with lowTrafficCount := (e.lowTrafficCount + 1) % 256 }
    if e.lowTrafficCount ≥ pAd.lowTrafficThrd then groupByRssi pAd rssi t { e with lowTrafficCount := 0 }
    else return e
  else do
    let e := { e with lowTrafficCount := 0 }
    if e.fLastSecAccordingRSSI then
      return { e with fLastSecAccordingRSSI := false, lastSecTxRateChangeAction := .noChange }
    else do
      t.access curr
      mlmeNewRateAdapt pAd t (setPER e curr c.errorRatio) up down train.1 train.2 c.errorRatio

/-! ### `StaQuickResponeForRateUpExecAdapt` -/

def mlmeRAEstimateThroughput (e : RaEntry) (row : RateRow) (ratio : ℕ) : ℕ :=
  let est := (100 - ratio) * row.dataRate
  if row.currMCS ≠ 32 ∧ (row.mode = modeHTMix ∨ row.mode = modeHTGreenfield) ∧
      e.peer.maxHTPhyMode.bw = .bw40 then est * 2
  else est

def mlmeRAHybridRule (pAd : Adapter) (t : RateTable) (e : RaEntry) (row : RateRow) (newTxOkCount ratio : ℕ) :
    Except Fault Bool :=
  if 100 * newTxOkCount < pAd.trainUpLowThrd * e.lastTxOkCount then return true
  else if 100 * newTxOkCount > pAd.trainUpHighThrd * e.lastTxOkCount then return false
  else do
    let last ← t.entry e.lastRateIdx
    return mlmeRAEstimateThroughput e last e.lastTxPER > mlmeRAEstimateThroughput e row ratio

/-- `useOldRate`, by `TrainUpRule`. -/
def useOldRate (pAd : Adapter) (t : RateTable) (e : RaEntry) (row : RateRow) (rssi : ℤ)
    (scaled trainDown ratio : ℕ) : Except Fault Bool :=
  if pAd.trainUpRule = 0 then return e.lastTxOkCount + 2 ≥ scaled
  else if pAd.trainUpRule = 2 ∧ rssi ≤ pAd.trainUpRuleRSSI then
    mlmeRAHybridRule pAd t e row scaled ratio
  else if pAd.trainUpRule = 3 ∧ rssi ≤ pAd.trainUpRuleRSSI then
    if ratio ≥ trainDown then return true else mlmeRAHybridRule pAd t e row scaled ratio
  else return ratio ≥ trainDown

def compareUp (pAd : Adapter) (t : RateTable) (rssi : ℤ) (row : RateRow) (curr trainDown : ℕ) (c : TxCount)
    (e : RaEntry) : Except Fault RaEntry := do
  let scaled := scaledSuccess pAd e c
  if ← useOldRate pAd t e row rssi scaled trainDown c.errorRatio then
    let worst := if c.errorRatio > 50 ∨ scaled < e.lastTxOkCount / 2 then drsTxQualityWorstBound * 2
      else drsTxQualityWorstBound
    return mlmeRestoreLastRate (mlmeSetTxQuality e curr worst)
  else do
    let last ← t.entry e.lastRateIdx
    let e := if row.currMCS ≠ last.currMCS ∧ row.dataRate ≠ last.dataRate then mlmeClearTxQuality e else e
    return if e.mcsGroup = 0 then mlmeSetMcsGroup pAd e else e

def compareDown (pAd : Adapter) (trainDown : ℕ) (c : TxCount) (e : RaEntry) : RaEntry :=
  if c.errorRatio ≥ 50 ∨ c.errorRatio ≥ trainDown then mlmeSetMcsGroup pAd e
  else if e.lastTxOkCount + 2 ≥ scaledSuccess pAd e c then mlmeRestoreLastRate e
  else mlmeSetMcsGroup pAd e

/-- `CurrTxRateIndex` is the end of the group of the row. -/
def endOfGroup (row : RateRow) (curr : ℕ) (e : RaEntry) : RaEntry :=
  let up := match e.mcsGroup with
    | 3 => row.upMcs3
    | 2 => row.upMcs2
    | 1 => row.upMcs1
    | _ => curr
  if up = e.currTxRateIndex then { e with mcsGroup := 0 } else e

/-- The next group after a change upwards, `row` being the row of the rate `curr` before the comparison. -/
def nextGroup (t : RateTable) (row : RateRow) (curr : ℕ) (e : RaEntry) : Except Fault RaEntry :=
  if e.currTxRateIndex ≠ curr ∧ 0 < e.mcsGroup then do
    let last ← t.entry e.lastRateIdx
    return endOfGroup last curr { e with mcsGroup := e.mcsGroup - 1 }
  else return endOfGroup row curr e

def enterPER (curr trainDown ratio : ℕ) (e : RaEntry) : RaEntry :=
  setPER (if ratio ≥ trainDown then mlmeSetTxQuality e curr drsTxQualityWorstBound else e) curr ratio

/-- A rate other than `curr` is entered and set. -/
def groupRestored (pAd : Adapter) (t : RateTable) (curr : ℕ) (e : RaEntry) : Except Fault RaEntry :=
  if e.currTxRateIndex ≠ curr then do
    t.access e.currTxRateIndex
    let e := setPER (mlmeSetTxQuality e e.currTxRateIndex 0) e.currTxRateIndex 0
    mlmeNewTxRate pAd t { e with txRateUpPenalty := 0 }
  else return e

/-- `StaQuickResponeForRateUpExecAdapt` -/
def groupQuick (pAd : Adapter) (s : Sample) (t : RateTable) (e : RaEntry) : Except Fault RaEntry := do
  let c := s.count (pAd.macTabSize = 1)
  let rssi := s.rssi pAd e false
  let curr := e.currTxRateIndex
  let row ← t.entry curr
  let train := trainThresholds rssi (e.perThrdAdj = 1) row
  if c.total ≤ 12 then mlmeNewTxRate pAd t (mlmeRestoreLastRate e)
  else do
    t.access curr
    let e := enterPER curr train.2 c.errorRatio e
    match e.lastSecTxRateChangeAction with
    | .up => do
      let e ← compareUp pAd t rssi row curr train.2 c e
      let e ← nextGroup t row curr e
      groupRestored pAd t curr e
    | .down => groupRestored pAd t curr (compareDown pAd train.2 c e)
    | .noChange => groupRestored pAd t curr e

end Mt7610u.RateCtrl
