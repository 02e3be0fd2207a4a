import Mt7610u.RateCtrl.Support

/-! # The MAC table entry of the rate adaptation

What both rate adaptation algorithms share (`rate_ctrl/ra_ctrl.c`): the entry they work on, the choice of the
table, the quality of the rates, and `MlmeNewTxRate`, which every new rate goes through. -/

namespace Mt7610u.RateCtrl

open Lib.Outcome

/-! ### State -/

/-- `WMODE_B`, `WMODE_AC` and the two N modes -/
def wmodeB : ℕ := 0x02
def wmodeGN : ℕ := 0x08
def wmodeAN : ℕ := 0x10
def wmodeAC : ℕ := 0x20

/-- `RATE_ALG_LEGACY`, `RATE_ALG_GRP`, `RATE_ALG_MAX_NUM` -/
def rateAlgLegacy : ℕ := 1
def rateAlgGrp : ℕ := 2
def rateAlgMaxNum : ℕ := 4

def rate11 : ℕ := 3

def drsTxQualityWorstBound : ℕ := 8

/-- `BW_20`, `BW_40`, `BW_80` -/
inductive Bandwidth
  | bw20
  | bw40
  | bw80
deriving DecidableEq, Repr

inductive RateChange
  | noChange
  | up
  | down
deriving DecidableEq, Repr

structure Adapter where
  /-- `RTMPCheckEntryEnableAutoRateSwitch` for the entry. -/
  autoTxRateSwitch : Bool
  phyMode : ℕ
  isMT76x0 : Bool
  adhocOn : Bool
  infraOn : Bool
  /-- `LatchRfRegs.Channel` -/
  channel : ℕ
  txPath : ℕ
  txStream : ℕ
  maxTxRate : ℕ
  minTxRate : ℕ
  bbpCurrentBW : Bandwidth
  externalLNAForG : Bool
  externalLNAForA : Bool
  lowTrafficThrd : ℕ
  trainUpRule : ℕ
  trainUpRuleRSSI : ℤ
  trainUpLowThrd : ℕ
  trainUpHighThrd : ℕ
  raFastInterval : ℕ
  /-- `MacTab.Size` -/
  macTabSize : ℕ
  /-- `RegTransmitSetting.field.HTMODE` and the GF bit of the network are both `HTMODE_GF`. -/
  htModeGF : Bool
  /-- `StaCfg.MaxHTPhyMode.field.STBC`, `.ShortGI` -/
  maxSTBC : Bool
  maxShortGI : Bool
deriving DecidableEq, Repr

/-- `HTTRANSMIT_SETTING` -/
structure HtPhyMode where
  mode : ℕ
  stbc : Bool
  shortGI : Bool
  bw : Bandwidth
  mcs : ℕ
deriving DecidableEq, Repr

structure Peer where
  /-- The entry's place in the MAC table; the access point of an infrastructure network is at 1. -/
  wcid : ℕ
  /-- `HTCapability.MCSSet` -/
  mcsSet : List ℕ
  rateLen : ℕ
  /-- `MaxHTPhyMode` -/
  maxHTPhyMode : HtPhyMode
  sgi20Capable : Bool
  sgi40Capable : Bool
  vhtRxStbcCapable : Bool
  isDls : Bool
deriving DecidableEq, Repr

/-- `HTCapability.MCSSet[i]` -/
def Peer.mcsOctet (p : Peer) (i : ℕ) : ℕ := p.mcsSet.getD i 0

/-- A call of `MlmeNewTxRate`: the table and the row it reads, and the record of the peer's rates then. -/
structure Call where
  table : RateTable
  idx : ℕ
  support : SupportMcs

structure RaEntry where
  /-- `pAd->rateAlg` -/
  rateAlg : ℕ
  peer : Peer
  support : SupportMcs
  pTable : Option RateTable
  currTxRateIndex : ℕ
  lastRateIdx : ℕ
  lowTrafficCount : ℕ
  perThrdAdj : ℕ
  mcsGroup : ℕ
  fLastSecAccordingRSSI : Bool
  lastSecTxRateChangeAction : RateChange
  lastTimeTxRateChangeAction : RateChange
  lastTxOkCount : ℕ
  lastTxPER : ℕ
  txRateUpPenalty : ℕ
  txQuality : ℕ → ℕ
  per : ℕ → ℕ
  htPhyMode : HtPhyMode
  /-- `pAd->StaCfg.HTPhyMode` -/
  staHTPhyMode : HtPhyMode
  /-- `pAd->StaCfg.StaQuickResponeForRateUpTimerRunning` -/
  quickTimerRunning : Bool
  /-- The calls of `MlmeNewTxRate` so far, last first. -/
  calls : List Call

/-- `HTCapability.MCSSet[i]` of the entry. -/
def RaEntry.mcsSet (e : RaEntry) (i : ℕ) : ℕ := e.peer.mcsOctet i

/-! ### Samples -/

structure Sample where
  staRssi : ℤ
  entryRssi : ℤ
  txSuccess : ℕ
  txRetransmit : ℕ
  txFailCount : ℕ
  oneSecTxNoRetryOkCount : ℕ
  oneSecTxRetryOkCount : ℕ
  oneSecTxFailCount : ℕ
deriving DecidableEq, Repr

structure TxCount where
  txSuccess : ℕ
  txRetransmit : ℕ
  txFailCount : ℕ

namespace TxCount

def total (c : TxCount) : ℕ := c.txRetransmit + c.txSuccess + c.txFailCount

def errorRatio (c : TxCount) : ℕ := (c.txRetransmit + c.txFailCount) * 100 / c.total

end TxCount

/-- The counters of the chip if the entry is `alone`, else its own. -/
def Sample.count (s : Sample) (alone : Bool) : TxCount :=
  if alone then ⟨s.txSuccess, s.txRetransmit, s.txFailCount⟩
  else ⟨s.oneSecTxNoRetryOkCount, s.oneSecTxRetryOkCount, s.oneSecTxFailCount⟩

/-- A `CHAR` as `UCHAR`. -/
def uchar (i : ℤ) : ℕ := (i % 256).toNat

/-- `TrainUp` and `TrainDown` of the row, raised by half for a strong signal if `adjust` says so. -/
def trainThresholds (rssi : ℤ) (adjust : Bool) (row : RateRow) : ℕ × ℕ :=
  if rssi > -65 ∧ modeHTMix ≤ row.mode ∧ adjust then
    ((row.trainUp + row.trainUp / 2) % 256, (row.trainDown + row.trainDown / 2) % 256)
  else (row.trainUp, row.trainDown)

def raInterval : ℕ := 500

/-- `OneSecTxNoRetryOKRationCount`: the success count, scaled to the interval it is compared with. `ratio` is a
`CHAR`, the product an `ULONG` of 64 bits. -/
def scaledSuccess (pAd : Adapter) (e : RaEntry) (c : TxCount) : ℕ :=
  let quotient :=
    if e.lastTimeTxRateChangeAction = .noChange then raInterval / pAd.raFastInterval
    else ((raInterval + (2 ^ 32 - pAd.raFastInterval)) % 2 ^ 32) / pAd.raFastInterval
  let ratio : ℤ := ((quotient : ℤ) + 128) % 256 - 128
  ((c.txSuccess * ratio) % 2 ^ 64).toNat

/-! ### `MlmeSelectTxRateTable` -/

open RateTable

def vhtStreams (pAd : Adapter) (r : SupportMcs) : ℕ :=
  if pAd.isMT76x0 then 1
  else if (List.range maxLenOfVHTRates).any fun i => 8 ≤ i && r.supportVHTMCS i then 2
  else if (List.range maxLenOfVHTRates).any fun i => r.supportVHTMCS i then 1
  else 0

def selectVht (pAd : Adapter) (e : RaEntry) : Option RateTable :=
  if e.rateAlg = rateAlgGrp then
    if vhtStreams pAd e.support = 2 then some rateTableVht2S
    else if !e.support.supportVHTMCS 8 && !e.support.supportVHTMCS 9 then some rateTableVht1SMcs7
    else some rateTableVht1S
  else none

def selectAdhoc (pAd : Adapter) (e : RaEntry) : RateTable :=
  let capN := pAd.phyMode &&& (wmodeGN ||| wmodeAN) != 0
  if capN ∧ e.mcsSet 0 ≠ 0 ∧ (e.mcsSet 1 = 0 ∨ pAd.txPath = 1) then
    if pAd.channel ≤ 14 then rateSwitchTable11N1S else rateSwitchTable11N1SForABand
  else if capN ∧ e.mcsSet 0 ≠ 0 ∧ e.mcsSet 1 ≠ 0 ∧
      ((pAd.txPath = 3 ∧ e.mcsSet 2 = 0) ∨ pAd.txPath = 2) then
    if pAd.channel ≤ 14 then rateSwitchTable11N2S else rateSwitchTable11N2SForABand
  else if e.peer.rateLen = 4 ∧ e.mcsSet 0 = 0 ∧ e.mcsSet 1 = 0 then rateSwitchTable11B
  else if pAd.channel ≤ 14 then rateSwitchTable11BG
  else rateSwitchTable11G

/-- The choice for a peer without HT, or one whose `MCSSet` fits no other case. -/
def selectLegacy (pAd : Adapter) (e : RaEntry) : RateTable :=
  if e.support.supportRateMode = supportCCKMode ∨ pAd.phyMode = wmodeB then rateSwitchTable11B
  else if e.support.claims supportCCKMode ∧ e.support.claims supportOFDMMode ∧
      e.mcsSet 0 = 0 ∧ e.mcsSet 1 = 0 then
    rateSwitchTable11BG
  else if e.support.claims supportOFDMMode ∧ e.mcsSet 0 = 0 ∧ e.mcsSet 1 = 0 then rateSwitchTable11G
  else if e.mcsSet 0 = 0 ∧ e.mcsSet 1 = 0 then
    if pAd.maxTxRate ≤ rate11 then rateSwitchTable11B
    else if pAd.minTxRate > rate11 then rateSwitchTable11G
    else rateSwitchTable11BG
  else if pAd.txStream = 1 then rateSwitchTable11N1S
  else if pAd.txStream = 2 then rateSwitchTable11N2S
  else if pAd.channel ≤ 14 then rateSwitchTable11N2S
  else rateSwitchTable11N2SForABand

def selectInfra (pAd : Adapter) (e : RaEntry) : RateTable :=
  let ofdm := e.support.claims supportOFDMMode
  let cck24 := pAd.channel ≤ 14 ∧ e.support.claims supportCCKMode
  if ofdm ∧ e.mcsSet 0 ≠ 0 ∧ (e.mcsSet 1 = 0 ∨ pAd.txStream = 1) then
    if e.rateAlg = rateAlgGrp then rateSwitchTableAdapt11N1S
    else if cck24 then rateSwitchTable11BGN1S
    else rateSwitchTable11N1SForABand
  else if ofdm ∧ e.mcsSet 0 ≠ 0 ∧ e.mcsSet 1 ≠ 0 ∧
      ((pAd.txPath = 3 ∧ e.mcsSet 2 = 0) ∨ pAd.txStream = 2) then
    if e.rateAlg = rateAlgGrp then rateSwitchTableAdapt11N2S
    else if cck24 then rateSwitchTable11BGN2S
    else rateSwitchTable11BGN2SForABand
  else if e.mcsSet 0 ≠ 0 ∧ (e.mcsSet 1 = 0 ∨ pAd.txStream = 1) then
    if e.rateAlg = rateAlgGrp then rateSwitchTableAdapt11N1S
    else if pAd.channel ≤ 14 then rateSwitchTable11N1S
    else rateSwitchTable11N1SForABand
  else if e.mcsSet 0 ≠ 0 ∧ e.mcsSet 1 ≠ 0 ∧ pAd.txStream = 2 then
    if e.rateAlg = rateAlgGrp then rateSwitchTableAdapt11N2S
    else if pAd.channel ≤ 14 then rateSwitchTable11N2S
    else rateSwitchTable11N2SForABand
  else selectLegacy pAd e

/-- `MlmeSelectTxRateTable`; `none` if `*ppTable` is not assigned. -/
def mlmeSelectTxRateTable (pAd : Adapter) (e : RaEntry) : Option RateTable :=
  if pAd.phyMode &&& wmodeAC != 0 && e.support.claims supportVHTMode then selectVht pAd e
  else if pAd.adhocOn then some (selectAdhoc pAd e)
  else some (selectInfra pAd e)

theorem mlmeSelectTxRateTable_eq_none_iff {pAd : Adapter} {e : RaEntry} :
    mlmeSelectTxRateTable pAd e = none ↔
      pAd.phyMode &&& wmodeAC ≠ 0 ∧ e.support.claims supportVHTMode = true ∧ e.rateAlg ≠ rateAlgGrp := by
  unfold mlmeSelectTxRateTable selectVht
  by_cases hac : pAd.phyMode &&& wmodeAC = 0
  · simp [hac]
    split <;> simp
  · by_cases hv : e.support.claims supportVHTMode = true
    · by_cases hg : e.rateAlg = rateAlgGrp
      · simp only [hg]
        split_ifs <;> simp_all
      · simp [hac, hv, hg]
    · simp [hv]
      split <;> simp

/-! ### The quality of the rates -/

/-- `MlmeClearTxQuality`, `MlmeClearAllTxQuality` (the same without transmit beamforming). -/
def mlmeClearTxQuality (e : RaEntry) : RaEntry :=
  { e with txQuality := fun _ => 0, per := fun _ => 0 }

def mlmeDecTxQuality (e : RaEntry) (rateIndex : ℕ) : RaEntry :=
  { e with txQuality := Function.update e.txQuality rateIndex (e.txQuality rateIndex - 1) }

def mlmeSetTxQuality (e : RaEntry) (rateIndex txQuality : ℕ) : RaEntry :=
  { e with txQuality := Function.update e.txQuality rateIndex txQuality }

/-- `pEntry->PER[rateIndex] = per` -/
def setPER (e : RaEntry) (rateIndex per : ℕ) : RaEntry :=
  { e with per := Function.update e.per rateIndex per }

def mlmeRestoreLastRate (e : RaEntry) : RaEntry := { e with currTxRateIndex := e.lastRateIdx }

def mlmeSetMcsGroup (pAd : Adapter) (e : RaEntry) : RaEntry :=
  let group :=
    if e.support.claims supportVHTMode then
      if pAd.txStream = 2 ∧ e.support.supportVHTMCS 8 then 2 else 1
    else if e.mcsSet 0 = 0xff ∧ e.mcsSet 1 = 0xff ∧ pAd.txStream > 1 ∧ (pAd.txStream = 2 ∨ e.mcsSet 2 = 0) then 2
    else 1
  { e with mcsGroup := group }

def mlmeRAInit (pAd : Adapter) (e : RaEntry) : RaEntry :=
  mlmeClearTxQuality
    { mlmeSetMcsGroup pAd e with
      lastRateIdx := 1
      lowTrafficCount := 0
      perThrdAdj := 1
      fLastSecAccordingRSSI := false
      lastSecTxRateChangeAction := .noChange
      currTxRateIndex := 0
      txRateUpPenalty := 0 }

/-! ### `MlmeNewTxRate` -/

def negotiatedBW (pAd : Adapter) (e : RaEntry) : Bandwidth :=
  if e.peer.maxHTPhyMode.bw = .bw80 ∨ pAd.bbpCurrentBW = .bw80 then .bw80
  else if e.peer.maxHTPhyMode.bw = .bw20 ∨ pAd.bbpCurrentBW = .bw20 then .bw20
  else .bw40

def mlmeSetTxRate (pAd : Adapter) (e : RaEntry) (row : RateRow) : RaEntry :=
  let sta := e.staHTPhyMode
  let mcs := if row.currMCS < mcsAuto then row.currMCS else sta.mcs
  let stbc := row.stbc &&
    ((pAd.maxSTBC && (row.mode = modeHTMix || row.mode = modeHTGreenfield)) ||
      (e.peer.vhtRxStbcCapable && row.mode = modeVHT)) && mcs ≤ 7
  if pAd.adhocOn then
    { e with
      staHTPhyMode := { sta with mcs := mcs, stbc := stbc, shortGI := false, mode := row.mode }
      htPhyMode := { e.htPhyMode with mcs := mcs, stbc := false, shortGI := false, mode := row.mode } }
  else
    let mode := if pAd.htModeGF then modeHTGreenfield else if row.mode ≤ modeVHT then row.mode else sta.mode
    let bw := negotiatedBW pAd e
    -- the guard interval is examined again for the bandwidth in use
    let shortGI := row.shortGI && pAd.maxShortGI &&
      !((bw = .bw20 && !e.peer.sgi20Capable) || (bw = .bw40 && !e.peer.sgi40Capable))
    { e with
      staHTPhyMode := { sta with mcs := mcs, stbc := stbc, shortGI := shortGI, mode := mode }
      htPhyMode := ⟨mode, stbc, shortGI, bw, mcs⟩ }

def disableInvalidDuplicate (phy : HtPhyMode) : HtPhyMode :=
  if phy.mcs = 32 then
    if phy.bw ≠ .bw40 ∧ phy.bw ≠ .bw80 then { phy with mcs := 0 } else { phy with stbc := false }
  else phy

/-- `MlmeNewTxRate` for the table `pEntry->pTable` -/
def mlmeNewTxRate (pAd : Adapter) (t : RateTable) (e : RaEntry) : Except Fault RaEntry := do
  let row ← t.entry e.currTxRateIndex
  let e := mlmeSetTxRate pAd e row
  return { e with
    htPhyMode := disableInvalidDuplicate e.htPhyMode
    calls := ⟨t, e.currTxRateIndex, e.support⟩ :: e.calls }

end Mt7610u.RateCtrl
