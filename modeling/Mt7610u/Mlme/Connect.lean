import Mt7610u.Mlme.PeerBeacon
import Mt7610u.Mlme.SsidSort

/-! # The control machine that connects a station

A request to connect makes a table of candidates, and the control machine joins one after the other, with the
help of the other state machines, until one lets the station in. -/

namespace Mt7610u.Mlme.Connect

open Lib

/-! ### The adapter -/

inductive CntlState
  | idle | waitDisassoc | waitJoin | waitReassoc | waitStart | waitAuth | waitAssoc | waitAuth2
  | waitOidListScan | waitOidDisassoc | waitScanForConnect
deriving DecidableEq

/-- `BSS_ADHOC`, `BSS_INFRA`, `BSS_ANY` and `BSS_MONITOR`. -/
inductive NetworkType
  | adhoc | infra | any | monitor
deriving DecidableEq

inductive Posted
  | joinReq (bssIdx : ℕ)
  | forceJoinReq
  | reassocReq (roamIdx : ℕ)
  | startReq
  | authReq (alg : ℕ)
  | assocReq
  | disassocReq
  | scanReq
  | forceScanReq
deriving DecidableEq

/-- The connection there is: its BSSID, SSID and channel in `CommonCfg`, the port, the flag
`fOP_STATUS_MEDIA_STATE_CONNECTED`, and whether the media state is indicated as connected. -/
structure Active where
  bssid : BitVec 48
  ssid : ℕ → Byte
  ssidLen : ℕ
  channel : Byte
  portSecured : Bool
  mediaConnected : Bool
  indicateConnected : Bool

/-- The adapter: the machine, what it reads and writes of `StaCfg` and `MlmeAux`, the tables and the status
flags. `ssid` and `auxChannel` are those of `MlmeAux`. `posted` has what was handed to `MlmeEnqueue` so far. -/
structure Cntl where
  currState : CntlState
  radioOff : Bool
  bssType : NetworkType
  authMode : ℕ
  wepStatus : ℕ
  pairCipher : ℕ
  groupCipher : ℕ
  rsnCapability : BitVec 16
  bMixCipher : Bool
  wpaSupplicantUP : Byte
  ieee8021X : Bool
  bAutoReconnect : Bool
  bNotFirstScan : Bool
  connectinfoChannel : Byte
  connectinfoflag : Bool
  bConfigChanged : Bool
  bIEEE80211H : Bool
  active : Active
  ssid : ℕ → Byte
  ssidLen : ℕ
  auxChannel : Byte
  currReqIsFromNdis : Bool
  bssIdx : ℕ
  roamIdx : ℕ
  scanTab : BssTable
  ssidBssTab : BssTable
  roamTab : BssTable
  infraOn : Bool
  adhocOn : Bool
  scanInProgress : Bool
  posted : List Posted

/-- `Ndis802_11AuthModeShared` and `Ndis802_11AuthModeAutoSwitch`. -/
def authModeShared : ℕ := 1
def authModeAutoSwitch : ℕ := 2

/-- `AUTH_MODE_OPEN`, which is `Ndis802_11AuthModeOpen`, and `AUTH_MODE_KEY`. -/
def authModeOpen : ℕ := 0
def authModeKey : ℕ := 1

def wpaSupplicantEnableWithWebUi : Byte := 0x02

def maxLenOfSsid : ℕ := 32

/-- `MlmeEnqueue`. -/
def Cntl.post (s : Cntl) (p : Posted) (next : CntlState) : Cntl :=
  { s with posted := s.posted ++ [p], currState := next }

/-- What is called from here: `PeerBeacon`'s tables, and the connection that `LinkUp` sets up. -/
structure Env where
  peer : Ibss.Env
  linkUp : Cntl → NetworkType → Active

/-- `LinkDown`, for a reason that is not the access point's. A monitor has no link. -/
def linkDown (s : Cntl) : Cntl :=
  if s.bssType = .monitor then s
  else
    let s :=
      if s.adhocOn then
        { s with
          adhocOn := false
          scanTab := s.scanTab.bssTableDeleteEntry s.active.bssid s.active.channel }
      else
        { s with
          infraOn := false
          currReqIsFromNdis := false
          scanTab :=
            if s.currReqIsFromNdis = false ∧ (s.active.portSecured = true ∨ s.authMode < authModeWpa) then
              s.scanTab.bssTableDeleteEntry s.active.bssid s.active.channel
            else s.scanTab }
    { s with
      active :=
        { s.active with
          portSecured := s.wpaSupplicantUP ≠ 0 ∧ s.wepStatus = Ibss.wepEnabled ∧ s.ieee8021X = false
          mediaConnected := false
          indicateConnected := false }
      bNotFirstScan := decide (s.bssType = .adhoc) && s.bNotFirstScan
      connectinfoChannel := 0 }

/-- `LinkUp`, with the return to `CNTL_IDLE` that follows every call. -/
def linkUp (env : Env) (s : Cntl) (type : NetworkType) : Cntl :=
  { s with
    active := env.linkUp s type
    infraOn := decide (type = .infra)
    adhocOn := decide (type = .adhoc)
    bNotFirstScan := true
    bConfigChanged := false
    currState := .idle }

/-! ### The next candidate -/

/-- `RsnCapability` of a `CIPHER_SUITE`. -/
def rsnCapabilityOf (suite : ℕ → Byte) : BitVec 16 := suite 13 ++ suite 12

def choosePairCipher (wepStatus : ℕ) (suite : ℕ → Byte) : ℕ :=
  if wepStatus = pairCipher suite then pairCipher suite
  else if pairCipherAux suite ≠ Ibss.wepDisabled then pairCipherAux suite
  else encryption2Enabled

def resetCiphers (s : Cntl) : Cntl :=
  { s with
    pairCipher := s.wepStatus
    groupCipher := if s.wpaSupplicantUP = 0 then s.wepStatus else s.groupCipher }

def adoptCiphers (s : Cntl) (b : BssEntry) : Cntl :=
  let s :=
    if s.authMode = authModeWpa ∨ s.authMode = authModeWpaPsk then
      { s with
        groupCipher := groupCipher b.cipher.wpa
        pairCipher := choosePairCipher s.wepStatus b.cipher.wpa }
    else if s.authMode = authModeWpa2 ∨ s.authMode = authModeWpa2Psk then
      { s with
        groupCipher := groupCipher b.cipher.wpa2
        pairCipher := choosePairCipher s.wepStatus b.cipher.wpa2
        rsnCapability := rsnCapabilityOf b.cipher.wpa2 }
    else s
  { s with bMixCipher := decide (s.pairCipher ≠ s.groupCipher) }

def noMoreBss (s : Cntl) : Cntl :=
  { s with
    ssidBssTab := { s.ssidBssTab with bssNr := 0 }
    scanTab := s.scanTab.bssTableDeleteEntry (s.ssidBssTab.bssEntry 0).bssid (s.ssidBssTab.bssEntry 0).channel
    currState := .idle }

def iterateOnBssTab (s : Cntl) : Cntl :=
  let s := resetCiphers s
  if s.bssType = .adhoc then
    if s.bssIdx < s.ssidBssTab.bssNr then s.post (.joinReq s.bssIdx) .waitJoin
    else s.post .startReq .waitStart
  else if s.bssIdx < s.ssidBssTab.bssNr ∧ s.bssType = .infra then
    (adoptCiphers s (s.ssidBssTab.bssEntry s.bssIdx)).post (.joinReq s.bssIdx) .waitJoin
  else noMoreBss s

def iterateOnBssTab2 (s : Cntl) : Cntl :=
  if s.roamIdx < s.roamTab.bssNr then s.post (.reassocReq s.roamIdx) .waitReassoc
  else { s with currState := .idle }

/-! ### The requests -/

def mlmeValidateSsid (ssid : ℕ → Byte) (ssidLen : ℕ) : Bool :=
  decide (ssidLen ≤ maxLenOfSsid) && (List.range ssidLen).all fun i => decide (0x20 ≤ ssid i)

def disassociate (s : Cntl) : Cntl := s.post .disassocReq .waitDisassoc

def dropAdhoc (s : Cntl) : Cntl := if s.adhocOn then linkDown s else s

def onTop (s : Cntl) : Bool :=
  let b := s.ssidBssTab.bssEntry 0
  s.infraOn && s.active.mediaConnected &&
    BssTable.ssidEqual s.active.ssid s.active.ssidLen b.ssid b.ssidLen && decide (s.active.bssid = b.bssid)

def wpaUnfinished (s : Cntl) : Bool :=
  decide (s.authMode ∈ [authModeWpa, authModeWpaPsk, authModeWpa2, authModeWpa2Psk]) && !s.active.portSecured

def scansFirst (s : Cntl) : Bool :=
  decide (s.ssidBssTab.bssNr = 0) && s.bAutoReconnect &&
    (decide (s.bssType = .infra) && !s.scanInProgress || decide (s.bssType = .adhoc) && !s.bNotFirstScan) &&
    mlmeValidateSsid s.ssid s.ssidLen

def startScan (s : Cntl) : Cntl :=
  let s := { s with bNotFirstScan := true }
  if s.connectinfoChannel ≠ 0 ∧ s.connectinfoflag = true then s.post .forceScanReq .waitScanForConnect
  else s.post .scanReq .waitOidListScan

/-- The user's SSID is recorded, and the candidates are looked up: `sorted` is the table that
`BssTableSsidSort` makes. -/
def recordSsid (s : Cntl) (ssid : ℕ → Byte) (ssidLen : ℕ) (sorted : BssTable) : Cntl :=
  { s with ssid := moveMemory zeroMemory ssid ssidLen, ssidLen := ssidLen, ssidBssTab := sorted }

/-- `CntlOidSsidProc`, with the SSID recorded and the candidates looked up. -/
def cntlOidSsidProc (s : Cntl) : Cntl :=
  if onTop s then
    if wpaUnfinished s || s.bConfigChanged then disassociate s
    else { s with active := { s.active with indicateConnected := true }, currState := .idle }
  else if s.infraOn then
    disassociate
      { s with
        currReqIsFromNdis :=
          s.currReqIsFromNdis || !BssTable.ssidEqual s.active.ssid s.active.ssidLen s.ssid s.ssidLen }
  else
    let s := dropAdhoc s
    if scansFirst s then startScan s else iterateOnBssTab { s with bssIdx := 0 }

def wantedBss (s : Cntl) (bssid : BitVec 48) : Option ℕ :=
  (s.scanTab.bssTableSearch bssid s.auxChannel).filter fun k =>
    let b := s.scanTab.bssEntry k
    decide (s.wpaSupplicantUP &&& Ibss.wpaSupplicantEnableWps ≠ 0) ||
      BssTable.ssidEqual s.ssid s.ssidLen b.ssid b.ssidLen &&
        if s.authMode ≤ authModeAutoSwitch then decide (s.wepStatus = b.cipher.wepStatus)
        else decide (s.authMode = b.cipher.authMode) || decide (s.authMode = b.cipher.authModeAux)

def bssidNotFound (s : Cntl) : Cntl :=
  if s.bssType = .infra ∧ s.scanInProgress = false ∨ s.bNotFirstScan = false then
    let s : Cntl := { s with bNotFirstScan := s.bNotFirstScan || decide (s.bssType = .adhoc) }
    if s.connectinfoChannel ≠ 0 ∧ s.connectinfoflag = true then
      { s with active := { s.active with channel := s.connectinfoChannel } }.post .forceJoinReq .waitJoin
    else s.post .scanReq .waitOidListScan
  else s.post .startReq .waitStart

/-- The BSS at index `k` becomes the only candidate. -/
def copyTarget (s : Cntl) (k : ℕ) : Cntl :=
  { s with
    bssIdx := 0
    ssidBssTab :=
      { s.ssidBssTab with
        bssNr := 1
        bssEntry := Function.update s.ssidBssTab.bssEntry 0 (s.scanTab.bssEntry k) } }

def cntlOidRTBssidProc (s : Cntl) (bssid : BitVec 48) : Cntl :=
  match wantedBss s bssid with
  | none => bssidNotFound s
  | some k =>
    let s := copyTarget s k
    if s.infraOn then disassociate s
    else
      let s := resetCiphers (dropAdhoc s)
      (adoptCiphers s (s.ssidBssTab.bssEntry 0)).post (.joinReq s.bssIdx) .waitJoin

/-- `CntlMlmeRoamingProc`. `tmp` says that the sort could allocate its temporary entry. -/
def cntlMlmeRoamingProc (s : Cntl) (tmp : Bool) : Cntl :=
  iterateOnBssTab { s with ssidBssTab := BssTable.bssTableSortByRssi tmp s.roamTab, bssIdx := 0 }

/-- What `CntlIdleProc` lets change the machine: `OID_802_11_SSID` with the table that the sort makes,
`OID_802_11_BSSID`, `OID_802_11_BSSID_LIST_SCAN` with whether there is memory for an entry,
`OID_802_11_DISASSOCIATE` and `MT2_MLME_ROAMING_REQ`. -/
inductive Request
  | ssid (ssid : ℕ → Byte) (ssidLen : ℕ) (sorted : BssTable)
  | bssid (bssid : BitVec 48)
  | listScan (mem : Bool)
  | disassociate
  | roaming (tmp : Bool)

def Cntl.atRest (s : Cntl) : Cntl := { s with currState := .idle, posted := [] }

def cntlIdleProc (s : Cntl) (r : Request) : Cntl :=
  let s := s.atRest
  if s.radioOff then s
  else
    match r with
    | .ssid ssid ssidLen sorted => cntlOidSsidProc (recordSsid s ssid ssidLen sorted)
    | .bssid bssid => cntlOidRTBssidProc s bssid
    | .listScan mem => if mem then s.post .scanReq .waitOidListScan else s
    | .disassociate => s.post .disassocReq .waitOidDisassoc
    | .roaming tmp => cntlMlmeRoamingProc s tmp

/-! ### The confirmations -/

/-- What comes to the machine: the confirmations, with what the other machines have left in `MlmeAux`, with
whether the channel is one for radar or with the table that a sort makes, and a beacon of the own network, which
`PeerBeacon` takes with the rest of the adapter as it is then. -/
inductive Msg
  | disassocConf
  | joinConf (success : Bool) (bssType : NetworkType) (radarChannel : Bool)
  | startConf (success radarChannel : Bool)
  | authConf (success : Bool) (alg : ℕ)
  | assocConf (success : Bool)
  | reassocConf (success : Bool)
  | scanConf (sorted : BssTable)
  | beacon (st : Ibss.Station) (bcn : Beacon)

def cntlWaitDisassocProc (s : Cntl) : Cntl :=
  let s := linkDown s
  if s.ssidBssTab.bssNr = 0 ∧ s.bssType = .adhoc then s.post .startReq .waitStart
  else
    -- The reset of `BssIdx` is commented out in favour of the next access point.
    iterateOnBssTab { s with bssIdx := s.bssIdx + 1 }

def firstAlg (s : Cntl) : ℕ :=
  if s.authMode = authModeShared ∨ s.authMode = authModeAutoSwitch then authModeKey else authModeOpen

variable (env : Env)

def startAdhoc (s : Cntl) (radarChannel : Bool) : Cntl :=
  if s.bIEEE80211H && radarChannel then { s with currState := .idle } else linkUp env s .adhoc

def cntlWaitJoinProc (s : Cntl) (success : Bool) (bssType : NetworkType) (radarChannel : Bool) : Cntl :=
  if success then
    if bssType = .adhoc then startAdhoc env s radarChannel
    else s.post (.authReq (firstAlg s)) .waitAuth
  else iterateOnBssTab { s with bssIdx := s.bssIdx + 1 }

def cntlWaitStartProc (s : Cntl) (success radarChannel : Bool) : Cntl :=
  if success then startAdhoc env s radarChannel else { s with currState := .idle }

/-- `CntlWaitAuthProc`. After a failure it tries again. -/
def cntlWaitAuthProc (s : Cntl) (success : Bool) : Cntl :=
  if success then s.post .assocReq .waitAssoc else s.post (.authReq (firstAlg s)) .waitAuth2

def triesOpen (s : Cntl) (alg : ℕ) : Bool :=
  decide (s.authMode = authModeAutoSwitch) && decide (alg = authModeShared)

def cntlWaitAuthProc2 (s : Cntl) (success : Bool) (alg : ℕ) : Cntl :=
  if success then s.post .assocReq .waitAssoc
  else if triesOpen s alg then s.post (.authReq authModeOpen) .waitAuth2
  else iterateOnBssTab { s with currState := .idle, bssIdx := s.bssIdx + 1 }

def cntlWaitAssocProc (s : Cntl) (success : Bool) : Cntl :=
  if success then linkUp env s .infra else iterateOnBssTab { s with bssIdx := s.bssIdx + 1 }

def cntlWaitReassocProc (s : Cntl) (success : Bool) : Cntl :=
  if success then linkUp env s .infra else iterateOnBssTab2 { s with roamIdx := s.roamIdx + 1 }

def connectAfterScan (s : Cntl) (sorted : BssTable) : Cntl :=
  iterateOnBssTab { s with currState := .idle, ssidBssTab := sorted, bssIdx := 0 }

def connectsAfterList (s : Cntl) : Bool :=
  !s.active.indicateConnected && decide (s.wpaSupplicantUP ≠ wpaSupplicantEnableWithWebUi)

def performAction (s : Cntl) : Msg → Cntl
  | .disassocConf =>
    match s.currState with
    | .waitDisassoc => cntlWaitDisassocProc s
    | .waitOidDisassoc => { linkDown s with currState := .idle }
    | _ => s
  | .joinConf success bssType radarChannel =>
    if s.currState = .waitJoin then cntlWaitJoinProc env s success bssType radarChannel else s
  | .startConf success radarChannel =>
    if s.currState = .waitStart then cntlWaitStartProc env s success radarChannel else s
  | .authConf success alg =>
    match s.currState with
    | .waitAuth => cntlWaitAuthProc s success
    | .waitAuth2 => cntlWaitAuthProc2 s success alg
    | _ => s
  | .assocConf success => if s.currState = .waitAssoc then cntlWaitAssocProc env s success else s
  | .reassocConf success => if s.currState = .waitReassoc then cntlWaitReassocProc env s success else s
  | .scanConf sorted =>
    match s.currState with
    | .waitScanForConnect => connectAfterScan s sorted
    | .waitOidListScan =>
      if connectsAfterList s then connectAfterScan s sorted else { s with currState := .idle }
    | _ => s
  | .beacon _ _ => s

/-- One step: a beacon of the own network enters its sender with the candidates while there is a link; all
else is for the machine. -/
def step (s : Cntl) : Msg → Cntl
  | .beacon st bcn =>
    if (s.infraOn || s.adhocOn) ∧ s.currState ≠ .waitDisassoc then
      { s with ssidBssTab := Ibss.enterSsidBssTab env.peer { st with ssidBssTab := s.ssidBssTab } bcn }
    else s
  | msg => performAction env s msg

end Mt7610u.Mlme.Connect
