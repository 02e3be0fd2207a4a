import Mt7610u.Lib.RunningMax
import Mt7610u.Mlme.BssTable

/-! # Beacons of a connected station

`PeerBeacon` keeps the tables up to date, moves a station of an ad-hoc network to the BSSID of another one
of the same name, and follows what its own network announces. -/

namespace Mt7610u.Mlme.Ibss

open Lib Lib.RunningMax

/-! ### The adapter -/

def octets (addr : BitVec 48) : List ℕ := (List.range 6).map fun i => (addr.extractLsb' (8 * (5 - i)) 8).toNat

inductive SyncCall
  | asicDisableSync
  | asicSetBssid (bssid : BitVec 48)
  | makeIbssBeacon
  | asicEnableIbssSync
deriving DecidableEq

/-- The adapter: of `CommonCfg` the BSSID, the SSID and the channel, of `StaCfg` the security settings, the
status flags, the state of the control machine, and the two tables. `wanted` has `MlmeAux` and the two
media states; `calls` are those made so far. -/
structure Station where
  bssid : BitVec 48
  ssid : ℕ → Byte
  ssidLen : ℕ
  channel : Byte
  bIEEE80211H : Bool
  channelList : List Byte
  wepStatus : ℕ
  authMode : ℕ
  portSecured : Bool
  ieee8021X : Bool
  wpaSupplicantUP : Byte
  currReqIsFromNdis : Bool
  infraOn : Bool
  adhocOn : Bool
  cntlState : ℕ
  wanted : Wanted
  scanTab : BssTable
  ssidBssTab : BssTable
  calls : List SyncCall

/-- A frame of the queue: whether there was memory for its elements and `PeerBeaconAndProbeRspSanity`
accepted it, and what it found; whether the sender has or gets an entry in the table of stations. -/
structure Elem where
  sane : Bool
  bcn : Beacon
  preNHtCapabilityLen : ℕ
  newChannel : Byte
  entered : Bool

/-- What `BssEntrySet` calls, and the control channel after an infrastructure station has followed a change
between 20 and 40 MHz. -/
structure Env extends BssEnv where
  controlChannel : Station → Elem → Byte

def cntlWaitDisassoc : ℕ := 1

/-- `Ndis802_11WEPEnabled`, `Ndis802_11WEPDisabled` and `Ndis802_11AuthModeWPA`. -/
def wepEnabled : ℕ := 0
def wepDisabled : ℕ := 1
def authModeWPA : ℕ := 3

def sizeHtCapIe : ℕ := 26

def wpaSupplicantEnableWps : Byte := 0x80

/-! ### The tables -/

def copyHtInfo (e : Elem) : Beacon :=
  let ie := e.bcn.ie
  { e.bcn with ie := { ie with
      channel := if ie.addHtInfoLen ≠ 0 then ie.addHtInfo 0 else ie.channel
      htCapabilityLen :=
        if ie.htCapabilityLen > 0 ∨ e.preNHtCapabilityLen > 0 then sizeHtCapIe else ie.htCapabilityLen } }

def bssTableSearchWithSSID (t : BssTable) (bssid : BitVec 48) (ssid : ℕ → Byte) (ssidLen : ℕ)
    (channel : Byte) : Option ℕ :=
  (List.range t.bssNr).find? fun i =>
    let b := t.bssEntry i
    BssTable.SameBand b.channel channel ∧ b.bssid = bssid ∧
      (BssTable.ssidEqual ssid ssidLen b.ssid b.ssidLen = true ∨
        equalMemory ssid zeroMemory ssidLen = true ∨ equalMemory b.ssid zeroMemory b.ssidLen = true)

/-- `SsidBssTab` gets the sender if it is not in it. -/
def enterSsidBssTab (env : Env) (st : Station) (bcn : Beacon) : BssTable :=
  match bssTableSearchWithSSID st.ssidBssTab bcn.ie.bssid bcn.ie.ssid bcn.ie.ssidLen bcn.ie.channel with
  | some _ => st.ssidBssTab
  | none =>
    match st.ssidBssTab.bssTableSetEntry env.toBssEnv st.wanted bcn with
    | (t, some k) =>
      { t with bssEntry := Function.update t.bssEntry k { t.bssEntry k with rssi := bcn.rssi } }
    | (t, none) => t

/-- `ScanTab` likewise, and the index of the sender. -/
def enterScanTab (env : Env) (st : Station) (bcn : Beacon) : BssTable × Option ℕ :=
  match st.scanTab.bssTableSearch bcn.ie.bssid bcn.ie.channel with
  | some k => (st.scanTab, some k)
  | none => st.scanTab.bssTableSetEntry env.toBssEnv st.wanted bcn

/-- The latest signal strength and time of entry `k`. -/
def refresh (t : BssTable) (k : ℕ) (bcn : Beacon) : BssTable :=
  { t with
    bssEntry := Function.update t.bssEntry k
      { t.bssEntry k with rssi := bcn.rssi, lastBeaconRxTime := bcn.now } }

/-! ### Merging -/

def collapse (st : Station) (bssid : BitVec 48) : Station × Bool :=
  if exceeds (octets bssid) (octets st.bssid) then
    ({ st with
        bssid := bssid
        calls := st.calls ++ [.asicDisableSync, .asicSetBssid bssid, .makeIbssBeacon, .asicEnableIbssSync] },
      true)
  else (st, false)

/-- A beacon of another BSSID in an ad-hoc network: `none` where the security settings of entry `k` are not
those of the station. The flag says whether the BSSID is the station's own now. -/
def mergeIbss (st : Station) (k : ℕ) (isMyBssid : Bool) (bssid : BitVec 48) : Option (Station × Bool) :=
  if isMyBssid = false ∧ st.adhocOn = true then
    if st.wepStatus ≠ (st.scanTab.bssEntry k).cipher.wepStatus ∨
        st.authMode ≠ (st.scanTab.bssEntry k).cipher.authMode then none
    else some (collapse st bssid)
  else some (st, isMyBssid)

/-! ### A beacon of the own network -/

/-- `LinkDown`, for a reason that is not the access point's. -/
def linkDown (st : Station) : Station :=
  let down :=
    if st.adhocOn then
      { st with
        adhocOn := false
        wanted := { st.wanted with staConnected := false }
        scanTab := st.scanTab.bssTableDeleteEntry st.bssid st.channel }
    else
      { st with
        infraOn := false
        wanted := { st.wanted with staConnected := false }
        currReqIsFromNdis := false
        scanTab :=
          if st.currReqIsFromNdis = false ∧ (st.portSecured = true ∨ st.authMode < authModeWPA) then
            st.scanTab.bssTableDeleteEntry st.bssid st.channel
          else st.scanTab }
  { down with
    portSecured := st.wpaSupplicantUP ≠ 0 ∧ st.wepStatus = wepEnabled ∧ st.ieee8021X = false }

attribute [local instance] lawfulBEq_byte in
def switchChannel (st : Station) (k : ℕ) (channel newChannel : Byte) : Station :=
  if st.bIEEE80211H = true ∧ newChannel ≠ 0 ∧ channel ≠ newChannel then
    let down := linkDown st
    let t := down.scanTab.bssTableInit
    if newChannel ∈ st.channelList then
      { down with
        channel := newChannel
        scanTab :=
          { t with bssEntry := Function.update t.bssEntry k { t.bssEntry k with channel := newChannel } } }
    else { down with scanTab := t }
  else st

def privacyDiffers (st : Station) (bcn : Beacon) : Bool :=
  decide (st.wepStatus ≠ wepDisabled) != decide (bcn.ie.capabilityInfo &&& 0x0010 ≠ 0)

def followWidth (env : Env) (st : Station) (e : Elem) : Station :=
  if st.infraOn then { st with channel := env.controlChannel st e } else st

def declareConnected (env : Env) (st : Station) (e : Elem) : Station :=
  if st.adhocOn = true ∧ e.bcn.ie.capabilityInfo &&& 0x0002 ≠ 0 then
    if e.entered then followWidth env { st with wanted := { st.wanted with staConnected := true } } e
    else st
  else followWidth env st e

def ownBeacon (env : Env) (st : Station) (k : ℕ) (e : Elem) (bcn : Beacon) : Station :=
  let st := switchChannel st k bcn.ie.channel e.newChannel
  if st.wpaSupplicantUP &&& wpaSupplicantEnableWps = 0 ∧ privacyDiffers st bcn = true then
    if st.infraOn then
      let down := linkDown st
      { down with scanTab := down.scanTab.bssTableInit }
    else st
  else declareConnected env st e

/-! ### The handler -/

/-- The handler behind the tables, for the sender at index `k`. -/
def afterTables (env : Env) (st : Station) (k : ℕ) (isMyBssid : Bool) (e : Elem) (bcn : Beacon) : Station :=
  match mergeIbss st k isMyBssid bcn.ie.bssid with
  | none => st
  | some (st, isMyBssid) =>
    let st := { st with scanTab := refresh st.scanTab k bcn }
    if isMyBssid then ownBeacon env st k e bcn else st

def handle (env : Env) (st : Station) (isMyBssid : Bool) (e : Elem) : Station :=
  let bcn := copyHtInfo e
  let st := { st with ssidBssTab := enterSsidBssTab env st bcn }
  match enterScanTab env st bcn with
  | (t, none) => { st with scanTab := t }
  | (t, some k) => afterTables env { st with scanTab := t } k isMyBssid e bcn

def peerBeacon (env : Env) (st : Station) (e : Elem) : Station :=
  if ¬(st.infraOn = true ∨ st.adhocOn = true) ∨ e.sane = false then st
  else
    let ie := e.bcn.ie
    let isMyBssid : Bool := decide (ie.bssid = st.bssid)
    let isMySsid := BssTable.ssidEqual ie.ssid ie.ssidLen st.ssid st.ssidLen
    if isMySsid = false ∧ isMyBssid = false then st
    else if st.cntlState = cntlWaitDisassoc then st
    else handle env st isMyBssid e

end Mt7610u.Mlme.Ibss
