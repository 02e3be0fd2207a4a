import Mt7610u.Lib.Bytes

/-! # BSS entries

One entry of the scan table and `bssEntrySet`, which fills it from the elements of a beacon or a probe
response. An array of the structure is the memory it occupies. -/

namespace Mt7610u.Mlme

open Lib

/-- `NdisMoveMemory` of `len` bytes to the start of a field. -/
def moveMemory (dst src : ℕ → Byte) (len : ℕ) : ℕ → Byte := fun i => if i < len then src i else dst i

/-- A field after `NdisZeroMemory`. -/
def zeroMemory : ℕ → Byte := fun _ => 0#8

def equalMemory (a b : ℕ → Byte) (len : ℕ) : Bool := Lib.read a len = Lib.read b len

structure CfParm where
  bValid : Bool
  cfpCount : BitVec 16
  cfpPeriod : BitVec 16
  cfpMaxDuration : BitVec 16
  cfpDurRemaining : BitVec 16

/-- `EDCA_PARM`, `QOS_CAPABILITY_PARM` and `QBSS_LOAD_PARM`: a flag and what it speaks for. -/
structure Parm where
  bValid : Bool
  fields : ℕ → Byte

namespace Parm

/-- The parameter is taken over if it is valid; otherwise the old one is marked as invalid. -/
def update (old new : Parm) : Parm := if new.bValid then new else { old with bValid := false }

end Parm

structure WpaIe where
  ieLen : ℕ
  ie : ℕ → Byte

/-- What `BssCipherParse` finds out: `bSES`, `WPA`, `WPA2`, `AuthMode`, `AuthModeAux` and `WepStatus`. -/
structure CipherInfo where
  bSES : Bool
  wpa : ℕ → Byte
  wpa2 : ℕ → Byte
  authMode : ℕ
  authModeAux : ℕ
  wepStatus : ℕ

/-- `BSS_ENTRY`. `others` stands for the fields that none of the functions here looks at. -/
structure BssEntry where
  bssid : BitVec 48
  channel : Byte
  centralChannel : Byte
  bssType : Byte
  atimWin : BitVec 16
  beaconPeriod : BitVec 16
  supRate : ℕ → Byte
  supRateLen : ℕ
  extRate : ℕ → Byte
  extRateLen : ℕ
  htCapability : ℕ → Byte
  htCapabilityLen : ℕ
  addHtInfo : ℕ → Byte
  addHtInfoLen : ℕ
  newExtChanOffset : Byte
  rssi : Byte
  vhtCapLen : ℕ
  vhtOpLen : ℕ
  vhtCapIe : ℕ → Byte
  vhtOpIe : ℕ → Byte
  privacy : Bool
  hidden : Bool
  capabilityInfo : BitVec 16
  cfpCount : BitVec 16
  cfpPeriod : BitVec 16
  cfpMaxDuration : BitVec 16
  cfpDurRemaining : BitVec 16
  ssidLen : ℕ
  ssid : ℕ → Byte
  lastBeaconRxTime : ℕ
  cipher : CipherInfo
  fixTimestamp : ℕ → Byte
  fixBeaconInterval : BitVec 16
  fixCapabilities : BitVec 16
  varIELen : ℕ
  varIEs : ℕ → Byte
  varIeFromProbeRspLen : ℕ
  pVarIeFromProbRsp : Option ℕ
  ckipFlag : Byte
  edcaParm : Parm
  qosCapability : Parm
  qbssLoad : Parm
  wpaIE : WpaIe
  rsnIE : WpaIe
  wpsIE : WpaIe
  countryString : ℕ → Byte
  bHasCountryIE : Bool
  others : ℕ → Byte

/-- `BCN_IE_LIST`, the fields that are read. -/
structure BcnIeList where
  bssid : BitVec 48
  ssid : ℕ → Byte
  ssidLen : ℕ
  bssType : Byte
  beaconPeriod : BitVec 16
  channel : Byte
  atimWin : BitVec 16
  capabilityInfo : BitVec 16
  supRate : ℕ → Byte
  supRateLen : ℕ
  extRate : ℕ → Byte
  extRateLen : ℕ
  ckipFlag : Byte
  timeStamp : ℕ → Byte
  cfParm : CfParm
  edcaParm : Parm
  qbssLoad : Parm
  qosCapability : Parm
  htCapabilityLen : ℕ
  htCapability : ℕ → Byte
  addHtInfoLen : ℕ
  addHtInfo : ℕ → Byte
  newExtChannelOffset : Byte
  vhtCapIe : ℕ → Byte
  vhtOpIe : ℕ → Byte
  vhtCapLen : ℕ
  vhtOpLen : ℕ

/-- A beacon or probe response: the elements parsed, the signal strength, and the variable elements as
they came. `now` is the system time. -/
structure Beacon where
  ie : BcnIeList
  rssi : Byte
  lengthVIE : ℕ
  pVIE : ℕ → Byte
  now : ℕ

/-- What `BssEntrySet` calls: `get_cent_ch_by_htinfo` on the HT elements and `BssCipherParse` on an
entry. -/
structure BssEnv where
  getCentChByHtinfo : (ℕ → Byte) → (ℕ → Byte) → Byte
  bssCipherParse : BssEntry → CipherInfo

namespace BssEntry

/-- An entry after `NdisZeroMemory`. -/
def zero : BssEntry where
  bssid := 0
  channel := 0
  centralChannel := 0
  bssType := 0
  atimWin := 0
  beaconPeriod := 0
  supRate := zeroMemory
  supRateLen := 0
  extRate := zeroMemory
  extRateLen := 0
  htCapability := zeroMemory
  htCapabilityLen := 0
  addHtInfo := zeroMemory
  addHtInfoLen := 0
  newExtChanOffset := 0
  rssi := 0
  vhtCapLen := 0
  vhtOpLen := 0
  vhtCapIe := zeroMemory
  vhtOpIe := zeroMemory
  privacy := false
  hidden := false
  capabilityInfo := 0
  cfpCount := 0
  cfpPeriod := 0
  cfpMaxDuration := 0
  cfpDurRemaining := 0
  ssidLen := 0
  ssid := zeroMemory
  lastBeaconRxTime := 0
  cipher := ⟨false, zeroMemory, zeroMemory, 0, 0, 0⟩
  fixTimestamp := zeroMemory
  fixBeaconInterval := 0
  fixCapabilities := 0
  varIELen := 0
  varIEs := zeroMemory
  varIeFromProbeRspLen := 0
  pVarIeFromProbRsp := none
  ckipFlag := 0
  edcaParm := ⟨false, zeroMemory⟩
  qosCapability := ⟨false, zeroMemory⟩
  qbssLoad := ⟨false, zeroMemory⟩
  wpaIE := ⟨0, zeroMemory⟩
  rsnIE := ⟨0, zeroMemory⟩
  wpsIE := ⟨0, zeroMemory⟩
  countryString := zeroMemory
  bHasCountryIE := false
  others := zeroMemory

def setSsid (b : BssEntry) (ie : BcnIeList) : BssEntry :=
  if ie.ssidLen > 0 then
    if equalMemory ie.ssid zeroMemory ie.ssidLen then { b with hidden := true }
    else
      { b with
        ssid := moveMemory zeroMemory ie.ssid ie.ssidLen
        ssidLen := ie.ssidLen
        hidden := false }
  else if equalMemory b.ssid zeroMemory b.ssidLen then
    { b with hidden := true, ssid := zeroMemory, ssidLen := 0 }
  else { b with hidden := true }

def setCf (b : BssEntry) (ie : BcnIeList) : BssEntry :=
  if ie.bssType = 1 then
    if ie.cfParm.bValid then
      { b with
        cfpCount := ie.cfParm.cfpCount
        cfpPeriod := ie.cfParm.cfpPeriod
        cfpMaxDuration := ie.cfParm.cfpMaxDuration
        cfpDurRemaining := ie.cfParm.cfpDurRemaining }
    else b
  else { b with atimWin := ie.atimWin }

def setFixed (b : BssEntry) (bcn : Beacon) : BssEntry :=
  let ie := bcn.ie
  { b with
    bssType := ie.bssType
    beaconPeriod := ie.beaconPeriod
    lastBeaconRxTime := bcn.now
    capabilityInfo := ie.capabilityInfo
    privacy := ie.capabilityInfo &&& 0x0010 ≠ 0
    supRate := moveMemory b.supRate ie.supRate (min ie.supRateLen 12)
    supRateLen := ie.supRateLen
    extRate := moveMemory b.extRate ie.extRate (min ie.extRateLen 12)
    extRateLen := min ie.extRateLen 12
    newExtChanOffset := ie.newExtChannelOffset
    channel := ie.channel
    centralChannel := ie.channel
    rssi := bcn.rssi
    ckipFlag := ie.ckipFlag
    fixTimestamp := moveMemory b.fixTimestamp ie.timeStamp 8
    fixBeaconInterval := ie.beaconPeriod
    fixCapabilities := ie.capabilityInfo
    varIELen := bcn.lengthVIE
    varIEs := if bcn.lengthVIE ≠ 0 then moveMemory b.varIEs bcn.pVIE bcn.lengthVIE else b.varIEs
    htCapabilityLen := 0
    addHtInfoLen := 0 }

def setHt (env : BssEnv) (b : BssEntry) (ie : BcnIeList) : BssEntry :=
  let b := { b with
    htCapabilityLen := ie.htCapabilityLen
    htCapability := moveMemory b.htCapability ie.htCapability ie.htCapabilityLen }
  if ie.addHtInfoLen > 0 then
    { b with
      addHtInfoLen := ie.addHtInfoLen
      addHtInfo := moveMemory b.addHtInfo ie.addHtInfo ie.addHtInfoLen
      centralChannel := env.getCentChByHtinfo ie.addHtInfo ie.htCapability }
  else b

def setVht (b : BssEntry) (ie : BcnIeList) : BssEntry :=
  let b := if ie.vhtCapLen ≠ 0 then
    { b with vhtCapIe := moveMemory b.vhtCapIe ie.vhtCapIe ie.vhtCapLen, vhtCapLen := ie.vhtCapLen }
    else b
  if ie.vhtOpLen ≠ 0 then
    let b := { b with
      vhtOpIe := moveMemory b.vhtOpIe ie.vhtOpIe ie.vhtOpLen
      vhtOpLen := ie.vhtOpLen }
    if (ie.vhtOpIe 0).toNat > 0 ∧ ie.addHtInfo 1 &&& 0x03 ≠ 0 ∧ (ie.htCapability 0).getLsbD 1 = true ∧
        b.centralChannel ≠ ie.addHtInfo 0 then
      { b with centralChannel := ie.vhtOpIe 1 }
    else b
  else b

def maxCustomLen : ℕ := 128

def keepIe (old : WpaIe) (eid : ℕ → Byte) : WpaIe :=
  let len := (eid 1).toNat + 2
  if len > maxCustomLen then { old with ieLen := 0 } else ⟨len, moveMemory old.ie eid len⟩

/-- One element of the variable part: its number, its length and its octets lie at `eid`. -/
def setEid (b : BssEntry) (eid : ℕ → Byte) : BssEntry :=
  if eid 0 = 221 then
    if readAt eid 2 4 = [0x00#8, 0x50#8, 0xf2#8, 0x04#8] then { b with wpsIE := keepIe b.wpsIE eid }
    else if readAt eid 2 4 = [0x00#8, 0x50#8, 0xf2#8, 0x01#8] then { b with wpaIE := keepIe b.wpaIE eid }
    else b
  else if eid 0 = 48 then
    if readAt eid 4 3 = [0x00#8, 0x0f#8, 0xac#8] then { b with rsnIE := keepIe b.rsnIE eid } else b
  else if eid 0 = 7 then
    { b with
      countryString := moveMemory b.countryString (fun i => eid (2 + i)) 3
      bHasCountryIE := true }
  else b

/-- The walk over the variable part, `length` bytes of which are behind it. -/
def walkEids (pVIE : ℕ → Byte) (lengthVIE length : ℕ) (b : BssEntry) : BssEntry :=
  if length + 2 + (pVIE (length + 1)).toNat ≤ lengthVIE then
    walkEids pVIE lengthVIE (length + 2 + (pVIE (length + 1)).toNat)
      (b.setEid fun i => pVIE (length + i))
  else b
termination_by lengthVIE - length

def bssEntrySet (env : BssEnv) (b : BssEntry) (bcn : Beacon) : BssEntry :=
  let ie := bcn.ie
  let b := setFixed (setCf (setSsid { b with bssid := ie.bssid } ie) ie) bcn
  let b := if ie.htCapabilityLen > 0 then setVht (setHt env b ie) ie else b
  let b := { b with
    cipher := env.bssCipherParse b
    edcaParm := b.edcaParm.update ie.edcaParm
    qosCapability := b.qosCapability.update ie.qosCapability
    qbssLoad := b.qbssLoad.update ie.qbssLoad
    wpaIE := ⟨0, zeroMemory⟩
    rsnIE := ⟨0, zeroMemory⟩
    wpsIE := ⟨0, zeroMemory⟩
    countryString := zeroMemory
    bHasCountryIE := false }
  walkEids bcn.pVIE bcn.lengthVIE 0 b

/-! ### What identifies an entry -/

/-- The fields that the table is searched by, and the buffer that belongs to the slot. -/
def key (b : BssEntry) : BitVec 48 × Byte × ℕ × Option ℕ :=
  (b.bssid, b.channel, b.varIeFromProbeRspLen, b.pVarIeFromProbRsp)

theorem key_setEid (b : BssEntry) (eid : ℕ → Byte) : (b.setEid eid).key = b.key := by
  unfold setEid
  split_ifs <;> rfl

theorem key_walkEids (pVIE : ℕ → Byte) (lengthVIE length : ℕ) (b : BssEntry) :
    (walkEids pVIE lengthVIE length b).key = b.key := by
  fun_induction walkEids pVIE lengthVIE length b with
  | case1 length b hfit ih => rw [ih, key_setEid]
  | case2 length b hfit => rfl

theorem key_setSsid (b : BssEntry) (ie : BcnIeList) : (b.setSsid ie).key = b.key := by
  unfold setSsid
  split_ifs <;> rfl

theorem key_setCf (b : BssEntry) (ie : BcnIeList) : (b.setCf ie).key = b.key := by
  unfold setCf
  split_ifs <;> rfl

theorem key_setHt (env : BssEnv) (b : BssEntry) (ie : BcnIeList) : (setHt env b ie).key = b.key := by
  simp only [setHt]
  split_ifs <;> rfl

theorem key_setVht (b : BssEntry) (ie : BcnIeList) : (b.setVht ie).key = b.key := by
  simp only [setVht]
  split_ifs <;> rfl

/-- **What `BssEntrySet` does to the identity of an entry**: it takes over BSSID and channel, and leaves
the probe response of the slot alone. -/
theorem key_bssEntrySet (env : BssEnv) (b : BssEntry) (bcn : Beacon) :
    (bssEntrySet env b bcn).key =
      (bcn.ie.bssid, bcn.ie.channel, b.varIeFromProbeRspLen, b.pVarIeFromProbRsp) := by
  have hfixed : (setFixed (setCf (setSsid { b with bssid := bcn.ie.bssid } bcn.ie) bcn.ie) bcn).key =
      (bcn.ie.bssid, bcn.ie.channel, b.varIeFromProbeRspLen, b.pVarIeFromProbRsp) := by
    have hkey := (key_setCf (setSsid { b with bssid := bcn.ie.bssid } bcn.ie) bcn.ie).trans
      (key_setSsid _ _)
    simp only [key, Prod.mk.injEq] at hkey ⊢
    exact ⟨hkey.1, rfl, hkey.2.2⟩
  simp only [bssEntrySet]
  rw [key_walkEids, ← hfixed]
  split
  · exact (key_setVht _ _).trans (key_setHt env _ _)
  · rfl

end BssEntry

end Mt7610u.Mlme
