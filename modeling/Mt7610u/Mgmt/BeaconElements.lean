import Mathlib.Data.Fin.VecNotation
import Mt7610u.Mlme.BssEntry

/-! # Elements of a beacon or a probe response

What the two parsers of beacons and probe responses work on. -/

namespace Mt7610u.Mgmt.Beacon

open Mt7610u.Lib Mt7610u.Mlme

/-! ### The state and the frame -/

structure BuildFlags where
  /-- both `CONFIG_AP_SUPPORT` and `CONFIG_STA_SUPPORT` -/
  apAndSta : Bool
  /-- `EXT_BUILD_CHANNEL_LIST` or `RT_CFG80211_SUPPORT` -/
  countryIe : Bool
  /-- `DOT11_VHT_AC` -/
  vht : Bool

/-- What the parsers read of `RTMP_ADAPTER`. -/
structure Adapter where
  flags : BuildFlags
  /-- `OpMode == OPMODE_STA` -/
  opModeSta : Bool
  /-- `INFRA_ON` -/
  infraOn : Bool
  /-- `CommonCfg.Bssid` -/
  commonBssid : ℕ → Byte
  /-- `StaActive.Aid` -/
  aid : BitVec 16
  /-- `LatchRfRegs.Channel` -/
  latchRfChannel : Byte
  /-- `ChannelList[i].Channel` for `i < ChannelListNum` -/
  channelList : List Byte

/-- `IF_DEV_CONFIG_OPMODE_ON_STA`: a test only where the driver is built for both modes. -/
def Adapter.ifOpModeOnSta (pAd : Adapter) : Bool := !pAd.flags.apAndSta || pAd.opModeSta

def Adapter.channelSanity (pAd : Adapter) (channel : Byte) : Bool := pAd.channelList.contains channel

/-- A frame in a queue element, with the memory behind it, and whether the buffer of 512 bytes for WSC elements
can be had. -/
structure Arrival where
  msg : ℕ → Byte
  msgLen : ℕ
  msgChannel : Byte
  peerWscIe : Bool

namespace Arrival

def subType (a : Arrival) : Byte := a.msg 0 >>> 4

/-- `pEid->Eid` of the element at `p`. -/
def eid (a : Arrival) (p : ℕ) : Byte := a.msg p

/-- `pEid->Len` of the element at `p`. -/
def len (a : Arrival) (p : ℕ) : ℕ := (a.msg (p + 1)).toNat

/-- `pEid->Octet` of the element at `p`. -/
def octet (a : Arrival) (p : ℕ) : ℕ → Byte := fun i => a.msg (p + 2 + i)

/-- The element at `p`, its two bytes of header included. -/
def element (a : Arrival) (p : ℕ) : List Byte := readAt a.msg p (a.len p + 2)

def hasOui (a : Arrival) (p : ℕ) (oui : List Byte) : Bool := equalMemory (a.octet p) (mem oui) oui.length

end Arrival

inductive Eid
  | ssid | suppRates | fhParm | dsParm | cfParm | tim | ibssParm | country | qbssLoad | channelSwitch | erp
  | htCap | rsn | extSuppRates | addHt | secondaryChOffset | extCapability | aironetCkip | apTxPower | vhtCap
  | vhtOp | vendorSpecific | other

/-- The arm for `pEid->Eid`. -/
def Eid.ofByte (b : Byte) : Eid :=
  if b = 0 then .ssid else if b = 1 then .suppRates else if b = 2 then .fhParm else if b = 3 then .dsParm
  else if b = 4 then .cfParm else if b = 5 then .tim else if b = 6 then .ibssParm else if b = 7 then .country
  else if b = 11 then .qbssLoad else if b = 37 then .channelSwitch else if b = 42 then .erp
  else if b = 45 then .htCap else if b = 48 then .rsn else if b = 50 then .extSuppRates
  else if b = 61 then .addHt else if b = 62 then .secondaryChOffset else if b = 127 then .extCapability
  else if b = 133 then .aironetCkip else if b = 150 then .apTxPower else if b = 191 then .vhtCap
  else if b = 192 then .vhtOp else if b = 221 then .vendorSpecific else .other

def ralinkOui : List Byte := [0x00, 0x0c, 0x43]

def preNHtOui : List Byte := [0x00, 0x90, 0x4c]

def wpaOui : List Byte := [0x00, 0x50, 0xf2, 0x01]

def rsnOui : List Byte := [0x00, 0x0f, 0xac]

def wmeInfoElem : List Byte := [0x00, 0x50, 0xf2, 0x02, 0x00, 0x01]

def wmeParmElem : List Byte := [0x00, 0x50, 0xf2, 0x02, 0x01, 0x01]

def wpsOui : List Byte := [0x00, 0x50, 0xf2, 0x04]

def ciscoOui : List Byte := [0x00, 0x40, 0x96]

/-! ### What is taken out of an element -/

/-- Two bytes as a `USHORT`. -/
def ushortAt (src : ℕ → Byte) : BitVec 16 := (src 0).setWidth 16 + 256 * (src 1).setWidth 16

structure CfParm where
  bValid : Bool
  cfpCount : Byte
  cfpPeriod : Byte
  cfpMaxDuration : BitVec 16
  cfpDurRemaining : BitVec 16

structure QbssLoadParm where
  bValid : Bool
  staNum : BitVec 16
  channelUtilization : Byte
  remainingAdmissionControl : BitVec 16

/-- `QOS_CAPABILITY_PARM`: a flag and the fields that no parser writes. -/
structure QosCapabilityParm where
  bValid : Bool
  fields : ℕ → Byte

structure EdcaParm where
  bValid : Bool
  bAdd : Bool
  bQAck : Bool
  bQueueRequest : Bool
  bTxopRequest : Bool
  bAPSDCapable : Bool
  edcaUpdateCount : Byte
  aifsn : Fin 4 → Byte
  cwmin : Fin 4 → Byte
  cwmax : Fin 4 → Byte
  txop : Fin 4 → BitVec 16
  bACM : Fin 4 → Bool

def EdcaParm.setAc (e : EdcaParm) (ptr : ℕ → Byte) : EdcaParm :=
  let aci : Fin 4 := ⟨((ptr 0 &&& 0x60#8) >>> 5).toNat % 4, Nat.mod_lt _ (by decide)⟩
  { e with
    bACM := Function.update e.bACM aci (ptr 0 &&& 0x10#8 = 0x10#8)
    aifsn := Function.update e.aifsn aci (ptr 0 &&& 0x0f#8)
    cwmin := Function.update e.cwmin aci (ptr 1 &&& 0x0f#8)
    cwmax := Function.update e.cwmax aci (ptr 1 >>> 4)
    txop := Function.update e.txop aci (ushortAt fun i => ptr (2 + i)) }

def EdcaParm.setInfo (e : EdcaParm) (octet : ℕ → Byte) : EdcaParm :=
  { e with
    bValid := true
    bQAck := false
    bQueueRequest := false
    bTxopRequest := false
    edcaUpdateCount := octet 6 &&& 0x0f#8
    bAPSDCapable := octet 6 &&& 0x80#8 ≠ 0#8 }

def EdcaParm.ofParmElem (e : EdcaParm) (octet : ℕ → Byte) : EdcaParm :=
  (List.range 4).foldl (fun e i => e.setAc fun j => octet (8 + 4 * i + j)) (e.setInfo octet)

/-- A WME information element: the default parameters, by access category `QID_AC_BE`, `QID_AC_BK`, `QID_AC_VI` and
`QID_AC_VO`. -/
def EdcaParm.ofInfoElem (e : EdcaParm) (octet : ℕ → Byte) : EdcaParm :=
  { e.setInfo octet with
    bACM := ![false, false, false, false]
    aifsn := ![3, 7, 2, 2]
    cwmin := ![4, 4, 3, 2]
    cwmax := ![10, 10, 10, 9]
    txop := ![0, 0, 96, 48] }

/-- What `GetTimBit` finds out. -/
structure Tim where
  bcastFlag : Bool
  dtimCount : Byte
  dtimPeriod : Byte
  messageToMe : Bool

/-- `GetTimBit`, for the element at `p`. -/
def getTimBit (a : Arrival) (p : ℕ) (aid : BitVec 16) : Tim :=
  let timLen := a.msg (p + 1)
  let dtimCount := a.msg (p + 2)
  let bitCntl := a.msg (p + 4)
  let n1 := bitCntl &&& 0xfe#8
  let n2 := timLen - 4 + n1
  let myByte := (aid >>> 3).setWidth 8 - n1
  let myBit := aid.toNat % 16 - if myByte &&& 1#8 ≠ 0#8 then 8 else 0
  { bcastFlag := dtimCount = 0 ∧ bitCntl &&& 1#8 ≠ 0#8
    dtimCount := dtimCount
    dtimPeriod := a.msg (p + 3)
    messageToMe :=
      if aid.toNat < n1.toNat * 8 ∨ (n2.toNat + 1) * 8 ≤ aid.toNat then false
      else (a.msg (p + 4 + (myByte.toNat + 1))).getLsbD myBit }

/-! ### The loop -/

/-- The local variables of a parser, and `*LengthVIE`. -/
structure Locals where
  sanity : Byte
  ctrlChannel : Byte
  pPeerWscIe : Option (ℕ → Byte)
  peerWscIeLen : ℕ
  lengthVIE : ℕ

/-- What becomes of the loop after an element: it goes on, the code jumps to `SanityCheck`, it returns `FALSE`, or it
copies a negative number of bytes. -/
inductive Flow (σ : Type)
  | next (s : σ)
  | sanityCheck (s : σ)
  | reject
  | fault

/-- The loop over the elements from position `p` on. -/
def elements {σ : Type} (a : Arrival) (lengthVIE : σ → ℕ) (arm : ℕ → σ → Flow σ) : ℕ → ℕ → σ → Flow σ
  | 0, _, s => .next s
  | turns + 1, p, s =>
    if p + 2 + a.len p ≤ a.msgLen then
      if 1024 ≤ lengthVIE s + a.len p + 2 then .next s
      else
        match arm p s with
        | .next s => elements a lengthVIE arm turns (p + 2 + a.len p) s
        | r => r
    else .next s

def firstElement : ℕ := 36

end Mt7610u.Mgmt.Beacon
