import Mt7610u.Wpa.MakeRsnIe
import Mt7610u.Lib.Elements

/-! # The association request (`sta/assoc.c`, `build_vht_ies` of `common/vht.c`)

The frames that `MlmeAssocReqAction` and `MlmeReassocReqAction` build, and the copy of some elements that the first of
them keeps in `ReqVarIEs` for the supplicant.

`HAS_WFD_SUPPORT` is off; the supplicant, the native supplicant, `DOT11N_DRAFT3` and `DOT11_VHT_AC` are on. -/

namespace Mt7610u.Mgmt.AssocReq

open Mt7610u.Lib Mt7610u.Wpa

/-! ### What the functions read -/

structure AssocReqStruct where
  addr : Bytes 6
  capabilityInfo : BitVec 16
  listenIntv : BitVec 16
  timeout : ℕ

/-- `MlmeAux`, and `bPreNHt` of `StaActive`. -/
structure MlmeAux where
  bssid : Bytes 6
  ssid : ℕ → Byte
  ssidLen : Byte
  supRate : ℕ → Byte
  supRateLen : Byte
  extRate : ℕ → Byte
  extRateLen : Byte
  htCapability : ℕ → Byte
  htCapabilityLen : Byte
  vhtCapLen : Byte
  channel : Byte
  apRalinkIe : BitVec 32
  /-- `APEdcaParm.bValid`, `APEdcaParm.bAPSDCapable` -/
  edcaValid : Bool
  edcaApsdCapable : Bool
  bPreNHt : Bool

structure CommonCfg where
  phyMode : Byte
  channel : Byte
  bBssCoexEnable : Bool
  bAggregationCapable : Bool
  bPiggyBackCapable : Bool
  bApsdAcBe : Bool
  bApsdAcBk : Bool
  bApsdAcVi : Bool
  bApsdAcVo : Bool
  maxSpLength : Byte
  lastBssid : Bytes 6
  vhtSgi80 : Byte
  vhtStbc : Bool
  txStream : ℕ
  rxStream : ℕ
  /-- `IS_MT76x0 (pAd) || IS_MT76x2 (pAd)` -/
  isMt76 : Bool

structure BssidInfo where
  bssid : Bytes 6
  pmkid : Bytes 16

structure FixedIes where
  capabilities : BitVec 16
  listenInterval : BitVec 16

/-- `StaCfg`. What lies behind `ReqVarIEs` and `RSN_IE` in memory follows them. -/
structure StaCfg where
  bBlockAssoc : Bool
  authMode : AuthMode
  wepStatus : WepStatus
  groupCipher : WepStatus
  bMixCipher : Bool
  rsn : RsnIe
  savedPmk : Fin 4 → BssidInfo
  bApsdCapable : Bool
  wpaSupplicantUP : Byte
  bRsnIeFromWpaSupplicant : Bool
  pWpaAssocIe : ℕ → Byte
  wpaAssocIeLen : ℕ
  requestFixedIes : FixedIes
  reqVarIes : ℕ → Byte
  reqVarIeLen : BitVec 16

/-- `AssocMachine.CurrState` -/
inductive AssocState
  | assocIdle | assocWaitRsp | reassocWaitRsp | disassocWaitRsp
deriving DecidableEq, Repr

structure Adapter where
  currentAddress : Bytes 6
  mlmeAux : MlmeAux
  commonCfg : CommonCfg
  staCfg : StaCfg
  currState : AssocState

/-- `MLME_STATE_MACHINE_REJECT`, `MLME_FAIL_NO_RESOURCE` -/
inductive Status
  | stateMachineReject | failNoResource
deriving DecidableEq, Repr

/-- What the functions do besides; `conf` is the message `MT2_ASSOC_CONF` or `MT2_REASSOC_CONF`, `setTimer` and
`cancelTimer` are about `AssocTimer` or `ReassocTimer`. -/
inductive Effect
  | conf (status : Status)
  | removeAllKeys
  | cancelTimer
  | miniportMMRequest (frame : List Byte)
  | setTimer (timeout : ℕ)

/-- `MGMT_DMA_BUFFER_SIZE`, `MAX_VIE_LEN` -/
def mgmtDmaBufferSize : ℕ := 1600
def maxVieLen : ℕ := 1024

/-! ### The elements -/

/-- `MakeOutgoingFrame`: the pieces behind each other. -/
def makeOutgoingFrame (pieces : List (List Byte)) : List Byte := pieces.flatten

/-- `WMODE_CAP_N`, `WMODE_CAP_AC` -/
def wmodeCapN (phyMode : Byte) : Bool := phyMode &&& 0x18#8 != 0#8
def wmodeCapAc (phyMode : Byte) : Bool := phyMode &&& 0x20#8 != 0#8

def fieldIe (eid len : Byte) (field : ℕ → Byte) : List Byte := makeOutgoingFrame [[eid], [len], read field len.toNat]

/-- The elements with numbers `SsidIe`, `SupRateIe`, `ExtRateIe`. -/
def ssidIe (a : MlmeAux) : List Byte := fieldIe 0#8 a.ssidLen a.ssid
def supRateIe (a : MlmeAux) : List Byte := fieldIe 1#8 a.supRateLen a.supRate
def extRateIe (a : MlmeAux) : List Byte := if a.extRateLen ≠ 0#8 then fieldIe 50#8 a.extRateLen a.extRate else []

/-- `VHT_MCS_CAP_7`, `VHT_MCS_CAP_9`, `VHT_MCS_CAP_NA` -/
def vhtMcsCap7 : ℕ := 0
def vhtMcsCap9 : ℕ := 2
def vhtMcsCapNa : ℕ := 3

/-- A `VHT_MCS_MAP`: two bits for each number of streams, those of three and more always `VHT_MCS_CAP_NA`. -/
def vhtMcsMap (ss1 ss2 : ℕ) : ℕ :=
  ss1 + 4 * ss2 + 4 ^ 2 * vhtMcsCapNa + 4 ^ 3 * vhtMcsCapNa + 4 ^ 4 * vhtMcsCapNa + 4 ^ 5 * vhtMcsCapNa
    + 4 ^ 6 * vhtMcsCapNa + 4 ^ 7 * vhtMcsCapNa

def vhtMcs (isMt76 : Bool) (streams : ℕ) : List Byte :=
  match streams with
  | 1 => ushortOctets (vhtMcsMap (if isMt76 then vhtMcsCap9 else vhtMcsCap7) vhtMcsCapNa) ++ ushortOctets 292
  | 2 => ushortOctets (vhtMcsMap vhtMcsCap7 vhtMcsCap7) ++ ushortOctets 585
  | _ => ushortOctets (vhtMcsMap vhtMcsCapNa vhtMcsCapNa) ++ ushortOctets 0

/-- `VHT_CAP_INFO`: `sgi_80M`, `tx_stbc`, `rx_stbc`, `htc_vht_cap`, `max_ampdu_exp` and the two antenna patterns. -/
def vhtCapInfo (c : CommonCfg) : ℕ :=
  c.vhtSgi80.toNat % 2 * 2 ^ 5
    + (if c.vhtStbc ∧ 2 ≤ c.txStream then 1 else 0) * 2 ^ 7
    + (if c.vhtStbc ∧ 1 ≤ c.rxStream then 1 else 0) * 2 ^ 8
    + 1 * 2 ^ 22 + 3 * 2 ^ 23 + 1 * 2 ^ 28 + 1 * 2 ^ 29

def buildVhtCapIe (c : CommonCfg) : List Byte :=
  ushortOctets (vhtCapInfo c) ++ ushortOctets (vhtCapInfo c / 2 ^ 16) ++ vhtMcs c.isMt76 c.rxStream
    ++ vhtMcs c.isMt76 c.txStream

/-- `build_vht_ies` for a request: there is no `IE_VHT_OP`. -/
def buildVhtIes (c : CommonCfg) : List Byte := makeOutgoingFrame [[191#8, 12#8], buildVhtCapIe c]

def htIes (a : MlmeAux) (c : CommonCfg) : List Byte :=
  if 0 < a.htCapabilityLen.toNat ∧ wmodeCapN c.phyMode then
    (if a.bPreNHt then
      makeOutgoingFrame [[221#8], [30#8], [0x00#8, 0x90#8, 0x4c#8, 0x33#8], read a.htCapability a.htCapabilityLen.toNat]
    else fieldIe 45#8 a.htCapabilityLen a.htCapability)
      ++ if wmodeCapAc c.phyMode ∧ 14 < a.channel.toNat ∧ a.vhtCapLen ≠ 0#8 then buildVhtIes c else []
  else []

/-- The extended capabilities with `BssCoexistMgmtSupport`. -/
def extCapIe (c : CommonCfg) : List Byte :=
  makeOutgoingFrame [[127#8], [4#8],
    [if c.bBssCoexEnable ∧ wmodeCapN c.phyMode ∧ c.channel.toNat ≤ 14 then 1#8 else 0#8, 0#8, 0#8, 0#8]]

def ralinkIeOf (x : Byte) : List Byte := [221#8, 7#8, 0x00#8, 0x0c#8, 0x43#8, x, 0#8, 0#8, 0#8]

/-- The element with the access point's aggregation; `none` is its sixth octet where the user does not aggregate. -/
def ralinkIe (a : MlmeAux) (c : CommonCfg) (none : Byte) : List Byte :=
  if c.bAggregationCapable then
    if c.bPiggyBackCapable ∧ a.apRalinkIe &&& 3#32 = 3#32 then ralinkIeOf 3#8
    else if a.apRalinkIe &&& 1#32 ≠ 0#32 then ralinkIeOf 1#8
    else []
  else ralinkIeOf none

/-- `QBSS_STA_INFO_PARM` -/
def qosInfo (c : CommonCfg) : Byte :=
  BitVec.ofNat 8 (c.bApsdAcVo.toNat + 2 * c.bApsdAcVi.toNat + 4 * c.bApsdAcBk.toNat + 8 * c.bApsdAcBe.toNat
    + 2 ^ 5 * (c.maxSpLength.toNat % 4))

def wmeIe (a : MlmeAux) (c : CommonCfg) (s : StaCfg) : List Byte :=
  if a.edcaValid then
    [221#8, 7#8, 0x00#8, 0x50#8, 0xf2#8, 0x02#8, 0x00#8, 0x01#8,
      if s.bApsdCapable ∧ a.edcaApsdCapable then qosInfo c else 0#8]
  else []

/-! ### The security of the request -/

def hasRsn : AuthMode → Bool
  | .wpaPsk | .wpa2Psk | .wpa | .wpa2 => true
  | _ => false

/-- `RSNIe` -/
def rsnEid (m : AuthMode) : Byte := if m.bWpa2 then 48#8 else 221#8

/-- `(WpaSupplicantUP & WPA_SUPPLICANT_ENABLE) && bRSN_IE_FromWpaSupplicant == TRUE` -/
def suppliesIes (s : StaCfg) : Bool := s.wpaSupplicantUP &&& 1#8 ≠ 0#8 ∧ s.bRsnIeFromWpaSupplicant

def keepsRsn (s : StaCfg) : Bool := s.wpaSupplicantUP &&& 0x7f#8 ≠ 1#8 ∨ s.bRsnIeFromWpaSupplicant = false

/-- What `RTMPMakeRSNIE` reads. -/
def StaCfg.rsnCfg (s : StaCfg) : RsnCfg := ⟨s.wpaSupplicantUP, s.groupCipher, s.bMixCipher⟩

/-- The first entry of `SavedPMK` for the access point, if the request is to name it. -/
def foundPmk (s : StaCfg) (lastBssid apAddr : Bytes 6) : Option BssidInfo :=
  if apAddr = lastBssid then none else (List.ofFn s.savedPmk).find? fun p => p.bssid = apAddr

def appendPmkid (r : RsnIe) (p : BssidInfo) : RsnIe where
  rsnIe := copy (copy r.rsnIe r.rsnIeLen.toNat (ushortOctets 1)) (r.rsnIeLen.toNat + 2) (List.ofFn p.pmkid)
  rsnIeLen := r.rsnIeLen + 18#8

def pmkOf (s : StaCfg) (lastBssid apAddr : Bytes 6) : Option BssidInfo :=
  if s.bRsnIeFromWpaSupplicant = false ∧ s.authMode = .wpa2 then foundPmk s lastBssid apAddr else none

/-- `RSN_IE` before a PMKID is appended. -/
def madeRsn (s : StaCfg) : RsnIe :=
  if hasRsn s.authMode ∧ s.bRsnIeFromWpaSupplicant = false then
    rtmpMakeRsnIe s.rsnCfg s.authMode s.wepStatus s.rsn
  else s.rsn

/-- `RSN_IE` when the frame is built. -/
def rsnOf (s : StaCfg) (lastBssid apAddr : Bytes 6) : RsnIe :=
  match pmkOf s lastBssid apAddr with
  | some p => appendPmkid (madeRsn s) p
  | none => madeRsn s

/-- How far `RSN_IE` is written when the PMKID is appended. -/
def pmkidEnd (s : StaCfg) (lastBssid apAddr : Bytes 6) : ℕ :=
  match pmkOf s lastBssid apAddr with
  | some _ => (madeRsn s).rsnIeLen.toNat + 18
  | none => 0

/-- The element of the driver and the ones of the supplicant, as the frame has them; `s` is after `RSN_IE` was made. -/
def rsnElement (s : StaCfg) : List Byte := fieldIe (rsnEid s.authMode) s.rsn.rsnIeLen s.rsn.rsnIe
def wpaAssocIe (s : StaCfg) : List Byte := read s.pWpaAssocIe s.wpaAssocIeLen

def securityIe (s : StaCfg) : List Byte :=
  (if hasRsn s.authMode ∧ ¬ suppliesIes s then rsnElement s else []) ++ if suppliesIes s then wpaAssocIe s else []

/-! ### `ReqVarIEs` -/

/-- `ReqVarIEs` with `VarIesOffset`, and how far it was written. -/
structure VarIes where
  ies : ℕ → Byte
  offset : ℕ
  reach : ℕ

/-- `NdisMoveMemory` to the offset, and the offset behind it, a `USHORT`. -/
def VarIes.append (v : VarIes) (bs : List Byte) : VarIes :=
  ⟨copy v.ies v.offset bs, (v.offset + bs.length) % 2 ^ 16, max v.reach (v.offset + bs.length)⟩

def VarIes.appendField (v : VarIes) (eid len : Byte) (field : ℕ → Byte) : VarIes :=
  ((v.append [eid]).append [len]).append (read field len.toNat)

def VarIes.cleared (reqVarIes : ℕ → Byte) : VarIes := ⟨copy reqVarIes 0 (List.replicate maxVieLen 0#8), 0, maxVieLen⟩

/-- `SSID` and rates. -/
def VarIes.begun (a : MlmeAux) (reqVarIes : ℕ → Byte) : VarIes :=
  ((VarIes.cleared reqVarIes).appendField 0#8 a.ssidLen a.ssid).appendField 1#8 a.supRateLen a.supRate

/-- `ReqVarIEs` and `ReqVarIELen`, and how far the first of them was written. -/
structure Kept where
  varIes : VarIes
  reqVarIeLen : BitVec 16

/-- `pAd->StaCfg.ReqVarIELen = VarIesOffset` -/
def VarIes.store (v : VarIes) : Kept := ⟨v, BitVec.ofNat 16 v.offset⟩

/-- The element of the driver; `s` is after `RSN_IE` was made. -/
def keepRsn (s : StaCfg) (k : Kept) : Kept :=
  if hasRsn s.authMode ∧ keepsRsn s then
    (k.varIes.appendField (rsnEid s.authMode) s.rsn.rsnIeLen s.rsn.rsnIe).store
  else k

def keepWpaAssocIe (s : StaCfg) (k : Kept) : Kept :=
  if suppliesIes s then (k.varIes.append (wpaAssocIe s)).store else k

def keep (a : MlmeAux) (s : StaCfg) : Kept :=
  keepWpaAssocIe s (keepRsn s ⟨VarIes.begun a s.reqVarIes, s.reqVarIeLen⟩)

/-! ### The two functions -/

/-- `MgtMacHeaderInit` with `pDA` and `pBssid` the same. -/
def mgtMacHeader (subType : ℕ) (currentAddress apAddr : Bytes 6) : List Byte :=
  [BitVec.ofNat 8 (subType * 16), 0#8, 0#8, 0#8] ++ List.ofFn apAddr ++ List.ofFn currentAddress ++ List.ofFn apAddr
    ++ [0#8, 0#8]

/-- A `USHORT` of the message. -/
def ushort (x : BitVec 16) : List Byte := ushortOctets x.toNat

def assocFixed (pAd : Adapter) (r : AssocReqStruct) : List Byte :=
  makeOutgoingFrame [mgtMacHeader 0 pAd.currentAddress r.addr, ushort r.capabilityInfo, ushort r.listenIntv]

def reassocFixed (pAd : Adapter) (r : AssocReqStruct) : List Byte :=
  makeOutgoingFrame [mgtMacHeader 2 pAd.currentAddress r.addr, ushort r.capabilityInfo, ushort r.listenIntv,
    List.ofFn r.addr]

def assocOptions (a : MlmeAux) (c : CommonCfg) (s : StaCfg) : List Byte :=
  extRateIe a ++ htIes a c ++ extCapIe c ++ ralinkIe a c 6#8 ++ wmeIe a c s

def reassocOptions (a : MlmeAux) (c : CommonCfg) (s : StaCfg) : List Byte :=
  extRateIe a ++ wmeIe a c s ++ htIes a c ++ ralinkIe a c 4#8

/-- An adapter, the effects in their order, and how far the buffers of `StaCfg` were written. -/
structure Done where
  pAd : Adapter
  effects : List Effect
  reqVarEnd : ℕ
  pmkidEnd : ℕ

def refuse (pAd : Adapter) (before : List Effect) (status : Status) : Done where
  pAd := { pAd with currState := .assocIdle }
  effects := before ++ [.conf status]
  reqVarEnd := 0
  pmkidEnd := 0

/-- `StaCfg` when the frame of an association request is complete. -/
def assocStaCfg (pAd : Adapter) (r : AssocReqStruct) : StaCfg :=
  { pAd.staCfg with
    requestFixedIes := ⟨r.capabilityInfo, r.listenIntv⟩
    rsn := rsnOf pAd.staCfg pAd.commonCfg.lastBssid r.addr }

/-- `MlmeAux` of a request. -/
def reqMlmeAux (pAd : Adapter) (r : AssocReqStruct) : MlmeAux := { pAd.mlmeAux with bssid := r.addr }

def assocFrame (pAd : Adapter) (r : AssocReqStruct) : List Byte :=
  let a := reqMlmeAux pAd r
  let s := assocStaCfg pAd r
  assocFixed pAd r ++ (ssidIe a ++ supRateIe a) ++ assocOptions a pAd.commonCfg s ++ securityIe s

def reassocFrame (pAd : Adapter) (r : AssocReqStruct) : List Byte :=
  let a := reqMlmeAux pAd r
  reassocFixed pAd r ++ (ssidIe a ++ supRateIe a) ++ reassocOptions a pAd.commonCfg pAd.staCfg

/-- `MlmeAssocReqAction` with a buffer for the frame. -/
def sendAssocReq (pAd : Adapter) (r : AssocReqStruct) : Done :=
  let a := reqMlmeAux pAd r
  let s := assocStaCfg pAd r
  let k := keep a s
  { pAd := { pAd with
      mlmeAux := a
      staCfg := { s with reqVarIes := k.varIes.ies, reqVarIeLen := k.reqVarIeLen }
      currState := .assocWaitRsp }
    effects := [.removeAllKeys, .cancelTimer, .miniportMMRequest (assocFrame pAd r), .setTimer r.timeout]
    reqVarEnd := k.varIes.reach
    pmkidEnd := pmkidEnd pAd.staCfg pAd.commonCfg.lastBssid r.addr }

/-- `MlmeReassocReqAction` with a buffer for the frame. Nothing is kept. -/
def sendReassocReq (pAd : Adapter) (r : AssocReqStruct) : Done where
  pAd := { pAd with mlmeAux := reqMlmeAux pAd r, currState := .reassocWaitRsp }
  effects := [.removeAllKeys, .cancelTimer, .miniportMMRequest (reassocFrame pAd r), .setTimer (r.timeout * 2)]
  reqVarEnd := 0
  pmkidEnd := 0

/-- `MlmeAssocReqAction`. `MlmeAssocReqSanity` reads the message and says `TRUE`; `allocated` is what
`MlmeAllocateMemory` says, before which `Bssid` was set. -/
def mlmeAssocReqAction (pAd : Adapter) (r : AssocReqStruct) (allocated : Bool) : Done :=
  if pAd.staCfg.bBlockAssoc then refuse pAd [] .stateMachineReject
  else if allocated = false then
    refuse { pAd with mlmeAux := reqMlmeAux pAd r } [.removeAllKeys, .cancelTimer] .failNoResource
  else sendAssocReq pAd r

def mlmeReassocReqAction (pAd : Adapter) (r : AssocReqStruct) (allocated : Bool) : Done :=
  if pAd.staCfg.bBlockAssoc then refuse pAd [] .stateMachineReject
  else if allocated = false then refuse pAd [.removeAllKeys, .cancelTimer] .failNoResource
  else sendReassocReq pAd r

end Mt7610u.Mgmt.AssocReq
