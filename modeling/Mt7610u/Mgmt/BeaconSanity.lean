import Mt7610u.Mgmt.BeaconElements

/-! # The two beacon parsers (`common/cmm_sanity.c`)

`PeerBeaconAndProbeRspSanity_Old` with its output parameters, and `PeerBeaconAndProbeRspSanity`, which fills a
`BCN_IE_LIST`. Each has its own arm for every element. -/

namespace Mt7610u.Mgmt.Beacon

open Mt7610u.Lib Mt7610u.Mlme

/-! ### `PeerBeaconAndProbeRspSanity_Old` -/

structure OldOut where
  addr2 : ℕ → Byte
  bssid : ℕ → Byte
  ssid : ℕ → Byte
  ssidLen : ℕ
  bssType : Byte
  beaconPeriod : BitVec 16
  channel : Byte
  newChannel : Byte
  timestamp : ℕ → Byte
  cfParm : CfParm
  atimWin : BitVec 16
  capabilityInfo : BitVec 16
  erp : Byte
  dtimCount : Byte
  dtimPeriod : Byte
  bcastFlag : Bool
  messageToMe : Bool
  supRate : ℕ → Byte
  supRateLen : ℕ
  extRate : ℕ → Byte
  extRateLen : ℕ
  ckipFlag : Byte
  aironetCellPowerLimit : Byte
  edcaParm : EdcaParm
  qbssLoad : QbssLoadParm
  qosCapability : QosCapabilityParm
  ralinkIe : BitVec 32
  htCapabilityLen : ℕ
  preNHtCapabilityLen : ℕ
  htCapability : ℕ → Byte
  extCapInfo : ℕ → Byte
  addHtInfoLen : ℕ
  addHtInfo : ℕ → Byte
  newExtChannelOffset : Byte

structure OldState where
  out : OldOut
  vie : ℕ → Byte
  loc : Locals

/-- The element at `p` is appended to the variable-IE buffer. -/
def OldState.copyVIE (s : OldState) (a : Arrival) (p : ℕ) : OldState :=
  { s with
    vie := copy s.vie s.loc.lengthVIE (a.element p)
    loc := { s.loc with lengthVIE := s.loc.lengthVIE + (a.len p + 2) } }

/-- The arm of the old parser for the element at `p`. -/
def oldArm (pAd : Adapter) (a : Arrival) (p : ℕ) (s : OldState) : Flow OldState :=
  let len := a.len p
  let octet := a.octet p
  match Eid.ofByte (a.eid p) with
  | .ssid =>
    -- a second SSID is ignored
    if s.loc.sanity &&& 1#8 ≠ 0#8 then .next s
    else if len ≤ 32 then
      .next { s with
        out := { s.out with ssid := moveMemory s.out.ssid octet len, ssidLen := len }
        loc := { s.loc with sanity := s.loc.sanity ||| 1#8 } }
    else .sanityCheck s
  | .suppRates =>
    if len ≤ 12 then
      .next { s with
        out := { s.out with supRate := moveMemory s.out.supRate octet len, supRateLen := len }
        loc := { s.loc with sanity := s.loc.sanity ||| 2#8 } }
    else .sanityCheck s
  | .htCap =>
    if 26 ≤ len then
      let s := { s with out :=
        { s.out with htCapability := moveMemory s.out.htCapability octet 26, htCapabilityLen := 26 } }
      if pAd.ifOpModeOnSta then .next ({ s with out := { s.out with preNHtCapabilityLen := 0 } }.copyVIE a p)
      else .next s
    else .next s
  | .addHt =>
    if 22 ≤ len then
      let s := { s with
        out := { s.out with addHtInfo := moveMemory s.out.addHtInfo octet 22, addHtInfoLen := 22 }
        loc := { s.loc with ctrlChannel := octet 0 } }
      if pAd.ifOpModeOnSta then .next (s.copyVIE a p) else .next s
    else .next s
  | .secondaryChOffset =>
    if len = 1 then .next { s with out := { s.out with newExtChannelOffset := octet 0 } } else .next s
  | .fhParm => .next s
  | .dsParm =>
    if len = 1 then
      let s := { s with out := { s.out with channel := octet 0 } }
      if pAd.ifOpModeOnSta && !pAd.channelSanity (octet 0) then .sanityCheck s
      else .next { s with loc := { s.loc with sanity := s.loc.sanity ||| 4#8 } }
    else .sanityCheck s
  | .cfParm =>
    if len = 6 then
      .next { s with out := { s.out with cfParm := ⟨true, octet 0, octet 1, ushortAt fun i => octet (2 + i),
        ushortAt fun i => octet (4 + i)⟩ } }
    else .reject
  | .ibssParm => if len = 2 then .next { s with out := { s.out with atimWin := ushortAt octet } } else .reject
  | .tim =>
    if a.subType = 8 ∧ pAd.infraOn ∧ equalMemory s.out.bssid pAd.commonBssid 6 then
      let t := getTimBit a p pAd.aid
      .next { s with out := { s.out with
        bcastFlag := t.bcastFlag, dtimCount := t.dtimCount, dtimPeriod := t.dtimPeriod, messageToMe := t.messageToMe } }
    else .next s
  | .channelSwitch => if len = 3 then .next { s with out := { s.out with newChannel := octet 1 } } else .next s
  | .vendorSpecific =>
    if a.hasOui p ralinkOui ∧ len = 7 then
      .next { s with out := { s.out with
        ralinkIe := if octet 3 ≠ 0 then (octet 3).setWidth 32 else 0xf0000000#32 } }
    else if s.out.htCapabilityLen = 0 ∧ a.hasOui p preNHtOui ∧ 4 ≤ len ∧ pAd.opModeSta then
      -- the length is tested again in the first of the two cases
      let s := if octet 3 = 51 ∧ 30 ≤ len ∧ s.out.htCapabilityLen = 0 then
          { s with out := { s.out with
            htCapability := moveMemory s.out.htCapability (fun i => octet (4 + i)) 26, preNHtCapabilityLen := 26 } }
        else s
      if octet 3 = 52 ∧ 26 ≤ len then
        .next { s with out := { s.out with
          addHtInfo := moveMemory s.out.addHtInfo (fun i => octet (4 + i)) 22, addHtInfoLen := 22 } }
      else .next s
    else if a.hasOui p wpaOui then .next (s.copyVIE a p)
    else if a.hasOui p wmeParmElem ∧ len = 24 then
      .next { s with out := { s.out with edcaParm := s.out.edcaParm.ofParmElem octet } }
    else if a.hasOui p wmeInfoElem ∧ len = 7 then
      .next { s with out := { s.out with edcaParm := s.out.edcaParm.ofInfoElem octet } }
    else if a.hasOui p wpsOui then
      match s.loc.pPeerWscIe with
      | none => .next s
      | some wsc =>
        if s.loc.peerWscIeLen < 512 then
          if len < 4 then .fault
          else
            .next { s with loc := { s.loc with
              pPeerWscIe := some (copy wsc s.loc.peerWscIeLen (readAt a.msg (p + 6) (len - 4)))
              peerWscIeLen := s.loc.peerWscIeLen + (len - 4) } }
        else .next s
    else .next s
  | .extSuppRates =>
    if len ≤ 12 then
      .next { s with out := { s.out with extRate := moveMemory s.out.extRate octet len, extRateLen := len } }
    else .next s
  | .erp => if len = 1 then .next { s with out := { s.out with erp := octet 0 } } else .next s
  | .aironetCkip => if len < 28 then .next s else .next { s with out := { s.out with ckipFlag := octet 8 } }
  | .apTxPower =>
    if len ≠ 6 then .next s
    else if a.hasOui p ciscoOui then .next { s with out := { s.out with aironetCellPowerLimit := octet 4 } }
    else .next s
  | .rsn =>
    if equalMemory (fun i => octet (2 + i)) (mem rsnOui) 3 then .next (s.copyVIE a p) else .next s
  | .country => if pAd.flags.countryIe then .next (s.copyVIE a p) else .next s
  | .qbssLoad =>
    if len = 5 then
      .next ({ s with out := { s.out with
        qbssLoad := ⟨true, ushortAt octet, octet 2, ushortAt fun i => octet (3 + i)⟩ } }.copyVIE a p)
    else .next s
  | .extCapability =>
    if 1 ≤ len then
      .next { s with out := { s.out with extCapInfo := moveMemory s.out.extCapInfo octet (min len 4) } }
    else .next s
  | .vhtCap => .next s
  | .vhtOp => .next s
  | .other => .next s

/-- The output parameters once the defaults and the fixed fields are written. -/
def OldOut.start (o : OldOut) (pAd : Adapter) (a : Arrival) : OldOut :=
  let capabilityInfo := ushortAt fun i => a.msg (34 + i)
  { o with
    atimWin := 0
    erp := 0
    dtimCount := 0
    dtimPeriod := 0
    bcastFlag := false
    messageToMe := false
    extRateLen := 0
    ckipFlag := 0
    aironetCellPowerLimit := 0xff
    htCapabilityLen := 0
    preNHtCapabilityLen := if pAd.opModeSta then 0 else o.preNHtCapabilityLen
    addHtInfoLen := 0
    extCapInfo := zeroMemory
    ralinkIe := 0
    newChannel := 0
    newExtChannelOffset := 0xff
    cfParm := { o.cfParm with bValid := false }
    qbssLoad := { o.qbssLoad with bValid := false }
    edcaParm := { o.edcaParm with bValid := false }
    qosCapability := { o.qosCapability with bValid := false }
    addr2 := moveMemory o.addr2 (fun i => a.msg (10 + i)) 6
    bssid := moveMemory o.bssid (fun i => a.msg (16 + i)) 6
    timestamp := moveMemory o.timestamp (fun i => a.msg (24 + i)) 8
    beaconPeriod := ushortAt fun i => a.msg (32 + i)
    capabilityInfo := capabilityInfo
    bssType := if capabilityInfo &&& 1#16 ≠ 0#16 then 1 else 0 }

def Locals.start (a : Arrival) : Locals where
  sanity := 0
  ctrlChannel := 0
  pPeerWscIe := if a.peerWscIe then some zeroMemory else none
  peerWscIeLen := 0
  lengthVIE := 0

def wscElement (wsc : ℕ → Byte) (peerWscIeLen : ℕ) : List Byte :=
  [0xdd, BitVec.ofNat 8 (peerWscIeLen + 4), 0x00, 0x50, 0xf2, 0x04] ++ Lib.read wsc peerWscIeLen

def OldState.latchChannel (pAd : Adapter) (a : Arrival) (s : OldState) : OldState :=
  if 14 < pAd.latchRfChannel.toNat ∧ s.loc.sanity &&& 4#8 = 0#8 then
    { s with
      out := { s.out with channel := if s.loc.ctrlChannel ≠ 0 then s.loc.ctrlChannel else a.msgChannel }
      loc := { s.loc with sanity := s.loc.sanity ||| 4#8 } }
  else s

def OldState.appendWsc (s : OldState) : OldState :=
  match s.loc.pPeerWscIe with
  | none => s
  | some wsc =>
    if 0 < s.loc.peerWscIeLen ∧ s.loc.peerWscIeLen < 512 then
      { s with
        vie := copy s.vie s.loc.lengthVIE (wscElement wsc s.loc.peerWscIeLen)
        loc := { s.loc with lengthVIE := s.loc.lengthVIE + (s.loc.peerWscIeLen + 6) } }
    else s

/-- What the old parser does between the loop and `SanityCheck`. -/
def oldTail (pAd : Adapter) (a : Arrival) (s : OldState) : OldState := (s.latchChannel pAd a).appendWsc

/-- `PeerBeaconAndProbeRspSanity_Old`: what it returns and leaves in its parameters, `none` for a copy of a negative
number of bytes. -/
def peerBeaconAndProbeRspSanityOld (pAd : Adapter) (a : Arrival) (out : OldOut) (vie : ℕ → Byte) :
    Option (Bool × Option OldState) :=
  match elements a (fun s => s.loc.lengthVIE) (oldArm pAd a) a.msgLen firstElement
    ⟨out.start pAd a, vie, Locals.start a⟩ with
  | .next s =>
    let s := oldTail pAd a s
    some (s.loc.sanity = 7, some s)
  | .sanityCheck s => some (s.loc.sanity = 7, some s)
  | .reject => some (false, none)
  | .fault => none

/-! ### `PeerBeaconAndProbeRspSanity` -/

structure BcnIeList where
  addr1 : ℕ → Byte
  addr2 : ℕ → Byte
  bssid : ℕ → Byte
  ssid : ℕ → Byte
  ssidLen : ℕ
  bssType : Byte
  beaconPeriod : BitVec 16
  channel : Byte
  newChannel : Byte
  atimWin : BitVec 16
  capabilityInfo : BitVec 16
  erp : Byte
  dtimCount : Byte
  dtimPeriod : Byte
  bcastFlag : Bool
  messageToMe : Bool
  supRate : ℕ → Byte
  supRateLen : ℕ
  extRate : ℕ → Byte
  extRateLen : ℕ
  ckipFlag : Byte
  aironetCellPowerLimit : Byte
  timestamp : ℕ → Byte
  cfParm : CfParm
  edcaParm : EdcaParm
  qbssLoad : QbssLoadParm
  qosCapability : QosCapabilityParm
  ralinkIe : BitVec 32
  extCapInfo : ℕ → Byte
  htCapabilityLen : ℕ
  preNHtCapabilityLen : ℕ
  htCapability : ℕ → Byte
  addHtInfoLen : ℕ
  addHtInfo : ℕ → Byte
  newExtChannelOffset : Byte
  vhtCapIe : ℕ → Byte
  vhtOpIe : ℕ → Byte
  vhtCapLen : ℕ
  vhtOpLen : ℕ

/-- A `CF_PARM` of zeros. -/
def CfParm.zero : CfParm := ⟨false, 0, 0, 0, 0⟩

/-- A `QBSS_LOAD_PARM` of zeros. -/
def QbssLoadParm.zero : QbssLoadParm := ⟨false, 0, 0, 0⟩

/-- A `QOS_CAPABILITY_PARM` of zeros. -/
def QosCapabilityParm.zero : QosCapabilityParm := ⟨false, zeroMemory⟩

/-- An `EDCA_PARM` of zeros. -/
def EdcaParm.zero : EdcaParm where
  bValid := false
  bAdd := false
  bQAck := false
  bQueueRequest := false
  bTxopRequest := false
  bAPSDCapable := false
  edcaUpdateCount := 0
  aifsn _ := 0
  cwmin _ := 0
  cwmax _ := 0
  txop _ := 0
  bACM _ := false

/-- A list after `NdisZeroMemory`. -/
def BcnIeList.zero : BcnIeList where
  addr1 := zeroMemory
  addr2 := zeroMemory
  bssid := zeroMemory
  ssid := zeroMemory
  ssidLen := 0
  bssType := 0
  beaconPeriod := 0
  channel := 0
  newChannel := 0
  atimWin := 0
  capabilityInfo := 0
  erp := 0
  dtimCount := 0
  dtimPeriod := 0
  bcastFlag := false
  messageToMe := false
  supRate := zeroMemory
  supRateLen := 0
  extRate := zeroMemory
  extRateLen := 0
  ckipFlag := 0
  aironetCellPowerLimit := 0
  timestamp := zeroMemory
  cfParm := .zero
  edcaParm := .zero
  qbssLoad := .zero
  qosCapability := .zero
  ralinkIe := 0
  extCapInfo := zeroMemory
  htCapabilityLen := 0
  preNHtCapabilityLen := 0
  htCapability := zeroMemory
  addHtInfoLen := 0
  addHtInfo := zeroMemory
  newExtChannelOffset := 0
  vhtCapIe := zeroMemory
  vhtOpIe := zeroMemory
  vhtCapLen := 0
  vhtOpLen := 0

structure NewState where
  ieList : BcnIeList
  vie : ℕ → Byte
  loc : Locals

/-- The element at `p` is appended to the variable-IE buffer. -/
def NewState.copyVIE (s : NewState) (a : Arrival) (p : ℕ) : NewState :=
  { s with
    vie := copy s.vie s.loc.lengthVIE (a.element p)
    loc := { s.loc with lengthVIE := s.loc.lengthVIE + (a.len p + 2) } }

/-- The arm for `IE_VHT_CAP`, where it is compiled in. -/
def vhtCapArm (pAd : Adapter) (len : ℕ) (octet : ℕ → Byte) (s : NewState) : Flow NewState :=
  if pAd.flags.vht ∧ len = 12 then
    .next { s with ieList :=
      { s.ieList with vhtCapIe := moveMemory s.ieList.vhtCapIe octet 12, vhtCapLen := len } }
  else .next s

/-- The arm of the new parser for the element at `p`. -/
def newArm (pAd : Adapter) (a : Arrival) (p : ℕ) (s : NewState) : Flow NewState :=
  let len := a.len p
  let octet := a.octet p
  match Eid.ofByte (a.eid p) with
  | .ssid =>
    if s.loc.sanity &&& 1#8 ≠ 0#8 then .next s
    else if len ≤ 32 then
      .next { s with
        ieList := { s.ieList with ssid := moveMemory s.ieList.ssid octet len, ssidLen := len }
        loc := { s.loc with sanity := s.loc.sanity ||| 1#8 } }
    else .sanityCheck s
  | .suppRates =>
    if len ≤ 12 then
      .next { s with
        ieList := { s.ieList with supRate := moveMemory s.ieList.supRate octet len, supRateLen := len }
        loc := { s.loc with sanity := s.loc.sanity ||| 2#8 } }
    else .sanityCheck s
  | .htCap =>
    if 26 ≤ len then
      let s := { s with ieList :=
        { s.ieList with htCapability := moveMemory s.ieList.htCapability octet 26, htCapabilityLen := 26 } }
      if pAd.ifOpModeOnSta then .next ({ s with ieList := { s.ieList with preNHtCapabilityLen := 0 } }.copyVIE a p)
      else .next s
    else .next s
  | .addHt =>
    if 22 ≤ len then
      let s := { s with
        ieList := { s.ieList with addHtInfo := moveMemory s.ieList.addHtInfo octet 22, addHtInfoLen := 22 }
        loc := { s.loc with ctrlChannel := octet 0 } }
      if pAd.ifOpModeOnSta then .next (s.copyVIE a p) else .next s
    else .next s
  | .secondaryChOffset =>
    if len = 1 then .next { s with ieList := { s.ieList with newExtChannelOffset := octet 0 } } else .next s
  | .fhParm => .next s
  | .dsParm =>
    if len = 1 then
      let s := { s with ieList := { s.ieList with channel := octet 0 } }
      if pAd.ifOpModeOnSta && !pAd.channelSanity (octet 0) then .sanityCheck s
      else .next { s with loc := { s.loc with sanity := s.loc.sanity ||| 4#8 } }
    else .sanityCheck s
  | .cfParm =>
    if len = 6 then
      .next { s with ieList := { s.ieList with cfParm := ⟨true, octet 0, octet 1, ushortAt fun i => octet (2 + i),
        ushortAt fun i => octet (4 + i)⟩ } }
    else .reject
  | .ibssParm => if len = 2 then .next { s with ieList := { s.ieList with atimWin := ushortAt octet } } else .reject
  | .tim =>
    if a.subType = 8 ∧ pAd.infraOn ∧ equalMemory s.ieList.bssid pAd.commonBssid 6 then
      let t := getTimBit a p pAd.aid
      .next { s with ieList := { s.ieList with
        bcastFlag := t.bcastFlag, dtimCount := t.dtimCount, dtimPeriod := t.dtimPeriod, messageToMe := t.messageToMe } }
    else .next s
  | .channelSwitch =>
    if len = 3 then .next { s with ieList := { s.ieList with newChannel := octet 1 } } else .next s
  | .vendorSpecific =>
    if a.hasOui p ralinkOui ∧ len = 7 then
      .next { s with ieList := { s.ieList with
        ralinkIe := if octet 3 ≠ 0 then (octet 3).setWidth 32 else 0xf0000000#32 } }
    else if s.ieList.htCapabilityLen = 0 ∧ a.hasOui p preNHtOui ∧ 4 ≤ len ∧ pAd.opModeSta then
      let s := if octet 3 = 51 ∧ 30 ≤ len ∧ s.ieList.htCapabilityLen = 0 then
          { s with ieList := { s.ieList with
            htCapability := moveMemory s.ieList.htCapability (fun i => octet (4 + i)) 26, preNHtCapabilityLen := 26 } }
        else s
      if octet 3 = 52 ∧ 26 ≤ len then
        .next { s with ieList := { s.ieList with
          addHtInfo := moveMemory s.ieList.addHtInfo (fun i => octet (4 + i)) 22, addHtInfoLen := 22 } }
      else .next s
    else if a.hasOui p wpaOui then .next (s.copyVIE a p)
    else if a.hasOui p wmeParmElem ∧ len = 24 then
      .next { s with ieList := { s.ieList with edcaParm := s.ieList.edcaParm.ofParmElem octet } }
    else if a.hasOui p wmeInfoElem ∧ len = 7 then
      .next { s with ieList := { s.ieList with edcaParm := s.ieList.edcaParm.ofInfoElem octet } }
    else if a.hasOui p wpsOui then
      match s.loc.pPeerWscIe with
      | none => .next s
      | some wsc =>
        if s.loc.peerWscIeLen < 512 then
          if len < 4 then .fault
          else
            .next { s with loc := { s.loc with
              pPeerWscIe := some (copy wsc s.loc.peerWscIeLen (readAt a.msg (p + 6) (len - 4)))
              peerWscIeLen := s.loc.peerWscIeLen + (len - 4) } }
        else .next s
    else .next s
  | .extSuppRates =>
    if len ≤ 12 then
      .next { s with ieList := { s.ieList with extRate := moveMemory s.ieList.extRate octet len, extRateLen := len } }
    else .next s
  | .erp => if len = 1 then .next { s with ieList := { s.ieList with erp := octet 0 } } else .next s
  | .aironetCkip => if len < 28 then .next s else .next { s with ieList := { s.ieList with ckipFlag := octet 8 } }
  | .apTxPower =>
    if len ≠ 6 then .next s
    else if a.hasOui p ciscoOui then .next { s with ieList := { s.ieList with aironetCellPowerLimit := octet 4 } }
    else .next s
  | .rsn =>
    if equalMemory (fun i => octet (2 + i)) (mem rsnOui) 3 then .next (s.copyVIE a p) else .next s
  | .country => if pAd.flags.countryIe then .next (s.copyVIE a p) else .next s
  | .qbssLoad =>
    if len = 5 then
      .next ({ s with ieList := { s.ieList with
        qbssLoad := ⟨true, ushortAt octet, octet 2, ushortAt fun i => octet (3 + i)⟩ } }.copyVIE a p)
    else .next s
  | .extCapability =>
    -- all four bytes are copied, whatever the length, and an empty element falls through to the next arm
    if 1 ≤ len then .next { s with ieList := { s.ieList with extCapInfo := moveMemory s.ieList.extCapInfo octet 4 } }
    else vhtCapArm pAd len octet s
  | .vhtCap => vhtCapArm pAd len octet s
  | .vhtOp =>
    if pAd.flags.vht ∧ len = 5 then
      .next { s with ieList := { s.ieList with vhtOpIe := moveMemory s.ieList.vhtOpIe octet 5, vhtOpLen := len } }
    else .next s
  | .other => .next s

def BcnIeList.start (l : BcnIeList) (a : Arrival) : BcnIeList :=
  let capabilityInfo := ushortAt fun i => a.msg (34 + i)
  { l with
    aironetCellPowerLimit := 0xff
    newExtChannelOffset := 0xff
    addr1 := moveMemory l.addr1 (fun i => a.msg (4 + i)) 6
    addr2 := moveMemory l.addr2 (fun i => a.msg (10 + i)) 6
    bssid := moveMemory l.bssid (fun i => a.msg (16 + i)) 6
    timestamp := moveMemory l.timestamp (fun i => a.msg (24 + i)) 8
    beaconPeriod := ushortAt fun i => a.msg (32 + i)
    capabilityInfo := capabilityInfo
    bssType := if capabilityInfo &&& 1#16 ≠ 0#16 then 1 else 0 }

def NewState.latchChannel (pAd : Adapter) (a : Arrival) (s : NewState) : NewState :=
  if 14 < pAd.latchRfChannel.toNat ∧ s.loc.sanity &&& 4#8 = 0#8 then
    { s with
      ieList := { s.ieList with channel := if s.loc.ctrlChannel ≠ 0 then s.loc.ctrlChannel else a.msgChannel }
      loc := { s.loc with sanity := s.loc.sanity ||| 4#8 } }
  else s

def NewState.appendWsc (s : NewState) : NewState :=
  match s.loc.pPeerWscIe with
  | none => s
  | some wsc =>
    if 0 < s.loc.peerWscIeLen ∧ s.loc.peerWscIeLen < 512 then
      { s with
        vie := copy s.vie s.loc.lengthVIE (wscElement wsc s.loc.peerWscIeLen)
        loc := { s.loc with lengthVIE := s.loc.lengthVIE + (s.loc.peerWscIeLen + 6) } }
    else s

/-- What the new parser does between the loop and `SanityCheck`. -/
def newTail (pAd : Adapter) (a : Arrival) (s : NewState) : NewState := (s.latchChannel pAd a).appendWsc

/-- `PeerBeaconAndProbeRspSanity`: what it returns and leaves in the list and the buffer. -/
def peerBeaconAndProbeRspSanity (pAd : Adapter) (a : Arrival) (ieList : BcnIeList) (vie : ℕ → Byte) :
    Option (Bool × Option NewState) :=
  match elements a (fun s => s.loc.lengthVIE) (newArm pAd a) a.msgLen firstElement
    ⟨ieList.start a, vie, Locals.start a⟩ with
  | .next s =>
    let s := newTail pAd a s
    some (s.loc.sanity = 7, some s)
  | .sanityCheck s => some (s.loc.sanity = 7, some s)
  | .reject => some (false, none)
  | .fault => none

end Mt7610u.Mgmt.Beacon
