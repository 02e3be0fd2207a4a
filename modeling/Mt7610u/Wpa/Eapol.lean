import Mt7610u.Crypto.Arc4
import Mt7610u.Crypto.KeyWrap

/-! # EAPOL-Key frames (`include/dot11i_wpa.h`, `common/cmm_wpa.c`)

The frames of the four-way and the group key handshake, and how the driver builds one.

A frame lies in memory that goes on behind it, so `keyData` is a whole buffer. What memory that was
never written holds, and which allocations succeed, is given by `Memory`. -/

namespace Mt7610u.Wpa

open Lib Crypto

/-! ### Modes and states -/

/-- `NDIS_802_11_AUTHENTICATION_MODE`. -/
inductive AuthMode
  | openSystem | shared | autoSwitch | wpa | wpaPsk | wpaNone | wpa2 | wpa2Psk | wpa1Wpa2
  | wpa1PskWpa2Psk
deriving DecidableEq, Repr

/-- `AuthMode < Ndis802_11AuthModeWPA`. -/
def AuthMode.belowWpa : AuthMode → Bool
  | openSystem | shared | autoSwitch => true
  | _ => false

def AuthMode.bWpa2 : AuthMode → Bool
  | wpa2 | wpa2Psk => true
  | _ => false

inductive WepStatus
  | wepEnabled | wepDisabled | wepKeyAbsent | wepNotSupported | encryption2Enabled
  | encryption2KeyAbsent | encryption3Enabled | encryption3KeyAbsent | encryption4Enabled
  | encryption4KeyAbsent | groupWep40Enabled | groupWep104Enabled
deriving DecidableEq, Repr

inductive ApWpaState
  | asNotUse | asDisconnect | asDisconnected | asInitialize | asAuthentication
  | asAuthentication2 | asInitPmk | asInitPsk | asPtkStart | asPtkInitNegotiating | asPtkInitDone
  | asUpdateKeys | asIntegrityFailure | asKeyUpdate
deriving DecidableEq, Repr

def ApWpaState.value : ApWpaState → ℕ
  | asNotUse => 0
  | asDisconnect => 1
  | asDisconnected => 2
  | asInitialize => 3
  | asAuthentication => 4
  | asAuthentication2 => 5
  | asInitPmk => 6
  | asInitPsk => 7
  | asPtkStart => 8
  | asPtkInitNegotiating => 9
  | asPtkInitDone => 10
  | asUpdateKeys => 11
  | asIntegrityFailure => 12
  | asKeyUpdate => 13

/-- `Sst`, the association state of an entry. -/
inductive Sst
  | notAuth | auth | assoc
deriving DecidableEq, Repr

inductive EntryType
  | client | apcli | other
deriving DecidableEq, Repr

/-- `EAPOL_PAIR_MSG_1` … `EAPOL_GROUP_MSG_2`. -/
inductive MsgType
  | pairMsg1 | pairMsg2 | pairMsg3 | pairMsg4 | groupMsg1 | groupMsg2
deriving DecidableEq, Repr

/-- `MsgType >= EAPOL_GROUP_MSG_1`. -/
def MsgType.isGroup : MsgType → Bool
  | groupMsg1 | groupMsg2 => true
  | _ => false

inductive CipherAlg
  | none | wep64 | wep128 | tkip | aes
deriving DecidableEq, Repr

structure CipherKey where
  key : Bytes 16
  txMic : Bytes 8
  rxMic : Bytes 8
  txTsc : Bytes 16
  rxTsc : Bytes 16
  cipherAlg : CipherAlg
  keyLen : ℕ
deriving DecidableEq

/-- A key entry after `NdisZeroMemory`. -/
def CipherKey.zero : CipherKey := ⟨zeros 16, zeros 8, zeros 8, zeros 16, zeros 16, .none, 0⟩

/-- `MAC_TABLE_ENTRY`, as far as the handshake uses it. -/
structure MacTableEntry where
  entryType : EntryType
  addr : Bytes 6
  authMode : AuthMode
  wepStatus : WepStatus
  sst : Sst
  wpaState : ApWpaState
  rCounter : Bytes 8
  aNonce : Bytes 32
  sNonce : Bytes 32
  ptk : Bytes 64
  pairwiseKey : CipherKey
  portSecured : Bool
deriving DecidableEq

/-- The first `LEN_PTK_KCK` bytes of the PTK. -/
def MacTableEntry.kck (e : MacTableEntry) : List Byte := (List.ofFn e.ptk).take 16

/-- The `LEN_PTK_KEK` bytes of the PTK behind them. -/
def MacTableEntry.kek (e : MacTableEntry) : List Byte := ((List.ofFn e.ptk).drop 16).take 16

/-! ### Frames -/

/-- `KeyType` of `KEY_INFO`. -/
inductive KeyType
  | pairwise | group
deriving DecidableEq, Repr

structure KeyInfo where
  keyMic : Bool
  secure : Bool
  error : Bool
  request : Bool
  ekdDl : Bool
  rsvd : BitVec 3
  keyDescVer : BitVec 3
  keyType : KeyType
  keyIndex : BitVec 2
  install : Bool
  keyAck : Bool
deriving DecidableEq, Repr

def keyDescTkip : BitVec 3 := 1

def keyDescAes : BitVec 3 := 2

def keyDescExt : BitVec 3 := 3

def flag (b : Bool) (place : ℕ) : Byte := if b then BitVec.ofNat 8 (2 ^ place) else 0

/-- The two bytes of `KEY_INFO`. -/
def KeyInfo.octets (i : KeyInfo) : List Byte :=
  [flag i.keyMic 0 ||| flag i.secure 1 ||| flag i.error 2 ||| flag i.request 3 |||
      flag i.ekdDl 4 ||| i.rsvd.setWidth 8 <<< 5,
    i.keyDescVer.setWidth 8 ||| flag (i.keyType == .pairwise) 3 ||| i.keyIndex.setWidth 8 <<< 4 |||
      flag i.install 6 ||| flag i.keyAck 7]

/-- The two bytes that `SET_UINT16_TO_ARRARY` stores. -/
def octets16 (n : BitVec 16) : List Byte := [(n >>> 8).setWidth 8, n.setWidth 8]

/-- `EAPOL_PACKET` with its `KEY_DESCRIPTER`. -/
structure EapolPacket where
  proVer : Byte
  proType : Byte
  bodyLen : BitVec 16
  type : Byte
  keyInfo : KeyInfo
  keyLength : BitVec 16
  replayCounter : Bytes 8
  keyNonce : Bytes 32
  keyIv : Bytes 16
  keyRsc : Bytes 8
  keyId : Bytes 8
  keyMic : Bytes 16
  keyDataLen : BitVec 16
  keyData : ℕ → Byte

def EapolPacket.header (m : EapolPacket) : List Byte :=
  m.proVer :: m.proType :: octets16 m.bodyLen ++ m.type :: m.keyInfo.octets ++
    octets16 m.keyLength ++ List.ofFn m.replayCounter ++ List.ofFn m.keyNonce ++
    List.ofFn m.keyIv ++ List.ofFn m.keyRsc ++ List.ofFn m.keyId ++ List.ofFn m.keyMic ++
    octets16 m.keyDataLen

/-- The first `n` bytes from the start of a frame. -/
def EapolPacket.octets (m : EapolPacket) (n : ℕ) : List Byte :=
  read (fun i => if i < 99 then mem m.header i else m.keyData (i - 99)) n

/-- `CONV_ARRARY_TO_UINT16(Body_Len) + LENGTH_EAPOL_H`. -/
def EapolPacket.eapolLen (m : EapolPacket) : ℕ := m.bodyLen.toNat + 4

def EapolPacket.zeroMic (m : EapolPacket) : EapolPacket := { m with keyMic := zeros 16 }

/-! ### Integrity code -/

/-- The functions of `common/crypt_hmac.c`, `AES_CMAC` and `WpaDerivePTK`. -/
structure Suite where
  rtHmacMd5 : List Byte → List Byte → Bytes 16
  rtHmacSha1 : List Byte → List Byte → Bytes 20
  aesCmac : List Byte → List Byte → Bytes 16
  wpaDerivePTK : Bytes 32 → Bytes 32 → Bytes 6 → Bytes 32 → Bytes 6 → Bytes 64

structure Memory where
  result : Bool
  aesCtx : Bool
  arc4Ctx : Bool
  stale : ℕ → Byte

/-- The code that a key and a descriptor version prescribe; `none` for a version without one. -/
def micOf (suite : Suite) (ver : BitVec 3) (kck data : List Byte) : Option (Bytes 16) :=
  if ver = keyDescTkip then some (suite.rtHmacMd5 kck data)
  else if ver = keyDescAes then
    some fun i => suite.rtHmacSha1 kck data ⟨i, by omega⟩
  else if ver = keyDescExt then some (suite.aesCmac kck data)
  else none

/-- `mic` as `PeerWpaMessageSanity` and `CalculateMIC` compute it, which start from zeros. -/
def computeMic (suite : Suite) (m : Memory) (ver : BitVec 3) (kck data : List Byte) : Bytes 16 :=
  if ver = keyDescExt ∧ m.aesCtx = false then fun i => m.stale i
  else (micOf suite ver kck data).getD (zeros 16)

/-! ### Building a frame -/

/-- The arguments of `ConstructEapolMsg` beside the entry and the message type. -/
structure EapolArgs where
  groupKeyWepStatus : WepStatus
  defaultKeyIdx : Byte
  keyNonce : Bytes 32
  txRsc : Bytes 6
  gtk : ℕ → Byte
  rsnIe : List Byte

structure ConstructEnv where
  mpool : Bool
  outBuffer : Bool
  memory : Memory

/-- `RTMPInsertRSNIE` without a PMKID list. -/
def rtmpInsertRSNIE (rsnIe : List Byte) : List Byte :=
  let ieNum : Byte := if (rsnIe.drop 2).take 3 = [0x00, 0x0F, 0xAC] then 0x30 else 0xDD
  ieNum :: BitVec.ofNat 8 rsnIe.length :: rsnIe

def wpaConstructKdeHdr (dataType dataLen : Byte) : List Byte := [0xDD, 4 + dataLen, 0x00, 0x0F, 0xAC, dataType]

def gtkLen (groupKeyWepStatus : WepStatus) : ℕ :=
  if groupKeyWepStatus = .encryption3Enabled then 16 else 32

def gtkIncluded (bWpa2 : Bool) (k : MsgType) : Bool := k == .pairMsg3 && bWpa2 || k == .groupMsg1

/-- `Key_Data` before encryption. -/
def plainKeyData (bWpa2 : Bool) (k : MsgType) (a : EapolArgs) : List Byte :=
  let len := gtkLen a.groupKeyWepStatus
  (if a.rsnIe ≠ [] ∧ (k = .pairMsg2 ∨ k = .pairMsg3) then rtmpInsertRSNIE a.rsnIe else []) ++
  (if gtkIncluded bWpa2 k then
    (if bWpa2 then
      wpaConstructKdeHdr 1 (2 + BitVec.ofNat 8 len) ++ [a.defaultKeyIdx &&& 0x03, 0x00]
    else []) ++ read a.gtk len
  else [])

def padKeyData (keyData : List Byte) : List Byte :=
  if keyData.length % 8 = 0 then keyData
  else keyData ++ 0xDD :: List.replicate (8 - keyData.length % 8 - 1) 0x00

/-- The encryption of `Key_Data`. A wrap that fails leaves `wrap_len` at zero. -/
def encryptKeyData (m : Memory) (ver : BitVec 3) (kek keyIv keyData : List Byte) : List Byte :=
  if ver = keyDescAes then
    match aesKeyWrap m.result kek (padKeyData keyData) with
    | none => []
    | some cipherText => if m.aesCtx then cipherText else read m.stale cipherText.length
  else if m.arc4Ctx then tkipGtkKeyWrap kek keyIv keyData
  else read m.stale keyData.length

def constructEapolKeyData (env : ConstructEnv) (e : MacTableEntry) (ver : BitVec 3) (k : MsgType)
    (a : EapolArgs) (msg : EapolPacket) : EapolPacket :=
  if k = .pairMsg1 ∨ k = .pairMsg4 ∨ k = .groupMsg2 then msg
  else if env.mpool = false then msg
  else
    let plain := plainKeyData e.authMode.bWpa2 k a
    let data :=
      if gtkIncluded e.authMode.bWpa2 k then
        encryptKeyData env.memory ver e.kek (List.ofFn msg.keyIv) plain
      else plain
    { msg with
      keyData := mem data
      keyDataLen := BitVec.ofNat 16 data.length
      bodyLen := msg.bodyLen + BitVec.ofNat 16 data.length }

def calculateMic (suite : Suite) (env : ConstructEnv) (ver : BitVec 3) (e : MacTableEntry)
    (msg : EapolPacket) : EapolPacket :=
  if env.outBuffer then
    { msg with keyMic := computeMic suite env.memory ver e.kck (msg.octets msg.eapolLen) }
  else msg

/-- `KeyDescVer` of `ConstructEapolMsg`. -/
def constructKeyDescVer (wepStatus groupKeyWepStatus : WepStatus) : BitVec 3 :=
  if wepStatus = .encryption3Enabled ∨ groupKeyWepStatus = .encryption3Enabled then keyDescAes
  else keyDescTkip

/-- `KeyInfo` of `ConstructEapolMsg`. -/
def constructKeyInfo (bWpa2 : Bool) (ver : BitVec 3) (k : MsgType) (defaultKeyIdx : Byte) :
    KeyInfo where
  keyMic := k != .pairMsg1
  secure := bWpa2 && (k == .pairMsg3 || k == .pairMsg4) || k.isGroup
  error := false
  request := false
  ekdDl := bWpa2 && (k == .pairMsg3 || k == .groupMsg1)
  rsvd := 0
  keyDescVer := ver
  keyType := if k.isGroup then .group else .pairwise
  keyIndex := if !bWpa2 && k.isGroup then defaultKeyIdx.setWidth 2 else 0
  install := k == .pairMsg3
  keyAck := k == .pairMsg1 || k == .pairMsg3 || k == .groupMsg1

/-- `KeyLength` of `ConstructEapolMsg`. -/
def constructKeyLength (bWpa2 : Bool) (k : MsgType) (wepStatus groupKeyWepStatus : WepStatus) :
    BitVec 16 :=
  let len (w : WepStatus) : BitVec 16 := if w = .encryption2Enabled then 32 else 16
  if bWpa2 then (if k = .pairMsg1 ∨ k = .pairMsg3 then len wepStatus else 0)
  else if k.isGroup then len groupKeyWepStatus
  else len wepStatus

/-- `ConstructEapolMsg`, into a zeroed buffer. -/
def constructEapolMsg (suite : Suite) (env : ConstructEnv) (e : MacTableEntry) (k : MsgType)
    (a : EapolArgs) : EapolPacket :=
  let bWpa2 := e.authMode.bWpa2
  let ver := constructKeyDescVer e.wepStatus a.groupKeyWepStatus
  let wpa1Group1 := !bWpa2 && k == .groupMsg1
  let msg : EapolPacket :=
    { proVer := 1
      proType := 3
      bodyLen := 95
      type := if bWpa2 then 2 else 0xfe
      keyInfo := constructKeyInfo bWpa2 ver k a.defaultKeyIdx
      keyLength := constructKeyLength bWpa2 k e.wepStatus a.groupKeyWepStatus
      replayCounter := e.rCounter
      keyNonce :=
        if k = .pairMsg1 ∨ k = .pairMsg2 ∨ k = .pairMsg3 ∨ wpa1Group1 then a.keyNonce
        else zeros 32
      keyIv :=
        if wpa1Group1 then fun i => a.keyNonce ⟨16 + i, by omega⟩ + (if i.1 = 15 then 2 else 0)
        else zeros 16
      keyRsc :=
        if gtkIncluded bWpa2 k then fun i => if h : i.1 < 6 then a.txRsc ⟨i, h⟩ else 0
        else zeros 8
      keyId := zeros 8
      keyMic := zeros 16
      keyDataLen := 0
      keyData := fun _ => 0 }
  let msg := constructEapolKeyData env e ver k a msg
  if k = .pairMsg1 then msg else calculateMic suite env ver e msg

end Mt7610u.Wpa
