import Mt7610u.Wpa.Eapol

/-! # The supplicant's handshake (`common/cmm_wpa.c`)

What a station does with a received EAPOL-Key frame.

The station has one peer, the access point whose entry `MacTab.Content[BSSID_WCID]` is. Buffers are as
long as what is written to them: the driver checks neither `MAX_LEN_OF_RSNIE` nor `MAX_LEN_GTK`. -/

namespace Mt7610u.Wpa

open Lib Crypto

/-! ### The station -/

/-- `StaCfg`, as far as the handshake uses it. -/
structure StaCfg where
  pmk : Bytes 32
  groupCipher : WepStatus
  rsnIe : List Byte
  gtk : ℕ → Byte
  defaultKeyId : ℕ
  ptk : Bytes 64
  portSecured : Bool

abbrev NoncePair := Bytes 32 × Bytes 32

/-- The adapter as the handshake sees it. `ptkNonces` is the pair behind the current PTK and
`installs` lists, latest first, the pair behind each key that `WPAInstallPairwiseKey` was run for;
the driver keeps neither. `halted` is set when the driver reads through a null pointer. -/
structure Sta where
  currentAddress : Bytes 6
  staCfg : StaCfg
  entry : MacTableEntry
  sharedKey : Fin 4 → CipherKey
  ptkNonces : Option NoncePair
  installs : List (Option NoncePair)
  halted : Bool

/-- `MLME_QUEUE_ELEM` with an EAPOL-Key frame. Its 802.11, LLC and EAPOL headers are complete, as
`RTMPCheckWPAframe` demands before a frame is queued. -/
structure Elem where
  msgLen : ℕ
  addr2 : Bytes 6
  packet : EapolPacket
  enough : 36 ≤ msgLen

/-- What the rest of the system gives to the processing of one frame: allocations, memory that was
never written and the random `SNonce`. -/
structure Env where
  keyData : Bool
  prfInput : Bool
  mpool : Bool
  memory : Memory
  sNonce : Bytes 32
  reply : ConstructEnv

structure Input where
  env : Env
  elem : Elem

/-! ### Installing keys -/

/-- `n` bytes of a PTK from an offset on. -/
def ptkBytes (ptk : Bytes 64) (offset n : ℕ) : Bytes n := fun i => mem (List.ofFn ptk) (offset + i)

/-- The key entry that `WPAInstallPairwiseKey` writes. -/
def pairwiseKeyOf (wepStatus : WepStatus) (ptk : Bytes 64) (bAE : Bool) : CipherKey :=
  if wepStatus = .encryption2Enabled then
    { CipherKey.zero with
      cipherAlg := .tkip
      keyLen := 16
      key := ptkBytes ptk 32 16
      txMic := if bAE then ptkBytes ptk 48 8 else ptkBytes ptk 56 8
      rxMic := if bAE then ptkBytes ptk 56 8 else ptkBytes ptk 48 8 }
  else if wepStatus = .encryption3Enabled then
    { CipherKey.zero with cipherAlg := .aes, keyLen := 16, key := ptkBytes ptk 32 16 }
  else CipherKey.zero

def wpaInstallPairwiseKey (bAE : Bool) (s : Sta) : Sta :=
  { s with
    entry :=
      { s.entry with pairwiseKey := pairwiseKeyOf s.entry.wepStatus s.entry.ptk bAE }
    installs := s.ptkNonces :: s.installs }

/-- The key entry that `WPAInstallSharedKey` writes for a supplicant. -/
def sharedKeyOf (groupCipher : WepStatus) (gtk : ℕ → Byte) (gtkLen : ℕ) : CipherKey :=
  let wep (alg : CipherAlg) : CipherKey :=
    if gtkLen ≠ 5 ∧ gtkLen ≠ 13 then { CipherKey.zero with cipherAlg := alg }
    else
      { CipherKey.zero with
        cipherAlg := alg, keyLen := gtkLen, key := fun i => if i.1 < gtkLen then gtk i else 0 }
  let wpa (alg : CipherAlg) : CipherKey :=
    if gtkLen < 16 then { CipherKey.zero with cipherAlg := alg }
    else { CipherKey.zero with cipherAlg := alg, keyLen := 16, key := fun i => gtk i }
  match groupCipher with
  | .groupWep40Enabled => wep .wep64
  | .groupWep104Enabled => wep .wep128
  | .encryption2Enabled =>
    if gtkLen < 16 then wpa .tkip
    else { wpa .tkip with txMic := fun i => gtk (24 + i), rxMic := fun i => gtk (16 + i) }
  | .encryption3Enabled => wpa .aes
  | _ => CipherKey.zero

/-- `WPAInstallSharedKey`, for the group key of the only BSS. -/
def wpaInstallSharedKey (keyIdx : ℕ) (gtk : ℕ → Byte) (gtkLen : ℕ) (s : Sta) : Sta :=
  { s with
    sharedKey := fun i =>
      if i.1 = keyIdx then sharedKeyOf s.staCfg.groupCipher gtk gtkLen else s.sharedKey i }

/-! ### Key data -/

/-- `DefaultIdx`, `GTKLEN` and `GTK` of `RTMPParseEapolKeyData`. -/
structure GroupKey where
  defaultIdx : ℕ
  gtkLen : ℕ
  gtk : ℕ → Byte

/-- A `WPA_KDE_TYPE` element with `OUI_WPA2` and `KDE_GTK` starts at `skip`. -/
def IsGtkKde (data : ℕ → Byte) (skip : ℕ) : Prop :=
  data skip = 0xDD ∧ data (skip + 2) = 0x00 ∧ data (skip + 3) = 0x0F ∧ data (skip + 4) = 0xAC ∧ data (skip + 5) = 1

instance (data : ℕ → Byte) (skip : ℕ) : Decidable (IsGtkKde data skip) :=
  inferInstanceAs (Decidable (_ ∧ _ ∧ _ ∧ _ ∧ _))

/-- Overwrite the first `n` bytes of a buffer. -/
def overwrite (buf : ℕ → Byte) (n : ℕ) (src : ℕ → Byte) : ℕ → Byte :=
  fun i => if i < n then src i else buf i

/-- The loop over the elements of the key data, from `skip_offset` on; `none` for a GTK that is too
short. `GTKLEN` is computed in eight bits. -/
def kdeWalk (data : ℕ → Byte) (keyDataLength skip : ℕ) (g : GroupKey) : Option GroupKey :=
  if skip + 2 + (data (skip + 1)).toNat ≤ keyDataLength then
    if IsGtkKde data skip then
      if (data (skip + 1) - 6).toNat < 5 then none
      else
        kdeWalk data keyDataLength (skip + 2 + (data (skip + 1)).toNat)
          { defaultIdx := (data (skip + 6)).toNat % 4
            gtkLen := (data (skip + 1) - 6).toNat
            gtk := overwrite g.gtk (data (skip + 1) - 6).toNat fun i => data (skip + 8 + i) }
    else kdeWalk data keyDataLength (skip + 2 + (data (skip + 1)).toNat) g
  else some g
termination_by keyDataLength - skip

/-- The group key that the key data of a message gives; `none` where the parser returns `FALSE`. -/
def parseGroupKey (data : ℕ → Byte) (keyDataLength groupKeyIndex : ℕ) (bWpa2 : Bool) :
    Option GroupKey :=
  let found :=
    if bWpa2 then kdeWalk data keyDataLength 0 ⟨0, 0, fun _ => 0⟩
    else some ⟨groupKeyIndex, keyDataLength, overwrite (fun _ => 0) keyDataLength data⟩
  found.filter fun g => g.defaultIdx ≤ 3

def installGroupKey (g : GroupKey) (s : Sta) : Sta :=
  let s :=
    { s with
      staCfg :=
        { s.staCfg with
          gtk := overwrite s.staCfg.gtk g.gtkLen g.gtk, defaultKeyId := g.defaultIdx } }
  wpaInstallSharedKey g.defaultIdx s.staCfg.gtk g.gtkLen s

/-- `RTMPParseEapolKeyData`. The length arrives in eight bits. -/
def rtmpParseEapolKeyData (data : ℕ → Byte) (keyDataLen groupKeyIndex : ℕ) (k : MsgType)
    (bWpa2 : Bool) (s : Sta) : Bool × Sta :=
  if k = .pairMsg2 ∨ k = .pairMsg3 ∧ bWpa2 = false then (true, s)
  else
    match parseGroupKey data (keyDataLen % 256) groupKeyIndex bWpa2 with
    | none => (false, s)
    | some g => (true, installGroupKey g s)

/-- `KEYDATA` and `KeyDataLen` after decryption. The result of `AES_Key_Unwrap` is not looked at: when
it fails, `KEYDATA` stays zeroed and the length becomes `aes_unwrap_len`, which is still zero. -/
def decryptKeyData (m : Memory) (e : MacTableEntry) (f : EapolPacket) : (ℕ → Byte) × ℕ :=
  let data := read f.keyData f.keyDataLen.toNat
  if f.keyInfo.keyDescVer = keyDescExt ∨ f.keyInfo.keyDescVer = keyDescAes then
    match aesKeyUnwrap m.result e.kek data with
    | none => (mem [], 0)
    | some plain => (if m.aesCtx then mem plain else m.stale, plain.length)
  else
    (if m.arc4Ctx then mem (tkipGtkKeyWrap e.kek (List.ofFn f.keyIv) data) else mem [], f.keyDataLen.toNat)

/-! ### The checks of a message -/

/-- `RTMPCompareMemory`: `1` where the first string is larger, `2` where the second is. -/
def rtmpCompareMemory : List Byte → List Byte → ℕ
  | a :: as, b :: bs =>
    if b.toNat < a.toNat then 1 else if a.toNat < b.toNat then 2 else rtmpCompareMemory as bs
  | _, _ => 0

def replayDiff (k : MsgType) (e : MacTableEntry) (f : EapolPacket) : Bool :=
  match k with
  | .pairMsg1 | .pairMsg3 | .groupMsg1 =>
    rtmpCompareMemory (List.ofFn f.replayCounter) (List.ofFn e.rCounter) != 1 &&
      rtmpCompareMemory (List.ofFn f.replayCounter) (List.replicate 8 0) != 0
  | .pairMsg2 | .pairMsg4 | .groupMsg2 => f.replayCounter != e.rCounter

def micDiff (suite : Suite) (m : Memory) (e : MacTableEntry) (f : EapolPacket) : Bool :=
  f.keyMic != computeMic suite m f.keyInfo.keyDescVer e.kck (f.zeroMic.octets f.eapolLen)

def groupKeyIndex (bWpa2 : Bool) (k : MsgType) (f : EapolPacket) : ℕ :=
  if bWpa2 = false ∧ k = .groupMsg1 then f.keyInfo.keyIndex.toNat else 0

def peerWpaMessageSanity (suite : Suite) (env : Env) (k : MsgType) (f : EapolPacket) (s : Sta) :
    Bool × Sta :=
  let bWpa2 := s.entry.authMode.bWpa2
  if env.keyData = false then (false, s)
  else if replayDiff k s.entry f then (false, s)
  else if k ≠ .pairMsg1 ∧ micDiff suite env.memory s.entry f then (false, s)
  else if f.keyDataLen.toNat = 0 then (true, s)
  else if gtkIncluded bWpa2 k then
    let data := decryptKeyData env.memory s.entry f
    rtmpParseEapolKeyData data.1 data.2 (groupKeyIndex bWpa2 k f) k bWpa2 s
  else if k = .pairMsg2 ∨ k = .pairMsg3 then
    rtmpParseEapolKeyData (mem (read f.keyData f.keyDataLen.toNat)) f.keyDataLen.toNat 0 k bWpa2 s
  else (true, s)

/-! ### The messages

Each action gives the station and the frame that it sends, if it gets that far. -/

/-- `IS_ENTRY_CLIENT(pEntry) || IS_ENTRY_APCLI(pEntry)`. -/
def MacTableEntry.isPeer (e : MacTableEntry) : Bool := e.entryType != .other

/-- `LENGTH_802_11 + LENGTH_802_1_H + LENGTH_EAPOL_H + MIN_LEN_OF_EAPOL_KEY_MSG`. -/
def minMsgLen : ℕ := 24 + 8 + 4 + 95

/-- `STA_PORT_SECURED` with the fields of the entry that are set beside it. -/
def staPortSecured (s : Sta) : Sta :=
  { s with
    staCfg := { s.staCfg with portSecured := true }
    entry := { s.entry with portSecured := true } }

def replyArgs (s : Sta) (defaultKeyIdx : ℕ) : EapolArgs :=
  ⟨s.staCfg.groupCipher, BitVec.ofNat 8 defaultKeyIdx, zeros 32, zeros 6, fun _ => 0, []⟩

/-- The changes of `PeerPairMsg1Action` to a station that has passed the checks. -/
def acceptMsg1 (suite : Suite) (env : Env) (f : EapolPacket) (s : Sta) : Sta :=
  let ptk :=
    if env.prfInput then
      suite.wpaDerivePTK s.staCfg.pmk f.keyNonce s.entry.addr env.sNonce s.currentAddress
    else fun i => env.memory.stale i
  { s with
    entry :=
      { s.entry with
        rCounter := f.replayCounter
        aNonce := f.keyNonce
        sNonce := env.sNonce
        ptk := ptk
        wpaState := .asPtkInitNegotiating }
    ptkNonces := some (f.keyNonce, env.sNonce) }

def peerPairMsg1Action (suite : Suite) (env : Env) (elem : Elem) (s : Sta) :
    Sta × Option EapolPacket :=
  if s.entry.isPeer = false ∨ elem.msgLen < minMsgLen then (s, none)
  else
    let r := peerWpaMessageSanity suite env .pairMsg1 elem.packet s
    if r.1 then
      let s := acceptMsg1 suite env elem.packet r.2
      if env.mpool then
        let a := { replyArgs s 0 with keyNonce := s.entry.sNonce, rsnIe := s.staCfg.rsnIe }
        (s, some (constructEapolMsg suite env.reply s.entry .pairMsg2 a))
      else (s, none)
    else (r.2, none)

/-- `NdisMoveMemory(pEntry->R_Counter, ...)`. -/
def storeCounter (f : EapolPacket) (s : Sta) : Sta :=
  { s with entry := { s.entry with rCounter := f.replayCounter } }

/-- The changes of `PeerPairMsg3Action` after its checks. -/
def acceptMsg3 (s : Sta) : Sta :=
  let s :=
    { s with
      entry := { s.entry with wpaState := .asPtkInitDone }
      staCfg := { s.staCfg with ptk := s.entry.ptk } }
  let s := wpaInstallPairwiseKey false s
  let s :=
    { s with sharedKey := fun i => if i.1 = 0 then s.entry.pairwiseKey else s.sharedKey i }
  if s.entry.authMode.bWpa2 then staPortSecured s else s

/-- `PeerPairMsg3Action`. The counter is stored before the nonce is looked at. -/
def peerPairMsg3Action (suite : Suite) (env : Env) (elem : Elem) (s : Sta) :
    Sta × Option EapolPacket :=
  if s.entry.isPeer = false ∨ elem.msgLen < minMsgLen then (s, none)
  else
    let r := peerWpaMessageSanity suite env .pairMsg3 elem.packet s
    if r.1 then
      let s := storeCounter elem.packet r.2
      if s.entry.aNonce ≠ elem.packet.keyNonce ∨ env.mpool = false then (s, none)
      else
        (acceptMsg3 s, some (constructEapolMsg suite env.reply s.entry .pairMsg4 (replyArgs s 0)))
    else (r.2, none)

/-- `PeerGroupMsg1Action`, which does not check the length of the frame. The key index of the reply is
read before the checks. -/
def peerGroupMsg1Action (suite : Suite) (env : Env) (elem : Elem) (s : Sta) :
    Sta × Option EapolPacket :=
  if s.entry.isPeer = false then (s, none)
  else
    let r := peerWpaMessageSanity suite env .groupMsg1 elem.packet s
    if r.1 then
      let s' := storeCounter elem.packet r.2
      if env.mpool then
        (staPortSecured s', some (constructEapolMsg suite env.reply s'.entry .groupMsg2
          (replyArgs s s.staCfg.defaultKeyId)))
      else (s', none)
    else (r.2, none)

/-- `PeerPairMsg2Action` in a station: there is neither `pmk_ptr` nor `pBssid`, and only the nonce of
the frame is kept. -/
def peerPairMsg2Action (elem : Elem) (s : Sta) : Sta :=
  if s.entry.entryType ≠ .client ∨ elem.msgLen < minMsgLen ∨
      s.entry.wpaState.value < ApWpaState.asPtkStart.value then s
  else { s with entry := { s.entry with sNonce := elem.packet.keyNonce } }

/-- The changes of `PeerPairMsg4Action` after its checks. In WPA it ends in `WPAStart2WayGroupHS`, whose
group key and nonce are null pointers in a station. -/
def acceptMsg4 (env : Env) (s : Sta) : Sta :=
  let s := wpaInstallPairwiseKey true s
  { s with
    entry := { s.entry with wpaState := .asPtkInitDone, portSecured := true }
    halted := s.halted || !s.entry.authMode.bWpa2 && env.mpool }

/-- `PeerPairMsg4Action` in a station. -/
def peerPairMsg4Action (suite : Suite) (env : Env) (elem : Elem) (s : Sta) : Sta :=
  if s.entry.entryType ≠ .client ∨ elem.msgLen < minMsgLen ∨
      s.entry.wpaState.value < ApWpaState.asPtkInitNegotiating.value then s
  else
    let r := peerWpaMessageSanity suite env .pairMsg4 elem.packet s
    if r.1 then acceptMsg4 env r.2 else r.2

/-- `PeerGroupMsg2Action` in a station, which changes nothing that is modelled. -/
def peerGroupMsg2Action (suite : Suite) (env : Env) (elem : Elem) (s : Sta) : Sta :=
  if s.entry.entryType ≠ .client ∨ elem.msgLen < minMsgLen ∨ s.entry.wpaState ≠ .asPtkInitDone then s
  else (peerWpaMessageSanity suite env .groupMsg2 elem.packet s).2

/-! ### The dispatcher -/

def versionChecked (w : WepStatus) (ver : BitVec 3) : Bool :=
  match w with
  | .encryption2Enabled => ver == keyDescTkip
  | .encryption3Enabled => ver == keyDescAes || ver == keyDescExt
  | _ => true

def messageKind (i : KeyInfo) (keyDataLen : ℕ) : Option MsgType :=
  if i.keyAck then
    if !i.secure && !i.request && !i.error && i.keyType == .pairwise then
      some (if i.keyMic then .pairMsg3 else .pairMsg1)
    else if i.secure && i.keyMic && !i.request && !i.error then
      some (if i.keyType = .pairwise then .pairMsg3 else .groupMsg1)
    else none
  else if !i.request && !i.error && i.keyMic then
    match i.secure, i.keyType with
    | false, .pairwise => some (if keyDataLen = 0 then .pairMsg4 else .pairMsg2)
    | true, .pairwise => some .pairMsg4
    | true, .group => some .groupMsg2
    | false, .group => none
  else none

/-- The checks of `WpaEAPOLKeyAction` and the message that it calls an action for. -/
def dispatch (s : Sta) (elem : Elem) : Option MsgType :=
  let f := elem.packet
  if elem.addr2 ≠ s.entry.addr ∨ s.entry.isPeer = false then none
  else if s.entry.authMode.belowWpa then none
  else if elem.msgLen - 24 - 8 < f.eapolLen then none
  else if f.proVer ≠ 1 ∧ f.proVer ≠ 2 ∨ f.type ≠ 0xfe ∧ f.type ≠ 2 then none
  else if versionChecked s.entry.wepStatus f.keyInfo.keyDescVer = false then none
  else if s.entry.sst = .assoc ∧ ApWpaState.asInitPsk.value ≤ s.entry.wpaState.value then
    messageKind f.keyInfo f.keyDataLen.toNat
  else none

/-- `WpaEAPOLKeyAction`: the station after a frame. A driver that has faulted takes no more frames. -/
def wpaEAPOLKeyAction (suite : Suite) (s : Sta) (i : Input) : Sta :=
  if s.halted then s
  else
    match dispatch s i.elem with
    | none => s
    | some .pairMsg1 => (peerPairMsg1Action suite i.env i.elem s).1
    | some .pairMsg2 => peerPairMsg2Action i.elem s
    | some .pairMsg3 => (peerPairMsg3Action suite i.env i.elem s).1
    | some .pairMsg4 => peerPairMsg4Action suite i.env i.elem s
    | some .groupMsg1 => (peerGroupMsg1Action suite i.env i.elem s).1
    | some .groupMsg2 => peerGroupMsg2Action suite i.env i.elem s

end Mt7610u.Wpa
