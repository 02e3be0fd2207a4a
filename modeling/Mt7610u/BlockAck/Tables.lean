import Mathlib.Data.Finset.Card
import Mathlib.Data.Fintype.Basic
import Mt7610u.BlockAck.Reorder
import Mt7610u.Lib.Runs

/-! # The block-ack tables (`common/ba_action.c`, `common/cmm_sanity.c`)

The adapter as the block-ack code sees it: the two session tables with their counters, the stations
of the MAC table with their index arrays and bitmaps, the shared pool of reordering blocks, and the
log of what was passed up or released.

The index `0` of a table is reserved: an index array holds it where there is no session. -/

namespace Mt7610u.BlockAck.Tables

open Reorder

/-! ### The adapter -/

inductive OriBlockackStatus
  | none | used | waitRes | done
deriving DecidableEq, Repr

def OriBlockackStatus.toNat : OriBlockackStatus → ℕ
  | .none => 0
  | .used => 1
  | .waitRes => 2
  | .done => 3

/-- `BA_ORI_ENTRY` without its timer. -/
structure BaOriEntry where
  wcid : Fin 32
  tid : Fin 8
  baWinSize : Fin 256
  token : ℕ
  sequence : ℕ
  timeOutValue : ℕ
  oriBaStatus : OriBlockackStatus
deriving DecidableEq, Repr

/-- `MAC_TABLE_ENTRY`, the fields that the block-ack code reads or writes. -/
structure MacTableEntry where
  entryNone : Bool
  aid : Fin 32
  maxHtPhyMode : ℕ
  ralinkChipset : Bool
  encryptionDisabled : Bool
  maxRAmpduFactor : ℕ
  txSeq : Fin 8 → ℕ
  rxBAbitmap : BitVec 16
  txBAbitmap : BitVec 16
  baDeclineBitmap : BitVec 16
  baRecWcidArray : Fin 8 → Fin 128
  baOriWcidArray : Fin 8 → Fin 128

structure Config where
  osHz : ℕ
  macVersion : ℕ
  rxBAWinLimit : Fin 256
  autoBA : Bool
  bBADecline : Bool
  fixedTxMode : ℕ
  bTGnWifiTest : Bool
  wpaSupplicantUP : Bool
  haltInProgress : Bool
  nicNotExist : Bool
  monitorOn : Bool
  ateOn : Bool
  infraOn : Bool
  bssScanInProgress : Bool
  mediaStateConnected : Bool
deriving DecidableEq, Repr

/-- `RTMP_ADAPTER` as far as the block-ack code is concerned, with the log of all events. An event
outside every session carries no index. -/
structure RtmpAdapter where
  cfg : Config
  freelist : ReorderingList
  numAsRecipient : ℕ
  numAsOriginator : ℕ
  numDoneOriginator : ℕ
  baOriEntry : Fin 128 → BaOriEntry
  baRecEntry : Fin 128 → BaRecEntry
  content : Fin 32 → MacTableEntry
  log : List (Option (Fin 128) × Event)

namespace RtmpAdapter

/-- Runs reordering code on the recipient entry `i`. -/
def onRecEntry (pAd : RtmpAdapter) (i : Fin 128) (f : Session → Session) : RtmpAdapter :=
  let s := f ⟨pAd.freelist, pAd.baRecEntry i, []⟩
  { pAd with
    freelist := s.freelist
    baRecEntry := Function.update pAd.baRecEntry i s.ent
    log := pAd.log ++ s.events.map (some i, ·) }

/-- Writes the station `wcid`. -/
def setStation (pAd : RtmpAdapter) (wcid : Fin 32) (e : MacTableEntry) : RtmpAdapter :=
  { pAd with content := Function.update pAd.content wcid e }

/-- Writes the originator entry `i`. -/
def setOriEntry (pAd : RtmpAdapter) (i : Fin 128) (e : BaOriEntry) : RtmpAdapter :=
  { pAd with baOriEntry := Function.update pAd.baOriEntry i e }

/-- Writes the status of the recipient entry `i`. -/
def setRecStatus (pAd : RtmpAdapter) (i : Fin 128) (st : RecBlockackStatus) : RtmpAdapter :=
  { pAd with
    baRecEntry := Function.update pAd.baRecEntry i { pAd.baRecEntry i with recBaStatus := st } }

end RtmpAdapter

/-- `bitmap |= (1<<TID)`. -/
def setBit (bitmap : BitVec 16) (tid : Fin 8) : BitVec 16 := bitmap ||| BitVec.twoPow 16 tid

/-- `bitmap &= ~(1<<TID)`. -/
def clearBit (bitmap : BitVec 16) (tid : Fin 8) : BitVec 16 := bitmap &&& ~~~(BitVec.twoPow 16 tid)

namespace MacTableEntry

/-- `BARecWcidArray[TID] = idx`. -/
def setRecIdx (e : MacTableEntry) (tid : Fin 8) (idx : Fin 128) : MacTableEntry :=
  { e with baRecWcidArray := Function.update e.baRecWcidArray tid idx }

/-- `BAOriWcidArray[TID] = idx`. -/
def setOriIdx (e : MacTableEntry) (tid : Fin 8) (idx : Fin 128) : MacTableEntry :=
  { e with baOriWcidArray := Function.update e.baOriWcidArray tid idx }

end MacTableEntry

/-! ### Entries of the two tables -/

/-- `BATableAllocRecEntry`: the entry found, the index it stores, and the adapter. When no entry is
free the loop ends on the last one and leaves the index alone. -/
def baTableAllocRecEntry (pAd : RtmpAdapter) (idx : Fin 128) :
    Option (Fin 128) × Fin 128 × RtmpAdapter :=
  if 127 ≤ pAd.numAsRecipient then (none, idx, pAd)
  else
    match (List.finRange 128).find? fun i => i ≠ 0 ∧ (pAd.baRecEntry i).recBaStatus = .none with
    | some i =>
      (some i, i, { pAd.setRecStatus i .used with numAsRecipient := pAd.numAsRecipient + 1 })
    | none => (some 127, idx, pAd)

def baTableAllocOriEntry (pAd : RtmpAdapter) (idx : Fin 128) :
    Option (Fin 128) × Fin 128 × RtmpAdapter :=
  if 127 ≤ pAd.numAsOriginator then (none, idx, pAd)
  else
    match (List.finRange 128).find? fun i => i ≠ 0 ∧ (pAd.baOriEntry i).oriBaStatus = .none with
    | some i =>
      (some i, i,
        { pAd.setOriEntry i { pAd.baOriEntry i with oriBaStatus := .used } with
          numAsOriginator := pAd.numAsOriginator + 1 })
    | none => (some 127, idx, pAd)

/-- The station as `BATableFreeOriEntry` leaves it. -/
def MacTableEntry.closeOri (sta : MacTableEntry) (tid : Fin 8) (done : Bool) : MacTableEntry :=
  { sta.setOriIdx tid 0 with
    txBAbitmap := if done then clearBit sta.txBAbitmap tid else sta.txBAbitmap }

def baTableFreeOriEntry (pAd : RtmpAdapter) (idx : Fin 128) : RtmpAdapter :=
  let ent := pAd.baOriEntry idx
  if idx = 0 then pAd
  else if ent.oriBaStatus ≠ .none then
    { (pAd.setStation ent.wcid
          ((pAd.content ent.wcid).closeOri ent.tid (ent.oriBaStatus = .done))).setOriEntry idx
        { ent with oriBaStatus := .none, token := 0 } with
      numDoneOriginator :=
        if ent.oriBaStatus = .done then pAd.numDoneOriginator - 1 else pAd.numDoneOriginator
      numAsOriginator := pAd.numAsOriginator - 1 }
  else pAd

def baTableFreeRecEntry (pAd : RtmpAdapter) (idx : Fin 128) : RtmpAdapter :=
  let ent := pAd.baRecEntry idx
  if idx = 0 then pAd
  else if ent.recBaStatus ≠ .none then
    { (pAd.setStation ent.wcid ((pAd.content ent.wcid).setRecIdx ent.tid 0)).setRecStatus idx .none
      with numAsRecipient := pAd.numAsRecipient - 1 }
  else pAd

/-! ### The originator -/

/-- "Initialize BA session" of `BAOriSessionSetUp`: the entry is `i`, the stored index `idx`. -/
def initOriEntry (pAd : RtmpAdapter) (wcid : Fin 32) (tid : Fin 8) (timeOut : ℕ) (i idx : Fin 128) :
    RtmpAdapter :=
  (pAd.setStation wcid ((pAd.content wcid).setOriIdx tid idx)).setOriEntry i
    { pAd.baOriEntry i with
      oriBaStatus := .waitRes
      wcid := (pAd.content wcid).aid
      baWinSize := pAd.cfg.rxBAWinLimit
      sequence := (pAd.content wcid).txSeq tid
      token := 1
      tid := tid
      timeOutValue := timeOut }

/-- `BAOriSessionSetUp` for the station `wcid`. -/
def baOriSessionSetUp (pAd : RtmpAdapter) (wcid : Fin 32) (tid : Fin 8) (timeOut : ℕ)
    (isForced : Bool) : RtmpAdapter :=
  if ¬ pAd.cfg.autoBA ∧ ¬ isForced then pAd
  else if pAd.cfg.fixedTxMode ≠ 0 then pAd
  else
    let idx := (pAd.content wcid).baOriWcidArray tid
    match if idx = 0 then baTableAllocOriEntry pAd idx else (some idx, idx, pAd) with
    | (none, _, pAd) => pAd
    | (some i, idx, pAd) =>
      if OriBlockackStatus.waitRes.toNat ≤ (pAd.baOriEntry i).oriBaStatus.toNat then pAd
      else initOriEntry pAd wcid tid timeOut i idx

def isRt65xx (macVersion : ℕ) : Bool :=
  macVersion &&& 0xFFFF0000 = 0x65900000 ∨ macVersion &&& 0xFFFFF000 = 0x85592000 ∨
    macVersion &&& 0xFFFF0000 = 0x76500000 ∨ macVersion &&& 0xFFFF0000 = 0x76620000

/-- `BA_MaxWinSizeReasign`: the transmit window is cut to what the chip and the peer can take. -/
def baMaxWinSizeReasign (cfg : Config) (sta : MacTableEntry) (winSize : Fin 256) : Fin 256 :=
  let maxPeerRxSize : Fin 256 :=
    if sta.ralinkChipset then Fin.ofNat 256 (1 <<< (sta.maxRAmpduFactor + 3))
    else Fin.ofNat 256 ((((1 <<< (sta.maxRAmpduFactor + 3)) * 10) / 16) + 255)
  let maxSize : Fin 256 :=
    if isRt65xx cfg.macVersion then 31
    else if 0x28830300 ≤ cfg.macVersion then
      if 0x30700200 ≤ cfg.macVersion then (if sta.encryptionDisabled then 13 else 7) else 31
    else if 0x28720200 ≤ cfg.macVersion then (if sta.encryptionDisabled then 13 else 7)
    else 7
  let maxSize := min maxPeerRxSize maxSize
  if maxSize < winSize then maxSize else winSize

/-- `FRAME_ADDBA_RSP`, the fields that are read. -/
structure FrameAddbaRsp where
  statusCode : ℕ
  baPolicy : ℕ
  tid : Fin 8
  bufSize : ℕ
  timeOutValue : ℕ
deriving DecidableEq, Repr

/-- `BAOriSessionAdd` for the station `wcid`; the block-ack request it sends changes no table. -/
def baOriSessionAdd (pAd : RtmpAdapter) (wcid : Fin 32) (frame : FrameAddbaRsp) : RtmpAdapter :=
  let sta := pAd.content wcid
  let idx := sta.baOriWcidArray frame.tid
  let ent := pAd.baOriEntry idx
  if idx ≠ 0 ∧ ent.tid = frame.tid ∧ ent.oriBaStatus = .waitRes then
    let maxPeerBufSize : Fin 256 := Fin.ofNat 256 (frame.bufSize % 256 - 1)
    { (pAd.setOriEntry idx
          { ent with
            baWinSize := baMaxWinSizeReasign pAd.cfg sta (min ent.baWinSize maxPeerBufSize)
            timeOutValue := frame.timeOutValue
            oriBaStatus := .done
            sequence := sta.txSeq frame.tid }).setStation wcid
        { sta with txBAbitmap := setBit sta.txBAbitmap frame.tid } with
      numDoneOriginator := pAd.numDoneOriginator + 1 }
  else pAd

/-- `BAOriSessionTearDown`; `elemAlloc` says whether the memory for the DELBA request is there. The
DELBA frame itself changes no table, so a forced one without a session does not either. -/
def baOriSessionTearDown (pAd : RtmpAdapter) (wcid : Fin 32) (tid : Fin 8)
    (bPassive elemAlloc : Bool) : RtmpAdapter :=
  let idx := (pAd.content wcid).baOriWcidArray tid
  let ent := pAd.baOriEntry idx
  if idx = 0 then pAd
  else if ¬ bPassive ∧ tid = ent.tid ∧ ent.oriBaStatus = .done ∧ ¬ elemAlloc then pAd
  else baTableFreeOriEntry pAd idx

/-- `BAOriSessionSetupTimeout` on the entry `i`, whatever has become of it since the timer was set. -/
def baOriSessionSetupTimeout (pAd : RtmpAdapter) (i : Fin 128) : RtmpAdapter :=
  let ent := pAd.baOriEntry i
  if pAd.cfg.monitorOn ∨ pAd.cfg.ateOn then pAd
  else if ent.oriBaStatus = .waitRes ∧ ent.token < 8 then
    if pAd.cfg.infraOn ∧ pAd.cfg.bssScanInProgress ∧ pAd.cfg.mediaStateConnected then pAd
    else pAd.setOriEntry i { ent with token := ent.token + 1 }
  else baTableFreeOriEntry pAd ((pAd.content ent.wcid).baOriWcidArray ent.tid)

/-! ### The recipient -/

/-- `FRAME_ADDBA_REQ`, the fields that are read. -/
structure FrameAddbaReq where
  baPolicy : ℕ
  tid : Fin 8
  bufSize : ℕ
  timeOutValue : ℕ
deriving DecidableEq, Repr

/-- The window that `BARecSessionAdd` grants. -/
def recWinSize (cfg : Config) (frame : FrameAddbaReq) : Fin 256 :=
  let baWinSize := min (Fin.ofNat 256 frame.bufSize) cfg.rxBAWinLimit
  if baWinSize = 0 then 64 else baWinSize

/-- The entry that `BARecSessionAdd` fills in. -/
def openSession (baWinSize : Fin 256) (aid : Fin 32) (frame : FrameAddbaReq) (s : Session) :
    Session :=
  { s.emit .reset with
    ent :=
      { s.ent with
        baWinSize := baWinSize
        wcid := aid
        tid := frame.tid
        timeOutValue := frame.timeOutValue
        recBaStatus := .accept
        lastIndSeq := resetRcvSeq } }

/-- The station as `BARecSessionAdd` leaves it. -/
def MacTableEntry.openRec (sta : MacTableEntry) (tid : Fin 8) (idx : Fin 128) : MacTableEntry :=
  { sta.setRecIdx tid idx with
    rxBAbitmap := setBit sta.rxBAbitmap tid
    baDeclineBitmap := clearBit sta.baDeclineBitmap tid }

/-- "Start fill in parameters" of `BARecSessionAdd`: the entry is `i`, the stored index `idx`. -/
def fillRecEntry (pAd : RtmpAdapter) (wcid : Fin 32) (frame : FrameAddbaReq) (i idx : Fin 128) :
    RtmpAdapter :=
  (pAd.onRecEntry i (openSession (recWinSize pAd.cfg frame) (pAd.content wcid).aid frame)).setStation
    wcid ((pAd.content wcid).openRec frame.tid idx)

/-- `BARecSessionAdd` for the station `wcid`. -/
def baRecSessionAdd (pAd : RtmpAdapter) (wcid : Fin 32) (frame : FrameAddbaReq) :
    Bool × RtmpAdapter :=
  let idx := (pAd.content wcid).baRecWcidArray frame.tid
  match if idx = 0 then baTableAllocRecEntry pAd idx
    else (some idx, idx, pAd.onRecEntry idx Session.baRefreshReorderingMpdus) with
  | (none, _, pAd) => (false, pAd)
  | (some i, idx, pAd) => (true, fillRecEntry pAd wcid frame i idx)

/-- The end of a session in `BARecSessionTearDown`. -/
def closeSession (s : Session) : Session :=
  let s := s.baRefreshReorderingMpdus
  { s with ent := { s.ent with lastIndSeq := resetRcvSeq, baWinSize := 0 } }

/-- The station as `BARecSessionTearDown` leaves it; the bit is that of the entry's TID. -/
def MacTableEntry.closeRec (sta : MacTableEntry) (tid entTid : Fin 8) : MacTableEntry :=
  { sta.setRecIdx tid 0 with rxBAbitmap := clearBit sta.rxBAbitmap entTid }

def baRecSessionTearDown (pAd : RtmpAdapter) (wcid : Fin 32) (tid : Fin 8)
    (bPassive elemAlloc : Bool) : RtmpAdapter :=
  let idx := (pAd.content wcid).baRecWcidArray tid
  let ent := pAd.baRecEntry idx
  if idx = 0 then pAd
  else if tid = ent.tid ∧ ent.recBaStatus = .accept then
    if ¬ bPassive ∧ ¬ elemAlloc then pAd
    else
      baTableFreeRecEntry ((pAd.onRecEntry idx closeSession).setStation wcid
        ((pAd.content wcid).closeRec tid ent.tid)) idx
  else baTableFreeRecEntry pAd idx

/-- `BASessionTearDownALL`, one TID after the other. -/
def baSessionTearDownALL (pAd : RtmpAdapter) (wcid : Fin 32) (elemAlloc : Fin 8 → Bool × Bool) :
    RtmpAdapter :=
  (List.finRange 8).foldl (fun pAd tid => baRecSessionTearDown
    (baOriSessionTearDown pAd wcid tid false (elemAlloc tid).1) wcid tid false (elemAlloc tid).2) pAd

/-- `BARecSessionIdleTimeout` on the entry `i`. -/
def baRecSessionIdleTimeout (pAd : RtmpAdapter) (i : Fin 128) (now32 : Tick) : RtmpAdapter :=
  let ent := pAd.baRecEntry i
  if ent.recBaStatus = .accept ∧
      rtmpTimeAfter now32 (ent.lastIndSeqAtTimer + BitVec.ofNat 64 1000) then
    pAd.onRecEntry i Session.baRefreshReorderingMpdus
  else pAd

/-! ### Received action frames -/

def peerAddBAReqActionSanity (msgLen : ℕ) (frame : FrameAddbaReq) : Bool := 33 ≤ msgLen ∧ frame.baPolicy = 1

/-- `PeerAddBAReqAction`, without the response frame. -/
def peerAddBAReqAction (pAd : RtmpAdapter) (wcid : ℕ) (msgLen : ℕ) (frame : FrameAddbaReq) :
    RtmpAdapter :=
  if h : wcid < 32 then
    if peerAddBAReqActionSanity msgLen frame ∧ ¬ pAd.cfg.bBADecline ∧
        2 ≤ (pAd.content ⟨wcid, h⟩).maxHtPhyMode then
      (baRecSessionAdd pAd ⟨wcid, h⟩ frame).2
    else pAd
  else pAd

def peerAddBARspActionSanity (msgLen : ℕ) (frame : FrameAddbaRsp) : Bool := 33 ≤ msgLen ∧ frame.baPolicy = 1

def peerAddBARspAction (pAd : RtmpAdapter) (wcid : ℕ) (msgLen : ℕ) (frame : FrameAddbaRsp) :
    RtmpAdapter :=
  if h : wcid < 32 then
    if peerAddBARspActionSanity msgLen frame then
      let pAd :=
        if frame.statusCode = 0 then baOriSessionAdd pAd ⟨wcid, h⟩ frame
        else baOriSessionTearDown pAd ⟨wcid, h⟩ frame.tid true true
      if frame.statusCode = 37 ∨ pAd.cfg.bTGnWifiTest ∧ frame.statusCode ≠ 0 then
        let sta := pAd.content ⟨wcid, h⟩
        pAd.setStation ⟨wcid, h⟩
          { sta with baDeclineBitmap := setBit sta.baDeclineBitmap frame.tid }
      else pAd
    else pAd
  else pAd

/-- `PeerDelBAAction` with its sanity check. -/
def peerDelBAAction (pAd : RtmpAdapter) (wcid : ℕ) (msgLen : ℕ) (tid : Fin 8)
    (initiator : Bool) : RtmpAdapter :=
  if h : msgLen = 30 ∧ wcid < 32 then
    if initiator then baRecSessionTearDown pAd ⟨wcid, h.2⟩ tid true true
    else baOriSessionTearDown pAd ⟨wcid, h.2⟩ tid true true
  else pAd

/-! ### The reordering entry points -/

def indicateAmpduPacket (pAd : RtmpAdapter) (rx : RxBlk) (now32 legacyNow32 : Tick) : RtmpAdapter :=
  if ¬ rx.fRxAmsdu ∧ 1520 < rx.dataSize then
    { pAd with log := pAd.log ++ [(none, .release rx.pRxPacket)] }
  else if h : rx.wcid < 32 then
    let idx := (pAd.content ⟨rx.wcid, h⟩).baRecWcidArray rx.tid
    if idx = 0 then { pAd with log := pAd.log ++ [(none, .deliver rx.pRxPacket rx.sequence)] }
    else
      pAd.onRecEntry idx fun s => s.indicateAmpduSession
        ⟨pAd.cfg.osHz, now32, legacyNow32, pAd.cfg.wpaSupplicantUP⟩ rx
  else { pAd with log := pAd.log ++ [(none, .release rx.pRxPacket)] }

/-- `CntlEnqueueForRecv`, a block-ack request. It does not look whether there is a session. -/
def cntlEnqueueForRecv (pAd : RtmpAdapter) (wcid msgLen : ℕ) (tid : Fin 8) (startSeq : Fin 4096) :
    RtmpAdapter :=
  if pAd.cfg.haltInProgress ∨ pAd.cfg.nicNotExist then pAd
  else if msgLen ≠ 20 then pAd
  else if h : wcid < 32 then
    pAd.onRecEntry ((pAd.content ⟨wcid, h⟩).baRecWcidArray tid) fun s => s.cntlBar startSeq
  else pAd

/-- `ba_flush_reordering_timeout_mpdus` on the recipient entry `i`. -/
def flushRecEntry (now32 : Tick) (pAd : RtmpAdapter) (i : Fin 128) : RtmpAdapter :=
  pAd.onRecEntry i fun s => s.baFlushReorderingTimeoutMpdus pAd.cfg.osHz now32

def baReOrderingBufferMaintain (pAd : RtmpAdapter) (now32 : Tick) : RtmpAdapter :=
  (List.finRange 32).tail.foldl (fun pAd wcid =>
    if (pAd.content wcid).entryNone then pAd
    else (List.finRange 8).foldl (fun pAd tid =>
      flushRecEntry now32 pAd ((pAd.content wcid).baRecWcidArray tid)) pAd) pAd

/-! ### The system -/

inductive Op
  /-- A setting or a flag of the adapter changes. -/
  | configure (cfg : Config)
  | baOriSessionSetUp (wcid : Fin 32) (tid : Fin 8) (timeOut : ℕ) (isForced : Bool)
  | baOriSessionAdd (wcid : Fin 32) (frame : FrameAddbaRsp)
  | baOriSessionTearDown (wcid : Fin 32) (tid : Fin 8) (bPassive elemAlloc : Bool)
  | baOriSessionSetupTimeout (i : Fin 128)
  | baRecSessionAdd (wcid : Fin 32) (frame : FrameAddbaReq)
  | baRecSessionTearDown (wcid : Fin 32) (tid : Fin 8) (bPassive elemAlloc : Bool)
  | baSessionTearDownALL (wcid : Fin 32) (elemAlloc : Fin 8 → Bool × Bool)
  | baRecSessionIdleTimeout (i : Fin 128) (now32 : Tick)
  | peerAddBAReqAction (wcid msgLen : ℕ) (frame : FrameAddbaReq)
  | peerAddBARspAction (wcid msgLen : ℕ) (frame : FrameAddbaRsp)
  | peerDelBAAction (wcid msgLen : ℕ) (tid : Fin 8) (initiator : Bool)
  | indicateAmpduPacket (rx : RxBlk) (now32 legacyNow32 : Tick)
  | cntlEnqueueForRecv (wcid msgLen : ℕ) (tid : Fin 8) (startSeq : Fin 4096)
  | flushRecEntry (i : Fin 128) (now32 : Tick)
  | baReOrderingBufferMaintain (now32 : Tick)

def step (pAd : RtmpAdapter) : Op → RtmpAdapter
  | .configure cfg => { pAd with cfg := cfg }
  | .baOriSessionSetUp wcid tid timeOut isForced =>
    Tables.baOriSessionSetUp pAd wcid tid timeOut isForced
  | .baOriSessionAdd wcid frame => Tables.baOriSessionAdd pAd wcid frame
  | .baOriSessionTearDown wcid tid bPassive elemAlloc =>
    Tables.baOriSessionTearDown pAd wcid tid bPassive elemAlloc
  | .baOriSessionSetupTimeout i => Tables.baOriSessionSetupTimeout pAd i
  | .baRecSessionAdd wcid frame => (Tables.baRecSessionAdd pAd wcid frame).2
  | .baRecSessionTearDown wcid tid bPassive elemAlloc =>
    Tables.baRecSessionTearDown pAd wcid tid bPassive elemAlloc
  | .baSessionTearDownALL wcid elemAlloc => Tables.baSessionTearDownALL pAd wcid elemAlloc
  | .baRecSessionIdleTimeout i now32 => Tables.baRecSessionIdleTimeout pAd i now32
  | .peerAddBAReqAction wcid msgLen frame => Tables.peerAddBAReqAction pAd wcid msgLen frame
  | .peerAddBARspAction wcid msgLen frame => Tables.peerAddBARspAction pAd wcid msgLen frame
  | .peerDelBAAction wcid msgLen tid initiator =>
    Tables.peerDelBAAction pAd wcid msgLen tid initiator
  | .indicateAmpduPacket rx now32 legacyNow32 =>
    Tables.indicateAmpduPacket pAd rx now32 legacyNow32
  | .cntlEnqueueForRecv wcid msgLen tid startSeq =>
    Tables.cntlEnqueueForRecv pAd wcid msgLen tid startSeq
  | .flushRecEntry i now32 => Tables.flushRecEntry now32 pAd i
  | .baReOrderingBufferMaintain now32 => Tables.baReOrderingBufferMaintain pAd now32

def zeroRecEntry : BaRecEntry := ⟨0, 0, 0, 0, 0, 0, 0, 0, .none, ⟨[], 0⟩⟩

def zeroOriEntry : BaOriEntry := ⟨0, 0, 0, 0, 0, 0, .none⟩

/-- A station as `MacTableInsertEntry` leaves it: without sessions, and "entry index == AID". -/
def freshStation (attrs : MacTableEntry) (wcid : Fin 32) : MacTableEntry :=
  { attrs with
    aid := wcid
    rxBAbitmap := 0
    txBAbitmap := 0
    baDeclineBitmap := 0
    baRecWcidArray := fun _ => 0
    baOriWcidArray := fun _ => 0 }

/-- The adapter after `BATableInit` and `ba_reordering_resource_init(pAd, num)`, for any settings
and any stations. -/
def initAdapter (cfg : Config) (num : ℕ) (attrs : Fin 32 → MacTableEntry) : RtmpAdapter where
  cfg := cfg
  freelist := resourceInitFreelist num
  numAsRecipient := 0
  numAsOriginator := 0
  numDoneOriginator := 0
  baOriEntry := fun _ => zeroOriEntry
  baRecEntry := fun _ => zeroRecEntry
  content := fun wcid => freshStation (attrs wcid) wcid
  log := []

end Mt7610u.BlockAck.Tables
