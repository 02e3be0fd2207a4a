import Mt7610u.BlockAck.Tables
import Mt7610u.Data.Amsdu
import Mt7610u.Data.Defragment

/-! # The receive path (`sta/rtmp_data.c`, `common/cmm_data.c`)

From the packet that `GetPacketFromRxRing` returns to the place where it ends: handed to the OS,
released, held by a reordering block, or kept as the fragment buffer. Packets are numbered in the order
in which they are allocated, and `Disposal` records what is done with them. -/

namespace Mt7610u.Data.RxPath

open Lib BlockAck BlockAck.Tables
open BlockAck.Reorder (Event ReorderingMpdu Tick Session reorderingPacketTimeout rtmpTimeAfter)

attribute [local instance] neZero_four neZero_eight neZero_16 neZero_128

/-! ### Frames -/

/-- `RXINFO_STRUC`, the bits that are read. -/
structure RxInfo where
  crc : Bool
  cipherErr : BitVec 2
  decrypted : Bool
  myBss : Bool
  bcast : Bool
  mcast : Bool
  u2M : Bool
  l2Pad : Bool
  ba : Bool

/-- `RXWI_STRUC`, the fields that are read. -/
structure RxWi where
  wirelessCliID : Fin 256
  keyIndex : Fin 4
  mpduByteCnt : BitVec 14
  tid : Fin 16
  phyMode : Fin 8

/-- What `GetPacketFromRxRing` returns: the descriptors and the memory at `pHeader`. -/
structure RxPacket where
  infoType : Fin 4
  pkt80211 : Bool
  rxInfo : RxInfo
  rxWI : RxWi
  header : ℕ → Byte

/-! ### The 802.11 header at `m` -/

section Header

variable (m : ℕ → Byte)

def fcType : BitVec 2 := (m 0).extractLsb' 2 2

def subType : BitVec 4 := (m 0).extractLsb' 4 4

def toDs : Bool := (m 1).getLsbD 0

def frDs : Bool := (m 1).getLsbD 1

def moreFrag : Bool := (m 1).getLsbD 2

def wep : Bool := (m 1).getLsbD 6

def order : Bool := (m 1).getLsbD 7

def addr2 : List Byte := readAt m 10 6

def addr3 : List Byte := readAt m 16 6

def frag : BitVec 4 := (m 22).extractLsb' 0 4

def sequence : BitVec 12 := m 23 ++ (m 22).extractLsb' 4 4

end Header

/-- `RX_BLK` of a data frame: the packet, the frame in it, and the flags that are tested. -/
structure RxBlk where
  pRxPacket : ℕ
  pkt : Packet
  rxWI : RxWi
  fRxAmsdu : Bool
  fRxAmpdu : Bool
  fRxAralink : Bool

/-! ### The adapter -/

structure Settings where
  bssInfra : Bool
  mlmeBssid : List Byte
  bssid : List Byte
  currentAddress : List Byte
  aggregationInUsed : Bool
  bDisableReordering : Bool
  encryptionDisabled : Bool
  portNotSecured : Bool
  /-- Which pairwise ciphers are TKIP. -/
  tkip : Fin 256 → Bool
  /-- Which shared keys are of type `CIPHER_AES`. -/
  cipherAes : Fin 4 → Bool

inductive Disposal
  /-- `netif_rx`. -/
  | toOs (pPacket : ℕ)
  /-- `RELEASE_NDIS_PACKET`. -/
  | release (pPacket : ℕ)
  /-- `REPORT_MGMT_FRAME_TO_MLME` on a copy of the frame. -/
  | report (pPacket : ℕ)
  /-- What becomes of a subframe of an A-MSDU; what is passed up is a clone. -/
  | subframe (pPacket : ℕ) (e : Amsdu.Event)

/-- `RTMP_ADAPTER` as far as received packets are concerned. `contents` is what lies in the A-MSDUs that
the reordering lists hold, and `nextPacket` numbers the allocations. -/
structure Adapter where
  cfg : Settings
  ba : RtmpAdapter
  pFragPacket : ℕ
  fragFrame : FragFrame
  contents : ℕ → Packet
  nextPacket : ℕ
  disposals : List Disposal

structure World where
  now32 : Tick
  legacyNow32 : Tick
  /-- `RTMP_AllocateFragPacketBuffer`. -/
  newFragPacket : Option (ℕ → Byte)
  /-- `duplicate_pkt` gets memory. -/
  duplicated : Bool
  /-- There is headroom for the monitor header, or `pskb_expand_head` makes it. -/
  expanded : Bool
  /-- The verdict of `RTMPTkipCompareMICValue`. -/
  micEqual : Bool
  /-- What `pRxWI` reads once the ring packet that it lies in is released. -/
  staleRxWI : RxWi
  /-- The allocations of `deaggregate_AMSDU_announce`, by packet. -/
  resources : ℕ → Amsdu.Resources

namespace Adapter

def dispose (s : Adapter) (ds : List Disposal) : Adapter := { s with disposals := s.disposals ++ ds }

end Adapter

/-! ### Taking frames apart -/

/-- `deaggregate_AMSDU_announce`: the subframes, and then the packet itself is released. -/
def deaggregateAmsduAnnounce (w : World) (pPacket : ℕ) (pkt : Packet) : List Disposal :=
  (Amsdu.deaggregateAmsduAnnounce (w.resources pPacket) 0 (fun i => pkt.frame (pkt.headerRoom.toNat + i))
    pkt.dataSize.toNat).2.map (.subframe pPacket) ++ [.release pPacket]

/-- Does `CONVERT_TO_802_3` remove the LLC/SNAP header at `pData`? -/
def removesLlc (pkt : Packet) : Bool :=
  let snap := readAt pkt.frame pkt.headerRoom.toNat 6
  let proto := readAt pkt.frame (pkt.headerRoom.toNat + 6) 2
  (snap = snap8021h ∨ snap = snapBridgeTunnel) ∧ ¬ ((proto = ipx ∨ proto = appleTalk) ∧ snap = snap8021h)

/-- `DataSize` after `RTMP_802_11_REMOVE_LLC_AND_CONVERT_TO_802_3`. -/
def convertedSize (pkt : Packet) : BitVec 16 := if removesLlc pkt then pkt.dataSize - 8 else pkt.dataSize

def rtmpCheckWPAframe (pkt : Packet) : Bool :=
  let pData := pkt.headerRoom.toNat
  let snap := readAt pkt.frame pData 6
  let pData := if snap = snap8021h ∨ snap = snapBridgeTunnel then pData + 6 else pData
  12 ≤ pkt.dataSize.toNat ∧ readAt pkt.frame pData 2 = [0x88#8, 0x8e#8] ∧ (pkt.frame (pData + 3)).toNat ≤ 4

/-! ### Block-ack code at work -/

def heldBlock (ba : RtmpAdapter) (pPacket : ℕ) : Option ReorderingMpdu :=
  (List.finRange 128).findSome? fun i => (ba.baRecEntry i).list.next.find? fun blk => blk.pPacket = pPacket

def announceReorderingPacket (s : Adapter) (w : World) (blk : ReorderingMpdu) (pPacket : ℕ) :
    List Disposal :=
  if blk.bAMSDU then deaggregateAmsduAnnounce w pPacket (s.contents pPacket) else [.toOs pPacket]

/-- What an event of the block-ack code means: a packet that a list held is announced from there, any
other is the frame that has just come in, and `indicate` says what is done with that one. -/
def disposalsOf (s : Adapter) (w : World) (indicate : ℕ → List Disposal) : Event → List Disposal
  | .deliver pPacket _ =>
    match heldBlock s.ba pPacket with
    | some blk => announceReorderingPacket s w blk pPacket
    | none => indicate pPacket
  | .release pPacket => [.release pPacket]
  | .reset => []

/-- Block-ack code has run and has left `ba` with its events. -/
def settle (s : Adapter) (w : World) (indicate : ℕ → List Disposal) (ba : RtmpAdapter) : Adapter :=
  { s with
    ba := { ba with log := [] }
    disposals := s.disposals ++ ba.log.flatMap fun e => disposalsOf s w indicate e.2 }

/-- `BARecWcidArray[TID]`. The field is followed by `BAOriWcidArray`, and a TID has four bits. -/
def recWcid (sta : MacTableEntry) (tid : Fin 16) : Fin 128 :=
  if h : tid < 8 then sta.baRecWcidArray ⟨tid, h⟩ else sta.baOriWcidArray ⟨tid - 8, by omega⟩

/-! ### The ways up -/

/-- `Indicate_Legacy_Packet` without its look at the reordering list. -/
def legacyDisposals (pkt : Packet) (pPacket : ℕ) : List Disposal :=
  if 1520 < (convertedSize pkt).toNat then [.release pPacket] else [.toOs pPacket]

def overdueSession (s : Adapter) (w : World) (rxWI : RxWi) : Option (Fin 128) :=
  if s.cfg.bDisableReordering then none
  else if h : (rxWI.wirelessCliID : ℕ) < 32 then
    let idx := recWcid (s.ba.content ⟨rxWI.wirelessCliID, h⟩) rxWI.tid
    let ent := s.ba.baRecEntry idx
    if idx ≠ 0 ∧ 0 < ent.list.qlen ∧
        rtmpTimeAfter w.legacyNow32 (ent.lastIndSeqAtTimer + reorderingPacketTimeout s.ba.cfg.osHz) then
      some idx
    else none
  else none

/-- `Indicate_Legacy_Packet`. Overdue frames of the same session are flushed first, unless the frame
itself is too long. -/
def indicateLegacyPacket (s : Adapter) (w : World) (rx : RxBlk) : Adapter :=
  if 1520 < (convertedSize rx.pkt).toNat then s.dispose [.release rx.pRxPacket]
  else
    match overdueSession s w rx.rxWI with
    | some idx =>
      (settle s w (fun p => [.toOs p]) (flushRecEntry w.legacyNow32 s.ba idx)).dispose [.toOs rx.pRxPacket]
    | none => s.dispose [.toOs rx.pRxPacket]

def staRxEAPOLFrameIndicate (s : Adapter) (w : World) (rx : RxBlk) : Adapter :=
  if s.ba.cfg.wpaSupplicantUP then indicateLegacyPacket s w rx
  else s.dispose [.report rx.pRxPacket, .release rx.pRxPacket]

/-- `INDICATE_LEGACY_OR_AMSDU` for a frame whose session has no overdue frames; an EAPOL frame goes
through `Indicate_EAPOL_Packet`, which finds the station as `Indicate_AMPDU_Packet` did. -/
def indicateLegacyOrAmsdu (s : Adapter) (w : World) (rx : RxBlk) (fRxEap : Bool) (pPacket : ℕ) :
    List Disposal :=
  if rx.fRxAmsdu then deaggregateAmsduAnnounce w pPacket rx.pkt
  else if fRxEap ∧ ¬ s.ba.cfg.wpaSupplicantUP then [.report pPacket, .release pPacket]
  else legacyDisposals rx.pkt pPacket

def RxBlk.toReorder (rx : RxBlk) (fRxEap : Bool) : Reorder.RxBlk where
  pRxPacket := rx.pRxPacket
  sequence := (sequence rx.pkt.frame).toFin
  wcid := rx.rxWI.wirelessCliID
  tid := Fin.ofNat 8 rx.rxWI.tid
  fRxAmsdu := rx.fRxAmsdu
  fRxEap := fRxEap
  dataSize := rx.pkt.dataSize.toNat
  opMode := 0

def indicateAmpduPacket (s : Adapter) (w : World) (rx : RxBlk) (fRxEap : Bool) : Adapter :=
  if ¬ rx.fRxAmsdu ∧ 1520 < rx.pkt.dataSize.toNat then s.dispose [.release rx.pRxPacket]
  else if h : (rx.rxWI.wirelessCliID : ℕ) < 32 then
    let idx := recWcid (s.ba.content ⟨rx.rxWI.wirelessCliID, h⟩) rx.rxWI.tid
    if idx = 0 then s.dispose (indicateLegacyOrAmsdu s w rx fRxEap rx.pRxPacket)
    else
      { settle s w (indicateLegacyOrAmsdu s w rx fRxEap)
          (s.ba.onRecEntry idx fun t => t.indicateAmpduSession
            ⟨s.ba.cfg.osHz, w.now32, w.legacyNow32, s.ba.cfg.wpaSupplicantUP⟩ (rx.toReorder fRxEap)) with
        contents := Function.update s.contents rx.pRxPacket rx.pkt }
  else s.dispose [.release rx.pRxPacket]

def cmmRxnonRalinkFrameIndicate (s : Adapter) (w : World) (rx : RxBlk) : Adapter :=
  if rx.fRxAmpdu ∧ ¬ s.cfg.bDisableReordering then indicateAmpduPacket s w rx false
  else if rx.fRxAmsdu then s.dispose (deaggregateAmsduAnnounce w rx.pRxPacket rx.pkt)
  else indicateLegacyPacket s w rx

/-- `Msdu2Size`, at the head of a Ralink aggregate. -/
def msdu2Size (pkt : Packet) : ℕ :=
  (pkt.frame pkt.headerRoom.toNat).toNat + (pkt.frame (pkt.headerRoom.toNat + 1)).toNat * 256

/-- `CmmRxRalinkFrameIndicate`: the second frame gets a packet of its own. -/
def cmmRxRalinkFrameIndicate (s : Adapter) (w : World) (rx : RxBlk) : Adapter :=
  if msdu2Size rx.pkt ≤ 1536 ∧ msdu2Size rx.pkt < rx.pkt.dataSize.toNat then
    if w.duplicated then
      { s with nextPacket := s.nextPacket + 1 }.dispose [.toOs rx.pRxPacket, .toOs s.nextPacket]
    else s.dispose [.release rx.pRxPacket]
  else s.dispose [.release rx.pRxPacket]

/-! ### Data frames -/

def staRxDataFrameAnnounce (s : Adapter) (w : World) (rx : RxBlk) : Adapter :=
  if ¬ rtmpCheckWPAframe rx.pkt then
    if ¬ s.ba.cfg.mediaStateConnected then s.dispose [.release rx.pRxPacket]
    else if wep rx.pkt.frame ∧ s.cfg.encryptionDisabled then s.dispose [.release rx.pRxPacket]
    else if ¬ wep rx.pkt.frame ∧ ¬ s.cfg.encryptionDisabled ∧ s.cfg.portNotSecured then
      s.dispose [.release rx.pRxPacket]
    else if ¬ rx.fRxAralink then cmmRxnonRalinkFrameIndicate s w rx
    else cmmRxRalinkFrameIndicate s w rx
  else if rx.fRxAmpdu ∧ ¬ s.cfg.bDisableReordering then indicateAmpduPacket s w rx true
  else staRxEAPOLFrameIndicate s w rx

/-- `RTMPDeFragmentDataFrame`: the ring packet is released in any case; a packet that is complete leaves
in the fragment buffer, and the new buffer takes its place. -/
def deFragment (s : Adapter) (w : World) (rx : RxBlk) : Adapter × Option (ℕ × Packet) :=
  let r := rtmpDeFragmentDataFrame s.fragFrame
    ⟨{ rx.pkt with
        sequence := sequence rx.pkt.frame, frag := frag rx.pkt.frame, moreFrag := moreFrag rx.pkt.frame },
      w.newFragPacket⟩
  let s' := { s.dispose [.release rx.pRxPacket] with fragFrame := r.1 }
  match r.2 with
  | some pkt => ({ s' with pFragPacket := s.nextPacket, nextPacket := s.nextPacket + 1 },
      some (s.pFragPacket, pkt))
  | none => (s', none)

def isFragment (m : ℕ → Byte) : Bool := !(frag m == 0 && !moreFrag m)

/-- `STACheckTkipMICValue` and `STARxDataFrameAnnounce` for a reassembled packet. What is read of the
RXWI from here on is read from the packet that has been released. -/
def announceReassembled (s : Adapter) (w : World) (rx : RxBlk) (decrypted : Bool) (p : ℕ × Packet) :
    Adapter :=
  let rx := { rx with pRxPacket := p.1, pkt := p.2, rxWI := w.staleRxWI }
  if decrypted ∧ s.cfg.tkip rx.rxWI.wirelessCliID then
    if w.micEqual then
      staRxDataFrameAnnounce s w { rx with pkt := { rx.pkt with dataSize := rx.pkt.dataSize - 8 } }
    else s.dispose [.release rx.pRxPacket]
  else staRxDataFrameAnnounce s w rx

/-- "update RxBlk->pData, DataSize" of `STAHandleRxDataFrame`, in its order: header, QoS control, HTC
control and padding. -/
def dataRxBlk (cfg : Settings) (pRxPacket : ℕ) (rx : RxPacket) : RxBlk :=
  let m := rx.header
  let qos := (subType m).getLsbD 3
  let aralink := order m && (decide ((rx.rxWI.phyMode : ℕ) ≤ 1) && cfg.aggregationInUsed)
  let htc := order m && !aralink
  { pRxPacket := pRxPacket
    pkt :=
      { frame := m
        headerRoom := 24 + (if qos then 2 else 0) + (if htc then 4 else 0) + (if rx.rxInfo.l2Pad then 2 else 0)
        dataSize := rx.rxWI.mpduByteCnt.setWidth 16 - 24 - (if qos then 2 else 0) - (if htc then 4 else 0) }
    rxWI := rx.rxWI
    fRxAmsdu := qos && (m 24).getLsbD 7
    fRxAmpdu := rx.rxInfo.ba
    fRxAralink := aralink }

def staHandleRxDataFrame (s : Adapter) (w : World) (pRxPacket : ℕ) (rx : RxPacket) : Adapter :=
  let m := rx.header
  let blk := dataRxBlk s.cfg pRxPacket rx
  if frDs m ∧ toDs m then s.dispose [.release pRxPacket]
  else if ¬ rx.rxInfo.myBss then s.dispose [.release pRxPacket]
  -- bit 2 of the subtype: no data
  else if (subType m).getLsbD 2 then s.dispose [.release pRxPacket]
  else if s.cfg.bssInfra ∧ addr2 m ≠ s.cfg.mlmeBssid then s.dispose [.release pRxPacket]
  else if ¬ s.cfg.bssInfra ∧ addr3 m ≠ s.cfg.bssid then s.dispose [.release pRxPacket]
  else if 32 ≤ (rx.rxWI.wirelessCliID : ℕ) then s.dispose [.release pRxPacket]
  else if rx.rxInfo.bcast ∨ rx.rxInfo.mcast then
    if moreFrag m then s.dispose [.release pRxPacket]
    else if frDs m ∧ addr3 m = s.cfg.currentAddress then s.dispose [.release pRxPacket]
    else indicateLegacyPacket s w blk
  else if rx.rxInfo.u2M then
    if isFragment m then
      match deFragment s w blk with
      | (s, some p) => announceReassembled s w blk rx.rxInfo.decrypted p
      | (s, none) => s
    else staRxDataFrameAnnounce s w blk
  else s.dispose [.release pRxPacket]

/-! ### The other frames -/

def staHandleRxMgmtFrame (s : Adapter) (pRxPacket : ℕ) (rx : RxPacket) : Adapter :=
  if 1600 < rx.rxWI.mpduByteCnt.toNat then s.dispose [.release pRxPacket]
  else s.dispose [.report pRxPacket, .release pRxPacket]

/-- `CntlEnqueueForRecv` on the block-ack request at `m`, whose TID has four bits. -/
def enqueueBar (ba : RtmpAdapter) (rxWI : RxWi) (m : ℕ → Byte) : RtmpAdapter :=
  let tid : BitVec 4 := (m 17).extractLsb' 4 4
  let startSeq : BitVec 12 := m 19 ++ (m 18).extractLsb' 4 4
  if h : tid.toNat < 8 then
    cntlEnqueueForRecv ba rxWI.wirelessCliID rxWI.mpduByteCnt.toNat ⟨tid.toNat, h⟩ startSeq.toFin
  else ba

def staHandleRxControlFrame (s : Adapter) (w : World) (pRxPacket : ℕ) (rx : RxPacket) : Adapter :=
  -- `SUBTYPE_BLOCK_ACK_REQ`
  if subType rx.header = 8 then
    (settle s w (fun p => [.toOs p]) (enqueueBar s.ba rx.rxWI rx.header)).dispose [.release pRxPacket]
  else s.dispose [.release pRxPacket]

/-- `STA_MonPktSend` and `send_monitor_packets`; the monitor header has 144 bytes. -/
def staMonPktSend (s : Adapter) (w : World) (pRxPacket : ℕ) (rx : RxPacket) : Adapter :=
  if rx.rxWI.mpduByteCnt.toNat < 10 then s.dispose [.release pRxPacket]
  else if 3840 < rx.rxWI.mpduByteCnt.toNat + 144 then s.dispose [.release pRxPacket]
  else if w.expanded then s.dispose [.toOs pRxPacket]
  else s.dispose [.release pRxPacket]

/-- `RTMPCheckRxError`: the frame passes. -/
def rtmpCheckRxError (s : Adapter) (rx : RxPacket) : Bool :=
  !rx.rxInfo.crc && !toDs rx.header && decide (rx.rxWI.mpduByteCnt.toNat ≤ 3840) &&
    (!(rx.rxInfo.decrypted && rx.rxInfo.cipherErr != 0) ||
      s.cfg.cipherAes rx.rxWI.keyIndex && sequence rx.header == s.fragFrame.sequence)

/-! ### The loop -/

/-- The body of the loop of `STARxDoneInterruptHandle`, for a packet. -/
def handlePacket (s : Adapter) (w : World) (pRxPacket : ℕ) (rx : RxPacket) : Adapter :=
  if rx.infoType ≠ 0 ∨ ¬ rx.pkt80211 then s.dispose [.release pRxPacket]
  else if rx.rxWI.mpduByteCnt.toNat < 14 then s.dispose [.release pRxPacket]
  else if s.ba.cfg.monitorOn then staMonPktSend s w pRxPacket rx
  else if rtmpCheckRxError s rx then
    match (fcType rx.header).toNat with
    | 2 => staHandleRxDataFrame s w pRxPacket rx
    | 0 => staHandleRxMgmtFrame s pRxPacket rx
    | 1 => staHandleRxControlFrame s w pRxPacket rx
    | _ => s.dispose [.release pRxPacket]
  else s.dispose [.release pRxPacket]

structure Flags where
  radioOff : Bool
  resetInProgress : Bool
  haltInProgress : Bool
  nicNotExist : Bool
  startUp : Bool
  pollIdle : Bool

def Flags.stop (f : Flags) : Bool :=
  (f.radioOff || f.resetInProgress || f.haltInProgress || f.nicNotExist || !f.startUp) && !f.pollIdle

/-- What `GetPacketFromRxRing` finds: a command response, or a frame for which it allocates a packet. -/
inductive RingEntry
  | cmdRsp
  | packet (rx : RxPacket) (w : World)

/-- The loop of `STARxDoneInterruptHandle` over what is in the ring. -/
def staRxDoneInterruptHandle : List (Flags × RingEntry) → Adapter → Adapter
  | [], s => s
  | (flags, entry) :: ring, s =>
    if flags.stop then s
    else
      match entry with
      | .cmdRsp => staRxDoneInterruptHandle ring s
      | .packet rx w => staRxDoneInterruptHandle ring
          (handlePacket { s with nextPacket := s.nextPacket + 1 } w s.nextPacket rx)

/-! ### The system -/

inductive Op
  | staRxDoneInterruptHandle (ring : List (Flags × RingEntry))
  /-- Any other block-ack code: received action frames, timers, sessions that are set up or torn down. -/
  | blockAck (op : Tables.Op) (w : World)
      (own : ∀ rx now32 legacyNow32, op ≠ .indicateAmpduPacket rx now32 legacyNow32)
  /-- A setting changes. -/
  | configure (cfg : Settings)

def step (s : Adapter) : Op → Adapter
  | .staRxDoneInterruptHandle ring => RxPath.staRxDoneInterruptHandle ring s
  | .blockAck op w _ => settle s w (fun p => [.toOs p]) (Tables.step s.ba op)
  | .configure cfg => { s with cfg := cfg }

def init (cfg : Settings) (ba : Config) (num : ℕ) (attrs : Fin 32 → MacTableEntry) (m : ℕ → Byte) :
    Adapter where
  cfg := cfg
  ba := initAdapter ba num attrs
  pFragPacket := 0
  fragFrame := .init m
  contents := fun _ => ⟨m, 0, 0⟩
  nextPacket := 1
  disposals := []

end Mt7610u.Data.RxPath
