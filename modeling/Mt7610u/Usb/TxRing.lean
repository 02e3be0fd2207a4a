import Mt7610u.Lib.Bytes
import Mt7610u.Lib.Runs

/-! # The bulk-out ring of a data queue

Packets for one data queue are written behind each other into one buffer, each with a TXINFO word in
front, and sent from there by URBs that take as many packets as are ready. Writers give the lock back
while they copy, so the bulk-out routine runs between their steps; when it ends at a packet that is still
being written, it keeps the first eight bytes of that packet aside and puts zeros there. -/

namespace Mt7610u.Usb

open Lib Lib.Runs

def localTxbufSize : ℕ := 2048

/-- `MAX_TXBULK_LIMIT`, that is `LOCAL_TXBUF_SIZE * (BULKAGGRE_SIZE - 1)`. -/
def maxTxbulkLimit : ℕ := 120832

/-- `MAX_TXBULK_SIZE`, that is `LOCAL_TXBUF_SIZE * BULKAGGRE_SIZE`. -/
def maxTxbulkSize : ℕ := 122880

/-! ### TXINFO and TXWI -/

/-- The third byte of the TXINFO word: `next_vld`, `tx_burst`, `rsv0` (the driver's `SwLstRnd`) and
`pkt_80211`, which is always set. -/
def infoFlags (nextVld txBurst swLstRnd : Bool) : Byte :=
  BitVec.ofNat 8 (nextVld.toNat + 2 * txBurst.toNat + 4 * swLstRnd.toNat + 8)

/-- What `rlt_usb_write_txinfo` writes for the EDCA queues, with the burst and last-round bits as they
are set afterwards. -/
def txInfo (pktLen : ℕ) (nextVld txBurst swLstRnd : Bool) : List Byte :=
  [BitVec.ofNat 8 pktLen, BitVec.ofNat 8 (pktLen / 256), infoFlags nextVld txBurst swLstRnd, 0x04#8]

/-- `TxInfoPktLen` of the TXINFO at `p`. -/
def pktLenAt (m : ℕ → Byte) (p : ℕ) : ℕ := (m p).toNat + 256 * (m (p + 1)).toNat

/-- `TxInfoUDMANextVld = b`. -/
def setNextVld (m : ℕ → Byte) (p : ℕ) (b : Bool) : ℕ → Byte :=
  copy m (p + 2) [if b then m (p + 2) ||| 0x01#8 else m (p + 2) &&& 0xfe#8]

/-- `TxInfoSwLstRnd = b`. -/
def setSwLstRnd (m : ℕ → Byte) (p : ℕ) (b : Bool) : ℕ → Byte :=
  copy m (p + 2) [if b then m (p + 2) ||| 0x04#8 else m (p + 2) &&& 0xfb#8]

/-- `TxInfoSwLstRnd`. -/
def swLstRndAt (m : ℕ → Byte) (p : ℕ) : Bool := (m (p + 2)).getLsbD 2

/-- `TxInfoQSEL = FIFO_EDCA`. -/
def setQsel (m : ℕ → Byte) (p : ℕ) : ℕ → Byte := copy m (p + 3) [m (p + 3) &&& 0xf9#8 ||| 0x04#8]

/-- Whether `TxWIPHYMODE`, the upper three bits of the fourth byte of the TXWI, is `MODE_CCK`. -/
def isCckAt (m : ℕ → Byte) (p : ℕ) : Bool := (m (p + 7)).toNat / 32 == 0

/-- The two bytes of the TXWI with `TxWIMPDUByteCnt`; the upper two bits of the second are `old`'s. -/
def mpduByteCnt (n : ℕ) (old : Byte) : List Byte :=
  [BitVec.ofNat 8 n, old &&& 0xc0#8 ||| BitVec.ofNat 8 (n / 256) &&& 0x3f#8]

/-! ### Packets -/

/-- `(4 - len % 4) & 3`. -/
def padding (len : ℕ) : ℕ := (4 - len % 4) % 4

def padded (bs : List Byte) : List Byte := bs ++ List.replicate (padding bs.length) 0#8

structure Packet where
  txBurst : Bool
  body : List Byte
  deriving DecidableEq

def Packet.bytes (p : Packet) (nextVld swLstRnd : Bool) : List Byte :=
  txInfo p.body.length nextVld p.txBurst swLstRnd ++ p.body

/-- One frame of a `TX_BLK`: the header buffer behind the TXINFO, which begins with the TXWI, and the
payload. -/
structure Frame where
  header : List Byte
  src : List Byte
  le_header : 20 ≤ header.length

/-- `DMAHdrLen + SrcBufLen`, rounded up. -/
def Frame.dmaLen (f : Frame) : ℕ := (padded (f.header ++ f.src)).length

def trainPackets : List Frame → List Packet
  | [] => []
  | f :: fs => ⟨!fs.isEmpty, padded (f.header ++ f.src)⟩ :: trainPackets fs

/-- What a writer is given. An aggregate has, behind its first frame, the headers and payloads of the
others, and the `totalMPDUSize` of `RtmpUSB_FinalWriteTxResource`. -/
inductive TxBlk
  | single (f : Frame)
  | frag (f : Frame) (fs : List Frame)
  | multi (f : Frame) (subs : List (List Byte × List Byte)) (totalMPDUSize : ℕ)

def subBytes : List (List Byte × List Byte) → List Byte
  | [] => []
  | (hdr, src) :: subs => hdr ++ src ++ subBytes subs

def multiBytes (f : Frame) (subs : List (List Byte × List Byte)) : List Byte := f.header ++ f.src ++ subBytes subs

/-- The bytes from the TXWI on with `TxWIMPDUByteCnt` filled in. -/
def withMpduByteCnt (n : ℕ) (bs : List Byte) : List Byte := bs.take 6 ++ (mpduByteCnt n (mem bs 7) ++ bs.drop 8)

namespace TxBlk

def packets : TxBlk → List Packet
  | single f => trainPackets [f]
  | frag f fs => trainPackets (f :: fs)
  | multi f subs n => [⟨false, padded (withMpduByteCnt n (multiBytes f subs))⟩]

/-- `totalMPDUSize`; only an aggregate has one. -/
def totalMPDUSize : TxBlk → ℕ
  | multi _ _ n => n
  | _ => 0

end TxBlk

/-! ### The ring and the contexts that work on it -/

inductive Pc
  /-- The payload of a fragment is to be copied; `fs` are the fragments behind it. -/
  | payload (f : Frame) (fs : List Frame)
  /-- The padding behind the payload is to be cleared. -/
  | clear (f : Frame) (fs : List Frame)
  /-- The next fragment is to be begun. -/
  | header (f : Frame) (fs : List Frame)
  /-- The last section of `RtmpUSB_WriteSingleTxResource` and `RtmpUSB_WriteFragTxResource`. -/
  | finish
  /-- The payload of a frame of an aggregate is to be copied. -/
  | frame (src : List Byte) (subs : List (List Byte × List Byte))
  /-- The next frame of an aggregate is to be begun. -/
  | sub (hdr src : List Byte) (subs : List (List Byte × List Byte))
  /-- `RtmpUSB_FinalWriteTxResource`. -/
  | final

/-- Behind a fragment, with `fs` still to come. -/
def Pc.afterFragment : List Frame → Pc
  | [] => .finish
  | f :: fs => .header f fs

def Pc.afterFrame : List (List Byte × List Byte) → Pc
  | [] => .final
  | (hdr, src) :: subs => .sub hdr src subs

/-- A writer in its work: `priv` is `pTxBlk->Priv`, `pos` is `pWirelessPacket` as an offset into the
buffer. -/
structure Writer where
  blk : TxBlk
  pc : Pc
  priv : ℕ
  pos : ℕ
  lastRound : Bool

/-- Where the bulk-out routine stands. `BulkOutPending` is set except when it is `idle`. -/
inductive Bulk
  | idle
  | claimed
  | prepared
  | inFlight
  deriving DecidableEq

/-- A store of a writer: into the ring or into `SavedPad`, with the cursors it happened at. -/
structure Store where
  inRing : Bool
  pos : ℕ
  len : ℕ
  curWrite : ℕ
  nextBulkOut : ℕ
  deriving DecidableEq

/-- `HT_TX_CONTEXT` with the flags of the adapter that the bulk-out reads, and the writer and the
bulk-out in their work. `savedPad` has eight bytes; what lies behind it in the record is part of it here.
The last fields record what happened. -/
structure State where
  wirelessPacket : ℕ → Byte
  savedPad : ℕ → Byte
  bCopySavePad : Bool
  bCurWriting : Bool
  curWrite : ℕ
  curWriteReal : ℕ
  nextBulkOut : ℕ
  eNextBulkOut : ℕ
  bulkOutSize : ℕ
  /-- The request that `RTUSBFreeDescRequest` granted last. -/
  granted : Option ℕ
  writer : Option Writer
  bulk : Bulk
  /-- `fRTMP_ADAPTER_BULKOUT_RESET`. -/
  bulkoutReset : Bool
  /-- `bulkResetPipeid` is this queue. -/
  resetHere : Bool
  /-- One of `RESET_IN_PROGRESS`, `HALT_IN_PROGRESS` and `NIC_NOT_EXIST`. -/
  halted : Bool
  /-- One of `RADIO_OFF` and `REMOVE_IN_PROGRESS`. -/
  radioOff : Bool
  /-- The packets that writers have finished. -/
  written : List Packet
  /-- The bytes handed to USB by each successful submission. -/
  submitted : List (List Byte)
  /-- The ranges, as offset and size, that the bulk-out routine has made ready. -/
  built : List (ℕ × ℕ)
  /-- The ranges whose URB completed without an error, by their place in `built`. -/
  transferred : List ℕ
  /-- The stores of the writers, the last one first. -/
  stores : List Store

/-- The queue after `NICInitTransmit`. -/
def State.init : State where
  wirelessPacket := fun _ => 0#8
  savedPad := fun _ => 0#8
  bCopySavePad := false
  bCurWriting := false
  curWrite := 0
  curWriteReal := 0
  nextBulkOut := 0
  eNextBulkOut := 0
  bulkOutSize := 0
  granted := none
  writer := none
  bulk := .idle
  bulkoutReset := false
  resetHere := false
  halted := false
  radioOff := false
  written := []
  submitted := []
  built := []
  transferred := []
  stores := []

/-! ### Admission -/

def rtusbFreeDescRequest (s : State) (req : ℕ) : Bool :=
  if s.curWrite < s.nextBulkOut ∧ s.nextBulkOut < s.curWrite + req + localTxbufSize then false
  else if s.curWrite = 8 ∧ s.nextBulkOut < req + localTxbufSize then false
  else !s.bCurWriting

def rtmpUSBCanDoWrite (s : State) : Bool :=
  if s.curWrite < s.nextBulkOut ∧ s.nextBulkOut < s.curWrite + localTxbufSize then false
  else if s.curWrite = 8 ∧ s.nextBulkOut < localTxbufSize then false
  else if s.bCurWriting then false
  else if s.eNextBulkOut = 8 ∧ maxTxbulkLimit < s.curWrite + 7912 then false
  else true

/-! ### Writing -/

/-- `NdisMoveMemory` or `NdisZeroMemory` of a writer into the ring. -/
def State.store (s : State) (pos : ℕ) (bs : List Byte) : State :=
  { s with
    wirelessPacket := copy s.wirelessPacket pos bs
    stores := ⟨true, pos, bs.length, s.curWrite, s.nextBulkOut⟩ :: s.stores }

/-- A store of a writer into `SavedPad`. -/
def State.storePad (s : State) (pos : ℕ) (bs : List Byte) : State :=
  { s with
    savedPad := copy s.savedPad pos bs
    stores := ⟨false, pos, bs.length, s.curWrite, s.nextBulkOut⟩ :: s.stores }

/-- `bCurWriting = TRUE`, and eight bytes left free when the ring is empty: the URB that sent its last
packet still reads the bytes behind it. -/
def State.reserve (s : State) : State :=
  if s.eNextBulkOut = s.curWrite then
    { s with
      bCurWriting := true
      eNextBulkOut := s.eNextBulkOut + 8
      curWrite := s.curWrite + 8
      curWriteReal := s.curWrite + 8 }
  else { s with bCurWriting := true, curWriteReal := s.curWrite }

/-- The locked part for one fragment, from `pTxBlk->Priv += ..` on. -/
def writeHeader (s : State) (blk : TxBlk) (priv : ℕ) (f : Frame) (fs : List Frame) : State :=
  let fillOffset := s.curWrite + priv
  let hdrLen := 4 + f.header.length
  let lastRound := fs.isEmpty && decide (maxTxbulkLimit < s.curWrite + (priv + 4 + f.dmaLen) + 3906)
  { s.store fillOffset (txInfo f.dmaLen false (!fs.isEmpty) lastRound ++ f.header) with
    curWriteReal := s.curWriteReal + hdrLen
    writer := some ⟨blk, .payload f fs, priv + 4 + f.dmaLen, fillOffset + hdrLen, lastRound⟩ }

/-- The first section of `RtmpUSB_WriteSingleTxResource`. -/
def rtmpUSBWriteSingleTxResource (s : State) (f : Frame) : State := writeHeader s (.single f) 0 f []

/-- The first section of `RtmpUSB_WriteFragTxResource` for fragment 0. -/
def rtmpUSBWriteFragTxResource (s : State) (f : Frame) (fs : List Frame) : State :=
  writeHeader s (.frag f fs) 0 f fs

/-- The first section of `RtmpUSB_WriteMultiTxResource` for frame 0. The length in the TXINFO is
corrected by `RtmpUSB_FinalWriteTxResource`. -/
def rtmpUSBWriteMultiTxResource (s : State) (f : Frame) (subs : List (List Byte × List Byte))
    (n : ℕ) : State :=
  let priv := 4 + f.header.length
  { s.store s.curWrite (txInfo priv false false false ++ f.header) with
    curWriteReal := s.curWriteReal + priv
    writer := some ⟨.multi f subs n, .frame f.src subs, priv, s.curWrite + priv, false⟩ }

/-- A `TX_BLK` is given to its writer. One that cannot be written is released. -/
def start (s : State) (blk : TxBlk) : State :=
  if rtmpUSBCanDoWrite s then
    match blk with
    | .single f => rtmpUSBWriteSingleTxResource s.reserve f
    | .frag f fs => rtmpUSBWriteFragTxResource s.reserve f fs
    | .multi f subs n => rtmpUSBWriteMultiTxResource s.reserve f subs n
  else s

/-- The last section of a writer: the packets are complete at `curWrite`, which is now at `cw`. -/
def State.finish (s : State) (blk : TxBlk) (cw : ℕ) : State :=
  { s with
    curWrite := cw
    curWriteReal := cw
    bCurWriting := false
    writer := none
    written := s.written ++ blk.packets }

/-- The first bytes of the packet being written are in `SavedPad`. -/
def PadHolds (s : State) : Prop :=
  (s.eNextBulkOut = s.curWrite ∨ s.eNextBulkOut = s.curWrite + 8) ∧ s.bCopySavePad = true

instance (s : State) : Decidable (PadHolds s) := inferInstanceAs (Decidable (_ ∧ _))

def rtmpUSBFinalWriteTxResource (s : State) (w : Writer) (totalMPDUSize : ℕ) : State :=
  let pad := padding (w.priv - 4)
  let len := w.priv - 4 + pad
  let cw := s.curWrite + (4 + len)
  let lastRound := decide (maxTxbulkLimit < cw + 3906)
  let info := fun (m : ℕ → Byte) (p : ℕ) =>
    [BitVec.ofNat 8 len, BitVec.ofNat 8 (len / 256),
      if lastRound then m (p + 2) ||| 0x04#8 else m (p + 2)]
  let s' :=
    if PadHolds s then
      -- `pTxWI` is ten bytes into `SavedPad`, which has eight
      (s.storePad 0 (info s.savedPad 0)).storePad 10 (mpduByteCnt totalMPDUSize (s.savedPad 11))
    else
      (s.store s.curWrite (info s.wirelessPacket s.curWrite)).store (s.curWrite + 10)
        (mpduByteCnt totalMPDUSize (s.wirelessPacket (s.curWrite + 11)))
  (s'.store (s.curWrite + w.priv) (List.replicate (pad + 8) 0#8)).finish w.blk
    (if lastRound then 8 else cw)

/-- The writer is at `RtmpUSB_FinalWriteTxResource`. -/
def State.atFinal (s : State) : Bool :=
  match s.writer with
  | some ⟨_, .final, _, _, _⟩ => true
  | _ => false

def write (s : State) (w : Writer) : State :=
  match w.pc with
  | .payload f fs =>
    { s.store w.pos f.src with
      writer := some { w with pc := .clear f fs, pos := w.pos + f.src.length } }
  | .clear f fs =>
    { s.store w.pos (List.replicate (padding (f.header ++ f.src).length + 8) 0#8) with
      writer := some { w with pc := .afterFragment fs } }
  | .header f fs =>
    if s.bCurWriting then writeHeader s w.blk w.priv f fs else { s with writer := none }
  | .finish => s.finish w.blk (if w.lastRound then 8 else s.curWrite + w.priv)
  | .frame src subs =>
    { s.store w.pos src with
      writer := some { w with priv := w.priv + src.length, pc := .afterFrame subs } }
  | .sub hdr src subs =>
    if s.bCurWriting then
      { s.store (s.curWrite + w.priv) hdr with
        writer := some { w with
          priv := w.priv + hdr.length
          pos := s.curWrite + w.priv + hdr.length
          pc := .frame src subs } }
    else { s with writer := none }
  | .final =>
    if s.bCurWriting then rtmpUSBFinalWriteTxResource s w w.blk.totalMPDUSize
    else { s with writer := none }

/-! ### Bulk-out -/

/-- The size at which `RTUSBBulkOutDataPacket` takes no further packet. -/
def overLimit (maxPacketSize thisBulkSize : ℕ) (cck : Bool) : Bool :=
  if thisBulkSize ≠ 0 ∧ cck then
    thisBulkSize &&& 0xffff8000 ≠ 0 ∨ thisBulkSize &&& 0x1000 = 0x1000 ∨
      maxPacketSize < 512 ∧ thisBulkSize &&& 0xfffff800 ≠ 0
  else
    thisBulkSize &&& 0xfffe0000 ≠ 0 ∨ thisBulkSize &&& 0x10000 = 0x10000 ∨
      maxPacketSize < 512 ∧ thisBulkSize &&& 0xfffff800 ≠ 0

/-- How the loop of `RTUSBBulkOutDataPacket` ends: the buffer, `TmpBulkEndPos`, `ThisBulkSize`,
`pLastTxInfo` and `bTxQLastRound`; `failed` when it met a packet of no length and returns. -/
structure BulkExit where
  mem : ℕ → Byte
  tmpBulkEndPos : ℕ
  thisBulkSize : ℕ
  lastTxInfo : Option ℕ
  lastRound : Bool
  failed : Bool

/-- The loop of `RTUSBBulkOutDataPacket`. Every turn adds more than eight bytes, and the loop ends when
there are 65536, so that as many turns are enough. -/
def bulkLoop (maxPacketSize cw : ℕ) : ℕ → (ℕ → Byte) → ℕ → ℕ → Option ℕ → BulkExit
  | 0, m, tmp, size, last => ⟨m, tmp, size, last, false, false⟩
  | fuel + 1, m, tmp, size, last =>
    if overLimit maxPacketSize size (isCckAt m tmp) = true ∨ tmp = cw then
      ⟨m, tmp, size, last, false, false⟩
    else
      let len := pktLenAt m tmp
      if len ≤ 8 then ⟨m, tmp, size, last, false, true⟩
      else
        let m := setQsel m tmp
        let m := if tmp + (len + 4) ≠ cw then setNextVld m tmp true else m
        if swLstRndAt m tmp then
          let m := if cw = 8 then setNextVld m tmp false else m
          ⟨setSwLstRnd m tmp false, tmp + (len + 4), size + (len + 4), some tmp, true, false⟩
        else bulkLoop maxPacketSize cw fuel m (tmp + (len + 4)) (size + (len + 4)) (some tmp)

/-- The buffer with the bytes of `SavedPad` back in their place. -/
def State.restored (s : State) : ℕ → Byte :=
  if s.bCopySavePad then copy s.wirelessPacket s.eNextBulkOut (read s.savedPad 8) else s.wirelessPacket

/-- `pLastTxInfo->TxInfoUDMANextVld = 0`, if there is one. -/
def clearLastVld (m : ℕ → Byte) : Option ℕ → ℕ → Byte
  | some p => setNextVld m p false
  | none => m

/-- `RTUSBBulkOutDataPacket` behind its loop. -/
def bulkReady (s : State) (r : BulkExit) : State :=
  let m := clearLastVld r.mem r.lastTxInfo
  let e := if r.lastRound then 8 else r.tmpBulkEndPos
  let keep := !r.lastRound && (decide (e = s.curWrite ∧ s.curWrite < s.curWriteReal) ||
    decide (e ≠ s.curWrite))
  { s with
    nextBulkOut := s.eNextBulkOut
    eNextBulkOut := e
    savedPad := if keep then copy s.savedPad 0 (readAt m e 8) else s.savedPad
    bCopySavePad := keep
    wirelessPacket := copy m r.tmpBulkEndPos (List.replicate 8 0#8)
    bulkOutSize := r.thisBulkSize + 4
    bulk := .prepared
    built := s.built ++ [(s.eNextBulkOut, r.thisBulkSize + 4)] }

/-- The section of `RTUSBBulkOutDataPacket` under `TxContextQueueLock`. -/
def rtusbBulkOutDataPacket (maxPacketSize : ℕ) (s : State) : State :=
  if s.eNextBulkOut = s.curWrite ∨ s.eNextBulkOut = s.curWrite + 8 then { s with bulk := .idle }
  else
    let r := bulkLoop maxPacketSize s.curWrite 65536 s.restored s.eNextBulkOut 0 none
    if r.failed then
      { s with
        nextBulkOut := s.eNextBulkOut
        wirelessPacket := r.mem
        bCopySavePad := false
        bulk := .idle }
    else bulkReady s r

def State.needStopTx (s : State) : Bool := s.bulkoutReset || s.halted || s.radioOff

def rtusbDataoutComplete (s : State) (noError : Bool) : State :=
  if noError then
    { s with bulk := .idle, transferred := s.transferred ++ [s.built.length - 1] }
  else if s.halted || s.bulkoutReset then { s with bulk := .idle }
  else { s with bulk := .idle, bulkoutReset := true, resetHere := true }

/-- `ResetBulkOutHdlr` for this queue, up to the submission. -/
def resetBulkOutHdlr (s : State) : State :=
  if s.bulk = .idle then { s with bulkoutReset := false, bulk := .prepared }
  else { s with bulkoutReset := false }

/-! ### Steps -/

/-- The sections between two releases of a lock, and what the rest of the adapter does to its flags. -/
inductive Op
  /-- `RTUSBFreeDescRequest`, called by `RTMPDeQueuePacket` for each packet it takes out; an aggregate is
  sent with the last request that was granted. -/
  | freeDesc (req : ℕ)
  /-- The first section of a writer. -/
  | start (blk : TxBlk)
  /-- The next section of the writer. -/
  | write
  /-- The section of `RTUSBBulkOutDataPacket` under `BulkOutLock`. -/
  | claim (connected : Bool)
  /-- Its section under `TxContextQueueLock`. -/
  | build
  /-- `RTUSB_SUBMIT_URB`. -/
  | submit (ok : Bool)
  /-- The URB completes. -/
  | complete (noError : Bool)
  /-- `ResetBulkOutHdlr`. Every completion that finds the flag set queues one, so that it can run more
  than once and after the flag was cleared. -/
  | reset
  /-- A URB of another queue completes with an error. -/
  | otherReset
  /-- `ResetBulkOutHdlr` for another queue. -/
  | otherDone
  /-- The other flags of the adapter change. -/
  | adapter (halted radioOff : Bool)

def step (maxPacketSize : ℕ) (s : State) : Op → State
  | .freeDesc req => if rtusbFreeDescRequest s req then { s with granted := some req } else s
  | .start blk =>
    -- `RTMPDeQueuePacket` takes a packet out only with a granted request
    if s.writer.isNone ∧ s.granted.isSome then start { s with granted := none } blk else s
  | .write =>
    match s.writer with
    | none => s
    | some w => write s w
  | .claim connected =>
    if s.bulk = .idle ∧ s.needStopTx = false ∧ connected then { s with bulk := .claimed } else s
  | .build => if s.bulk = .claimed then rtusbBulkOutDataPacket maxPacketSize s else s
  | .submit ok =>
    if s.bulk = .prepared then
      if ok then
        { s with
          bulk := .inFlight
          submitted := s.submitted ++ [readAt s.wirelessPacket s.nextBulkOut s.bulkOutSize] }
      else { s with bulk := .idle }
    else s
  | .complete noError => if s.bulk = .inFlight then rtusbDataoutComplete s noError else s
  | .reset => if s.resetHere then resetBulkOutHdlr s else s
  | .otherReset =>
    if s.halted || s.bulkoutReset then s else { s with bulkoutReset := true, resetHere := false }
  | .otherDone => if s.bulkoutReset ∧ ¬s.resetHere then { s with bulkoutReset := false } else s
  | .adapter halted radioOff => { s with halted := halted, radioOff := radioOff }

end Mt7610u.Usb
