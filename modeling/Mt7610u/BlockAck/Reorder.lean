import Mathlib.Data.Fin.Basic
import Mathlib.Data.List.Basic

/-! # The A-MPDU reordering engine (`common/ba_action.c`)

One recipient block-ack entry, the pool of reordering blocks it shares with the other entries, and
the functions that move blocks and packets between them, as the source computes them.

Passing a packet up, releasing it and resetting `LastIndSeq` are recorded as events. -/

namespace Mt7610u.BlockAck.Reorder

/-! ### Index ranges

Traffic classes, stations, table entries, octets and sequence numbers all start at `0`. -/

scoped instance neZero_tid : @NeZero ℕ Zero.ofOfNat0 8 := ⟨by decide⟩

scoped instance neZero_wcid : @NeZero ℕ Zero.ofOfNat0 32 := ⟨by decide⟩

scoped instance neZero_entry : @NeZero ℕ Zero.ofOfNat0 128 := ⟨by decide⟩

scoped instance neZero_octet : @NeZero ℕ Zero.ofOfNat0 256 := ⟨by decide⟩

scoped instance neZero_seq : @NeZero ℕ Zero.ofOfNat0 4096 := ⟨by decide⟩

/-! ### Sequence numbers and time -/

def maxSeq : ℕ := 0xFFF

/-- `RESET_RCV_SEQ`, the value of `LastIndSeq` before the first frame of a session. -/
def resetRcvSeq : ℕ := 0xFFFF

def seqStepone (seq1 seq2 : ℕ) : Bool := seq1 == (seq2 + 1) &&& maxSeq

/-- `SEQ_SMALLER(_SEQ1, _SEQ2, MAXSEQ)`: the bit `(MAXSEQ+1)>>1` of the difference. -/
def seqSmaller (seq1 seq2 : ℕ) : Bool :=
  (BitVec.ofNat 32 seq1 - BitVec.ofNat 32 seq2) &&& BitVec.ofNat 32 ((maxSeq + 1) >>> 1) != 0#32

def seqLarger (seq1 seq2 : ℕ) : Bool := seq1 != seq2 && !seqSmaller seq1 seq2

/-- System ticks, an `unsigned long` that wraps. -/
abbrev Tick := BitVec 64

/-- `RTMP_TIME_AFTER(a, b)`: `(long)b - (long)a < 0`. -/
def rtmpTimeAfter (a b : Tick) : Bool := (b - a).msb

/-- `REORDERING_PACKET_TIMEOUT` for `OS_HZ` ticks a second. -/
def reorderingPacketTimeout (osHz : ℕ) : Tick := BitVec.ofNat 64 (100 * osHz / 1000)

/-- `MAX_REORDERING_PACKET_TIMEOUT/6`, after which everything is flushed. -/
def flushAllTimeout (osHz : ℕ) : Tick := BitVec.ofNat 64 (3000 * osHz / 1000 / 6)

/-! ### Blocks and lists -/

/-- `struct reordering_mpdu`. `addr` is the place of the block in `mpdu_blk_pool.mem`. -/
structure ReorderingMpdu where
  addr : ℕ
  pPacket : ℕ
  sequence : Fin 4096
  bAMSDU : Bool
  opMode : ℕ
deriving DecidableEq, Repr

/-- `struct reordering_list`: the blocks reachable from `next`, and the counter `qlen`. -/
structure ReorderingList where
  next : List ReorderingMpdu
  qlen : ℕ
deriving DecidableEq, Repr

/-- The scan of `ba_reordering_mpdu_insertsorted`; `none` for a frame already listed. -/
def insertsortedScan (mpdu : ReorderingMpdu) : List ReorderingMpdu → Option (List ReorderingMpdu)
  | [] => some [mpdu]
  | scan :: rest =>
    if seqSmaller scan.sequence mpdu.sequence then
      (insertsortedScan mpdu rest).map (scan :: ·)
    else if scan.sequence = mpdu.sequence then none
    else some (mpdu :: scan :: rest)

def baReorderingMpduInsertsorted (list : ReorderingList) (mpdu : ReorderingMpdu) :
    Bool × ReorderingList :=
  match insertsortedScan mpdu list.next with
  | none => (false, list)
  | some next => (true, ⟨next, list.qlen + 1⟩)

/-- `ba_enqueue`: at the head. -/
def baEnqueue (list : ReorderingList) (blk : ReorderingMpdu) : ReorderingList := ⟨blk :: list.next, list.qlen + 1⟩

/-- `ba_dequeue`: from the head, only when the counter says there is one. -/
def baDequeue (list : ReorderingList) : Option ReorderingMpdu × ReorderingList :=
  if list.qlen = 0 then (none, list)
  else
    match list.next with
    | [] => (none, { list with qlen := list.qlen - 1 })
    | blk :: rest => (some blk, ⟨rest, list.qlen - 1⟩)

def zeroBlk (addr : ℕ) : ReorderingMpdu := ⟨addr, 0, 0, false, 0⟩

/-- The free list that `ba_reordering_resource_init` builds: each block is put at the head. -/
def resourceInitFreelist (num : ℕ) : ReorderingList :=
  (List.range num).foldl (fun freelist i => baEnqueue freelist (zeroBlk i)) ⟨[], 0⟩

/-! ### Entries and events -/

inductive RecBlockackStatus
  | none | used | handleRes | accept
deriving DecidableEq, Repr

/-- `BA_REC_ENTRY`, the fields that the recipient code reads or writes. -/
structure BaRecEntry where
  wcid : Fin 32
  tid : Fin 8
  baWinSize : Fin 256
  lastIndSeq : ℕ
  timeOutValue : ℕ
  lastIndSeqAtTimer : Tick
  nDropPacket : ℕ
  rcvSeq : ℕ
  recBaStatus : RecBlockackStatus
  list : ReorderingList
deriving DecidableEq, Repr

/-- What the reordering code does with a packet or with `LastIndSeq`. -/
inductive Event
  /-- The packet is passed to the upper layer. -/
  | deliver (pPacket : ℕ) (sequence : Fin 4096)
  /-- `RELEASE_NDIS_PACKET`. -/
  | release (pPacket : ℕ)
  /-- `LastIndSeq` becomes `RESET_RCV_SEQ`. -/
  | reset
deriving DecidableEq, Repr

/-- `RX_BLK`, the fields that the reordering code reads. -/
structure RxBlk where
  pRxPacket : ℕ
  sequence : Fin 4096
  wcid : ℕ
  tid : Fin 8
  fRxAmsdu : Bool
  fRxEap : Bool
  dataSize : ℕ
  opMode : ℕ
deriving DecidableEq, Repr

structure Session where
  freelist : ReorderingList
  ent : BaRecEntry
  events : List Event
deriving DecidableEq, Repr

namespace Session

def emit (s : Session) (e : Event) : Session := { s with events := s.events ++ [e] }

/-- Writes `LastIndSeq`. -/
def setLast (s : Session) (seq : ℕ) : Session := { s with ent := { s.ent with lastIndSeq := seq } }

/-- Writes `LastIndSeqAtTimer`. -/
def setTimer (s : Session) (now : Tick) : Session :=
  { s with ent := { s.ent with lastIndSeqAtTimer := now } }

def dequeue (s : Session) : Option ReorderingMpdu × Session :=
  ((baDequeue s.ent.list).1, { s with ent := { s.ent with list := (baDequeue s.ent.list).2 } })

/-- `Announce_Reordering_Packet` followed by `ba_mpdu_blk_free`, as all release loops do. -/
def announceFree (s : Session) (blk : ReorderingMpdu) : Session :=
  { s.emit (.deliver blk.pPacket blk.sequence) with freelist := baEnqueue s.freelist blk }

/-- `ba_mpdu_blk_alloc`: the block is zeroed. -/
def baMpduBlkAlloc (s : Session) : Option ReorderingMpdu × Session :=
  ((baDequeue s.freelist).1.map fun blk => zeroBlk blk.addr,
    { s with freelist := (baDequeue s.freelist).2 })

/-! ### The release loops -/

/-- The loop of `ba_indicate_reordering_mpdus_in_order`, over the blocks that are linked when it
starts. A `NULL` from the dequeue after a successful probe would be dereferenced; `qlen` counts the
blocks, so that branch is dead (`Steps.BaseInv`). -/
def inOrderLoop : List ReorderingMpdu → Session → ℕ → ℕ → Session × ℕ
  | [], s, _, lastIndSeq => (s, lastIndSeq)
  | probe :: rest, s, startSeq, lastIndSeq =>
    if seqStepone probe.sequence startSeq then
      match s.dequeue with
      | (some blk, s') => inOrderLoop rest (s'.announceFree blk) blk.sequence blk.sequence
      | (none, s') => (s', lastIndSeq)
    else (s, lastIndSeq)

/-- `ba_indicate_reordering_mpdus_in_order`; the second component is `RESET_RCV_SEQ` when nothing
was in order. -/
def indicateInOrder (s : Session) (startSeq : ℕ) : Session × ℕ := inOrderLoop s.ent.list.next s startSeq resetRcvSeq

/-- The update of `LastIndSeq` that follows every in-order drain. -/
def drainInOrder (s : Session) (startSeq : ℕ) : Session :=
  if (s.indicateInOrder startSeq).2 ≠ resetRcvSeq then
    (s.indicateInOrder startSeq).1.setLast (s.indicateInOrder startSeq).2
  else (s.indicateInOrder startSeq).1

/-- The loop of `ba_indicate_reordering_mpdus_le_seq`. -/
def leSeqLoop (sequence : ℕ) : List ReorderingMpdu → Session → Session
  | [], s => s
  | probe :: rest, s =>
    if (probe.sequence : ℕ) = sequence ∨ seqSmaller probe.sequence sequence then
      match s.dequeue with
      | (some blk, s') => leSeqLoop sequence rest (s'.announceFree blk)
      | (none, s') => s'
    else s

/-- `ba_indicate_reordering_mpdus_le_seq`. -/
def indicateLeSeq (s : Session) (sequence : ℕ) : Session := leSeqLoop sequence s.ent.list.next s

/-- The loop of `ba_refresh_reordering_mpdus`, which runs as long as the dequeue succeeds. -/
def refreshLoop : List ReorderingMpdu → Session → Session
  | [], s => s.dequeue.2
  | _ :: rest, s =>
    match s.dequeue with
    | (some blk, s') => refreshLoop rest ((s'.announceFree blk).setLast blk.sequence)
    | (none, s') => s'

def baRefreshReorderingMpdus (s : Session) : Session :=
  ((refreshLoop s.ent.list.next s).setLast resetRcvSeq).emit .reset

def baFlushReorderingTimeoutMpdus (osHz : ℕ) (s : Session) (now32 : Tick) : Session :=
  if s.ent.list.qlen = 0 then s
  else if rtmpTimeAfter now32 (s.ent.lastIndSeqAtTimer + flushAllTimeout osHz) ∧
      1 < s.ent.list.qlen then
    s.baRefreshReorderingMpdus.setTimer now32
  else if rtmpTimeAfter now32 (s.ent.lastIndSeqAtTimer + reorderingPacketTimeout osHz) ∧
      0 < s.ent.list.qlen then
    (((s.indicateLeSeq ((s.ent.lastIndSeq + 1) &&& maxSeq)).setTimer now32).setLast
      ((s.ent.lastIndSeq + 1) &&& maxSeq)).drainInOrder ((s.ent.lastIndSeq + 1) &&& maxSeq)
  else s

/-! ### A received subframe -/

/-- The clock readings and the setting that one received frame meets: `Now32` as
`Indicate_AMPDU_Packet` reads it, the later reading of `Indicate_Legacy_Packet`, and whether a
user-space supplicant takes the EAPOL frames. -/
structure RxEnv where
  osHz : ℕ
  now32 : Tick
  legacyNow32 : Tick
  wpaSupplicantUP : Bool
deriving DecidableEq, Repr

/-- Does `INDICATE_LEGACY_OR_AMSDU` end in `Indicate_Legacy_Packet`? -/
def indicatedLegacy (env : RxEnv) (rx : RxBlk) : Bool := !rx.fRxAmsdu && (!rx.fRxEap || env.wpaSupplicantUP)

/-- `INDICATE_LEGACY_OR_AMSDU` for a frame of a live session. `Indicate_Legacy_Packet` first reads
the clock again and flushes the session's overdue frames. -/
def indicateLegacyOrAmsdu (env : RxEnv) (s : Session) (rx : RxBlk) : Session :=
  if indicatedLegacy env rx ∧ 0 < s.ent.list.qlen ∧
      rtmpTimeAfter env.legacyNow32 (s.ent.lastIndSeqAtTimer + reorderingPacketTimeout env.osHz) then
    (s.baFlushReorderingTimeoutMpdus env.osHz env.legacyNow32).emit
      (.deliver rx.pRxPacket rx.sequence)
  else s.emit (.deliver rx.pRxPacket rx.sequence)

/-- The block as `ba_enqueue_reordering_packet` fills it in. -/
def fillBlk (blk : ReorderingMpdu) (rx : RxBlk) : ReorderingMpdu :=
  { blk with
    sequence := rx.sequence
    opMode := rx.opMode
    bAMSDU := rx.fRxAmsdu
    pPacket := rx.pRxPacket }

/-- The first branch of `ba_enqueue_reordering_packet`: a frame that is listed already is released
and its block given back. -/
def insertPacket (s : Session) (mpdu : ReorderingMpdu) : Session :=
  match baReorderingMpduInsertsorted s.ent.list mpdu with
  | (true, list) => { s with ent := { s.ent with list := list } }
  | (false, _) =>
    { s.emit (.release mpdu.pPacket) with freelist := baEnqueue s.freelist mpdu }

/-- The second branch of `ba_enqueue_reordering_packet`: everything up to the frame is passed up, and
then the frame. -/
def bypassPacket (env : RxEnv) (s : Session) (rx : RxBlk) : Session :=
  indicateLegacyOrAmsdu env ((s.indicateLeSeq rx.sequence).setLast rx.sequence) rx

/-- `ba_enqueue_reordering_packet`. A block that was allocated for an EAP frame stays allocated. -/
def baEnqueueReorderingPacket (env : RxEnv) (s : Session) (rx : RxBlk) : Session :=
  match s.baMpduBlkAlloc, rx.fRxEap with
  | (some blk, s), false => s.insertPacket (fillBlk blk rx)
  | (_, s), _ => bypassPacket env s rx

/-- The cases of `Indicate_AMPDU_Packet`, in the order in which it tests them. -/
inductive SeqClass
  | reset | inOrder | duplicate | old | inWindow | surpass
deriving DecidableEq, Repr

/-- The tests of `Indicate_AMPDU_Packet` on the sequence number. -/
def classify (ent : BaRecEntry) (sequence : ℕ) : SeqClass :=
  if ent.lastIndSeq = resetRcvSeq then .reset
  else if seqStepone sequence ent.lastIndSeq then .inOrder
  else if sequence = ent.lastIndSeq then .duplicate
  else if seqSmaller sequence ent.lastIndSeq then .old
  else if seqSmaller sequence ((ent.lastIndSeq + ent.baWinSize + 1) &&& maxSeq) then .inWindow
  else .surpass

/-- `WinStartSeq` of case V. -/
def winStartSeq (ent : BaRecEntry) (sequence : ℕ) : ℕ :=
  let tmpSeq : ℤ := sequence - ent.baWinSize - 1
  let tmpSeq : ℤ := if tmpSeq < 0 then maxSeq + 1 + tmpSeq else tmpSeq
  (tmpSeq + 1).toNat &&& maxSeq

def surpassShift (s : Session) (sequence : ℕ) (now32 : Tick) : Session :=
  ((s.indicateLeSeq (winStartSeq s.ent sequence)).setLast (winStartSeq s.ent sequence)).setTimer now32

/-- The entry of a session as `Indicate_AMPDU_Packet` finds it when it comes to its cases: the frame
is noted, overdue frames are flushed and the timer is set. -/
def arrive (env : RxEnv) (s : Session) (rx : RxBlk) : Session :=
  (baFlushReorderingTimeoutMpdus env.osHz
    { s with ent := { s.ent with rcvSeq := rx.sequence } } env.now32).setTimer env.now32

/-- The cases of `Indicate_AMPDU_Packet`. -/
def indicateCases (env : RxEnv) (s : Session) (rx : RxBlk) : Session :=
  match classify s.ent rx.sequence with
  | .reset => indicateLegacyOrAmsdu env ((s.setLast rx.sequence).setTimer env.now32) rx
  | .inOrder =>
    let s' := indicateLegacyOrAmsdu env (s.setLast rx.sequence) rx
    (s'.drainInOrder s'.ent.lastIndSeq).setTimer env.now32
  | .duplicate | .old =>
    { s.emit (.release rx.pRxPacket) with
      ent := { s.ent with nDropPacket := s.ent.nDropPacket + 1 } }
  | .inWindow => baEnqueueReorderingPacket env s rx
  | .surpass =>
    let s' := baEnqueueReorderingPacket env (s.surpassShift rx.sequence env.now32) rx
    s'.drainInOrder s'.ent.lastIndSeq

/-- `Indicate_AMPDU_Packet` once the session of the frame is found. -/
def indicateAmpduSession (env : RxEnv) (s : Session) (rx : RxBlk) : Session :=
  indicateCases env (arrive env s rx) rx

/-- `CntlEnqueueForRecv` once the session of the block-ack request is found. -/
def cntlBar (s : Session) (startSeq : Fin 4096) : Session :=
  if seqSmaller s.ent.lastIndSeq startSeq then
    (s.indicateLeSeq startSeq).setLast (if (startSeq : ℕ) = 0 then maxSeq else startSeq - 1)
  else s

end Session

end Mt7610u.BlockAck.Reorder
