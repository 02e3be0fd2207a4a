import Mt7610u.BlockAck.Steps
import Mt7610u.Data.Aralink
import Mt7610u.Data.RxPath

/-! # The lengths of a received data frame

`pData` and `DataSize` of `RX_BLK` on every way of a data frame through `STAHandleRxDataFrame`: what each
statement takes from the front or from the end of the frame, in sixteen bits, and what of the frame is
left. -/

namespace Mt7610u.Data.RxPath

open Lib BlockAck BlockAck.Tables
open BlockAck.Reorder (Session)

attribute [local instance] neZero_four neZero_128 neZero_256

/-! ### Walks over a frame -/

/-- A statement on `pData` and `DataSize`. -/
inductive Move
  /-- `pData += n; DataSize -= n`. -/
  | skip (n : ℕ)
  /-- `pData += n` over bytes that `DataSize` does not count. -/
  | pass (n : ℕ)
  /-- `DataSize -= n`. -/
  | trim (n : ℕ)
  /-- The block is made to point to a reassembled frame, `headerRoom` bytes into it. -/
  | reassemble (rxSize : ℕ) (headerRoom : BitVec 8)

/-- Where `pData` is, as an offset from `pHeader`, with the length of the frame, the padding passed over
and the bytes taken off so far. -/
structure Cursor where
  mpdu : ℕ
  padding : ℕ
  skipped : ℕ
  pData : ℕ
  dataSize : BitVec 16

def Cursor.step (c : Cursor) : Move → Cursor
  | .skip n => { c with
      skipped := c.skipped + n, pData := c.pData + n, dataSize := c.dataSize - BitVec.ofNat 16 n }
  | .pass n => { c with padding := c.padding + n, pData := c.pData + n }
  | .trim n => { c with skipped := c.skipped + n, dataSize := c.dataSize - BitVec.ofNat 16 n }
  | .reassemble rxSize headerRoom =>
    ⟨rxSize, 0, headerRoom.toNat, headerRoom.toNat, BitVec.ofNat 16 rxSize - headerRoom.setWidth 16⟩

/-- The running `DataSize` is the length of the frame less the bytes taken off so far, and `pData` is not
past its end. -/
structure Cursor.Ok (c : Cursor) : Prop where
  size : c.dataSize.toNat + c.skipped = c.mpdu
  inside : c.pData ≤ c.mpdu + c.padding

/-- Every statement finds the bytes that it takes off, `left` of them at the beginning. -/
def Room : List Move → ℕ → Prop
  | [], _ => True
  | .skip n :: ms, left => n ≤ left ∧ Room ms (left - n)
  | .pass _ :: ms, left => Room ms left
  | .trim n :: ms, left => n ≤ left ∧ Room ms (left - n)
  | .reassemble rxSize headerRoom :: ms, _ =>
    headerRoom.toNat ≤ rxSize ∧ Room ms (rxSize - headerRoom.toNat)

/-- The cursor at the front of a frame of `n` bytes. -/
def Cursor.start (n : ℕ) : Cursor := ⟨n, 0, 0, 0, BitVec.ofNat 16 n⟩

namespace Cursor

variable {c : Cursor}

/-- `pData` moves over bytes that are taken off or passed over. -/
def Tracked (c : Cursor) : Prop := c.pData ≤ c.skipped + c.padding

theorem Tracked.step (h : c.Tracked) (mv : Move) : (c.step mv).Tracked := by
  unfold Tracked at h
  cases mv <;> simp only [Cursor.step, Tracked] <;> omega

theorem ok_iff (h : c.Tracked) : c.Ok ↔ c.dataSize.toNat + c.skipped = c.mpdu := by
  unfold Tracked at h
  exact ⟨fun hok => hok.size, fun hs => ⟨hs, by omega⟩⟩

theorem tracked_start (n : ℕ) : (start n).Tracked := Nat.zero_le _

theorem ok_start {n : ℕ} (h : n < 65536) : (start n).Ok :=
  ⟨by rw [start, BitVec.toNat_ofNat, Nat.mod_eq_of_lt h]; rfl, Nat.zero_le _⟩

theorem size_sub_iff (h : c.Ok) (n : ℕ) :
    (c.dataSize - BitVec.ofNat 16 n).toNat + (c.skipped + n) = c.mpdu ↔ n ≤ c.mpdu - c.skipped := by
  have hs := h.size
  have hd := c.dataSize.isLt
  rw [BitVec.toNat_sub, BitVec.toNat_ofNat]
  omega

theorem size_reassemble_iff {rxSize : ℕ} (h : rxSize < 65536) (headerRoom : BitVec 8) :
    (BitVec.ofNat 16 rxSize - headerRoom.setWidth 16).toNat + headerRoom.toNat = rxSize ↔
      headerRoom.toNat ≤ rxSize := by
  have hr := headerRoom.isLt
  rw [BitVec.toNat_sub, BitVec.toNat_setWidth, BitVec.toNat_ofNat]
  omega

end Cursor

/-- Reassembled frames have a length that `DataSize` can hold. -/
def Bounded (ms : List Move) : Prop := ∀ rxSize headerRoom, .reassemble rxSize headerRoom ∈ ms → rxSize < 65536

/-- **A walk is in order** exactly if every statement finds the bytes that it takes off. -/
theorem forall_cursors_iff {ms : List Move} (hms : Bounded ms) {c : Cursor} (ht : c.Tracked) (hc : c.Ok) :
    (∀ c' ∈ List.scanl Cursor.step c ms, c'.Ok) ↔ Room ms (c.mpdu - c.skipped) := by
  induction ms generalizing c with
  | nil =>
    rw [List.scanl_nil]
    exact ⟨fun _ => trivial, fun _ c' hc' => List.mem_singleton.1 hc' ▸ hc⟩
  | cons mv ms ih =>
    have hstep := ht.step mv
    have hms' : Bounded ms := fun rxSize headerRoom h => hms rxSize headerRoom (List.mem_cons_of_mem _ h)
    rw [List.scanl_cons, List.forall_mem_cons]
    simp only [hc, true_and]
    -- the next cursor is the first of those that are left
    have hnext : (∀ c' ∈ List.scanl Cursor.step (c.step mv) ms, c'.Ok) ↔
        (c.step mv).Ok ∧ Room ms ((c.step mv).mpdu - (c.step mv).skipped) := by
      constructor
      · intro h
        have hok : (c.step mv).Ok := h _ (by cases ms <;> simp)
        exact ⟨hok, (ih hms' hstep hok).1 h⟩
      · rintro ⟨hok, hroom⟩
        exact (ih hms' hstep hok).2 hroom
    rw [hnext, Cursor.ok_iff hstep]
    cases mv with
    | skip n =>
      simp only [Cursor.step, Room, Cursor.size_sub_iff hc, Nat.sub_add_eq]
    | pass n => simp only [Cursor.step, Room, hc.size, true_and]
    | trim n =>
      simp only [Cursor.step, Room, Cursor.size_sub_iff hc, Nat.sub_add_eq]
    | reassemble rxSize headerRoom =>
      have hlt := hms rxSize headerRoom List.mem_cons_self
      simp only [Cursor.step, Room, Cursor.size_reassemble_iff hlt]

/-! ### The statements of the receive path -/

/-- "update RxBlk->pData, DataSize" of `STAHandleRxDataFrame`. -/
def headerMoves (cfg : Settings) (rx : RxPacket) : List Move :=
  let m := rx.header
  let qos := (subType m).getLsbD 3
  let aralink := order m && (decide ((rx.rxWI.phyMode : ℕ) ≤ 1) && cfg.aggregationInUsed)
  let htc := order m && !aralink
  [.skip 24] ++ (if qos then [.skip 2] else []) ++ (if htc then [.skip 4] else []) ++
    (if rx.rxInfo.l2Pad then [.pass 2] else [])

def headerLength (cfg : Settings) (rx : RxPacket) : ℕ :=
  let m := rx.header
  let aralink := order m && (decide ((rx.rxWI.phyMode : ℕ) ≤ 1) && cfg.aggregationInUsed)
  24 + (if (subType m).getLsbD 3 then 2 else 0) + (if order m && !aralink then 4 else 0)

inductive Way
  /-- It is released. -/
  | dropped
  /-- Its LLC/SNAP header is removed, to announce it or to list it. -/
  | converted
  /-- It is reported to the MLME or taken apart as an A-MSDU, as it is. -/
  | whole
  /-- It is taken apart as a Ralink aggregate. -/
  | aralink
  deriving DecidableEq

/-- `INDICATE_LEGACY_OR_AMSDU`. -/
def indicatedWay (s : Adapter) (rx : RxBlk) (fRxEap : Bool) : Way :=
  if rx.fRxAmsdu then .whole
  else if fRxEap ∧ ¬ s.ba.cfg.wpaSupplicantUP then .whole
  else .converted

/-- `ba_enqueue_reordering_packet`: an A-MSDU that is listed is converted too. -/
def enqueuedWay (s : Adapter) (rx : RxBlk) (fRxEap : Bool) (session : Session) : Way :=
  match session.baMpduBlkAlloc.1, fRxEap with
  | some _, false => .converted
  | _, _ => indicatedWay s rx fRxEap

/-- The cases of `Indicate_AMPDU_Packet`, in the session of the frame. -/
def sessionWay (s : Adapter) (w : World) (rx : RxBlk) (fRxEap : Bool) (session : Session) : Way :=
  let frame := rx.toReorder fRxEap
  let session := Session.arrive ⟨s.ba.cfg.osHz, w.now32, w.legacyNow32, s.ba.cfg.wpaSupplicantUP⟩ session frame
  match Session.classify session.ent frame.sequence with
  | .reset | .inOrder => indicatedWay s rx fRxEap
  | .duplicate | .old => .dropped
  | .inWindow => enqueuedWay s rx fRxEap session
  | .surpass => enqueuedWay s rx fRxEap (session.surpassShift frame.sequence w.now32)

/-- `Indicate_AMPDU_Packet`. -/
def ampduWay (s : Adapter) (w : World) (rx : RxBlk) (fRxEap : Bool) : Way :=
  if ¬ rx.fRxAmsdu ∧ 1520 < rx.pkt.dataSize.toNat then .dropped
  else if h : (rx.rxWI.wirelessCliID : ℕ) < 32 then
    let idx := recWcid (s.ba.content ⟨rx.rxWI.wirelessCliID, h⟩) rx.rxWI.tid
    if idx = 0 then indicatedWay s rx fRxEap
    else sessionWay s w rx fRxEap ⟨s.ba.freelist, s.ba.baRecEntry idx, []⟩
  else .dropped

/-- `STARxDataFrameAnnounce`, with `CmmRxnonRalinkFrameIndicate` and `STARxEAPOLFrameIndicate`. -/
def announceWay (s : Adapter) (w : World) (rx : RxBlk) : Way :=
  if ¬ rtmpCheckWPAframe rx.pkt then
    if ¬ s.ba.cfg.mediaStateConnected then .dropped
    else if wep rx.pkt.frame ∧ s.cfg.encryptionDisabled then .dropped
    else if ¬ wep rx.pkt.frame ∧ ¬ s.cfg.encryptionDisabled ∧ s.cfg.portNotSecured then .dropped
    else if ¬ rx.fRxAralink then
      if rx.fRxAmpdu ∧ ¬ s.cfg.bDisableReordering then ampduWay s w rx false
      else if rx.fRxAmsdu then .whole
      else .converted
    else .aralink
  else if rx.fRxAmpdu ∧ ¬ s.cfg.bDisableReordering then ampduWay s w rx true
  else if s.ba.cfg.wpaSupplicantUP then .converted
  else .whole

/-- The memory from `pData` on. -/
def atData (pkt : Packet) : ℕ → Byte := fun i => pkt.frame (pkt.headerRoom.toNat + i)

/-- The statements on that way: `CONVERT_TO_802_3` and `CmmRxRalinkFrameIndicate`. -/
def wayMoves (w : World) (pkt : Packet) : Way → List Move
  | .dropped | .whole => []
  | .converted => if removesLlc pkt then [.skip 8] else []
  | .aralink =>
    if Aralink.Accepted (atData pkt) pkt.dataSize then
      [.skip 2] ++ (if Aralink.Removed (atData pkt) then [.skip 8] else []) ++
        (if w.duplicated then [.trim (Aralink.msdu2Size (atData pkt)).toNat] else [])
    else []

def wayLength (w : World) (pkt : Packet) : Way → ℕ
  | .dropped | .whole => 0
  | .converted => if removesLlc pkt then 8 else 0
  | .aralink =>
    if Aralink.Accepted (atData pkt) pkt.dataSize then
      2 + (if Aralink.Removed (atData pkt) then 8 else 0) +
        (if w.duplicated then (Aralink.msdu2Size (atData pkt)).toNat else 0)
    else 0

def groupWay (cfg : Settings) (rx : RxPacket) : Way :=
  if moreFrag rx.header then .dropped
  else if frDs rx.header ∧ addr3 rx.header = cfg.currentAddress then .dropped
  else .converted

def reassembledBlk (w : World) (blk : RxBlk) (p : ℕ × Packet) : RxBlk :=
  { blk with pRxPacket := p.1, pkt := p.2, rxWI := w.staleRxWI }

def hasMic (s : Adapter) (w : World) (decrypted : Bool) : Bool := decrypted && s.cfg.tkip w.staleRxWI.wirelessCliID

def withoutMic (s : Adapter) (w : World) (decrypted : Bool) (blk : RxBlk) : RxBlk :=
  if hasMic s w decrypted then { blk with pkt := { blk.pkt with dataSize := blk.pkt.dataSize - 8 } } else blk

/-- `STACheckTkipMICValue` and `STARxDataFrameAnnounce`. -/
def reassembledWay (s : Adapter) (w : World) (decrypted : Bool) (blk : RxBlk) : Way :=
  if hasMic s w decrypted ∧ ¬ w.micEqual then .dropped
  else announceWay s w (withoutMic s w decrypted blk)

def reassembledMoves (s : Adapter) (w : World) (decrypted : Bool) (blk : RxBlk) : List Move :=
  (if hasMic s w decrypted then [.trim 8] else []) ++
    wayMoves w (withoutMic s w decrypted blk).pkt (reassembledWay s w decrypted blk)

def reassembledLength (s : Adapter) (w : World) (decrypted : Bool) (blk : RxBlk) : ℕ :=
  (if hasMic s w decrypted then 8 else 0) +
    wayLength w (withoutMic s w decrypted blk).pkt (reassembledWay s w decrypted blk)

def EarlyDropped (s : Adapter) (rx : RxPacket) : Prop :=
  let m := rx.header
  (frDs m = true ∧ toDs m = true) ∨ rx.rxInfo.myBss = false ∨ (subType m).getLsbD 2 = true ∨
    (s.cfg.bssInfra = true ∧ addr2 m ≠ s.cfg.mlmeBssid) ∨ (s.cfg.bssInfra = false ∧ addr3 m ≠ s.cfg.bssid) ∨
    32 ≤ (rx.rxWI.wirelessCliID : ℕ)

instance (s : Adapter) (rx : RxPacket) : Decidable (EarlyDropped s rx) := by
  unfold EarlyDropped
  infer_instance

section Frame

variable (s : Adapter) (w : World) (pRxPacket : ℕ) (rx : RxPacket)

/-- The statements of `STAHandleRxDataFrame` behind the header. -/
def bodyMoves : List Move :=
  let blk := dataRxBlk s.cfg pRxPacket rx
  if rx.rxInfo.bcast ∨ rx.rxInfo.mcast then wayMoves w blk.pkt (groupWay s.cfg rx)
  else if rx.rxInfo.u2M then
    if isFragment rx.header then
      match deFragment s w blk with
      | (s', some p) => .reassemble s'.fragFrame.rxSize p.2.headerRoom ::
          reassembledMoves s' w rx.rxInfo.decrypted (reassembledBlk w blk p)
      | (_, none) => []
    else wayMoves w blk.pkt (announceWay s w blk)
  else []

/-- All statements on `pData` and `DataSize` that the frame meets in `STAHandleRxDataFrame`. -/
def dataMoves : List Move :=
  if EarlyDropped s rx then [] else headerMoves s.cfg rx ++ bodyMoves s w pRxPacket rx

/-- `DataSize` is right and `pData` inside the frame, from the first statement to the last. -/
def LengthsOk : Prop :=
  ∀ c ∈ List.scanl Cursor.step (Cursor.start rx.rxWI.mpduByteCnt.toNat) (dataMoves s w pRxPacket rx), c.Ok

/-- What the statements behind the header take, with `left` bytes behind it: a conversion its LLC/SNAP
header, a Ralink aggregate its two length bytes and the second frame, a reassembled frame the header room
and the MIC. -/
def BodyEnough (left : ℕ) : Prop :=
  let blk := dataRxBlk s.cfg pRxPacket rx
  if rx.rxInfo.bcast ∨ rx.rxInfo.mcast then wayLength w blk.pkt (groupWay s.cfg rx) ≤ left
  else if rx.rxInfo.u2M then
    if isFragment rx.header then
      ∀ p, (deFragment s w blk).2 = some p →
        p.2.headerRoom.toNat + reassembledLength (deFragment s w blk).1 w rx.rxInfo.decrypted
            (reassembledBlk w blk p) ≤ (deFragment s w blk).1.fragFrame.rxSize
    else wayLength w blk.pkt (announceWay s w blk) ≤ left
  else True

def Enough : Prop :=
  ¬ EarlyDropped s rx →
    headerLength s.cfg rx ≤ rx.rxWI.mpduByteCnt.toNat ∧
      BodyEnough s w pRxPacket rx (rx.rxWI.mpduByteCnt.toNat - headerLength s.cfg rx)

end Frame

/-! ### The cursor and the receive block -/

theorem staHandleRxDataFrame_of_dropped {s : Adapter} {rx : RxPacket} (h : EarlyDropped s rx) (w : World)
    (p : ℕ) : staHandleRxDataFrame s w p rx = s.dispose [.release p] := by
  unfold EarlyDropped at h
  -- the tests in their order: the last of them stands for the frames that none of them drops
  refine ite_eq_left_iff.2 fun h1 => ite_eq_left_iff.2 fun h2 => ite_eq_left_iff.2 fun h3 =>
    ite_eq_left_iff.2 fun h4 => ite_eq_left_iff.2 fun h5 => ite_eq_left_iff.2 fun h6 => ?_
  exfalso
  obtain h | h | h | h | h | h := h
  · exact h1 h
  · exact h2 (by rw [h]; exact Bool.false_ne_true)
  · exact h3 h
  · exact h4 h
  · exact h5 ⟨by rw [h.1]; exact Bool.false_ne_true, h.2⟩
  · exact h6 h

/-- **A reassembled frame** starts with the cursor where its packet has the payload. -/
theorem run_reassemble {s : Adapter} {w : World} {blk : RxBlk} {p : ℕ × Packet}
    (h : (deFragment s w blk).2 = some p) (c : Cursor) :
    (deFragment s w blk).1.fragFrame.rxSize ≤ 2346 ∧
      (c.step (.reassemble (deFragment s w blk).1.fragFrame.rxSize p.2.headerRoom)).dataSize =
        p.2.dataSize := by
  unfold deFragment at h ⊢
  simp only [] at h ⊢
  have hout := outcome s.fragFrame ⟨{ blk.pkt with
    sequence := sequence blk.pkt.frame, frag := frag blk.pkt.frame, moreFrag := moreFrag blk.pkt.frame },
    w.newFragPacket⟩
  generalize rtmpDeFragmentDataFrame _ _ = r at *
  obtain ⟨ff, out⟩ := r
  cases hout with
  | completed happ hlast hb =>
    cases h
    exact ⟨happ.2.1, rfl⟩
  | first | unfragmented | givenUp | repeated | appended | noBuffer => cases h

/-! ### What is taken off -/

theorem room_headerMoves (cfg : Settings) (rx : RxPacket) (ms : List Move) (left : ℕ) :
    Room (headerMoves cfg rx ++ ms) left ↔
      headerLength cfg rx ≤ left ∧ Room ms (left - headerLength cfg rx) := by
  unfold headerMoves headerLength
  simp only []
  generalize (subType rx.header).getLsbD 3 = qos
  generalize (order rx.header && !(order rx.header &&
    (decide ((rx.rxWI.phyMode : ℕ) ≤ 1) && cfg.aggregationInUsed))) = htc
  generalize rx.rxInfo.l2Pad = pad
  -- bytes taken one after the other are taken together
  have htwo : ∀ (a b n : ℕ) (P : Prop), a ≤ n ∧ b ≤ n - a ∧ P ↔ a + b ≤ n ∧ P := by
    intro a b n P
    rw [← and_assoc]
    exact and_congr_left fun _ => by omega
  cases qos <;> cases htc <;> cases pad <;> simp [Room, Nat.sub_sub, htwo]

theorem room_wayMoves (w : World) (pkt : Packet) (way : Way) (left : ℕ) :
    Room (wayMoves w pkt way) left ↔ wayLength w pkt way ≤ left := by
  cases way with
  | dropped => exact ⟨fun _ => Nat.zero_le _, fun _ => trivial⟩
  | whole => exact ⟨fun _ => Nat.zero_le _, fun _ => trivial⟩
  | converted =>
    unfold wayMoves wayLength
    split_ifs <;> simp [Room]
  | aralink =>
    unfold wayMoves wayLength
    split_ifs <;> simp [Room] <;> omega

theorem room_reassembledMoves (s : Adapter) (w : World) (decrypted : Bool) (blk : RxBlk) (left : ℕ) :
    Room (reassembledMoves s w decrypted blk) left ↔ reassembledLength s w decrypted blk ≤ left := by
  unfold reassembledMoves reassembledLength
  split_ifs
  · simp only [List.cons_append, List.nil_append, Room, room_wayMoves]
    omega
  · rw [List.nil_append, room_wayMoves, Nat.zero_add]

theorem room_bodyMoves (s : Adapter) (w : World) (pRxPacket : ℕ) (rx : RxPacket) (left : ℕ) :
    Room (bodyMoves s w pRxPacket rx) left ↔ BodyEnough s w pRxPacket rx left := by
  unfold bodyMoves BodyEnough
  by_cases hgroup : rx.rxInfo.bcast = true ∨ rx.rxInfo.mcast = true
  · simp only [if_pos hgroup, room_wayMoves]
  · by_cases hu2m : rx.rxInfo.u2M = true
    · by_cases hfrag : isFragment rx.header = true
      · simp only [if_neg hgroup, if_pos hu2m, if_pos hfrag]
        cases hd : deFragment s w (dataRxBlk s.cfg pRxPacket rx) with
        | mk s' out =>
          cases out with
          | none => simp [Room]
          | some p =>
            simp only [Room, room_reassembledMoves, Option.some.injEq, forall_eq']
            omega
      · simp only [if_neg hgroup, if_pos hu2m, if_neg hfrag, room_wayMoves]
    · simp only [if_neg hgroup, if_neg hu2m, Room]

/-! ### Reassembled frames are bounded -/

theorem bounded_append {ms ms' : List Move} (h : Bounded ms) (h' : Bounded ms') : Bounded (ms ++ ms') := by
  intro rxSize headerRoom hmem
  rcases List.mem_append.1 hmem with hmem | hmem
  · exact h rxSize headerRoom hmem
  · exact h' rxSize headerRoom hmem

theorem bounded_headerMoves (cfg : Settings) (rx : RxPacket) : Bounded (headerMoves cfg rx) := by
  intro rxSize headerRoom hmem
  unfold headerMoves at hmem
  simp only [List.mem_append] at hmem
  rcases hmem with ((hmem | hmem) | hmem) | hmem
  · simp at hmem
  all_goals
    split at hmem
    · simp at hmem
    · exact absurd hmem List.not_mem_nil

theorem bounded_wayMoves (w : World) (pkt : Packet) (way : Way) : Bounded (wayMoves w pkt way) := by
  intro rxSize headerRoom hmem
  cases way with
  | dropped => exact absurd hmem List.not_mem_nil
  | whole => exact absurd hmem List.not_mem_nil
  | converted =>
    unfold wayMoves at hmem
    split at hmem <;> simp at hmem
  | aralink =>
    unfold wayMoves at hmem
    split_ifs at hmem <;> simp at hmem

theorem bounded_reassembledMoves (s : Adapter) (w : World) (decrypted : Bool) (blk : RxBlk) :
    Bounded (reassembledMoves s w decrypted blk) := by
  refine bounded_append ?_ (bounded_wayMoves _ _ _)
  intro rxSize headerRoom hmem
  split at hmem <;> simp at hmem

theorem bounded_bodyMoves (s : Adapter) (w : World) (pRxPacket : ℕ) (rx : RxPacket) :
    Bounded (bodyMoves s w pRxPacket rx) := by
  unfold bodyMoves
  by_cases hgroup : rx.rxInfo.bcast = true ∨ rx.rxInfo.mcast = true
  · simp only [if_pos hgroup]
    exact bounded_wayMoves _ _ _
  · by_cases hu2m : rx.rxInfo.u2M = true
    · by_cases hfrag : isFragment rx.header = true
      · simp only [if_neg hgroup, if_pos hu2m, if_pos hfrag]
        have hsize := fun p (h : (deFragment s w (dataRxBlk s.cfg pRxPacket rx)).2 = some p) =>
          (run_reassemble h (.start 0)).1
        cases hd : deFragment s w (dataRxBlk s.cfg pRxPacket rx) with
        | mk s' out =>
          rw [hd] at hsize
          cases out with
          | none => exact fun _ _ hmem => absurd hmem List.not_mem_nil
          | some p =>
            have hle : s'.fragFrame.rxSize ≤ 2346 := hsize p rfl
            intro rxSize headerRoom hmem
            rcases List.mem_cons.1 hmem with heq | hmem
            · cases heq
              omega
            · exact bounded_reassembledMoves _ _ _ _ rxSize headerRoom hmem
      · simp only [if_neg hgroup, if_pos hu2m, if_neg hfrag]
        exact bounded_wayMoves _ _ _
    · simp only [if_neg hgroup, if_neg hu2m]
      exact fun _ _ hmem => absurd hmem List.not_mem_nil

theorem bounded_dataMoves (s : Adapter) (w : World) (pRxPacket : ℕ) (rx : RxPacket) :
    Bounded (dataMoves s w pRxPacket rx) := by
  unfold dataMoves
  split_ifs
  · exact fun _ _ hmem => absurd hmem List.not_mem_nil
  · exact bounded_append (bounded_headerMoves _ _) (bounded_bodyMoves _ _ _ _)

theorem lengthsOk_iff_room (s : Adapter) (w : World) (pRxPacket : ℕ) (rx : RxPacket) :
    LengthsOk s w pRxPacket rx ↔ Room (dataMoves s w pRxPacket rx) rx.rxWI.mpduByteCnt.toNat := by
  have hcnt := rx.rxWI.mpduByteCnt.isLt
  exact forall_cursors_iff (bounded_dataMoves s w pRxPacket rx) (Cursor.tracked_start _)
    (Cursor.ok_start (by omega))

/-- **The lengths of a received data frame** are in order, from the first statement to the last, exactly
if the frame has the bytes that its way through the code takes. -/
theorem lengths_iff (s : Adapter) (w : World) (pRxPacket : ℕ) (rx : RxPacket) :
    LengthsOk s w pRxPacket rx ↔ Enough s w pRxPacket rx := by
  rw [lengthsOk_iff_room]
  unfold dataMoves Enough
  split_ifs with hdrop
  · exact ⟨fun _ h => absurd hdrop h, fun _ => trivial⟩
  · rw [room_headerMoves, room_bodyMoves]
    exact ⟨fun h _ => h, fun h => h hdrop⟩

/-! ### A short frame -/

/-- A frame that gets as far as `STAHandleRxDataFrame`: the entry checks of `STARxDoneInterruptHandle` and
`RTMPCheckRxError` let it pass, and it is a data frame. -/
structure Passes (s : Adapter) (rx : RxPacket) : Prop where
  port : rx.infoType = 0 ∧ rx.pkt80211 = true
  long : 14 ≤ rx.rxWI.mpduByteCnt.toNat
  receiving : s.ba.cfg.monitorOn = false
  checked : rtmpCheckRxError s rx = true
  data : fcType rx.header = 2

theorem Passes.handlePacket_eq {s : Adapter} {rx : RxPacket} (h : Passes s rx) (w : World) (p : ℕ) :
    handlePacket s w p rx = staHandleRxDataFrame s w p rx := by
  have hlong := h.long
  have hmonitor := h.receiving
  unfold handlePacket
  rw [if_neg (by simp [h.port.1, h.port.2]), if_neg (by omega), if_neg (by simp [hmonitor]),
    if_pos h.checked, h.data]
  rfl

def sampleSettings : Settings where
  bssInfra := true
  mlmeBssid := List.replicate 6 0x00#8
  bssid := List.replicate 6 0x00#8
  currentAddress := List.replicate 6 0x22#8
  aggregationInUsed := false
  bDisableReordering := false
  encryptionDisabled := true
  portNotSecured := false
  tkip := fun _ => false
  cipherAes := fun _ => false

attribute [local instance] neZero_eight neZero_16 in
def sampleRxWi (n : ℕ) : RxWi := ⟨1, 0, BitVec.ofNat 14 n, 0, 0⟩

def sampleWorld : World where
  now32 := 0
  legacyNow32 := 0
  newFragPacket := none
  duplicated := true
  expanded := true
  micEqual := true
  staleRxWI := sampleRxWi 0
  resources := fun _ => ⟨fun _ => true, fun _ => true⟩

/-- A data frame of `n` bytes from the access point to this station; `fc` is its frame control field. -/
def sampleData (fc : List Byte) (n : ℕ) : RxPacket where
  infoType := 0
  pkt80211 := true
  rxInfo := ⟨false, 0, false, true, false, false, true, false, false⟩
  rxWI := sampleRxWi n
  header := mem fc

/-- A data frame of 14 bytes passes all checks, and its header takes 24. -/
theorem not_lengths :
    ¬ ∀ (s : Adapter) (w : World) (pRxPacket : ℕ) (rx : RxPacket), Passes s rx →
      LengthsOk s w pRxPacket rx := by
  intro h
  have hok := h (init sampleSettings Steps.sampleConfig 0 (fun _ => Steps.sampleStation) (mem []))
    sampleWorld 1 (sampleData [0x08#8, 0x02#8] 14)
    ⟨⟨rfl, rfl⟩, by decide, rfl, by decide, by decide⟩
  rw [lengthsOk_iff_room, dataMoves, if_neg (by decide), room_headerMoves] at hok
  exact absurd hok.1 (by decide)

end Mt7610u.Data.RxPath
