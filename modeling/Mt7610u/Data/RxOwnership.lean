import Mt7610u.BlockAck.Account
import Mt7610u.Data.RxPath

/-! # Every received packet is in exactly one place

The receive path takes over each packet that `GetPacketFromRxRing` returns. `Accounted n s p` says that the
packets allocated so far are those that were passed up or released, those in the reordering lists, the
fragment buffer, and the packets `p` that a function has in hand; every function of the path turns the
packet that it is given into one of the others. -/

namespace Mt7610u.Data.RxPath

open Lib Lib.Runs BlockAck BlockAck.Tables BlockAck.Conservation BlockAck.Account
open BlockAck.Reorder (Event ReorderingMpdu Tick Session)

/-! ### The account -/

def Disposal.packet : Disposal → Option ℕ
  | .toOs p => some p
  | .release p => some p
  | .report _ => none
  | .subframe .. => none

def owned (s : Adapter) : Multiset ℕ :=
  (s.disposals.filterMap Disposal.packet : Multiset ℕ) + packets s.ba + {s.pFragPacket}

/-- The packets `p` are in hand, and all others that were ever allocated, at least `n` of them, are in
their places. -/
structure Accounted (n : ℕ) (s : Adapter) (p : Multiset ℕ) : Prop where
  lists : ListsCounted s.ba
  log : s.ba.log = []
  since : n ≤ s.nextPacket
  total : owned s + p = Multiset.range s.nextPacket

def Leaves (f : ℕ → List Disposal) : Prop := ∀ p, (f p).filterMap Disposal.packet = [p]

theorem leaves_toOs : Leaves fun p => [.toOs p] := fun _ => rfl

theorem leaves_deaggregate (w : World) (pkt : ℕ → Packet) :
    Leaves fun p => deaggregateAmsduAnnounce w p (pkt p) := by
  intro p
  have hsub : ∀ es : List Amsdu.Event, (es.map (Disposal.subframe p)).filterMap Disposal.packet = [] := by
    intro es
    rw [List.filterMap_map]
    exact List.filterMap_eq_nil_iff.2 fun _ _ => rfl
  simp only [deaggregateAmsduAnnounce, List.filterMap_append, hsub, List.nil_append]
  rfl

theorem leaves_legacy (pkt : Packet) : Leaves (legacyDisposals pkt) := by
  intro p
  unfold legacyDisposals
  split_ifs
  · rfl
  · rfl

theorem leaves_indicate (s : Adapter) (w : World) (rx : RxBlk) (fRxEap : Bool) :
    Leaves (indicateLegacyOrAmsdu s w rx fRxEap) := by
  intro p
  unfold indicateLegacyOrAmsdu
  split_ifs
  · exact leaves_deaggregate w (fun _ => rx.pkt) p
  · rfl
  · exact leaves_legacy rx.pkt p

theorem leaves_announce (s : Adapter) (w : World) (blk : ReorderingMpdu) :
    Leaves (announceReorderingPacket s w blk) := by
  intro p
  unfold announceReorderingPacket
  split_ifs
  · exact leaves_deaggregate w s.contents p
  · rfl

theorem disposalsOf_packet (s : Adapter) (w : World) {f : ℕ → List Disposal} (hf : Leaves f) (e : Event) :
    (disposalsOf s w f e).filterMap Disposal.packet = (eventPacket e).toList := by
  cases e with
  | deliver p q =>
    simp only [disposalsOf]
    cases heldBlock s.ba p with
    | some blk => exact leaves_announce s w blk p
    | none => exact hf p
  | release p => rfl
  | reset => rfl

theorem disposals_packet (s : Adapter) (w : World) {f : ℕ → List Disposal} (hf : Leaves f)
    (log : List (Option (Fin 128) × Event)) :
    (log.flatMap fun e => disposalsOf s w f e.2).filterMap Disposal.packet =
      log.filterMap fun e => eventPacket e.2 := by
  induction log with
  | nil => rfl
  | cons e log ih =>
    rw [List.flatMap_cons, List.filterMap_append, ih, disposalsOf_packet s w hf, List.filterMap_cons]
    cases eventPacket e.2 with
    | some p => rfl
    | none => rfl

/-! ### What moves packets -/

namespace Accounted

variable {n : ℕ} {s : Adapter} {p q : Multiset ℕ}

theorem congr {t : Adapter} (h : Accounted n s p) (hba : t.ba = s.ba) (hf : t.pFragPacket = s.pFragPacket)
    (hn : t.nextPacket = s.nextPacket) (hd : t.disposals = s.disposals) : Accounted n t p := by
  refine ⟨?_, ?_, ?_, ?_⟩
  · rw [hba]
    exact h.lists
  · rw [hba]
    exact h.log
  · rw [hn]
    exact h.since
  · rw [owned, hba, hf, hn, hd]
    exact h.total

theorem dispose {ds : List Disposal} (h : Accounted n s (p + q))
    (hds : (ds.filterMap Disposal.packet : Multiset ℕ) = q) : Accounted n (s.dispose ds) p := by
  refine ⟨h.lists, h.log, h.since, ?_⟩
  have hd : ((s.dispose ds).disposals.filterMap Disposal.packet : Multiset ℕ) =
      (s.disposals.filterMap Disposal.packet : Multiset ℕ) + q := by
    rw [← hds, Adapter.dispose, List.filterMap_append, ← Multiset.coe_add]
  calc owned (s.dispose ds) + p
      = (s.disposals.filterMap Disposal.packet : Multiset ℕ) + q +
          (BlockAck.Conservation.packets s.ba + {s.pFragPacket}) + p := by
        rw [owned, hd, add_assoc _ _ {_}]
        rfl
    _ = owned s + (p + q) := by
        rw [owned]
        abel
    _ = Multiset.range s.nextPacket := h.total

theorem leave {x : ℕ} {ds : List Disposal} (h : Accounted n s {x})
    (hds : ds.filterMap Disposal.packet = [x]) : Accounted n (s.dispose ds) 0 := by
  refine dispose (q := {x}) (by rwa [zero_add]) ?_
  rw [hds]
  rfl

theorem allocate (h : Accounted n s p) :
    Accounted n { s with nextPacket := s.nextPacket + 1 } (p + {s.nextPacket}) := by
  refine ⟨h.lists, h.log, h.since.trans (Nat.le_succ _), ?_⟩
  calc owned s + (p + {s.nextPacket})
      = {s.nextPacket} + (owned s + p) := by abel
    _ = Multiset.range (s.nextPacket + 1) := by
        rw [h.total, Multiset.range_succ, Multiset.singleton_add]

theorem settle (h : Accounted n s (p + q)) (w : World) {f : ℕ → List Disposal} (hf : Leaves f)
    {ba : RtmpAdapter} (hba : Takes s.ba ba q) : Accounted n (RxPath.settle s w f ba) p := by
  obtain ⟨hl, hp⟩ := hba h.lists
  refine ⟨⟨hl.free, hl.list⟩, rfl, h.since, ?_⟩
  have hnow : BlockAck.Conservation.packets ba =
      (ba.log.filterMap fun e => eventPacket e.2 : Multiset ℕ) +
        BlockAck.Conservation.packets { ba with log := [] } := by
    simp only [BlockAck.Conservation.packets, List.filterMap_nil, Multiset.coe_nil, zero_add]
  have hd : ((RxPath.settle s w f ba).disposals.filterMap Disposal.packet : Multiset ℕ) =
      (s.disposals.filterMap Disposal.packet : Multiset ℕ) +
        (ba.log.filterMap fun e => eventPacket e.2 : Multiset ℕ) := by
    rw [RxPath.settle, List.filterMap_append, disposals_packet s w hf, ← Multiset.coe_add]
  calc owned (RxPath.settle s w f ba) + p
      = (s.disposals.filterMap Disposal.packet : Multiset ℕ) +
          (ba.log.filterMap fun e => eventPacket e.2 : Multiset ℕ) +
          BlockAck.Conservation.packets { ba with log := [] } + {s.pFragPacket} + p := by
        rw [owned, hd]
        rfl
    _ = (s.disposals.filterMap Disposal.packet : Multiset ℕ) + BlockAck.Conservation.packets ba +
          {s.pFragPacket} + p := by
        rw [hnow, ← add_assoc]
    _ = owned s + (p + q) := by
        rw [hp, owned]
        abel
    _ = Multiset.range s.nextPacket := h.total

theorem settle_none (h : Accounted n s p) (w : World) {ba : RtmpAdapter} (hba : Takes s.ba ba 0) :
    Accounted n (RxPath.settle s w (fun p => [.toOs p]) ba) p :=
  settle (q := 0) (by rwa [add_zero]) w leaves_toOs hba

/-! ### The ways up -/

variable {rx : RxBlk}

theorem indicateLegacyPacket (h : Accounted n s {rx.pRxPacket}) (w : World) :
    Accounted n (RxPath.indicateLegacyPacket s w rx) 0 := by
  unfold RxPath.indicateLegacyPacket
  split_ifs
  · exact h.leave rfl
  · split
    · exact (h.settle_none w (takes_flush s.ba _ _)).leave rfl
    · exact h.leave rfl

theorem staRxEAPOLFrameIndicate (h : Accounted n s {rx.pRxPacket}) (w : World) :
    Accounted n (RxPath.staRxEAPOLFrameIndicate s w rx) 0 := by
  unfold RxPath.staRxEAPOLFrameIndicate
  split_ifs
  · exact h.indicateLegacyPacket w
  · exact h.leave rfl

theorem indicateAmpduPacket (h : Accounted n s {rx.pRxPacket}) (w : World) (fRxEap : Bool) :
    Accounted n (RxPath.indicateAmpduPacket s w rx fRxEap) 0 := by
  unfold RxPath.indicateAmpduPacket
  dsimp only
  split_ifs
  · exact h.leave rfl
  · exact h.leave (leaves_indicate s w rx fRxEap rx.pRxPacket)
  · have hin : Accounted n s (0 + {(rx.toReorder fRxEap).pRxPacket}) := by
      rw [zero_add]
      exact h
    have hout := fun idx env => hin.settle w (leaves_indicate s w rx fRxEap)
      (takes_indicate s.ba idx env (rx.toReorder fRxEap))
    exact ⟨(hout _ _).lists, (hout _ _).log, h.since, (hout _ _).total⟩
  · exact h.leave rfl

theorem cmmRxnonRalinkFrameIndicate (h : Accounted n s {rx.pRxPacket}) (w : World) :
    Accounted n (RxPath.cmmRxnonRalinkFrameIndicate s w rx) 0 := by
  unfold RxPath.cmmRxnonRalinkFrameIndicate
  split_ifs
  · exact h.indicateAmpduPacket w false
  · exact h.leave (leaves_deaggregate w (fun _ => rx.pkt) rx.pRxPacket)
  · exact h.indicateLegacyPacket w

theorem cmmRxRalinkFrameIndicate (h : Accounted n s {rx.pRxPacket}) (w : World) :
    Accounted n (RxPath.cmmRxRalinkFrameIndicate s w rx) 0 := by
  unfold RxPath.cmmRxRalinkFrameIndicate
  split_ifs
  · refine dispose (q := {rx.pRxPacket} + {s.nextPacket}) ?_ rfl
    rw [zero_add]
    exact h.allocate
  · exact h.leave rfl
  · exact h.leave rfl

/-! ### Data frames -/

theorem staRxDataFrameAnnounce (h : Accounted n s {rx.pRxPacket}) (w : World) :
    Accounted n (RxPath.staRxDataFrameAnnounce s w rx) 0 := by
  unfold RxPath.staRxDataFrameAnnounce
  split_ifs
  · exact h.indicateAmpduPacket w true
  · exact h.staRxEAPOLFrameIndicate w
  · exact h.leave rfl
  · exact h.leave rfl
  · exact h.cmmRxRalinkFrameIndicate w
  · exact h.cmmRxnonRalinkFrameIndicate w
  · exact h.leave rfl

theorem swap (h : Accounted n s 0) :
    Accounted n { s with pFragPacket := s.nextPacket, nextPacket := s.nextPacket + 1 } {s.pFragPacket} := by
  refine ⟨h.lists, h.log, h.since.trans (Nat.le_succ _), ?_⟩
  have hp := h.allocate.total
  rw [owned] at hp ⊢
  rw [← hp]
  dsimp only
  abel

/-- **The fragment buffer** changes hands when a packet is complete; the ring packet is released in any
case. -/
theorem deFragment (h : Accounted n s {rx.pRxPacket}) (w : World) : match RxPath.deFragment s w rx with
    | (t, some p) => Accounted n t {p.1}
    | (t, none) => Accounted n t 0 := by
  have hrel : Accounted n (s.dispose [.release rx.pRxPacket]) 0 := h.leave rfl
  unfold RxPath.deFragment
  dsimp only
  generalize rtmpDeFragmentDataFrame s.fragFrame _ = r
  have hnone : Accounted n { s.dispose [.release rx.pRxPacket] with fragFrame := r.1 } 0 :=
    hrel.congr rfl rfl rfl rfl
  cases r.2 with
  | none => exact hnone
  | some pkt => exact hnone.swap

theorem announceReassembled {t : ℕ × Packet} (h : Accounted n s {t.1}) (w : World) (rx : RxBlk)
    (decrypted : Bool) : Accounted n (RxPath.announceReassembled s w rx decrypted t) 0 := by
  have hup : ∀ pkt, Accounted n (RxPath.staRxDataFrameAnnounce s w
      { rx with pRxPacket := t.1, pkt := pkt, rxWI := w.staleRxWI }) 0 := by
    intro pkt
    apply staRxDataFrameAnnounce
    exact h
  unfold RxPath.announceReassembled
  dsimp only
  split_ifs
  · exact hup _
  · exact h.leave rfl
  · exact hup _

theorem ite {c : Prop} [Decidable c] {t e : Adapter} {p : Multiset ℕ} (ht : Accounted n t p)
    (he : Accounted n e p) : Accounted n (if c then t else e) p := by
  split
  · exact ht
  · exact he

/-- **A data frame:** dropped, multicast, a fragment, or a frame of its own. -/
theorem staHandleRxDataFrame {x : ℕ} (h : Accounted n s {x}) (w : World) (rx : RxPacket) :
    Accounted n (RxPath.staHandleRxDataFrame s w x rx) 0 := by
  have hdrop : Accounted n (s.dispose [.release x]) 0 := h.leave rfl
  have hblk : Accounted n s {(dataRxBlk s.cfg x rx).pRxPacket} := h
  -- the six tests before the frame is looked at, then the two kinds of address
  refine hdrop.ite (hdrop.ite (hdrop.ite (hdrop.ite (hdrop.ite (hdrop.ite (ite ?_ (ite (ite ?_ ?_) hdrop)))))))
  · exact hdrop.ite (hdrop.ite (hblk.indicateLegacyPacket w))
  · have hfrag := hblk.deFragment w
    revert hfrag
    rcases RxPath.deFragment s w (dataRxBlk s.cfg x rx) with ⟨t, _ | p⟩
    · exact fun hfrag => hfrag
    · exact fun hfrag => hfrag.announceReassembled w _ _
  · exact hblk.staRxDataFrameAnnounce w

/-! ### The loop -/

theorem takes_enqueueBar (ba : RtmpAdapter) (rxWI : RxWi) (m : ℕ → Byte) : Takes ba (enqueueBar ba rxWI m) 0 := by
  unfold enqueueBar
  dsimp only
  split_ifs
  · exact takes_step ba (.cntlEnqueueForRecv ..)
  · exact .refl ba

theorem handlePacket {x : ℕ} (h : Accounted n s {x}) (w : World) (rx : RxPacket) :
    Accounted n (RxPath.handlePacket s w x rx) 0 := by
  have hdrop : Accounted n (s.dispose [.release x]) 0 := h.leave rfl
  unfold RxPath.handlePacket
  split_ifs
  · exact hdrop
  · exact hdrop
  · unfold staMonPktSend
    split_ifs
    · exact hdrop
    · exact hdrop
    · exact h.leave rfl
    · exact hdrop
  · split
    · exact h.staHandleRxDataFrame w rx
    · unfold staHandleRxMgmtFrame
      split_ifs
      · exact hdrop
      · exact h.leave rfl
    · unfold staHandleRxControlFrame
      split_ifs
      · exact (h.settle_none w (takes_enqueueBar s.ba rx.rxWI rx.header)).leave rfl
      · exact hdrop
    · exact hdrop
  · exact hdrop

theorem staRxDoneInterruptHandle (ring : List (Flags × RingEntry)) (h : Accounted n s 0) :
    Accounted n (RxPath.staRxDoneInterruptHandle ring s) 0 := by
  induction ring generalizing s with
  | nil => exact h
  | cons e ring ih =>
    obtain ⟨flags, entry⟩ := e
    unfold RxPath.staRxDoneInterruptHandle
    split_ifs
    · exact h
    · cases entry with
      | cmdRsp => exact ih h
      | packet rx w =>
        have hring := h.allocate
        rw [zero_add] at hring
        exact ih (hring.handlePacket w rx)

theorem step (h : Accounted n s 0) (op : Op) : Accounted n (RxPath.step s op) 0 := by
  cases op with
  | staRxDoneInterruptHandle ring => exact h.staRxDoneInterruptHandle ring
  | blockAck op w own =>
    have hgiven : given op = 0 := by
      cases op with
      | indicateAmpduPacket rx now32 legacyNow32 => exact absurd rfl (own rx now32 legacyNow32)
      | _ => rfl
    have htakes := takes_step s.ba op
    rw [hgiven] at htakes
    exact h.settle_none w htakes
  | configure cfg => exact h.congr rfl rfl rfl rfl

end Accounted

/-! ### Every run -/

theorem accounted_init (cfg : Settings) (ba : Config) (num : ℕ) (attrs : Fin 32 → MacTableEntry)
    (m : ℕ → Byte) : Accounted 0 (init cfg ba num attrs m) 0 := by
  refine ⟨listsCounted_init ba num attrs, rfl, Nat.zero_le _, ?_⟩
  have h0 : packets (initAdapter ba num attrs) = 0 := by
    simp [packets, initAdapter, zeroRecEntry]
  simp only [owned, init, h0]
  rfl

/-- **Every run** leaves each packet that was allocated in one place. -/
theorem Accounted.run {n : ℕ} {s : Adapter} (h : Accounted n s 0) (ops : List Op) :
    Accounted n (Runs.run RxPath.step s ops) 0 :=
  run_invariant_all (I := fun s => Accounted n s 0) (fun _ op h => h.step op) ops _ h

/-! ### The tables -/

/-! ### A single packet -/

def passesUp (p : ℕ) : Disposal → Bool
  | .toOs q => q = p
  | _ => false

def releases (p : ℕ) : Disposal → Bool
  | .release q => q = p
  | _ => false

def passedUp (s : Adapter) (p : ℕ) : ℕ := s.disposals.countP (passesUp p)

def released (s : Adapter) (p : ℕ) : ℕ := s.disposals.countP (releases p)

def places (s : Adapter) (p : ℕ) : ℕ :=
  passedUp s p + released s p + ∑ i, held s.ba i p + if p = s.pFragPacket then 1 else 0

/-- Each packet that was ever allocated is in one place, nothing else is anywhere, and the fragment buffer
is a packet that has neither been passed up nor released and that no list holds. -/
structure Owned (s : Adapter) : Prop where
  once : ∀ p < s.nextPacket, places s p = 1
  fresh : ∀ p, s.nextPacket ≤ p → places s p = 0
  buffer : s.pFragPacket < s.nextPacket
  kept : passedUp s s.pFragPacket = 0 ∧ released s s.pFragPacket = 0 ∧ ∀ i, held s.ba i s.pFragPacket = 0

theorem count_disposals (p : ℕ) (ds : List Disposal) :
    (ds.filterMap Disposal.packet).count p = ds.countP (passesUp p) + ds.countP (releases p) := by
  induction ds with
  | nil => rfl
  | cons d ds ih =>
    rw [List.filterMap_cons, List.countP_cons, List.countP_cons]
    generalize ds.filterMap Disposal.packet = l at ih ⊢
    generalize ds.countP (passesUp p) = a at ih ⊢
    generalize ds.countP (releases p) = b at ih ⊢
    cases d with
    | toOs q =>
      simp only [Disposal.packet, passesUp, releases, List.count_cons, ih, beq_iff_eq, decide_eq_true_eq,
        Bool.false_eq_true, if_false]
      omega
    | release q =>
      simp only [Disposal.packet, passesUp, releases, List.count_cons, ih, beq_iff_eq, decide_eq_true_eq,
        Bool.false_eq_true, if_false]
      omega
    | report q => exact ih
    | subframe q e => exact ih

theorem Accounted.count {n : ℕ} {s : Adapter} (h : Accounted n s 0) (p : ℕ) :
    places s p = (Multiset.range s.nextPacket).count p := by
  have hba : (packets s.ba).count p = ∑ i, held s.ba i p := by
    rw [count_packets, delivered, BlockAck.Conservation.released, h.log]
    simp
  rw [← h.total, add_zero, owned, Multiset.count_add, Multiset.count_add, Multiset.coe_count,
    count_disposals, hba, Multiset.count_singleton]
  rfl

theorem Accounted.owned {n : ℕ} {s : Adapter} (h : Accounted n s 0) : Owned s := by
  have honce : ∀ p < s.nextPacket, places s p = 1 := by
    intro p hp
    rw [h.count]
    exact Multiset.count_eq_one_of_mem (Multiset.nodup_range _) (Multiset.mem_range.2 hp)
  have hfresh : ∀ p, s.nextPacket ≤ p → places s p = 0 := by
    intro p hp
    rw [h.count]
    exact Multiset.count_eq_zero_of_notMem fun hm => by
      rw [Multiset.mem_range] at hm
      omega
  have hbuffer : s.pFragPacket < s.nextPacket := by
    by_contra hge
    have h0 := hfresh s.pFragPacket (by omega)
    rw [places, if_pos rfl] at h0
    omega
  have h1 := honce s.pFragPacket hbuffer
  rw [places, if_pos rfl] at h1
  have hsum : ∑ i, held s.ba i s.pFragPacket = 0 := by omega
  refine ⟨honce, hfresh, hbuffer, by omega, by omega, fun i => ?_⟩
  exact Finset.sum_eq_zero_iff.1 hsum i (Finset.mem_univ i)

theorem Accounted.places_ring {n : ℕ} {s : Adapter} (h : Accounted n s 0) (w : World) (rx : RxPacket)
    (later : List Op) :
    places (Runs.run RxPath.step (RxPath.handlePacket { s with nextPacket := s.nextPacket + 1 } w s.nextPacket rx)
      later) s.nextPacket = 1 := by
  have hring := h.allocate
  rw [zero_add] at hring
  have hsince : Accounted (s.nextPacket + 1) { s with nextPacket := s.nextPacket + 1 } {s.nextPacket} :=
    ⟨hring.lists, hring.log, le_rfl, hring.total⟩
  have hlater := (hsince.handlePacket w rx).run later
  exact hlater.owned.once _ hlater.since

/-- **Received packets are conserved.** After every run of the receive loop, mixed in any order with the
rest of the block-ack code, each packet is in one place: passed to the OS once, released once, held by one
block of one reordering list, or the fragment buffer, which is not given away while it is in use. The
packet of any frame that the ring returns then is in one place when the loop is through with it, and stays
so. -/
theorem owned_run (cfg : Settings) (ba : Config) (num : ℕ) (attrs : Fin 32 → MacTableEntry)
    (m : ℕ → Byte) (ops : List Op) : let s := run step (init cfg ba num attrs m) ops
    Owned s ∧ ∀ w rx later,
      places (run step (handlePacket { s with nextPacket := s.nextPacket + 1 } w s.nextPacket rx) later)
        s.nextPacket = 1 := by
  have h := (accounted_init cfg ba num attrs m).run ops
  exact ⟨h.owned, fun w rx later => h.places_ring w rx later⟩

end Mt7610u.Data.RxPath
