import Mathlib.Algebra.BigOperators.Group.Finset.Piecewise
import Mathlib.Tactic.Abel
import Mt7610u.BlockAck.Steps

/-! # Packets and blocks are neither lost nor doubled

Every packet given to `Indicate_AMPDU_Packet` is passed up, released, or held by one block of one
reordering list; every block of the pool is in the free list or in one reordering list.

`ba_enqueue_reordering_packet` allocates a block before it looks whether the frame is an EAP frame, and
its second branch does not give the block back. -/

namespace Mt7610u.BlockAck.Conservation

open Reorder Session SessionSpec Tables Consistency Steps ReorderInv Lib.Runs

/-! ### One session -/

def eventPacket : Event → Option ℕ
  | .deliver p _ => some p
  | .release p => some p
  | .reset => none

def sessionPackets (s : Session) : Multiset ℕ :=
  (s.events.filterMap eventPacket : Multiset ℕ) + (s.ent.list.next.map ReorderingMpdu.pPacket : Multiset ℕ)

def sessionBlocks (s : Session) : Multiset ℕ :=
  (s.freelist.next.map ReorderingMpdu.addr : Multiset ℕ) + (s.ent.list.next.map ReorderingMpdu.addr : Multiset ℕ)

/-- From `s` to `t` the packets `p` are taken in and the blocks `b` are lost. -/
structure Keeps (s t : Session) (p b : Multiset ℕ) : Prop where
  packets : sessionPackets t = sessionPackets s + p
  blocks : sessionBlocks t + b = sessionBlocks s

namespace Keeps

variable {s t u : Session} {p q b c : Multiset ℕ}

theorem refl (s : Session) : Keeps s s 0 0 := ⟨(add_zero _).symm, add_zero _⟩

theorem trans (h : Keeps s t p b) (h' : Keeps t u q c) : Keeps s u (p + q) (b + c) := by
  constructor
  · rw [h'.packets, h.packets, add_assoc]
  · rw [← h.blocks, ← h'.blocks, add_assoc, add_comm b c]

theorem congr (h : Keeps s t p b) (hf : u.freelist.next = t.freelist.next) (hl : u.ent.list.next = t.ent.list.next)
    (he : u.events.filterMap eventPacket = t.events.filterMap eventPacket) : Keeps s u p b := by
  constructor
  · rw [← h.packets, sessionPackets, sessionPackets, hl, he]
  · rw [← h.blocks, sessionBlocks, sessionBlocks, hl, hf]

theorem advanceTo (s : Session) (n a : ℕ) : Keeps s (advanceTo s n a) 0 0 := by
  have hsplit : s.ent.list.next.take n ++ s.ent.list.next.drop n = s.ent.list.next := List.take_append_drop n _
  constructor
  · have hmap : ((s.ent.list.next.take n).map fun b => Event.deliver b.pPacket b.sequence).filterMap
        eventPacket = (s.ent.list.next.take n).map ReorderingMpdu.pPacket := by
      rw [List.filterMap_map]
      exact congrFun List.filterMap_eq_map' _
    simp only [sessionPackets, SessionSpec.advanceTo, setLast, releaseFirst, List.filterMap_append, hmap,
      add_zero, ← Multiset.coe_add, add_assoc]
    rw [Multiset.coe_add ((s.ent.list.next.take n).map _), ← List.map_append, hsplit]
  · simp only [sessionBlocks, SessionSpec.advanceTo, setLast, releaseFirst, List.map_append, add_zero,
      List.map_reverse, ← Multiset.coe_add, Multiset.coe_reverse]
    rw [add_right_comm, Multiset.coe_add, ← List.map_append, hsplit, add_comm]

theorem leSeq (hc : Counted s.ent.list) (m a : ℕ) : Keeps s ((s.indicateLeSeq m).setLast a) 0 0 := by
  obtain ⟨n, -, he⟩ := indicateLeSeq_cases hc m a
  rw [he]
  exact advanceTo s n a

theorem drain (hc : Counted s.ent.list) : Keeps s (drain s) 0 0 := by
  obtain ⟨n, -, a, he⟩ := drain_cases hc
  rw [he]
  exact advanceTo s n a

theorem refresh (hc : Counted s.ent.list) : Keeps s s.baRefreshReorderingMpdus 0 0 := by
  rw [baRefreshReorderingMpdus_eq hc]
  refine (advanceTo s s.ent.list.next.length resetRcvSeq).congr rfl rfl ?_
  simp [Session.emit, eventPacket, SessionSpec.advanceTo, List.filterMap_append]

theorem flush (h : Balanced s) (hz : ℕ) (now : Tick) : Keeps s (s.baFlushReorderingTimeoutMpdus hz now) 0 0 := by
  rcases flush_cases hz s now with hf | hf | ⟨-, hf⟩ <;> rw [hf]
  · exact refl s
  · exact (refresh h.list).congr rfl rfl rfl
  · have h1 : Keeps s ((shift s ((s.ent.lastIndSeq + 1) &&& maxSeq)).setTimer now) 0 0 :=
      (leSeq h.list _ ((s.ent.lastIndSeq + 1) &&& maxSeq)).congr rfl rfl rfl
    have h2 := (h.leSeq ((s.ent.lastIndSeq + 1) &&& maxSeq) ((s.ent.lastIndSeq + 1) &&& maxSeq)).list
    exact h1.trans (drain h2)

theorem emit (s : Session) {e : Event} {p : ℕ} (he : eventPacket e = some p) : Keeps s (s.emit e) {p} 0 := by
  constructor
  · simp only [sessionPackets, Session.emit, List.filterMap_append, List.filterMap_cons, he,
      List.filterMap_nil, ← Multiset.coe_add]
    exact add_right_comm _ _ _
  · exact add_zero _

theorem indicate (h : Balanced s) (env : RxEnv) (rx : RxBlk) :
    Keeps s (indicateLegacyOrAmsdu env s rx) {rx.pRxPacket} 0 := by
  rcases indicateLegacyOrAmsdu_cases env s rx with hi | hi <;> rw [hi]
  · exact emit s rfl
  · have h1 := (flush h env.osHz env.legacyNow32).trans (emit _ (e := .deliver rx.pRxPacket rx.sequence) rfl)
    rwa [zero_add, zero_add] at h1

theorem allocated (hf : Counted s.freelist) : Keeps s (allocated s) 0
    (s.freelist.next.head?.toList.map ReorderingMpdu.addr : Multiset ℕ) := by
  constructor
  · exact (add_zero _).symm
  · simp only [sessionBlocks, SessionSpec.allocated, baDequeue_eq hf]
    cases s.freelist.next with
    | nil => simp
    | cons blk rest =>
      simp only [List.tail_cons, List.head?_cons, Option.toList_some, List.map_cons, List.map_nil,
        ← Multiset.cons_coe, ← Multiset.singleton_add]
      rw [add_comm, ← add_assoc]
      rfl

theorem insertsortedScan_perm {m : ReorderingMpdu} : ∀ {l l' : List ReorderingMpdu},
    insertsortedScan m l = some l' → l'.Perm (m :: l)
  | [], l', h => by
    simp only [insertsortedScan, Option.some.injEq] at h
    rw [← h]
  | scan :: rest, l', h => by
    unfold insertsortedScan at h
    split_ifs at h
    · obtain ⟨l'', h1, rfl⟩ := Option.map_eq_some_iff.mp h
      exact ((insertsortedScan_perm h1).cons scan).trans (List.Perm.swap m scan rest)
    · simp only [Option.some.injEq] at h
      rw [← h]

theorem insertPacket (s : Session) (m : ReorderingMpdu) :
    sessionPackets (s.insertPacket m) = sessionPackets s + {m.pPacket} ∧
      sessionBlocks (s.insertPacket m) = sessionBlocks s + {m.addr} := by
  rcases insertPacket_cases s m with ⟨-, he⟩ | ⟨l, hl, he⟩ <;> rw [he]
  · refine ⟨(emit s (e := .release m.pPacket) rfl).packets, ?_⟩
    simp only [sessionBlocks, baEnqueue, Session.emit, List.map_cons, ← Multiset.cons_coe, ← Multiset.singleton_add]
    abel
  · have hp := insertsortedScan_perm hl
    have h1 : (l.map ReorderingMpdu.pPacket : Multiset ℕ) = m.pPacket ::ₘ
        (s.ent.list.next.map ReorderingMpdu.pPacket : Multiset ℕ) :=
      Multiset.coe_eq_coe.mpr (hp.map _)
    have h2 : (l.map ReorderingMpdu.addr : Multiset ℕ) = m.addr ::ₘ
        (s.ent.list.next.map ReorderingMpdu.addr : Multiset ℕ) :=
      Multiset.coe_eq_coe.mpr (hp.map _)
    simp only [sessionPackets, sessionBlocks, h1, h2, ← Multiset.singleton_add]
    constructor <;> abel

theorem bypassPacket (h : Balanced s) (env : RxEnv) (rx : RxBlk) :
    Keeps s (Session.bypassPacket env s rx) {rx.pRxPacket} 0 := by
  have h1 := (leSeq h.list rx.sequence rx.sequence).trans
    (indicate (h.leSeq rx.sequence rx.sequence) env rx)
  rwa [zero_add, zero_add] at h1

/-- **What `ba_enqueue_reordering_packet` loses:** the block that it takes for an EAP frame. -/
theorem enqueue (h : Balanced s) (env : RxEnv) (rx : RxBlk) :
    ∃ b, Keeps s (baEnqueueReorderingPacket env s rx) {rx.pRxPacket} b ∧
      (rx.fRxEap = false ∨ s.freelist.qlen = 0 → b = 0) := by
  have ha := allocated h.free
  rcases enqueue_cases env s rx h.free with ⟨-, blk, hblk, he⟩ | ⟨hb, he⟩ <;> rw [he]
  · have hi := insertPacket (SessionSpec.allocated s) (fillBlk (zeroBlk blk.addr) rx)
    rw [hblk] at ha
    refine ⟨0, ⟨?_, ?_⟩, fun _ => rfl⟩
    · rw [hi.1, ha.packets, add_zero]
      rfl
    · rw [hi.2, add_zero, ← ha.blocks]
      rfl
  · have h1 := ha.trans (bypassPacket h.allocated env rx)
    rw [zero_add, add_zero] at h1
    refine ⟨_, h1, fun hno => ?_⟩
    have hq : s.freelist.qlen = 0 := by
      rcases hno with hno | hno
      · rcases hb with hb | hb
        · simp [hb] at hno
        · exact hb
      · exact hno
    rw [h.free, List.length_eq_zero_iff] at hq
    rw [hq]
    rfl

end Keeps

/-- The frame is an EAP frame that comes to `ba_enqueue_reordering_packet`, in case IV or V, when there
is a free block. -/
def EapTakesBlock (s : Session) (rx : RxBlk) : Prop :=
  rx.fRxEap = true ∧
    (classify s.ent rx.sequence = .inWindow ∧ s.freelist.qlen ≠ 0 ∨
      classify s.ent rx.sequence = .surpass ∧ (s.indicateLeSeq (winStartSeq s.ent rx.sequence)).freelist.qlen ≠ 0)

instance (s : Session) (rx : RxBlk) : Decidable (EapTakesBlock s rx) := inferInstanceAs (Decidable (_ ∧ _))

namespace Keeps

variable {s : Session}

theorem arrive (h : Balanced s) (env : RxEnv) (rx : RxBlk) : Keeps s (Session.arrive env s rx) 0 0 := by
  have h1 : Balanced { s with ent := { s.ent with rcvSeq := rx.sequence } } := ⟨h.list, h.free⟩
  have h2 := flush h1 env.osHz env.now32
  exact ⟨h2.packets, h2.blocks⟩

/-- **What one frame does:** its packet is taken in, and a block is lost only to an EAP frame. -/
theorem indicateCases (h : Balanced s) (env : RxEnv) (rx : RxBlk) :
    ∃ b, Keeps s (Session.indicateCases env s rx) {rx.pRxPacket} b ∧
      (¬ EapTakesBlock s rx → b = 0) := by
  unfold Session.indicateCases
  cases hc : classify s.ent rx.sequence with
  | reset =>
    have h1 : Balanced ((s.setLast rx.sequence).setTimer env.now32) := ⟨h.list, h.free⟩
    have h2 := indicate h1 env rx
    exact ⟨0, ⟨h2.packets, h2.blocks⟩, fun _ => rfl⟩
  | inOrder =>
    have h1 : Balanced (s.setLast rx.sequence) := ⟨h.list, h.free⟩
    have h2 : Keeps s (indicateLegacyOrAmsdu env (s.setLast rx.sequence) rx) {rx.pRxPacket} 0 :=
      ⟨(indicate h1 env rx).packets, (indicate h1 env rx).blocks⟩
    have h3 := h2.trans (drain (h1.indicate env rx).list)
    exact ⟨0, h3.congr rfl rfl rfl, fun _ => rfl⟩
  | duplicate => exact ⟨0, (emit s (e := .release rx.pRxPacket) rfl).congr rfl rfl rfl, fun _ => rfl⟩
  | old => exact ⟨0, (emit s (e := .release rx.pRxPacket) rfl).congr rfl rfl rfl, fun _ => rfl⟩
  | inWindow =>
    obtain ⟨b, h1, h2⟩ := enqueue h env rx
    refine ⟨b, h1, fun hno => h2 ?_⟩
    by_contra hc'
    push Not at hc'
    exact hno ⟨by simpa using hc'.1, Or.inl ⟨hc, hc'.2⟩⟩
  | surpass =>
    have hs : Keeps s (s.surpassShift rx.sequence env.now32) 0 0 :=
      (leSeq h.list _ (winStartSeq s.ent rx.sequence)).congr rfl rfl rfl
    have hb := h.surpassShift rx.sequence env.now32
    obtain ⟨b, h1, h2⟩ := enqueue hb env rx
    have h3 := (hs.trans h1).trans (drain (hb.enqueue env rx).list)
    rw [zero_add, zero_add, add_zero, add_zero] at h3
    refine ⟨b, h3, fun hno => h2 ?_⟩
    by_contra hc'
    push Not at hc'
    exact hno ⟨by simpa using hc'.1, Or.inr ⟨hc, hc'.2⟩⟩

theorem indicateAmpduSession (h : Balanced s) (env : RxEnv) (rx : RxBlk) :
    ∃ b, Keeps s (Session.indicateAmpduSession env s rx) {rx.pRxPacket} b ∧
      (¬ EapTakesBlock (Session.arrive env s rx) rx → b = 0) := by
  obtain ⟨b, h1, h2⟩ := indicateCases (h.arrive env rx) env rx
  have h3 := (arrive h env rx).trans h1
  rw [zero_add, zero_add] at h3
  exact ⟨b, h3, h2⟩

theorem cntlBar (h : Balanced s) (q : Fin 4096) : Keeps s (s.cntlBar q) 0 0 := by
  unfold Session.cntlBar
  split_ifs
  · exact leSeq h.list _ _
  · exact leSeq h.list _ _
  · exact refl s

theorem openSession (w : Fin 256) (aid : Fin 32) (frame : FrameAddbaReq) (s : Session) :
    Keeps s (openSession w aid frame s) 0 0 := by
  refine (refl s).congr rfl rfl ?_
  simp [Tables.openSession, Session.emit, eventPacket, List.filterMap_append]

theorem endSession (hc : Counted s.ent.list) : Keeps s (endSession s) 0 0 := (refresh hc).congr rfl rfl rfl

end Keeps

/-! ### The adapter -/

def packets (pAd : RtmpAdapter) : Multiset ℕ :=
  (pAd.log.filterMap fun e => eventPacket e.2 : Multiset ℕ) +
    ∑ i, ((pAd.baRecEntry i).list.next.map ReorderingMpdu.pPacket : Multiset ℕ)

def blocks (pAd : RtmpAdapter) : Multiset ℕ :=
  (pAd.freelist.next.map ReorderingMpdu.addr : Multiset ℕ) +
    ∑ i, ((pAd.baRecEntry i).list.next.map ReorderingMpdu.addr : Multiset ℕ)

theorem sum_update {α : Type*} (g : BaRecEntry → Multiset α) (f : Fin 128 → BaRecEntry) (i : Fin 128)
    (e : BaRecEntry) : ∑ j, g (Function.update f i e j) + g (f i) = ∑ j, g (f j) + g e := by
  have h1 := Finset.sum_erase_add Finset.univ (fun j => g (Function.update f i e j)) (Finset.mem_univ i)
  have h2 := Finset.sum_erase_add Finset.univ (fun j => g (f j)) (Finset.mem_univ i)
  have h3 : ∑ j ∈ Finset.univ.erase i, g (Function.update f i e j) =
      ∑ j ∈ Finset.univ.erase i, g (f j) := by
    refine Finset.sum_congr rfl fun j hj => ?_
    rw [Function.update_of_ne (Finset.ne_of_mem_erase hj)]
  rw [← h1, ← h2, h3, Function.update_self]
  abel

theorem sum_exchange {S S' L L' E p : Multiset ℕ} (hu : S' + L = S + L') (hp : E + L' = L + p) :
    E + S' = S + p := by
  refine add_right_cancel (b := L) ?_
  calc E + S' + L = E + L' + S := by rw [add_assoc, hu]; abel
    _ = S + p + L := by rw [hp]; abel

theorem packets_onRecEntry {pAd : RtmpAdapter} {i : Fin 128} {f : Session → Session}
    {p b : Multiset ℕ} (h : Keeps (session pAd i) (f (session pAd i)) p b) :
    packets (pAd.onRecEntry i f) = packets pAd + p := by
  have hp := h.packets
  simp only [sessionPackets, session, List.filterMap_nil, Multiset.coe_nil, zero_add] at hp
  have hs := sum_exchange (sum_update (fun e => (e.list.next.map ReorderingMpdu.pPacket : Multiset ℕ))
    pAd.baRecEntry i (f (session pAd i)).ent) hp
  have hlog : ((pAd.onRecEntry i f).log.filterMap fun e => eventPacket e.2) =
      (pAd.log.filterMap fun e => eventPacket e.2) ++
        (f (session pAd i)).events.filterMap eventPacket := by
    rw [RtmpAdapter.onRecEntry, List.filterMap_append, List.filterMap_map]
    rfl
  rw [packets, hlog, ← Multiset.coe_add, add_assoc, packets, add_assoc]
  exact congrArg _ hs

theorem blocks_onRecEntry {pAd : RtmpAdapter} {i : Fin 128} {f : Session → Session}
    {p b : Multiset ℕ} (h : Keeps (session pAd i) (f (session pAd i)) p b) :
    blocks (pAd.onRecEntry i f) + b = blocks pAd := by
  have hb := h.blocks.trans (add_comm _ _)
  rw [sessionBlocks, add_right_comm] at hb
  have hs := sum_exchange (sum_update (fun e => (e.list.next.map ReorderingMpdu.addr : Multiset ℕ))
    pAd.baRecEntry i (f (session pAd i)).ent) hb
  rw [blocks, add_right_comm]
  exact hs.trans (add_comm _ _)

theorem moveInvariant_conserved (p b : Multiset ℕ) : MoveInvariant fun pAd => packets pAd = p ∧ blocks pAd = b := by
  have hmove : ∀ (a : RtmpAdapter) (i : Fin 128) (f : Session → Session),
      Keeps (session a i) (f (session a i)) 0 0 → packets a = p ∧ blocks a = b →
      packets (a.onRecEntry i f) = p ∧ blocks (a.onRecEntry i f) = b := by
    rintro a i f h ⟨rfl, rfl⟩
    exact ⟨(packets_onRecEntry h).trans (add_zero _), (add_zero _).symm.trans (blocks_onRecEntry h)⟩
  constructor
  · intro a b hs h
    simpa only [packets, blocks, hs.entries, hs.log, hs.freelist] using h
  · exact fun a i now hb => hmove a i _ (Keeps.flush (hb.balanced i) _ now)
  · exact fun a i hb => hmove a i _ (Keeps.refresh (hb.list i))
  · exact fun a i w aid frame _ _ => hmove a i _ (Keeps.openSession w aid frame _)
  · exact fun a i hb => hmove a i _ (Keeps.endSession (hb.list i))

def given : Op → Multiset ℕ
  | .indicateAmpduPacket rx _ _ => {rx.pRxPacket}
  | _ => 0

def NoEapTakesBlock (pAd : RtmpAdapter) : Op → Prop
  | .indicateAmpduPacket rx now32 legacyNow32 => ∀ i ∈ rxSession pAd rx,
      ¬ EapTakesBlock (arrive (rxEnv pAd now32 legacyNow32) (session pAd i) rx) rx
  | _ => True

instance (pAd : RtmpAdapter) : ∀ op, Decidable (NoEapTakesBlock pAd op)
  | .indicateAmpduPacket rx _ _ =>
    inferInstanceAs (Decidable (∀ i ∈ rxSession pAd rx, _))
  | .configure _ | .baOriSessionSetUp .. | .baOriSessionAdd .. | .baOriSessionTearDown ..
  | .baOriSessionSetupTimeout _ | .baRecSessionAdd .. | .baRecSessionTearDown ..
  | .baSessionTearDownALL .. | .baRecSessionIdleTimeout .. | .peerAddBAReqAction ..
  | .peerAddBARspAction .. | .peerDelBAAction .. | .cntlEnqueueForRecv .. | .flushRecEntry ..
  | .baReOrderingBufferMaintain _ => isTrue trivial

theorem indicateAmpduPacket_conserved {pAd : RtmpAdapter} (h : BaseInv pAd) (rx : RxBlk)
    (now32 legacyNow32 : Tick) :
    packets (indicateAmpduPacket pAd rx now32 legacyNow32) = packets pAd + {rx.pRxPacket} ∧
      (NoEapTakesBlock pAd (.indicateAmpduPacket rx now32 legacyNow32) →
        blocks (indicateAmpduPacket pAd rx now32 legacyNow32) = blocks pAd) := by
  rcases indicateAmpduPacket_cases pAd rx now32 legacyNow32 with ⟨-, e, he, hc⟩ | ⟨i, hi, hc⟩
  · have hp : eventPacket e = some rx.pRxPacket := by
      rcases he with rfl | rfl <;> rfl
    rw [hc]
    refine ⟨?_, fun _ => rfl⟩
    simp only [packets, List.filterMap_append, List.filterMap_cons, hp, List.filterMap_nil, ← Multiset.coe_add]
    exact add_right_comm _ _ _
  · obtain ⟨b, h1, h2⟩ := Keeps.indicateAmpduSession (h.balanced i)
      (rxEnv pAd now32 legacyNow32) rx
    rw [hc]
    refine ⟨packets_onRecEntry h1, fun hok => ?_⟩
    have hb := blocks_onRecEntry
      (f := fun s => s.indicateAmpduSession (rxEnv pAd now32 legacyNow32) rx) h1
    rwa [h2 (hok i hi), add_zero] at hb

theorem cntlEnqueueForRecv_conserved {pAd : RtmpAdapter} (h : BaseInv pAd) (wcid msgLen : ℕ)
    (tid : Fin 8) (q : Fin 4096) :
    packets (cntlEnqueueForRecv pAd wcid msgLen tid q) = packets pAd ∧
      blocks (cntlEnqueueForRecv pAd wcid msgLen tid q) = blocks pAd := by
  rcases cntlEnqueueForRecv_cases pAd wcid msgLen tid q with ⟨-, hc⟩ | ⟨i, -, hc⟩
  · rw [hc]
    exact ⟨rfl, rfl⟩
  · have hk := Keeps.cntlBar (h.balanced i) q
    rw [hc]
    exact ⟨(packets_onRecEntry hk).trans (add_zero _), (add_zero _).symm.trans (blocks_onRecEntry hk)⟩

/-- **One operation:** the packet given to it is taken in, and a block is lost only to an EAP
frame. -/
theorem step_conserved {pAd : RtmpAdapter} (h : BaseInv pAd) (op : Op) :
    BaseInv (step pAd op) ∧ packets (step pAd op) = packets pAd + given op ∧
      (NoEapTakesBlock pAd op → blocks (step pAd op) = blocks pAd) := by
  by_cases hrx : ∃ rx now32 legacyNow32, op = .indicateAmpduPacket rx now32 legacyNow32
  · obtain ⟨rx, now32, legacyNow32, rfl⟩ := hrx
    exact ⟨h.indicateAmpduPacket rx now32 legacyNow32, indicateAmpduPacket_conserved h rx now32 legacyNow32⟩
  · push Not at hrx
    have hg : given op = 0 := by
      cases op with
      | indicateAmpduPacket rx now32 legacyNow32 => exact absurd rfl (hrx rx now32 legacyNow32)
      | _ => rfl
    obtain ⟨h1, h2⟩ := (moveInvariant_conserved (packets pAd) (blocks pAd)).step h ⟨rfl, rfl⟩ op
      (fun rx now32 legacyNow32 ho => absurd ho (hrx rx now32 legacyNow32))
      (fun wcid msgLen tid q _ => cntlEnqueueForRecv_conserved h wcid msgLen tid q)
    rw [hg, add_zero]
    exact ⟨h1, h2.1, fun _ => h2.2⟩

/-! ### Every run -/

/-- The event passes the packet `p` up. -/
def delivers (p : ℕ) : Event → Bool
  | .deliver q _ => q = p
  | _ => false

/-- The event releases the packet `p`. -/
def releases (p : ℕ) : Event → Bool
  | .release q => q = p
  | _ => false

/-- The operation gives the packet `p` to `Indicate_AMPDU_Packet`. -/
def gives (p : ℕ) : Op → Bool
  | .indicateAmpduPacket rx _ _ => rx.pRxPacket = p
  | _ => false

/-- How often the packet `p` has been passed up. -/
def delivered (pAd : RtmpAdapter) (p : ℕ) : ℕ := pAd.log.countP fun e => delivers p e.2

/-- How often the packet `p` has been released. -/
def released (pAd : RtmpAdapter) (p : ℕ) : ℕ := pAd.log.countP fun e => releases p e.2

/-- The number of blocks in the list of the entry `i` that hold the packet `p`. -/
def held (pAd : RtmpAdapter) (i : Fin 128) (p : ℕ) : ℕ := (pAd.baRecEntry i).list.next.countP fun m => m.pPacket = p

/-- How often the packet `p` is given to `Indicate_AMPDU_Packet`. -/
def timesGiven (ops : List Op) (p : ℕ) : ℕ := ops.countP (gives p)

/-- Every packet is in exactly one place as often as it was given, the blocks in all lists add up to
the pool, and no block is listed twice. -/
structure Conserved (pAd : RtmpAdapter) (num : ℕ) (ops : List Op) : Prop where
  packet : ∀ p, delivered pAd p + released pAd p + ∑ i, held pAd i p = timesGiven ops p
  pool : pAd.freelist.qlen + ∑ i, (pAd.baRecEntry i).list.qlen = num
  once : blocks pAd = Multiset.range num

theorem count_settled (p : ℕ) : ∀ log : List (Option (Fin 128) × Event),
    (log.filterMap fun e => eventPacket e.2).count p =
      (log.countP fun e => delivers p e.2) + log.countP fun e => releases p e.2
  | [] => rfl
  | (i, e) :: log => by
    have ih := count_settled p log
    rw [List.filterMap_cons, List.countP_cons, List.countP_cons]
    generalize (log.filterMap fun e => eventPacket e.2) = l at ih ⊢
    generalize (log.countP fun e => delivers p e.2) = a at ih ⊢
    generalize (log.countP fun e => releases p e.2) = b at ih ⊢
    cases e with
    | deliver q n =>
      simp only [eventPacket, delivers, releases, List.count_cons, ih, beq_iff_eq, decide_eq_true_eq,
        Bool.false_eq_true, if_false]
      omega
    | release q =>
      simp only [eventPacket, delivers, releases, List.count_cons, ih, beq_iff_eq, decide_eq_true_eq,
        Bool.false_eq_true, if_false]
      omega
    | reset => exact ih

theorem count_packets (pAd : RtmpAdapter) (p : ℕ) :
    (packets pAd).count p = delivered pAd p + released pAd p + ∑ i, held pAd i p := by
  rw [packets, Multiset.count_add, Multiset.count_sum', Multiset.coe_count, count_settled]
  refine congrArg _ (Finset.sum_congr rfl fun i _ => ?_)
  rw [Multiset.coe_count, List.count_eq_countP, List.countP_map]
  refine List.countP_congr fun m _ => ?_
  simp

theorem count_given (p : ℕ) : ∀ ops : List Op, (ops.map given).sum.count p = timesGiven ops p
  | [] => rfl
  | op :: ops => by
    have ih := count_given p ops
    rw [List.map_cons, List.sum_cons, Multiset.count_add, ih, timesGiven, timesGiven, List.countP_cons, add_comm]
    refine congrArg _ ?_
    cases op with
    | indicateAmpduPacket rx now32 legacyNow32 =>
      simp only [given, gives, Multiset.count_singleton, decide_eq_true_eq, @eq_comm _ p]
    | _ => rfl

theorem packets_run (cfg : Config) (num : ℕ) (attrs : Fin 32 → MacTableEntry) (ops : List Op) :
    packets (run step (initAdapter cfg num attrs) ops) = (ops.map given).sum := by
  rw [run_account (I := BaseInv) (fun s op h => (step_conserved h op).1)
    (fun s op h => (step_conserved h op).2.1) ops _ (initAdapter_baseInv cfg num attrs)]
  have h0 : packets (initAdapter cfg num attrs) = 0 := by
    simp [packets, initAdapter, zeroRecEntry]
  rw [h0, zero_add]

theorem initAdapter_blocks (cfg : Config) (num : ℕ) (attrs : Fin 32 → MacTableEntry) :
    blocks (initAdapter cfg num attrs) = Multiset.range num := by
  have hf : (initAdapter cfg num attrs).freelist = resourceInitFreelist num := rfl
  have ha : ReorderingMpdu.addr ∘ zeroBlk = id := rfl
  rw [blocks, hf, resourceInitFreelist_eq]
  simp [initAdapter, zeroRecEntry, ha, Multiset.range]

theorem pool_eq {pAd : RtmpAdapter} {num : ℕ} (h : BaseInv pAd) (hb : blocks pAd = Multiset.range num) :
    pAd.freelist.qlen + ∑ i, (pAd.baRecEntry i).list.qlen = num := by
  have hcard := congrArg Multiset.card hb
  rw [blocks, Multiset.card_add, Multiset.card_range, Multiset.card_sum, Multiset.coe_card,
    List.length_map] at hcard
  rw [h.free, ← hcard]
  refine congrArg _ (Finset.sum_congr rfl fun i _ => ?_)
  rw [h.list i, Multiset.coe_card, List.length_map]

/-- **Packets and blocks are conserved** in every run in which no EAP frame takes a block. -/
theorem conserved_run (cfg : Config) (num : ℕ) (attrs : Fin 32 → MacTableEntry) (ops : List Op)
    (hok : Along step NoEapTakesBlock (initAdapter cfg num attrs) ops) :
    Conserved (run step (initAdapter cfg num attrs) ops) num ops := by
  have h := run_invariant (I := fun pAd => BaseInv pAd ∧ blocks pAd = Multiset.range num)
    (fun s op hs ho => ⟨(step_conserved hs.1 op).1, ((step_conserved hs.1 op).2.2 ho).trans hs.2⟩)
    ops (initAdapter cfg num attrs)
    ⟨initAdapter_baseInv cfg num attrs, initAdapter_blocks cfg num attrs⟩ hok
  refine ⟨fun p => ?_, pool_eq h.1 h.2, h.2⟩
  rw [← count_packets, packets_run, count_given]

/-- One frame is delivered, one waits, its copy is released, and an EAP frame comes in order. -/
def mixedRun : List Op :=
  [sampleOpen, sampleFrame 0 10 false, sampleFrame 1 13 false, sampleFrame 2 13 false, sampleFrame 3 11 true]

set_option maxRecDepth 4000 in
theorem conserved_run_sample : Along step NoEapTakesBlock sampleAdapter mixedRun ∧
    delivered (run step sampleAdapter mixedRun) 0 = 1 ∧ held (run step sampleAdapter mixedRun) 1 1 = 1 ∧
    released (run step sampleAdapter mixedRun) 2 = 1 ∧ Conserved (run step sampleAdapter mixedRun) 512 mixedRun :=
  ⟨by decide, by decide, by decide, by decide,
    conserved_run sampleConfig 512 (fun _ => sampleStation) mixedRun (by decide)⟩

set_option maxRecDepth 4000 in
/-- The EAP frame 12 takes a block that is in no list afterwards. -/
theorem not_conserved_eapRun : ¬ Conserved (run step sampleAdapter eapRun) 512 eapRun := by
  intro h
  have hp := h.pool
  revert hp
  decide

end Mt7610u.BlockAck.Conservation
