import Mt7610u.BlockAck.Steps

/-! # The reordering lists over whole runs

A run starts from `BATableInit` and takes the operations of the adapter in any order, with any
sequence numbers, any ticks and any settings.

Case IV of `Indicate_AMPDU_Packet` ends with `ba_enqueue_reordering_packet` and does not drain the list
afterwards, as case V does. A frame that cannot be buffered there, an EAP frame for one, moves
`LastIndSeq` up to the frame and leaves its successor behind; a copy of that successor then passes as
in order. -/

namespace Mt7610u.BlockAck.ReorderRuns

open Reorder Session SessionSpec Window Tables Steps ReorderInv Lib.Runs

/-! ### Moves -/

theorem moveInvariant_forall {P : BaRecEntry → Prop}
    (hflush : ∀ s : Session, ∀ hz now, P s.ent → P (s.baFlushReorderingTimeoutMpdus hz now).ent)
    (hrefresh : ∀ s : Session, P s.ent → P s.baRefreshReorderingMpdus.ent)
    (hempty : ∀ e : BaRecEntry, e.list = ⟨[], 0⟩ → e.lastIndSeq = resetRcvSeq → P e) :
    MoveInvariant fun pAd => ∀ i, P (pAd.baRecEntry i) where
  frame a b hs h := by
    rw [hs.entries]
    exact h
  flush a i now _ h := onRecEntry_forall P h (hflush _ _ _ (h i))
  refresh a i _ h := onRecEntry_forall P h (hrefresh _ (h i))
  opened a i w aid frame _ hl h := onRecEntry_forall P h (hempty _ hl rfl)
  ended a i hb h := onRecEntry_forall P h (hempty _ (refresh_list (hb.list i)) rfl)

theorem moveInvariant_entInv : MoveInvariant fun pAd => ∀ i, EntInv (pAd.baRecEntry i) :=
  moveInvariant_forall (fun _ hz now h => h.flush hz now) (fun _ h => h.refresh)
    fun _ hl hr => EntInv.empty hl (Or.inr hr)

theorem moveInvariant_noneHeld :
    MoveInvariant fun pAd => ∀ i, EntInv (pAd.baRecEntry i) ∧ NoneHeld (pAd.baRecEntry i) := by
  refine moveInvariant_forall (P := fun e => EntInv e ∧ NoneHeld e)
    (fun _ hz now h => ⟨h.1.flush hz now, NoneHeld.flush h.1 h.2 hz now⟩)
    (fun _ h => ⟨h.1.refresh, NoneHeld.refresh h.1⟩) fun e hl hr => ?_
  refine ⟨EntInv.empty hl (Or.inr hr), fun m hm => ?_⟩
  rw [hl] at hm
  simp at hm

theorem ready_rxSession {pAd : RtmpAdapter} (h : BaseInv pAd) (he : ∀ i, EntInv (pAd.baRecEntry i))
    {rx : RxBlk} {i : Fin 128} (hi : rxSession pAd rx = some i) : Ready (session pAd i) :=
  ⟨he i, h.balanced i, h.win i (h.rxSession_live hi)⟩

/-! ### The representation of the lists -/

/-- The list of an entry is strictly increasing in the distance from `LastIndSeq`, without a sequence
number twice, in the window, counted, not longer than the window, and empty after a reset. -/
structure ReorderListOk (e : BaRecEntry) : Prop where
  increasing : (e.list.next.map (off e.lastIndSeq)).Pairwise (· < ·)
  nodup : (e.list.next.map ReorderingMpdu.sequence).Nodup
  window : ∀ m ∈ e.list.next, 1 ≤ off e.lastIndSeq m ∧ off e.lastIndSeq m ≤ e.baWinSize
  qlen : e.list.qlen = e.list.next.length
  bound : e.list.qlen ≤ e.baWinSize
  reset : e.lastIndSeq = resetRcvSeq → e.list.next = []

theorem reorderListOk_of_entInv {e : BaRecEntry} (h : EntInv e) : ReorderListOk e where
  increasing := List.pairwise_map.mpr h.sorted
  nodup := h.sorted.nodup
  window := h.within
  qlen := h.counted
  bound := h.qlen_le
  reset := h.reset

/-- The frame, next in line when it comes to the sequence tests, is not in the list at that point. -/
def NextNotListed (pAd : RtmpAdapter) : Op → Prop
  | .indicateAmpduPacket rx now32 legacyNow32 => ∀ i ∈ rxSession pAd rx,
      ¬ InOrderListed (arrive (rxEnv pAd now32 legacyNow32) (session pAd i) rx) rx
  | _ => True

theorem step_entInv {pAd : RtmpAdapter} {op : Op}
    (h : BaseInv pAd ∧ ∀ i, EntInv (pAd.baRecEntry i)) (hok : NextNotListed pAd op) :
    BaseInv (step pAd op) ∧ ∀ i, EntInv ((step pAd op).baRecEntry i) := by
  obtain ⟨hb, he⟩ := h
  refine moveInvariant_entInv.step hb he op ?_ ?_
  · rintro rx now32 legacyNow32 rfl
    rcases indicateAmpduPacket_cases pAd rx now32 legacyNow32 with ⟨-, e, -, hc⟩ | ⟨i, hi, hc⟩
    · rw [hc]
      exact he
    · rw [hc]
      exact onRecEntry_forall EntInv he
        (EntInv.indicateAmpduSession (ready_rxSession hb he hi) _ (hok i hi))
  · rintro wcid msgLen tid q rfl
    rcases cntlEnqueueForRecv_cases pAd wcid msgLen tid q with ⟨-, hc⟩ | ⟨i, -, hc⟩
    · rw [hc]
      exact he
    · rw [hc]
      exact onRecEntry_forall EntInv he ((he i).cntlBar q)

theorem initAdapter_entInv (cfg : Config) (num : ℕ) (attrs : Fin 32 → MacTableEntry) (i : Fin 128) :
    EntInv ((initAdapter cfg num attrs).baRecEntry i) :=
  EntInv.empty rfl (Or.inl (by simp [initAdapter, zeroRecEntry]))

instance (pAd : RtmpAdapter) : ∀ op, Decidable (NextNotListed pAd op)
  | .indicateAmpduPacket rx _ _ =>
    inferInstanceAs (Decidable (∀ i ∈ rxSession pAd rx, _))
  | .configure _ | .baOriSessionSetUp .. | .baOriSessionAdd .. | .baOriSessionTearDown ..
  | .baOriSessionSetupTimeout _ | .baRecSessionAdd .. | .baRecSessionTearDown ..
  | .baSessionTearDownALL .. | .baRecSessionIdleTimeout .. | .peerAddBAReqAction ..
  | .peerAddBARspAction .. | .peerDelBAAction .. | .cntlEnqueueForRecv .. | .flushRecEntry ..
  | .baReOrderingBufferMaintain _ => isTrue trivial

/-- **The representation of every reordering list**, in every state of every run in which no frame
that is next in line is already listed. -/
theorem reorderListOk_run (cfg : Config) (num : ℕ) (attrs : Fin 32 → MacTableEntry) (ops : List Op)
    (hok : Along step NextNotListed (initAdapter cfg num attrs) ops) (i : Fin 128) :
    ReorderListOk ((run step (initAdapter cfg num attrs) ops).baRecEntry i) := by
  have h := run_invariant (I := fun pAd => BaseInv pAd ∧ ∀ i, EntInv (pAd.baRecEntry i))
    (fun s op hs ho => step_entInv hs ho) ops (initAdapter cfg num attrs)
    ⟨initAdapter_baseInv cfg num attrs, initAdapter_entInv cfg num attrs⟩ hok
  exact reorderListOk_of_entInv (h.2 i)

set_option maxRecDepth 4000 in
theorem reorderListOk_run_sample :
    Along step NextNotListed sampleAdapter eapRun ∧
      ((run step sampleAdapter eapRun).baRecEntry 1).list.next ≠ [] ∧
      ReorderListOk ((run step sampleAdapter eapRun).baRecEntry 1) :=
  ⟨by decide, by decide, reorderListOk_run sampleConfig 512 (fun _ => sampleStation) eapRun (by decide) 1⟩

set_option maxRecDepth 4000 in
/-- After the EAP frame, a copy of frame 13 passes as in order while frame 13 is still listed. -/
theorem not_reorderListOk_duplicate : ¬ ReorderListOk
    ((run step sampleAdapter (eapRun ++ [sampleFrame 3 13 false])).baRecEntry 1) := by
  intro h
  have hw := h.window
  revert hw
  decide

/-! ### Nothing is held back -/

/-- No frame of the list, its head in particular, is the immediate successor of `LastIndSeq`. -/
def NothingDeliverable (e : BaRecEntry) : Prop := ∀ m ∈ e.list.next, (m.sequence : ℕ) ≠ (e.lastIndSeq + 1) % 4096

/-- The frame, when it comes to the sequence tests, is not passed by a list that holds its
successor. -/
def SuccessorNotListed (pAd : RtmpAdapter) : Op → Prop
  | .indicateAmpduPacket rx now32 legacyNow32 => ∀ i ∈ rxSession pAd rx,
      ¬ SuccessorListed (arrive (rxEnv pAd now32 legacyNow32) (session pAd i) rx) rx
  | _ => True

instance (pAd : RtmpAdapter) : ∀ op, Decidable (SuccessorNotListed pAd op)
  | .indicateAmpduPacket rx _ _ =>
    inferInstanceAs (Decidable (∀ i ∈ rxSession pAd rx, _))
  | .configure _ | .baOriSessionSetUp .. | .baOriSessionAdd .. | .baOriSessionTearDown ..
  | .baOriSessionSetupTimeout _ | .baRecSessionAdd .. | .baRecSessionTearDown ..
  | .baSessionTearDownALL .. | .baRecSessionIdleTimeout .. | .peerAddBAReqAction ..
  | .peerAddBARspAction .. | .peerDelBAAction .. | .cntlEnqueueForRecv .. | .flushRecEntry ..
  | .baReOrderingBufferMaintain _ => isTrue trivial

theorem noneHeld_indicateAmpduSession {s : Session} (h : Ready s) (hn : NoneHeld s.ent) (env : RxEnv)
    {rx : RxBlk} (hno : ¬ SuccessorListed (arrive env s rx) rx) :
    EntInv (indicateAmpduSession env s rx).ent ∧ NoneHeld (indicateAmpduSession env s rx).ent := by
  have ha := h.arrive env rx
  have hna := NoneHeld.arrive h.ent hn env rx
  refine ⟨EntInv.indicateCases ha env ?_, NoneHeld.indicateCases ha hna env hno⟩
  rcases ha.ent.last with hs | hs
  · exact hna.not_inOrderListed hs rx
  · rintro ⟨hc, -⟩
    have : classify (arrive env s rx).ent rx.sequence = .reset := if_pos hs
    simp [this] at hc

theorem step_noneHeld {pAd : RtmpAdapter} {op : Op}
    (h : BaseInv pAd ∧ ∀ i, EntInv (pAd.baRecEntry i) ∧ NoneHeld (pAd.baRecEntry i))
    (hok : SuccessorNotListed pAd op) : BaseInv (step pAd op) ∧
      ∀ i, EntInv ((step pAd op).baRecEntry i) ∧ NoneHeld ((step pAd op).baRecEntry i) := by
  obtain ⟨hb, he⟩ := h
  refine moveInvariant_noneHeld.step hb he op ?_ ?_
  · rintro rx now32 legacyNow32 rfl
    rcases indicateAmpduPacket_cases pAd rx now32 legacyNow32 with ⟨-, e, -, hc⟩ | ⟨i, hi, hc⟩
    · rw [hc]
      exact he
    · rw [hc]
      have hr := ready_rxSession hb (fun i => (he i).1) hi
      exact onRecEntry_forall (fun e => EntInv e ∧ NoneHeld e) he
        (noneHeld_indicateAmpduSession hr (he i).2 _ (hok i hi))
  · rintro wcid msgLen tid q rfl
    rcases cntlEnqueueForRecv_cases pAd wcid msgLen tid q with ⟨-, hc⟩ | ⟨i, -, hc⟩
    · rw [hc]
      exact he
    · rw [hc]
      exact onRecEntry_forall (fun e => EntInv e ∧ NoneHeld e) he
        ⟨(he i).1.cntlBar q, NoneHeld.cntlBar (he i).1 (he i).2 q⟩

/-- **No frame that is next in line is held back**, in every state of every run in which no frame is
passed by a list that holds its successor. -/
theorem noneHeld_run (cfg : Config) (num : ℕ) (attrs : Fin 32 → MacTableEntry) (ops : List Op)
    (hok : Along step SuccessorNotListed (initAdapter cfg num attrs) ops) (i : Fin 128) :
    NothingDeliverable ((run step (initAdapter cfg num attrs) ops).baRecEntry i) := by
  have h := run_invariant
    (I := fun pAd => BaseInv pAd ∧ ∀ i, EntInv (pAd.baRecEntry i) ∧ NoneHeld (pAd.baRecEntry i))
    (fun s op hs ho => step_noneHeld hs ho) ops (initAdapter cfg num attrs)
    ⟨initAdapter_baseInv cfg num attrs, fun i => ⟨initAdapter_entInv cfg num attrs i, by
      simp [NoneHeld, initAdapter, zeroRecEntry]⟩⟩ hok
  intro m hm hc
  exact (h.2 i).2 m hm (gap_succ.mp hc)

/-- Frame 11 is missing, the EAP frame 12 comes when nothing is listed, and frame 14 waits. -/
def lateRun : List Op := [sampleOpen, sampleFrame 0 10 false, sampleFrame 1 12 true, sampleFrame 2 14 false]

set_option maxRecDepth 4000 in
theorem noneHeld_run_sample :
    Along step SuccessorNotListed sampleAdapter lateRun ∧
      ((run step sampleAdapter lateRun).baRecEntry 1).list.next ≠ [] ∧
      NothingDeliverable ((run step sampleAdapter lateRun).baRecEntry 1) :=
  ⟨by decide, by decide, noneHeld_run sampleConfig 512 (fun _ => sampleStation) lateRun (by decide) 1⟩

set_option maxRecDepth 4000 in
/-- After the EAP frame 12 frame 13 stays at the head of the list. -/
theorem head_held_eapRun :
    ∃ m, ((run step sampleAdapter eapRun).baRecEntry 1).list.next.head? = some m ∧
      (m.sequence : ℕ) = (((run step sampleAdapter eapRun).baRecEntry 1).lastIndSeq + 1) % 4096 :=
  ⟨⟨511, 1, 13, false, 0⟩, by decide, by decide⟩

end Mt7610u.BlockAck.ReorderRuns
