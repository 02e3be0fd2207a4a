import Mt7610u.BlockAck.Conservation

/-! # Packets are conserved whatever the tables hold

`Conservation` follows the packets through the runs of a consistent adapter. The packets themselves do
not need that: the reordering lists only have to be counted, and then no operation loses or doubles a
packet, also where an index leads to an entry that is not in use or belongs to another session. -/

namespace Mt7610u.BlockAck.Account

open Reorder SessionSpec Tables Steps Conservation

structure ListsCounted (pAd : RtmpAdapter) : Prop where
  free : Counted pAd.freelist
  list : ∀ i, Counted (pAd.baRecEntry i).list

theorem ListsCounted.balanced {pAd : RtmpAdapter} (h : ListsCounted pAd) (i : Fin 128) :
    Balanced (session pAd i) := ⟨h.list i, h.free⟩

/-- From `a` to `b` the packets `p` are taken in, and the lists stay counted. -/
def Takes (a b : RtmpAdapter) (p : Multiset ℕ) : Prop := ListsCounted a → ListsCounted b ∧ packets b = packets a + p

structure SameHeld (a b : RtmpAdapter) : Prop where
  lists : ∀ i, (b.baRecEntry i).list = (a.baRecEntry i).list
  freelist : b.freelist = a.freelist
  log : b.log = a.log

namespace Takes

variable {a b c : RtmpAdapter} {p q : Multiset ℕ}

theorem refl (a : RtmpAdapter) : Takes a a 0 := fun h => ⟨h, (add_zero _).symm⟩

theorem trans (h : Takes a b p) (h' : Takes b c q) : Takes a c (p + q) := by
  intro ha
  obtain ⟨hb, hp⟩ := h ha
  obtain ⟨hc, hq⟩ := h' hb
  exact ⟨hc, by rw [hq, hp, add_assoc]⟩

theorem same (h : SameHeld a b) : Takes a b 0 := by
  intro ha
  refine ⟨⟨?_, fun i => ?_⟩, ?_⟩
  · rw [h.freelist]
    exact ha.free
  · rw [h.lists]
    exact ha.list i
  · simp only [packets, h.lists, h.log, add_zero]

theorem of_sameLists (h : SameLists a b) : Takes a b 0 := same ⟨fun i => by rw [h.entries], h.freelist, h.log⟩

theorem onRecEntry (a : RtmpAdapter) (i : Fin 128) (f : Session → Session) (hb : ∀ s, Balanced s → Balanced (f s))
    (hk : ∀ s, Balanced s → ∃ b, Keeps s (f s) p b) : Takes a (a.onRecEntry i f) p := by
  intro ha
  obtain ⟨b, hb'⟩ := hk _ (ha.balanced i)
  have hi := hb _ (ha.balanced i)
  exact ⟨⟨hi.free, onRecEntry_forall (fun e => Counted e.list) ha.list hi.list⟩, packets_onRecEntry hb'⟩

theorem foldl {α : Type*} {f : RtmpAdapter → α → RtmpAdapter} (hf : ∀ a x, Takes a (f a x) 0)
    (l : List α) (a : RtmpAdapter) : Takes a (l.foldl f a) 0 := by
  induction l generalizing a with
  | nil => exact refl a
  | cons x l ih =>
    have h := (hf a x).trans (ih (f a x))
    rwa [add_zero] at h

end Takes

/-! ### The operations -/

variable (a : RtmpAdapter)

theorem takes_flush (now32 : Tick) (i : Fin 128) : Takes a (flushRecEntry now32 a i) 0 :=
  .onRecEntry a i _ (fun _ h => h.flush _ now32) fun _ h => ⟨0, Keeps.flush h _ now32⟩

theorem takes_refresh (i : Fin 128) : Takes a (a.onRecEntry i Session.baRefreshReorderingMpdus) 0 :=
  .onRecEntry a i _ (fun _ h => h.refresh) fun _ h => ⟨0, Keeps.refresh h.list⟩

theorem takes_cntlBar (i : Fin 128) (q : Fin 4096) : Takes a (a.onRecEntry i fun s => s.cntlBar q) 0 :=
  .onRecEntry a i _ (fun _ h => h.cntlBar q) fun _ h => ⟨0, Keeps.cntlBar h q⟩

theorem takes_indicate (i : Fin 128) (env : Session.RxEnv) (rx : RxBlk) :
    Takes a (a.onRecEntry i fun s => s.indicateAmpduSession env rx) {rx.pRxPacket} := by
  refine .onRecEntry a i _ (fun _ h => h.indicateAmpduSession env rx) fun _ h => ?_
  obtain ⟨b, hb, -⟩ := Keeps.indicateAmpduSession h env rx
  exact ⟨b, hb⟩

theorem takes_freeRec (i : Fin 128) : Takes a (baTableFreeRecEntry a i) 0 := by
  unfold baTableFreeRecEntry
  dsimp only
  split_ifs
  · exact .refl a
  · refine .same ⟨fun j => ?_, rfl, rfl⟩
    by_cases hj : j = i
    · subst hj
      simp [RtmpAdapter.setRecStatus, RtmpAdapter.setStation]
    · simp [RtmpAdapter.setRecStatus, RtmpAdapter.setStation, hj]
  · exact .refl a

theorem takes_allocRec (idx : Fin 128) : Takes a (baTableAllocRecEntry a idx).2.2 0 := by
  unfold baTableAllocRecEntry
  split_ifs
  · exact .refl a
  · split
    · next i _ =>
      refine .same ⟨fun j => ?_, rfl, rfl⟩
      by_cases hj : j = i
      · subst hj
        simp [RtmpAdapter.setRecStatus]
      · simp [RtmpAdapter.setRecStatus, hj]
    · exact .refl a

theorem takes_fillRec (wcid : Fin 32) (frame : FrameAddbaReq) (i idx : Fin 128) :
    Takes a (fillRecEntry a wcid frame i idx) 0 := by
  have h := (Takes.onRecEntry a i (openSession (recWinSize a.cfg frame) (a.content wcid).aid frame)
    (fun _ h => ⟨h.list, h.free⟩) fun s _ => ⟨0, Keeps.openSession _ _ frame s⟩).trans
      (Takes.same (b := fillRecEntry a wcid frame i idx) ⟨fun _ => rfl, rfl, rfl⟩)
  rwa [add_zero] at h

theorem takes_recEntry (idx : Fin 128) :
    Takes a (if idx = 0 then baTableAllocRecEntry a idx
      else (some idx, idx, a.onRecEntry idx Session.baRefreshReorderingMpdus)).2.2 0 := by
  split_ifs
  · exact takes_allocRec a _
  · exact takes_refresh a _

theorem takes_recAdd (wcid : Fin 32) (frame : FrameAddbaReq) : Takes a (baRecSessionAdd a wcid frame).2 0 := by
  have h := takes_recEntry a ((a.content wcid).baRecWcidArray frame.tid)
  unfold baRecSessionAdd
  dsimp only
  split
  · next heq =>
    rw [heq] at h
    exact h
  · next i idx b heq =>
    rw [heq] at h
    have h' := h.trans (takes_fillRec b wcid frame i idx)
    rwa [add_zero] at h'

theorem takes_recTearDown (wcid : Fin 32) (tid : Fin 8) (bPassive elemAlloc : Bool) :
    Takes a (baRecSessionTearDown a wcid tid bPassive elemAlloc) 0 := by
  unfold baRecSessionTearDown
  dsimp only
  split_ifs
  · exact .refl a
  · exact .refl a
  · have h1 : Takes a (a.onRecEntry ((a.content wcid).baRecWcidArray tid) closeSession) 0 :=
      .onRecEntry a _ closeSession (fun _ h => ⟨h.refresh.list, h.refresh.free⟩)
        fun _ h => ⟨0, (Keeps.refresh h.list).congr rfl rfl rfl⟩
    have h2 := (h1.trans (.same (b := (a.onRecEntry ((a.content wcid).baRecWcidArray tid)
      closeSession).setStation wcid ((a.content wcid).closeRec tid
        (a.baRecEntry ((a.content wcid).baRecWcidArray tid)).tid)) ⟨fun _ => rfl, rfl, rfl⟩)).trans
      (takes_freeRec _ ((a.content wcid).baRecWcidArray tid))
    rwa [add_zero, add_zero] at h2
  · exact takes_freeRec a _

theorem takes_tearDownALL (wcid : Fin 32) (elemAlloc : Fin 8 → Bool × Bool) :
    Takes a (baSessionTearDownALL a wcid elemAlloc) 0 := by
  refine .foldl (fun a tid => ?_) _ a
  have h := (Takes.of_sameLists (sameLists_oriTearDown a wcid tid false (elemAlloc tid).1)).trans
    (takes_recTearDown _ wcid tid false (elemAlloc tid).2)
  rwa [add_zero] at h

theorem takes_maintain (now32 : Tick) : Takes a (baReOrderingBufferMaintain a now32) 0 := by
  refine .foldl (fun a wcid => ?_) _ a
  split_ifs
  · exact .refl a
  · exact .foldl (fun a tid => takes_flush a now32 _) _ a

theorem takes_log {e : Event} {p : ℕ} (he : eventPacket e = some p) :
    Takes a { a with log := a.log ++ [(none, e)] } {p} := by
  intro ha
  refine ⟨⟨ha.free, ha.list⟩, ?_⟩
  simp only [packets, List.filterMap_append, List.filterMap_cons, he, List.filterMap_nil, ← Multiset.coe_add]
  exact add_right_comm _ _ _

theorem takes_step (op : Op) : Takes a (step a op) (given op) := by
  cases op with
  | configure cfg => exact .same ⟨fun _ => rfl, rfl, rfl⟩
  | baOriSessionSetUp wcid tid timeOut isForced =>
    exact .of_sameLists (sameLists_oriSetUp a wcid tid timeOut isForced)
  | baOriSessionAdd wcid frame => exact .of_sameLists (sameLists_oriAdd a wcid frame)
  | baOriSessionTearDown wcid tid bPassive elemAlloc =>
    exact .of_sameLists (sameLists_oriTearDown a wcid tid bPassive elemAlloc)
  | baOriSessionSetupTimeout i => exact .of_sameLists (sameLists_oriTimeout a i)
  | baRecSessionAdd wcid frame => exact takes_recAdd a wcid frame
  | baRecSessionTearDown wcid tid bPassive elemAlloc =>
    exact takes_recTearDown a wcid tid bPassive elemAlloc
  | baSessionTearDownALL wcid elemAlloc => exact takes_tearDownALL a wcid elemAlloc
  | baRecSessionIdleTimeout i now32 =>
    simp only [step, baRecSessionIdleTimeout]
    split_ifs
    · exact takes_refresh a i
    · exact .refl a
  | peerAddBAReqAction wcid msgLen frame =>
    simp only [step, peerAddBAReqAction]
    split_ifs
    · exact takes_recAdd a _ frame
    · exact .refl a
    · exact .refl a
  | peerAddBARspAction wcid msgLen frame => exact .of_sameLists (sameLists_addBARsp a wcid msgLen frame)
  | peerDelBAAction wcid msgLen tid initiator =>
    simp only [step, peerDelBAAction]
    split_ifs
    · exact takes_recTearDown a _ tid true true
    · exact .of_sameLists (sameLists_oriTearDown a _ tid true true)
    · exact .refl a
  | indicateAmpduPacket rx now32 legacyNow32 =>
    rcases indicateAmpduPacket_cases a rx now32 legacyNow32 with ⟨-, e, he, hc⟩ | ⟨i, -, hc⟩
    · have hp : eventPacket e = some rx.pRxPacket := by
        rcases he with rfl | rfl <;> rfl
      simp only [step, hc]
      exact takes_log a hp
    · simp only [step, hc]
      exact takes_indicate a i _ rx
  | cntlEnqueueForRecv wcid msgLen tid q =>
    rcases cntlEnqueueForRecv_cases a wcid msgLen tid q with ⟨-, hc⟩ | ⟨i, -, hc⟩
    · simp only [step, hc]
      exact .refl a
    · simp only [step, hc]
      exact takes_cntlBar a i q
  | flushRecEntry i now32 => exact takes_flush a now32 i
  | baReOrderingBufferMaintain now32 => exact takes_maintain a now32

theorem listsCounted_init (cfg : Config) (num : ℕ) (attrs : Fin 32 → MacTableEntry) :
    ListsCounted (initAdapter cfg num attrs) :=
  ⟨(initAdapter_baseInv cfg num attrs).free, (initAdapter_baseInv cfg num attrs).list⟩

end Mt7610u.BlockAck.Account
