import Mt7610u.BlockAck.Consistency
import Mt7610u.BlockAck.ReorderInv

/-! # What an operation does to the recipient entries

Seen from the reordering lists, an operation of the adapter is a sequence of a few elementary moves,
each on one recipient entry: a timeout flush, a refresh, the opening or the end of a session, a
received subframe, a block-ack request. -/

namespace Mt7610u.BlockAck.Steps

open Reorder SessionSpec Tables Consistency ReorderInv

/-- The session in the recipient entry `i`, with no events yet. -/
def session (pAd : RtmpAdapter) (i : Fin 128) : Session := ⟨pAd.freelist, pAd.baRecEntry i, []⟩

def rxEnv (pAd : RtmpAdapter) (now32 legacyNow32 : Tick) : Session.RxEnv :=
  ⟨pAd.cfg.osHz, now32, legacyNow32, pAd.cfg.wpaSupplicantUP⟩

def rxSession (pAd : RtmpAdapter) (rx : RxBlk) : Option (Fin 128) :=
  if ¬ rx.fRxAmsdu ∧ 1520 < rx.dataSize then none
  else if h : rx.wcid < 32 then
    if (pAd.content ⟨rx.wcid, h⟩).baRecWcidArray rx.tid = 0 then none
    else some ((pAd.content ⟨rx.wcid, h⟩).baRecWcidArray rx.tid)
  else none

def barEntry (pAd : RtmpAdapter) (wcid msgLen : ℕ) (tid : Fin 8) : Option (Fin 128) :=
  if pAd.cfg.haltInProgress ∨ pAd.cfg.nicNotExist ∨ msgLen ≠ 20 then none
  else if h : wcid < 32 then some ((pAd.content ⟨wcid, h⟩).baRecWcidArray tid)
  else none

/-- **What becomes of a received subframe:** outside every session it is released or passed up, and
otherwise its session takes it. -/
theorem indicateAmpduPacket_cases (pAd : RtmpAdapter) (rx : RxBlk) (now32 legacyNow32 : Tick) :
    (rxSession pAd rx = none ∧ ∃ e, (e = .release rx.pRxPacket ∨
        e = .deliver rx.pRxPacket rx.sequence) ∧
      indicateAmpduPacket pAd rx now32 legacyNow32 = { pAd with log := pAd.log ++ [(none, e)] }) ∨
    ∃ i, rxSession pAd rx = some i ∧ indicateAmpduPacket pAd rx now32 legacyNow32 =
      pAd.onRecEntry i fun s => s.indicateAmpduSession (rxEnv pAd now32 legacyNow32) rx := by
  unfold rxSession indicateAmpduPacket
  by_cases h1 : ¬ rx.fRxAmsdu ∧ 1520 < rx.dataSize
  · left
    rw [if_pos h1, if_pos h1]
    exact ⟨rfl, _, Or.inl rfl, rfl⟩
  · rw [if_neg h1, if_neg h1]
    by_cases h2 : rx.wcid < 32
    · rw [dif_pos h2, dif_pos h2]
      by_cases h3 : (pAd.content ⟨rx.wcid, h2⟩).baRecWcidArray rx.tid = 0
      · left
        simp only [h3, if_true]
        exact ⟨trivial, _, Or.inr rfl, rfl⟩
      · right
        simp only [h3, if_false]
        exact ⟨_, rfl, rfl⟩
    · left
      rw [dif_neg h2, dif_neg h2]
      exact ⟨rfl, _, Or.inl rfl, rfl⟩

theorem cntlEnqueueForRecv_cases (pAd : RtmpAdapter) (wcid msgLen : ℕ) (tid : Fin 8)
    (q : Fin 4096) : (barEntry pAd wcid msgLen tid = none ∧ cntlEnqueueForRecv pAd wcid msgLen tid q = pAd) ∨
    ∃ i, barEntry pAd wcid msgLen tid = some i ∧
      cntlEnqueueForRecv pAd wcid msgLen tid q = pAd.onRecEntry i fun s => s.cntlBar q := by
  unfold barEntry cntlEnqueueForRecv
  by_cases h1 : pAd.cfg.haltInProgress = true ∨ pAd.cfg.nicNotExist = true
  · left
    rw [if_pos h1, if_pos (by tauto)]
    exact ⟨rfl, rfl⟩
  · by_cases h2 : msgLen ≠ 20
    · left
      rw [if_neg h1, if_pos h2, if_pos (by tauto)]
      exact ⟨rfl, rfl⟩
    · rw [if_neg h1, if_neg h2, if_neg (by tauto)]
      by_cases h3 : wcid < 32
      · right
        rw [dif_pos h3, dif_pos h3]
        exact ⟨_, rfl, rfl⟩
      · left
        rw [dif_neg h3, dif_neg h3]
        exact ⟨rfl, rfl⟩

/-! ### The base invariant -/

structure BaseInv (pAd : RtmpAdapter) : Prop where
  tables : TableInv pAd
  free : Counted pAd.freelist
  list : ∀ i, Counted (pAd.baRecEntry i).list
  idle : ∀ i, (pAd.baRecEntry i).recBaStatus = .none → (pAd.baRecEntry i).list = ⟨[], 0⟩
  win : ∀ i, (pAd.baRecEntry i).recBaStatus ≠ .none → (pAd.baRecEntry i).baWinSize ≠ 0

theorem BaseInv.balanced {pAd : RtmpAdapter} (h : BaseInv pAd) (i : Fin 128) :
    Balanced (session pAd i) := ⟨h.list i, h.free⟩

theorem onRecEntry_self (pAd : RtmpAdapter) (i : Fin 128) (f : Session → Session) :
    (pAd.onRecEntry i f).baRecEntry i = (f (session pAd i)).ent := Function.update_self _ _ _

theorem onRecEntry_of_ne {i j : Fin 128} (h : j ≠ i) (pAd : RtmpAdapter) (f : Session → Session) :
    (pAd.onRecEntry i f).baRecEntry j = pAd.baRecEntry j := Function.update_of_ne h _ _

theorem onRecEntry_forall (P : BaRecEntry → Prop) {pAd : RtmpAdapter} {i : Fin 128}
    {f : Session → Session} (h : ∀ j, P (pAd.baRecEntry j)) (hi : P (f (session pAd i)).ent)
    (j : Fin 128) : P ((pAd.onRecEntry i f).baRecEntry j) := by
  by_cases hj : j = i
  · subst hj
    rw [onRecEntry_self]
    exact hi
  · rw [onRecEntry_of_ne hj]
    exact h j

structure SameLists (a b : RtmpAdapter) : Prop where
  entries : b.baRecEntry = a.baRecEntry
  freelist : b.freelist = a.freelist
  log : b.log = a.log

theorem SameLists.refl (a : RtmpAdapter) : SameLists a a := ⟨rfl, rfl, rfl⟩

theorem BaseInv.frame {a b : RtmpAdapter} (h : BaseInv a) (hs : SameLists a b) (ht : TableInv b) : BaseInv b := by
  refine ⟨ht, ?_, ?_, ?_, ?_⟩
  · rw [hs.freelist]
    exact h.free
  · rw [hs.entries]
    exact h.list
  · rw [hs.entries]
    exact h.idle
  · rw [hs.entries]
    exact h.win

theorem BaseInv.onRecEntry {pAd : RtmpAdapter} (h : BaseInv pAd) {i : Fin 128}
    {f : Session → Session} (hid : ∀ s, identity (f s).ent = identity s.ent) (hbal : Balanced (f (session pAd i)))
    (hidle : (pAd.baRecEntry i).recBaStatus = .none → (f (session pAd i)).ent.list = ⟨[], 0⟩) :
    BaseInv (pAd.onRecEntry i f) := by
  have hi := hid (session pAd i)
  simp only [identity, Prod.mk.injEq] at hi
  refine ⟨h.tables.onRecEntry i hid, hbal.free, ?_, ?_, ?_⟩
  · exact onRecEntry_forall (fun e => Counted e.list) h.list hbal.list
  · refine onRecEntry_forall (fun e => e.recBaStatus = .none → e.list = ⟨[], 0⟩) h.idle
      fun hn => hidle ?_
    rw [hi.1] at hn
    exact hn
  · refine onRecEntry_forall (fun e => e.recBaStatus ≠ .none → e.baWinSize ≠ 0) h.win fun hn => ?_
    rw [hi.1] at hn
    rw [hi.2.2.2]
    exact h.win i hn

theorem flush_empty {s : Session} (hl : s.ent.list = ⟨[], 0⟩) (hz : ℕ) (now : Tick) :
    s.baFlushReorderingTimeoutMpdus hz now = s := by
  unfold Session.baFlushReorderingTimeoutMpdus
  rw [if_pos (by rw [hl])]

theorem cntlBar_empty {s : Session} (hl : s.ent.list = ⟨[], 0⟩) (q : Fin 4096) :
    (s.cntlBar q).ent.list = ⟨[], 0⟩ := by
  unfold Session.cntlBar
  split_ifs <;> simp [Session.indicateLeSeq, hl, Session.leSeqLoop, Session.setLast]

theorem BaseInv.flushRecEntry {pAd : RtmpAdapter} (h : BaseInv pAd) (now32 : Tick) (i : Fin 128) :
    BaseInv (flushRecEntry now32 pAd i) := by
  refine h.onRecEntry (fun s => identity_flush _ s _) ((h.balanced i).flush _ _) fun hn => ?_
  rw [flush_empty (h.idle i hn)]
  exact h.idle i hn

theorem BaseInv.refresh {pAd : RtmpAdapter} (h : BaseInv pAd) (i : Fin 128) :
    BaseInv (pAd.onRecEntry i Session.baRefreshReorderingMpdus) :=
  h.onRecEntry identity_refresh (h.balanced i).refresh fun _ => refresh_list (h.list i)

theorem BaseInv.cntlBar {pAd : RtmpAdapter} (h : BaseInv pAd) (i : Fin 128) (q : Fin 4096) :
    BaseInv (pAd.onRecEntry i fun s => s.cntlBar q) :=
  h.onRecEntry (fun s => identity_cntlBar s q) ((h.balanced i).cntlBar q) fun hn =>
    cntlBar_empty (h.idle i hn) q

theorem BaseInv.rxSession_live {pAd : RtmpAdapter} (h : BaseInv pAd) {rx : RxBlk} {i : Fin 128}
    (hi : rxSession pAd rx = some i) : (pAd.baRecEntry i).recBaStatus ≠ .none := by
  unfold rxSession at hi
  split_ifs at hi with h1 h2 h3
  rw [Option.some.injEq] at hi
  subst hi
  exact (h.tables.recp.dir.slot_live (⟨rx.wcid, h2⟩, rx.tid) h3).1

theorem BaseInv.indicate {pAd : RtmpAdapter} (h : BaseInv pAd) {rx : RxBlk} {i : Fin 128}
    (hi : rxSession pAd rx = some i) (env : Session.RxEnv) :
    BaseInv (pAd.onRecEntry i fun s => s.indicateAmpduSession env rx) :=
  h.onRecEntry (fun s => identity_indicateAmpduSession env s rx)
    ((h.balanced i).indicateAmpduSession env rx) fun hn => absurd hn (h.rxSession_live hi)

theorem BaseInv.indicateAmpduPacket {pAd : RtmpAdapter} (h : BaseInv pAd) (rx : RxBlk)
    (now32 legacyNow32 : Tick) : BaseInv (indicateAmpduPacket pAd rx now32 legacyNow32) := by
  rcases indicateAmpduPacket_cases pAd rx now32 legacyNow32 with ⟨-, e, -, he⟩ | ⟨i, hi, he⟩
  · rw [he]
    exact ⟨h.tables.log_irrel _, h.free, h.list, h.idle, h.win⟩
  · rw [he]
    exact h.indicate hi _

theorem BaseInv.cntlEnqueueForRecv {pAd : RtmpAdapter} (h : BaseInv pAd) (wcid msgLen : ℕ)
    (tid : Fin 8) (q : Fin 4096) : BaseInv (cntlEnqueueForRecv pAd wcid msgLen tid q) := by
  rcases cntlEnqueueForRecv_cases pAd wcid msgLen tid q with ⟨-, he⟩ | ⟨i, -, he⟩
  · rw [he]
    exact h
  · rw [he]
    exact h.cntlBar i q

theorem recWinSize_ne_zero (cfg : Config) (frame : FrameAddbaReq) : recWinSize cfg frame ≠ 0 := by
  simp only [recWinSize]
  split_ifs with h
  · decide
  · exact h

/-- **What `BARecSessionAdd` does to the lists:** nothing, or it opens a session in an entry that is
free or has just been refreshed. -/
theorem baRecSessionAdd_cases {pAd : RtmpAdapter} (h : BaseInv pAd) (wcid : Fin 32)
    (frame : FrameAddbaReq) : (baRecSessionAdd pAd wcid frame).2 = pAd ∨
    (∃ i, (pAd.baRecEntry i).recBaStatus = .none ∧ SameLists (pAd.onRecEntry i
      (openSession (recWinSize pAd.cfg frame) wcid frame)) (baRecSessionAdd pAd wcid frame).2) ∨
    ∃ i, SameLists ((pAd.onRecEntry i Session.baRefreshReorderingMpdus).onRecEntry i
      (openSession (recWinSize pAd.cfg frame) wcid frame)) (baRecSessionAdd pAd wcid frame).2 := by
  by_cases hs : (pAd.content wcid).baRecWcidArray frame.tid = 0
  · by_cases hn : 127 ≤ pAd.numAsRecipient
    · left
      simp [baRecSessionAdd, baTableAllocRecEntry, hs, hn]
    · right; left
      obtain ⟨i, hf, hi, hd⟩ := h.tables.recp.find_free hn
      refine ⟨i, by simpa [RecLive] using hd, ?_⟩
      simp only [baRecSessionAdd, baTableAllocRecEntry, hs, if_pos, if_neg hn, hf]
      refine ⟨?_, rfl, rfl⟩
      simp only [fillRecEntry, RtmpAdapter.setStation, RtmpAdapter.onRecEntry,
        RtmpAdapter.setRecStatus, Function.update_idem, Function.update_self, openSession,
        Session.emit, h.tables.aid]
  · right; right
    refine ⟨(pAd.content wcid).baRecWcidArray frame.tid, ?_⟩
    simp only [baRecSessionAdd, if_neg hs]
    refine ⟨?_, rfl, rfl⟩
    simp only [fillRecEntry, RtmpAdapter.setStation, RtmpAdapter.onRecEntry, h.tables.aid]

theorem baRecSessionTearDown_cases {pAd : RtmpAdapter} (h : BaseInv pAd) (wcid : Fin 32)
    (tid : Fin 8) (bPassive elemAlloc : Bool) : baRecSessionTearDown pAd wcid tid bPassive elemAlloc = pAd ∨
    ∃ i, SameLists (pAd.onRecEntry i endSession)
      (baRecSessionTearDown pAd wcid tid bPassive elemAlloc) := by
  by_cases hs : recSlot pAd (wcid, tid) = 0 ∨ ¬ bPassive ∧ ¬ elemAlloc
  · exact Or.inl (h.tables.tearDown_none hs)
  · right
    push Not at hs
    rw [h.tables.tearDown_eq hs.1 (by simpa using hs.2)]
    exact ⟨_, rfl, rfl, rfl⟩

theorem BaseInv.opened {a b : RtmpAdapter} (h : BaseInv a) {i : Fin 128} {w : Fin 256}
    {aid : Fin 32} {frame : FrameAddbaReq} (hl : (a.baRecEntry i).list = ⟨[], 0⟩) (hw : w ≠ 0)
    (hs : SameLists (a.onRecEntry i (openSession w aid frame)) b) (ht : TableInv b) : BaseInv b := by
  refine ⟨ht, ?_, ?_, ?_, ?_⟩
  · rw [hs.freelist]
    exact h.free
  · rw [hs.entries]
    exact onRecEntry_forall (fun e => Counted e.list) h.list (h.list i)
  · rw [hs.entries]
    exact onRecEntry_forall (fun e => e.recBaStatus = .none → e.list = ⟨[], 0⟩) h.idle fun _ => hl
  · rw [hs.entries]
    exact onRecEntry_forall (fun e => e.recBaStatus ≠ .none → e.baWinSize ≠ 0) h.win fun _ => hw

theorem BaseInv.ended {a b : RtmpAdapter} (h : BaseInv a) {i : Fin 128}
    (hs : SameLists (a.onRecEntry i endSession) b) (ht : TableInv b) : BaseInv b := by
  have hl : (endSession (session a i)).ent.list = ⟨[], 0⟩ := refresh_list (h.list i)
  refine ⟨ht, ?_, ?_, ?_, ?_⟩
  · rw [hs.freelist]
    exact (h.balanced i).refresh.free
  · rw [hs.entries]
    refine onRecEntry_forall (fun e => Counted e.list) h.list ?_
    rw [hl]
    rfl
  · rw [hs.entries]
    exact onRecEntry_forall (fun e => e.recBaStatus = .none → e.list = ⟨[], 0⟩) h.idle fun _ => hl
  · rw [hs.entries]
    exact onRecEntry_forall (fun e => e.recBaStatus ≠ .none → e.baWinSize ≠ 0) h.win
      fun hn => absurd rfl hn

/-! ### The rule -/

section Rule

variable {P : RtmpAdapter → Prop}

structure MoveInvariant (P : RtmpAdapter → Prop) : Prop where
  frame : ∀ a b, SameLists a b → P a → P b
  flush : ∀ a i now, BaseInv a → P a → P (flushRecEntry now a i)
  refresh : ∀ a i, BaseInv a → P a → P (a.onRecEntry i Session.baRefreshReorderingMpdus)
  opened : ∀ a i w aid frame, BaseInv a → (a.baRecEntry i).list = ⟨[], 0⟩ → P a →
    P (a.onRecEntry i (openSession w aid frame))
  ended : ∀ a i, BaseInv a → P a → P (a.onRecEntry i endSession)

variable (hP : MoveInvariant P)
include hP

theorem MoveInvariant.baRecSessionAdd {a : RtmpAdapter} (h : BaseInv a) (hp : P a) (wcid : Fin 32)
    (frame : FrameAddbaReq) : BaseInv (baRecSessionAdd a wcid frame).2 ∧
      P (baRecSessionAdd a wcid frame).2 := by
  have ht := h.tables.baRecSessionAdd wcid frame
  have hw := recWinSize_ne_zero a.cfg frame
  rcases baRecSessionAdd_cases h wcid frame with hc | ⟨i, hi, hc⟩ | ⟨i, hc⟩
  · rw [hc]
    exact ⟨h, hp⟩
  · have hl := h.idle i hi
    exact ⟨h.opened hl hw hc ht, hP.frame _ _ hc (hP.opened a i _ _ _ h hl hp)⟩
  · have h1 := h.refresh i
    have hl : ((a.onRecEntry i Session.baRefreshReorderingMpdus).baRecEntry i).list = ⟨[], 0⟩ := by
      rw [onRecEntry_self]
      exact refresh_list (h.list i)
    exact ⟨h1.opened hl hw hc ht, hP.frame _ _ hc (hP.opened _ i _ _ _ h1 hl (hP.refresh a i h hp))⟩

theorem MoveInvariant.baRecSessionTearDown {a : RtmpAdapter} (h : BaseInv a) (hp : P a)
    (wcid : Fin 32) (tid : Fin 8) (bPassive elemAlloc : Bool) :
    BaseInv (baRecSessionTearDown a wcid tid bPassive elemAlloc) ∧
      P (baRecSessionTearDown a wcid tid bPassive elemAlloc) := by
  have ht := h.tables.baRecSessionTearDown wcid tid bPassive elemAlloc
  rcases baRecSessionTearDown_cases h wcid tid bPassive elemAlloc with hc | ⟨i, hc⟩
  · rw [hc]
    exact ⟨h, hp⟩
  · exact ⟨h.ended hc ht, hP.frame _ _ hc (hP.ended a i h hp)⟩

theorem MoveInvariant.same {a b : RtmpAdapter} (h : BaseInv a) (hp : P a) (hs : SameLists a b)
    (ht : TableInv b) : BaseInv b ∧ P b :=
  ⟨h.frame hs ht, hP.frame a b hs hp⟩

omit hP in
theorem sameLists_freeOri (a : RtmpAdapter) (i : Fin 128) : SameLists a (baTableFreeOriEntry a i) := by
  simp only [baTableFreeOriEntry]
  split_ifs <;> exact ⟨rfl, rfl, rfl⟩

omit hP in
theorem sameLists_oriTearDown (a : RtmpAdapter) (wcid : Fin 32) (tid : Fin 8) (bPassive elemAlloc : Bool) :
    SameLists a (baOriSessionTearDown a wcid tid bPassive elemAlloc) := by
  simp only [baOriSessionTearDown]
  split_ifs
  · exact .refl a
  · exact .refl a
  · exact sameLists_freeOri a _

omit hP in
theorem sameLists_oriAdd (a : RtmpAdapter) (wcid : Fin 32) (frame : FrameAddbaRsp) :
    SameLists a (baOriSessionAdd a wcid frame) := by
  simp only [baOriSessionAdd]
  split_ifs <;> exact ⟨rfl, rfl, rfl⟩

omit hP in
theorem sameLists_oriSetUp (a : RtmpAdapter) (wcid : Fin 32) (tid : Fin 8) (timeOut : ℕ)
    (isForced : Bool) : SameLists a (baOriSessionSetUp a wcid tid timeOut isForced) := by
  have hal : ∀ idx, SameLists a (baTableAllocOriEntry a idx).2.2 := by
    intro idx
    simp only [baTableAllocOriEntry]
    split_ifs
    · exact .refl a
    · split <;> exact ⟨rfl, rfl, rfl⟩
  simp only [baOriSessionSetUp]
  split_ifs
  · exact .refl a
  · exact .refl a
  · have h1 := hal ((a.content wcid).baOriWcidArray tid)
    split
    · next heq => rw [heq] at h1; exact h1
    · next heq =>
      rw [heq] at h1
      split_ifs
      · exact h1
      · exact ⟨h1.entries, h1.freelist, h1.log⟩
  · dsimp only
    split_ifs <;> exact ⟨rfl, rfl, rfl⟩

omit hP in
theorem sameLists_oriTimeout (a : RtmpAdapter) (i : Fin 128) : SameLists a (baOriSessionSetupTimeout a i) := by
  simp only [baOriSessionSetupTimeout]
  split_ifs
  · exact .refl a
  · exact .refl a
  · exact ⟨rfl, rfl, rfl⟩
  · exact sameLists_freeOri a _

omit hP in
theorem sameLists_addBARsp (a : RtmpAdapter) (wcid msgLen : ℕ) (frame : FrameAddbaRsp) :
    SameLists a (peerAddBARspAction a wcid msgLen frame) := by
  simp only [peerAddBARspAction]
  split_ifs
  all_goals first
    | exact .refl a
    | exact sameLists_oriAdd a _ _
    | exact sameLists_oriTearDown a _ _ _ _
    | exact ⟨(sameLists_oriAdd a _ _).entries, (sameLists_oriAdd a _ _).freelist,
        (sameLists_oriAdd a _ _).log⟩
    | exact ⟨(sameLists_oriTearDown a _ _ _ _).entries, (sameLists_oriTearDown a _ _ _ _).freelist,
        (sameLists_oriTearDown a _ _ _ _).log⟩

omit hP in
theorem MoveInvariant.foldl {α : Type*} {f : RtmpAdapter → α → RtmpAdapter}
    (hf : ∀ a x, BaseInv a → P a → BaseInv (f a x) ∧ P (f a x)) (l : List α) (a : RtmpAdapter)
    (h : BaseInv a) (hp : P a) : BaseInv (l.foldl f a) ∧ P (l.foldl f a) :=
  Lib.Runs.run_invariant_all (I := fun a => BaseInv a ∧ P a) (fun a x h => hf a x h.1 h.2) l a
    ⟨h, hp⟩

theorem MoveInvariant.baReOrderingBufferMaintain {a : RtmpAdapter} (h : BaseInv a) (hp : P a)
    (now32 : Tick) : BaseInv (baReOrderingBufferMaintain a now32) ∧
      P (baReOrderingBufferMaintain a now32) := by
  refine MoveInvariant.foldl (fun a wcid h hp => ?_) _ a h hp
  split_ifs
  · exact ⟨h, hp⟩
  · exact MoveInvariant.foldl (fun a tid h hp => ⟨h.flushRecEntry _ _, hP.flush a _ _ h hp⟩) _ a h hp

theorem MoveInvariant.baSessionTearDownALL {a : RtmpAdapter} (h : BaseInv a) (hp : P a)
    (wcid : Fin 32) (elemAlloc : Fin 8 → Bool × Bool) :
    BaseInv (baSessionTearDownALL a wcid elemAlloc) ∧ P (baSessionTearDownALL a wcid elemAlloc) := by
  refine MoveInvariant.foldl (fun a tid h hp => ?_) _ a h hp
  obtain ⟨h1, hp1⟩ := hP.same h hp (sameLists_oriTearDown a wcid tid false (elemAlloc tid).1)
    (h.tables.baOriSessionTearDown _ _ _ _)
  exact hP.baRecSessionTearDown h1 hp1 _ _ _ _

/-- **The rule.** What every elementary move keeps, every operation keeps; what a received subframe
and a block-ack request do remains to be shown. -/
theorem MoveInvariant.step {a : RtmpAdapter} (h : BaseInv a) (hp : P a) (op : Op)
    (hrx : ∀ rx now32 legacyNow32, op = .indicateAmpduPacket rx now32 legacyNow32 →
      P (indicateAmpduPacket a rx now32 legacyNow32))
    (hbar : ∀ wcid msgLen tid q, op = .cntlEnqueueForRecv wcid msgLen tid q →
      P (cntlEnqueueForRecv a wcid msgLen tid q)) : BaseInv (step a op) ∧ P (step a op) := by
  have ht := step_tableInv a op h.tables
  cases op with
  | configure cfg => exact hP.same h hp ⟨rfl, rfl, rfl⟩ ht
  | baOriSessionSetUp wcid tid timeOut isForced =>
    exact hP.same h hp (sameLists_oriSetUp a wcid tid timeOut isForced) ht
  | baOriSessionAdd wcid frame => exact hP.same h hp (sameLists_oriAdd a wcid frame) ht
  | baOriSessionTearDown wcid tid bPassive elemAlloc =>
    exact hP.same h hp (sameLists_oriTearDown a wcid tid bPassive elemAlloc) ht
  | baOriSessionSetupTimeout i => exact hP.same h hp (sameLists_oriTimeout a i) ht
  | baRecSessionAdd wcid frame => exact hP.baRecSessionAdd h hp wcid frame
  | baRecSessionTearDown wcid tid bPassive elemAlloc =>
    exact hP.baRecSessionTearDown h hp wcid tid bPassive elemAlloc
  | baSessionTearDownALL wcid elemAlloc => exact hP.baSessionTearDownALL h hp wcid elemAlloc
  | baRecSessionIdleTimeout i now32 =>
    simp only [Tables.step, Tables.baRecSessionIdleTimeout]
    split_ifs
    · exact ⟨h.refresh i, hP.refresh a i h hp⟩
    · exact ⟨h, hp⟩
  | peerAddBAReqAction wcid msgLen frame =>
    simp only [Tables.step, Tables.peerAddBAReqAction]
    split_ifs
    · exact hP.baRecSessionAdd h hp _ frame
    · exact ⟨h, hp⟩
    · exact ⟨h, hp⟩
  | peerAddBARspAction wcid msgLen frame =>
    exact hP.same h hp (sameLists_addBARsp a wcid msgLen frame) ht
  | peerDelBAAction wcid msgLen tid initiator =>
    simp only [Tables.step, Tables.peerDelBAAction] at ht ⊢
    split_ifs at ht ⊢
    · exact hP.baRecSessionTearDown h hp _ tid true true
    · exact hP.same h hp (sameLists_oriTearDown a _ tid true true) ht
    · exact ⟨h, hp⟩
  | indicateAmpduPacket rx now32 legacyNow32 =>
    exact ⟨h.indicateAmpduPacket rx now32 legacyNow32, hrx rx now32 legacyNow32 rfl⟩
  | cntlEnqueueForRecv wcid msgLen tid q =>
    exact ⟨h.cntlEnqueueForRecv wcid msgLen tid q, hbar wcid msgLen tid q rfl⟩
  | flushRecEntry i now32 => exact ⟨h.flushRecEntry now32 i, hP.flush a i now32 h hp⟩
  | baReOrderingBufferMaintain now32 => exact hP.baReOrderingBufferMaintain h hp now32
end Rule

/-! ### The initial state -/

theorem resourceInitFreelist_eq (num : ℕ) :
    resourceInitFreelist num = ⟨((List.range num).map zeroBlk).reverse, num⟩ := by
  unfold resourceInitFreelist
  induction num with
  | zero => rfl
  | succ n ih =>
    rw [List.range_succ, List.foldl_append, ih]
    simp [baEnqueue]

theorem initAdapter_baseInv (cfg : Config) (num : ℕ) (attrs : Fin 32 → MacTableEntry) :
    BaseInv (initAdapter cfg num attrs) := by
  refine ⟨initAdapter_tableInv cfg num attrs, ?_, fun i => rfl, fun i _ => rfl,
    fun i hi => absurd rfl hi⟩
  change Counted (resourceInitFreelist num)
  rw [resourceInitFreelist_eq]
  simp [Counted]

/-! ### Runs that can be played through -/

def sampleStation : MacTableEntry where
  entryNone := false
  aid := 0
  maxHtPhyMode := 2
  ralinkChipset := false
  encryptionDisabled := false
  maxRAmpduFactor := 3
  txSeq := fun _ => 0
  rxBAbitmap := 0
  txBAbitmap := 0
  baDeclineBitmap := 0
  baRecWcidArray := fun _ => 0
  baOriWcidArray := fun _ => 0

def sampleConfig : Config :=
  ⟨250, 0x76100000, 64, true, false, 0, false, false, false, false, false, false, true, false, true⟩

/-- The adapter with `MAX_REORDERING_MPDU_NUM` blocks. -/
def sampleAdapter : RtmpAdapter := initAdapter sampleConfig 512 fun _ => sampleStation

def sampleOpen : Op := .baRecSessionAdd 1 ⟨1, 0, 64, 0⟩

def sampleFrame (p : ℕ) (q : Fin 4096) (eap : Bool) : Op :=
  .indicateAmpduPacket ⟨p, q, 1, 0, false, eap, 100, 0⟩ 0 0

/-- Frame 11 is missing, and the EAP frame 12 is passed by the list that holds frame 13. -/
def eapRun : List Op := [sampleOpen, sampleFrame 0 10 false, sampleFrame 1 13 false, sampleFrame 2 12 true]

end Mt7610u.BlockAck.Steps
