import Mathlib.Data.List.TakeWhile
import Mt7610u.BlockAck.Reorder

/-! # What the release loops do

The loops of the reordering engine pop blocks from the head of the list. Each of them is summarised
by one operation, `releaseFirst n`: the first `n` blocks are passed up in order and go back to the
free list. -/

namespace Mt7610u.BlockAck.SessionSpec

open Reorder Session

/-! ### The fields of an entry that belong to the tables -/

def identity (e : BaRecEntry) : RecBlockackStatus × Fin 32 × Fin 8 × Fin 256 :=
  (e.recBaStatus, e.wcid, e.tid, e.baWinSize)

section Frame

variable (s : Session)

@[simp] theorem identity_emit (e : Event) : identity (s.emit e).ent = identity s.ent := rfl

@[simp] theorem identity_setLast (n : ℕ) : identity (s.setLast n).ent = identity s.ent := rfl

@[simp] theorem identity_setTimer (t : Tick) : identity (s.setTimer t).ent = identity s.ent := rfl

@[simp] theorem identity_announceFree (b : ReorderingMpdu) : identity (s.announceFree b).ent = identity s.ent := rfl

@[simp] theorem identity_dequeue : identity s.dequeue.2.ent = identity s.ent := rfl

@[simp] theorem identity_baMpduBlkAlloc : identity s.baMpduBlkAlloc.2.ent = identity s.ent := rfl

end Frame

theorem identity_inOrderLoop : ∀ (l : List ReorderingMpdu) (s : Session) (a b : ℕ),
    identity (inOrderLoop l s a b).1.ent = identity s.ent
  | [], s, a, b => rfl
  | p :: l, s, a, b => by
    unfold inOrderLoop
    split_ifs
    · split
      · next blk s' h =>
        rw [identity_inOrderLoop, identity_announceFree, ← identity_dequeue s, h]
      · next s' h => rw [← identity_dequeue s, h]
    · rfl

theorem identity_leSeqLoop (n : ℕ) : ∀ (l : List ReorderingMpdu) (s : Session),
    identity (leSeqLoop n l s).ent = identity s.ent
  | [], s => rfl
  | p :: l, s => by
    unfold leSeqLoop
    split_ifs
    · split
      · next blk s' h =>
        rw [identity_leSeqLoop, identity_announceFree, ← identity_dequeue s, h]
      · next s' h => rw [← identity_dequeue s, h]
    · rfl

theorem identity_refreshLoop : ∀ (l : List ReorderingMpdu) (s : Session),
    identity (refreshLoop l s).ent = identity s.ent
  | [], s => rfl
  | p :: l, s => by
    unfold refreshLoop
    split
    · next blk s' h =>
      rw [identity_refreshLoop, identity_setLast, identity_announceFree, ← identity_dequeue s, h]
    · next s' h => rw [← identity_dequeue s, h]

@[simp] theorem identity_indicateLeSeq (s : Session) (n : ℕ) :
    identity (s.indicateLeSeq n).ent = identity s.ent := identity_leSeqLoop n _ s

@[simp] theorem identity_drainInOrder (s : Session) (n : ℕ) : identity (s.drainInOrder n).ent = identity s.ent := by
  have h : identity (s.indicateInOrder n).1.ent = identity s.ent := identity_inOrderLoop _ s n _
  unfold drainInOrder
  split_ifs
  · rw [identity_setLast, h]
  · exact h

@[simp] theorem identity_refresh (s : Session) : identity s.baRefreshReorderingMpdus.ent = identity s.ent := by
  unfold baRefreshReorderingMpdus
  rw [identity_emit, identity_setLast, identity_refreshLoop]

@[simp] theorem identity_flush (hz : ℕ) (s : Session) (now : Tick) :
    identity (s.baFlushReorderingTimeoutMpdus hz now).ent = identity s.ent := by
  unfold baFlushReorderingTimeoutMpdus
  split_ifs <;> simp

@[simp] theorem identity_indicateLegacyOrAmsdu (env : RxEnv) (s : Session) (rx : RxBlk) :
    identity (indicateLegacyOrAmsdu env s rx).ent = identity s.ent := by
  unfold indicateLegacyOrAmsdu
  split_ifs <;> simp

@[simp] theorem identity_insertPacket (s : Session) (m : ReorderingMpdu) :
    identity (s.insertPacket m).ent = identity s.ent := by
  unfold insertPacket
  split <;> rfl

@[simp] theorem identity_enqueue (env : RxEnv) (s : Session) (rx : RxBlk) :
    identity (baEnqueueReorderingPacket env s rx).ent = identity s.ent := by
  have ha := identity_baMpduBlkAlloc s
  unfold baEnqueueReorderingPacket
  split
  · next blk s' heq hm =>
    rw [identity_insertPacket, ← ha, heq]
  · next a s' heq hm =>
    rw [bypassPacket, identity_indicateLegacyOrAmsdu, identity_setLast, identity_indicateLeSeq, ← ha, heq]

theorem identity_indicateCases (env : RxEnv) (s : Session) (rx : RxBlk) :
    identity (indicateCases env s rx).ent = identity s.ent := by
  unfold indicateCases
  split
  · simp
  · simp
  · rfl
  · rfl
  · simp
  · simp [surpassShift]

@[simp] theorem identity_indicateAmpduSession (env : RxEnv) (s : Session) (rx : RxBlk) :
    identity (indicateAmpduSession env s rx).ent = identity s.ent := by
  unfold indicateAmpduSession
  rw [identity_indicateCases, arrive, identity_setTimer, identity_flush]
  rfl

@[simp] theorem identity_cntlBar (s : Session) (n : Fin 4096) : identity (s.cntlBar n).ent = identity s.ent := by
  unfold cntlBar
  split_ifs <;> simp

/-! ### Counted lists -/

def Counted (list : ReorderingList) : Prop := list.qlen = list.next.length

theorem counted_baEnqueue {list : ReorderingList} (h : Counted list) (blk : ReorderingMpdu) :
    Counted (baEnqueue list blk) := by
  simp only [Counted, baEnqueue, List.length_cons] at *
  omega

theorem baDequeue_eq {list : ReorderingList} (h : Counted list) :
    baDequeue list = (list.next.head?, ⟨list.next.tail, list.qlen - 1⟩) := by
  obtain ⟨next, qlen⟩ := list
  simp only [Counted] at h
  subst h
  cases next with
  | nil => simp [baDequeue]
  | cons blk rest => simp [baDequeue]

theorem counted_baDequeue {list : ReorderingList} (h : Counted list) : Counted (baDequeue list).2 := by
  rw [baDequeue_eq h]
  simp only [Counted, List.length_tail] at *
  omega

theorem length_insertsortedScan (m : ReorderingMpdu) : ∀ {l l' : List ReorderingMpdu},
    insertsortedScan m l = some l' → l'.length = l.length + 1
  | [], l', h => by
    simp only [insertsortedScan, Option.some.injEq] at h
    subst h
    rfl
  | scan :: rest, l', h => by
    unfold insertsortedScan at h
    split_ifs at h
    · obtain ⟨l'', h1, rfl⟩ := Option.map_eq_some_iff.mp h
      have := length_insertsortedScan m h1
      simp [this]
    · simp only [Option.some.injEq] at h
      subst h
      rfl

/-! ### Releasing the first blocks -/

/-- The first `n` blocks of the session's list are passed up in order and go to the free list. -/
def releaseFirst (s : Session) (n : ℕ) : Session where
  freelist := ⟨(s.ent.list.next.take n).reverse ++ s.freelist.next,
    s.freelist.qlen + (s.ent.list.next.take n).length⟩
  ent := { s.ent with list := ⟨s.ent.list.next.drop n, s.ent.list.qlen - n⟩ }
  events := s.events ++ (s.ent.list.next.take n).map fun b => .deliver b.pPacket b.sequence

@[simp] theorem releaseFirst_zero (s : Session) : releaseFirst s 0 = s := by
  simp [releaseFirst]

def popHead (s : Session) (blk : ReorderingMpdu) : Session := s.dequeue.2.announceFree blk

theorem dequeue_cons {s : Session} {blk : ReorderingMpdu} {rest : List ReorderingMpdu}
    (hc : Counted s.ent.list) (h : s.ent.list.next = blk :: rest) : s.dequeue = (some blk, s.dequeue.2) := by
  simp [dequeue, baDequeue_eq hc, h]

theorem popHead_list {s : Session} {blk : ReorderingMpdu} {rest : List ReorderingMpdu}
    (hc : Counted s.ent.list) (h : s.ent.list.next = blk :: rest) :
    (popHead s blk).ent.list.next = rest ∧ Counted (popHead s blk).ent.list := by
  have h1 : (popHead s blk).ent.list = (baDequeue s.ent.list).2 := rfl
  rw [h1]
  refine ⟨?_, counted_baDequeue hc⟩
  rw [baDequeue_eq hc, h]
  rfl

theorem releaseFirst_popHead {s : Session} {blk : ReorderingMpdu} {rest : List ReorderingMpdu}
    (hc : Counted s.ent.list) (h : s.ent.list.next = blk :: rest) (n : ℕ) :
    releaseFirst (popHead s blk) n = releaseFirst s (n + 1) := by
  simp only [releaseFirst, popHead, dequeue, announceFree, emit, baEnqueue, baDequeue_eq hc, h,
    List.tail_cons, List.take_succ_cons, List.drop_succ_cons, List.reverse_cons, List.map_cons,
    List.length_cons, List.append_assoc, List.singleton_append]
  congr 1
  · congr 1
    omega
  · congr 2
    omega

theorem leSeqLoop_eq (n : ℕ) : ∀ (l : List ReorderingMpdu) (s : Session), Counted s.ent.list →
    s.ent.list.next = l → leSeqLoop n l s = releaseFirst s
      (l.takeWhile fun b => (b.sequence : ℕ) = n ∨ seqSmaller b.sequence n).length
  | [], s, hc, hl => by simp [leSeqLoop]
  | blk :: rest, s, hc, hl => by
    obtain ⟨h1, h2⟩ := popHead_list hc hl
    unfold leSeqLoop
    by_cases hp : (blk.sequence : ℕ) = n ∨ seqSmaller blk.sequence n
    · rw [if_pos hp, List.takeWhile_cons_of_pos (by simpa using hp), dequeue_cons hc hl]
      change leSeqLoop n rest (popHead s blk) = _
      rw [leSeqLoop_eq n rest _ h2 h1, releaseFirst_popHead hc hl]
      rfl
    · rw [if_neg hp, List.takeWhile_cons_of_neg (by simpa using hp)]
      simp

theorem indicateLeSeq_eq {s : Session} (hc : Counted s.ent.list) (n : ℕ) :
    s.indicateLeSeq n = releaseFirst s (s.ent.list.next.takeWhile fun b =>
      (b.sequence : ℕ) = n ∨ seqSmaller b.sequence n).length :=
  leSeqLoop_eq n _ s hc rfl

/-- The number of blocks that continue `startSeq` without a hole. -/
def runLength : ℕ → List ReorderingMpdu → ℕ
  | _, [] => 0
  | startSeq, blk :: rest =>
    if seqStepone blk.sequence startSeq then runLength blk.sequence rest + 1 else 0

/-- The sequence number after the first `n` blocks, `start` for none. -/
def lastOf (start : ℕ) (l : List ReorderingMpdu) (n : ℕ) : ℕ :=
  ((l.take n).getLast?.map fun b => (b.sequence : ℕ)).getD start

theorem lastOf_cons (start : ℕ) (blk : ReorderingMpdu) (rest : List ReorderingMpdu) (n : ℕ) :
    lastOf start (blk :: rest) (n + 1) = lastOf blk.sequence rest n := by
  simp only [lastOf, List.take_succ_cons]
  cases h : rest.take n with
  | nil => simp
  | cons a l => simp [List.getLast?_cons]

theorem inOrderLoop_eq : ∀ (l : List ReorderingMpdu) (s : Session) (a b : ℕ), Counted s.ent.list →
    s.ent.list.next = l → inOrderLoop l s a b = (releaseFirst s (runLength a l), lastOf b l (runLength a l))
  | [], s, a, b, hc, hl => by simp [inOrderLoop, runLength, lastOf]
  | blk :: rest, s, a, b, hc, hl => by
    obtain ⟨h1, h2⟩ := popHead_list hc hl
    unfold inOrderLoop runLength
    split_ifs with hp
    · rw [dequeue_cons hc hl]
      change inOrderLoop rest (popHead s blk) _ _ = _
      rw [inOrderLoop_eq rest _ _ _ h2 h1, releaseFirst_popHead hc hl, lastOf_cons]
    · simp [lastOf]

theorem refreshLoop_eq : ∀ (l : List ReorderingMpdu) (s : Session), Counted s.ent.list →
    s.ent.list.next = l → ∀ n, (refreshLoop l s).setLast n = (releaseFirst s l.length).setLast n
  | [], s, hc, hl, n => by
    have h0 : s.ent.list.qlen = 0 := by rw [hc, hl]; rfl
    simp [refreshLoop, dequeue, baDequeue, h0]
  | blk :: rest, s, hc, hl, n => by
    obtain ⟨h1, h2⟩ := popHead_list hc hl
    unfold refreshLoop
    rw [dequeue_cons hc hl]
    change (refreshLoop rest ((popHead s blk).setLast blk.sequence)).setLast n = _
    rw [refreshLoop_eq rest ((popHead s blk).setLast blk.sequence) h2 h1 n]
    have h3 := releaseFirst_popHead hc hl rest.length
    rw [List.length_cons, ← h3]
    rfl

theorem baRefreshReorderingMpdus_eq {s : Session} (hc : Counted s.ent.list) :
    s.baRefreshReorderingMpdus =
      ((releaseFirst s s.ent.list.next.length).setLast resetRcvSeq).emit .reset := by
  unfold baRefreshReorderingMpdus
  rw [refreshLoop_eq _ s hc rfl]

/-! ### What each operation can do -/

/-- The first `n` blocks are released and `LastIndSeq` moves to `b`. -/
def advanceTo (s : Session) (n b : ℕ) : Session := (releaseFirst s n).setLast b

@[simp] theorem advanceTo_last (s : Session) (n b : ℕ) : (advanceTo s n b).ent.lastIndSeq = b := rfl

@[simp] theorem advanceTo_win (s : Session) (n b : ℕ) : (advanceTo s n b).ent.baWinSize = s.ent.baWinSize := rfl

theorem advanceTo_next {s : Session} {pre post : List ReorderingMpdu} {b : ℕ}
    (h : s.ent.list.next = pre ++ post) : (advanceTo s pre.length b).ent.list.next = post := by
  simp [advanceTo, setLast, releaseFirst, h]

/-- `ba_indicate_reordering_mpdus_le_seq` with the assignment to `LastIndSeq` that follows it. -/
def shift (s : Session) (b : ℕ) : Session := (s.indicateLeSeq b).setLast b

/-- The in-order drain from `LastIndSeq`. -/
def drain (s : Session) : Session := s.drainInOrder s.ent.lastIndSeq

theorem indicateLeSeq_cases {s : Session} (hc : Counted s.ent.list) (a b : ℕ) :
    ∃ n ≤ s.ent.list.next.length, (s.indicateLeSeq a).setLast b = advanceTo s n b :=
  ⟨_, (List.takeWhile_prefix _).length_le, by rw [indicateLeSeq_eq hc]; rfl⟩

theorem runLength_le : ∀ (l : List ReorderingMpdu) (a : ℕ), runLength a l ≤ l.length
  | [], _ => le_rfl
  | blk :: rest, a => by
    unfold runLength
    split_ifs
    · exact Nat.succ_le_succ (runLength_le rest _)
    · exact Nat.zero_le _

theorem drain_cases {s : Session} (hc : Counted s.ent.list) :
    ∃ n ≤ s.ent.list.next.length, ∃ b, drain s = advanceTo s n b := by
  have hloop := inOrderLoop_eq s.ent.list.next s s.ent.lastIndSeq resetRcvSeq hc rfl
  refine ⟨_, runLength_le s.ent.list.next s.ent.lastIndSeq, ?_⟩
  rw [drain, drainInOrder, indicateInOrder, hloop]
  split_ifs
  · exact ⟨_, rfl⟩
  · exact ⟨s.ent.lastIndSeq, rfl⟩

/-- **The three outcomes of a timeout flush:** nothing is due, everything is released, or the base
moves one step over the hole and what follows is drained. -/
theorem flush_cases (hz : ℕ) (s : Session) (now : Tick) : s.baFlushReorderingTimeoutMpdus hz now = s ∨
    s.baFlushReorderingTimeoutMpdus hz now = s.baRefreshReorderingMpdus.setTimer now ∨
    s.ent.list.qlen ≠ 0 ∧ s.baFlushReorderingTimeoutMpdus hz now =
      drain ((shift s ((s.ent.lastIndSeq + 1) &&& maxSeq)).setTimer now) := by
  unfold baFlushReorderingTimeoutMpdus
  split_ifs with h1 h2 h3
  · exact Or.inl rfl
  · exact Or.inr (Or.inl rfl)
  · exact Or.inr (Or.inr ⟨h1, rfl⟩)
  · exact Or.inl rfl

theorem indicateLegacyOrAmsdu_cases (env : RxEnv) (s : Session) (rx : RxBlk) :
    indicateLegacyOrAmsdu env s rx = s.emit (.deliver rx.pRxPacket rx.sequence) ∨
    indicateLegacyOrAmsdu env s rx =
      (s.baFlushReorderingTimeoutMpdus env.osHz env.legacyNow32).emit
        (.deliver rx.pRxPacket rx.sequence) := by
  unfold indicateLegacyOrAmsdu
  split_ifs
  · exact Or.inr rfl
  · exact Or.inl rfl

theorem insertPacket_cases (s : Session) (m : ReorderingMpdu) :
    (insertsortedScan m s.ent.list.next = none ∧ s.insertPacket m =
      { s.emit (.release m.pPacket) with freelist := baEnqueue s.freelist m }) ∨
    ∃ l, insertsortedScan m s.ent.list.next = some l ∧ s.insertPacket m =
      { s with ent := { s.ent with list := ⟨l, s.ent.list.qlen + 1⟩ } } := by
  cases h : insertsortedScan m s.ent.list.next with
  | none =>
    left
    exact ⟨rfl, by simp only [insertPacket, baReorderingMpduInsertsorted, h]⟩
  | some l =>
    right
    exact ⟨l, rfl, by simp only [insertPacket, baReorderingMpduInsertsorted, h]⟩

def Bypassed (s : Session) (rx : RxBlk) : Prop := rx.fRxEap = true ∨ s.freelist.qlen = 0

instance (s : Session) (rx : RxBlk) : Decidable (Bypassed s rx) := inferInstanceAs (Decidable (_ ∨ _))

/-- The session once `ba_mpdu_blk_alloc` has taken a block, if there is one. -/
def allocated (s : Session) : Session := { s with freelist := (baDequeue s.freelist).2 }

theorem enqueue_cases (env : RxEnv) (s : Session) (rx : RxBlk) (hf : Counted s.freelist) :
    (¬ Bypassed s rx ∧ ∃ blk, s.freelist.next.head? = some blk ∧
      baEnqueueReorderingPacket env s rx = (allocated s).insertPacket (fillBlk (zeroBlk blk.addr) rx)) ∨
    (Bypassed s rx ∧ baEnqueueReorderingPacket env s rx = bypassPacket env (allocated s) rx) := by
  have hd := baDequeue_eq hf
  have halloc : s.baMpduBlkAlloc =
      (s.freelist.next.head?.map fun blk => zeroBlk blk.addr, allocated s) := by
    simp [baMpduBlkAlloc, allocated, hd]
  unfold baEnqueueReorderingPacket
  rw [halloc]
  cases hn : s.freelist.next with
  | nil =>
    right
    have hq : s.freelist.qlen = 0 := by rw [hf, hn]; rfl
    exact ⟨Or.inr hq, by simp⟩
  | cons blk rest =>
    have hq : s.freelist.qlen ≠ 0 := by rw [hf, hn]; simp
    cases he : rx.fRxEap with
    | false =>
      left
      exact ⟨by simp [Bypassed, he, hq], blk, by simp, by simp⟩
    | true =>
      right
      exact ⟨Or.inl he, by simp⟩

/-! ### Both counters are always right -/

structure Balanced (s : Session) : Prop where
  list : Counted s.ent.list
  free : Counted s.freelist

namespace Balanced

variable {s : Session}

theorem advanceTo (h : Balanced s) {n : ℕ} (hn : n ≤ s.ent.list.next.length) (b : ℕ) :
    Balanced (advanceTo s n b) := by
  obtain ⟨h1, h2⟩ := h
  constructor
  · simp only [Counted, SessionSpec.advanceTo, setLast, releaseFirst, List.length_drop] at *
    omega
  · simp only [Counted, SessionSpec.advanceTo, setLast, releaseFirst, List.length_append,
      List.length_reverse] at *
    omega

theorem leSeq (h : Balanced s) (a b : ℕ) : Balanced ((s.indicateLeSeq a).setLast b) := by
  obtain ⟨n, hn, he⟩ := indicateLeSeq_cases h.list a b
  rw [he]
  exact h.advanceTo hn b

theorem drain (h : Balanced s) : Balanced (drain s) := by
  obtain ⟨n, hn, b, he⟩ := drain_cases h.list
  rw [he]
  exact h.advanceTo hn b

theorem refresh (h : Balanced s) : Balanced s.baRefreshReorderingMpdus := by
  rw [baRefreshReorderingMpdus_eq h.list]
  have h1 := h.advanceTo le_rfl resetRcvSeq
  exact ⟨h1.list, h1.free⟩

theorem flush (h : Balanced s) (hz : ℕ) (now : Tick) : Balanced (s.baFlushReorderingTimeoutMpdus hz now) := by
  rcases flush_cases hz s now with hf | hf | ⟨-, hf⟩ <;> rw [hf]
  · exact h
  · exact ⟨h.refresh.list, h.refresh.free⟩
  · have hs := h.leSeq ((s.ent.lastIndSeq + 1) &&& maxSeq) ((s.ent.lastIndSeq + 1) &&& maxSeq)
    exact Balanced.drain ⟨hs.list, hs.free⟩

theorem indicate (h : Balanced s) (env : RxEnv) (rx : RxBlk) : Balanced (indicateLegacyOrAmsdu env s rx) := by
  rcases indicateLegacyOrAmsdu_cases env s rx with hi | hi <;> rw [hi]
  · exact ⟨h.list, h.free⟩
  · exact ⟨(h.flush _ _).list, (h.flush _ _).free⟩

theorem allocated (h : Balanced s) : Balanced (allocated s) := ⟨h.list, counted_baDequeue h.free⟩

theorem insertPacket (h : Balanced s) (m : ReorderingMpdu) : Balanced (s.insertPacket m) := by
  rcases insertPacket_cases s m with ⟨-, he⟩ | ⟨l, hl, he⟩ <;> rw [he]
  · exact ⟨h.list, counted_baEnqueue h.free m⟩
  · refine ⟨?_, h.free⟩
    have h1 := length_insertsortedScan m hl
    have h2 := h.list
    simp only [Counted] at h2 ⊢
    omega

theorem bypassPacket (h : Balanced s) (env : RxEnv) (rx : RxBlk) : Balanced (bypassPacket env s rx) :=
  (h.leSeq rx.sequence rx.sequence).indicate env rx

theorem enqueue (h : Balanced s) (env : RxEnv) (rx : RxBlk) : Balanced (baEnqueueReorderingPacket env s rx) := by
  rcases enqueue_cases env s rx h.free with ⟨-, blk, -, he⟩ | ⟨-, he⟩ <;> rw [he]
  · exact h.allocated.insertPacket _
  · exact h.allocated.bypassPacket env rx

theorem arrive (h : Balanced s) (env : RxEnv) (rx : RxBlk) : Balanced (arrive env s rx) := by
  have h1 : Balanced { s with ent := { s.ent with rcvSeq := rx.sequence } } := ⟨h.list, h.free⟩
  exact ⟨(h1.flush env.osHz env.now32).list, (h1.flush env.osHz env.now32).free⟩

theorem surpassShift (h : Balanced s) (q : ℕ) (now : Tick) : Balanced (s.surpassShift q now) := by
  have h1 := h.leSeq (winStartSeq s.ent q) (winStartSeq s.ent q)
  exact ⟨h1.list, h1.free⟩

theorem indicateCases (h : Balanced s) (env : RxEnv) (rx : RxBlk) : Balanced (indicateCases env s rx) := by
  unfold Session.indicateCases
  split
  · exact Balanced.indicate (s := (s.setLast rx.sequence).setTimer env.now32) ⟨h.list, h.free⟩ env rx
  · have h1 : Balanced (indicateLegacyOrAmsdu env (s.setLast rx.sequence) rx) :=
      Balanced.indicate (s := s.setLast rx.sequence) ⟨h.list, h.free⟩ env rx
    exact ⟨h1.drain.list, h1.drain.free⟩
  · exact ⟨h.list, h.free⟩
  · exact ⟨h.list, h.free⟩
  · exact h.enqueue env rx
  · exact ((h.surpassShift _ _).enqueue env rx).drain

theorem indicateAmpduSession (h : Balanced s) (env : RxEnv) (rx : RxBlk) :
    Balanced (indicateAmpduSession env s rx) :=
  (h.arrive env rx).indicateCases env rx

theorem cntlBar (h : Balanced s) (q : Fin 4096) : Balanced (s.cntlBar q) := by
  unfold Session.cntlBar
  split_ifs
  · exact h.leSeq _ _
  · exact h.leSeq _ _
  · exact h

end Balanced

end Mt7610u.BlockAck.SessionSpec
