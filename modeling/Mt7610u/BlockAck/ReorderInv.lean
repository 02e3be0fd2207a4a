import Mt7610u.BlockAck.Window

/-! # The invariant of a reordering list

A recipient entry keeps its frames sorted by their distance from `LastIndSeq`, inside the window, and
it counts them. The reordering code moves `LastIndSeq` in two ways only, `shift` and `drain`; both are
instances of `advanceTo`. -/

namespace Mt7610u.BlockAck.ReorderInv

open Reorder Session SessionSpec Window Lib.SerialNumber

/-! ### The invariant -/

/-- The list of an entry is counted, sorted by the distance from `LastIndSeq` and inside the window,
and it is empty after a reset. -/
structure EntInv (e : BaRecEntry) : Prop where
  counted : Counted e.list
  last : e.lastIndSeq < 4096 ∨ e.lastIndSeq = resetRcvSeq
  sorted : Sorted e.lastIndSeq e.list.next
  within : Within e.lastIndSeq 1 e.baWinSize e.list.next
  reset : e.lastIndSeq = resetRcvSeq → e.list.next = []

/-- No frame of the list is the successor of `LastIndSeq`. -/
def NoneHeld (e : BaRecEntry) : Prop := ∀ m ∈ e.list.next, off e.lastIndSeq m ≠ 1

theorem EntInv.congr {e e' : BaRecEntry} (h : EntInv e) (hl : e'.list = e.list)
    (hs : e'.lastIndSeq = e.lastIndSeq) (hw : e'.baWinSize = e.baWinSize) : EntInv e' := by
  refine ⟨?_, ?_, ?_, ?_, ?_⟩
  · rw [hl]
    exact h.counted
  · rw [hs]
    exact h.last
  · rw [hl, hs]
    exact h.sorted
  · rw [hl, hs, hw]
    exact h.within
  · rw [hl, hs]
    exact h.reset

theorem NoneHeld.congr {e e' : BaRecEntry} (h : NoneHeld e) (hl : e'.list = e.list)
    (hs : e'.lastIndSeq = e.lastIndSeq) : NoneHeld e' := by
  unfold NoneHeld
  rw [hl, hs]
  exact h

theorem EntInv.empty {e : BaRecEntry} (hq : e.list = ⟨[], 0⟩)
    (hs : e.lastIndSeq < 4096 ∨ e.lastIndSeq = resetRcvSeq) : EntInv e := by
  refine ⟨?_, hs, ?_, ?_, ?_⟩ <;> simp [hq, Counted, Sorted, Within]

theorem EntInv.off_lt {e : BaRecEntry} (h : EntInv e) {m : ReorderingMpdu} (hm : m ∈ e.list.next) :
    off e.lastIndSeq m < 2048 := by
  have := (h.within m hm).2
  have := e.baWinSize.isLt
  omega

theorem EntInv.qlen_le {e : BaRecEntry} (h : EntInv e) : e.list.qlen ≤ e.baWinSize := by
  rw [h.counted]
  rcases h.sorted.length_le h.within with hl | hl
  · omega
  · simp [hl]

/-! ### Moving the base -/

theorem EntInv.advance {s : Session} (h : EntInv s.ent) {pre post : List ReorderingMpdu} {b : ℕ}
    (hl : s.ent.list.next = pre ++ post) (hb : b < 4096)
    (hpost : ∀ m ∈ post, gap s.ent.lastIndSeq b < off s.ent.lastIndSeq m) :
    EntInv (advanceTo s pre.length b).ent := by
  have hn := advanceTo_next (b := b) hl
  have hsorted : Sorted s.ent.lastIndSeq post := by
    have := h.sorted
    rw [hl, Sorted, List.pairwise_append] at this
    exact this.2.1
  refine ⟨?_, Or.inl hb, ?_, ?_, fun hr => ?_⟩
  · have hc := h.counted
    unfold Counted at hc ⊢
    rw [hn]
    have hq : (advanceTo s pre.length b).ent.list.qlen = s.ent.list.qlen - pre.length := rfl
    rw [hq, hc, hl, List.length_append]
    omega
  · rw [hn]
    exact hsorted.rebase fun m hm => (hpost m hm).le
  · rw [hn]
    intro m hm
    have h1 := hpost m hm
    have h2 : off b m = off s.ent.lastIndSeq m - gap s.ent.lastIndSeq b := gap_rebase h1.le
    have h3 := (h.within m (by rw [hl]; exact List.mem_append_right _ hm)).2
    rw [advanceTo_last, advanceTo_win]
    omega
  · exact absurd (show b = resetRcvSeq from hr) (by unfold resetRcvSeq; omega)

theorem shift_spec {s : Session} (h : EntInv s.ent) {b : ℕ} (hb : b < 4096)
    (hd : gap s.ent.lastIndSeq b ≤ 2048) : ∃ pre post, s.ent.list.next = pre ++ post ∧
      (∀ m ∈ pre, off s.ent.lastIndSeq m ≤ gap s.ent.lastIndSeq b) ∧
      (∀ m ∈ post, gap s.ent.lastIndSeq b < off s.ent.lastIndSeq m) ∧
      shift s b = advanceTo s pre.length b := by
  obtain ⟨pre, post, h1, h2, h3, h4⟩ := leSeq_split h.counted h.sorted (fun m hm => h.off_lt hm) hb hd
  exact ⟨pre, post, h1, h2, h3, by rw [shift, h4]; rfl⟩

theorem EntInv.shift {s : Session} (h : EntInv s.ent) {b : ℕ} (hb : b < 4096)
    (hd : gap s.ent.lastIndSeq b ≤ 2048) : EntInv (shift s b).ent := by
  obtain ⟨pre, post, h1, -, h3, h4⟩ := shift_spec h hb hd
  rw [h4]
  exact h.advance h1 hb h3

theorem gap_add {b k : ℕ} (hk : k < 4096) : gap b ((b + k) % 4096) = k := ahead_add (by norm_num) b hk

/-- **What a drain releases:** the frames `LastIndSeq+1, LastIndSeq+2, …` up to the first hole. -/
theorem drain_spec {s : Session} (h : EntInv s.ent) (hs : s.ent.lastIndSeq < 4096) :
    ∃ pre post, s.ent.list.next = pre ++ post ∧ Consecutive s.ent.lastIndSeq pre ∧
      (∀ m ∈ post, pre.length + 1 < off s.ent.lastIndSeq m) ∧
      drain s = advanceTo s pre.length ((s.ent.lastIndSeq + pre.length) % 4096) ∧
      gap s.ent.lastIndSeq ((s.ent.lastIndSeq + pre.length) % 4096) = pre.length := by
  obtain ⟨pre, post, h1, h2, h3, h4, h5⟩ := runLength_split h.sorted (fun m hm => (h.within m hm).1)
  have hlen : pre.length < 4096 := by
    have hq := h.qlen_le
    have hw := s.ent.baWinSize.isLt
    rw [h.counted, h1, List.length_append] at hq
    omega
  refine ⟨pre, post, h1, h2, h3, ?_, gap_add hlen⟩
  have hloop : s.indicateInOrder s.ent.lastIndSeq =
      (releaseFirst s pre.length, lastOf resetRcvSeq s.ent.list.next pre.length) := by
    rw [indicateInOrder, inOrderLoop_eq _ s _ _ h.counted rfl, h4]
  rw [drain, drainInOrder, hloop]
  by_cases hp : pre = []
  · subst hp
    simp only [List.length_nil, lastOf, List.take_zero, List.getLast?_nil, Option.map_none,
      Option.getD_none, ne_eq, not_true_eq_false, if_false, add_zero, Nat.mod_eq_of_lt hs, advanceTo,
      releaseFirst_zero]
    rfl
  · have hlast : lastOf resetRcvSeq s.ent.list.next pre.length =
        (s.ent.lastIndSeq + pre.length) % 4096 := by
      rw [← h5 hp]
      obtain ⟨x, l, rfl⟩ := List.exists_cons_of_ne_nil hp
      rw [h1, List.cons_append, List.length_cons, lastOf_cons, lastOf_cons]
    rw [hlast, if_pos (by unfold resetRcvSeq; omega)]
    rfl

theorem drain_empty {s : Session} (hl : s.ent.list.next = []) : drain s = s := by
  simp [drain, drainInOrder, indicateInOrder, hl, inOrderLoop]

theorem EntInv.drain {s : Session} (h : EntInv s.ent) : EntInv (drain s).ent := by
  rcases h.last with hs | hs
  · obtain ⟨pre, post, h1, h2, h3, h4, h5⟩ := drain_spec h hs
    rw [h4]
    refine h.advance h1 (Nat.mod_lt _ (by norm_num)) fun m hm => ?_
    rw [h5]
    exact Nat.lt_of_succ_lt (h3 m hm)
  · rw [drain_empty (h.reset hs)]
    exact h

theorem EntInv.noneHeld_drain {s : Session} (h : EntInv s.ent) : NoneHeld (SessionSpec.drain s).ent := by
  rcases h.last with hs | hs
  · obtain ⟨pre, post, h1, h2, h3, h4, h5⟩ := drain_spec h hs
    rw [h4]
    intro m hm
    rw [advanceTo_next h1] at hm
    have h6 := h3 m hm
    have hle : gap s.ent.lastIndSeq ((s.ent.lastIndSeq + pre.length) % 4096) ≤ off s.ent.lastIndSeq m := by omega
    have h7 : off _ m = _ := gap_rebase hle
    rw [advanceTo_last]
    unfold off at *
    omega
  · rw [drain_empty (h.reset hs)]
    intro m hm
    simp [h.reset hs] at hm

/-! ### The operations -/

theorem refresh_list {s : Session} (hc : Counted s.ent.list) : s.baRefreshReorderingMpdus.ent.list = ⟨[], 0⟩ := by
  rw [baRefreshReorderingMpdus_eq hc]
  have : s.ent.list.qlen - s.ent.list.next.length = 0 := by rw [hc]; omega
  simp [emit, setLast, releaseFirst, this]

theorem refresh_last (s : Session) : s.baRefreshReorderingMpdus.ent.lastIndSeq = resetRcvSeq := rfl

theorem EntInv.refresh {s : Session} (h : EntInv s.ent) : EntInv s.baRefreshReorderingMpdus.ent :=
  EntInv.empty (refresh_list h.counted) (Or.inr (refresh_last s))

theorem EntInv.shift_one {s : Session} (h : EntInv s.ent) (t : Tick) :
    EntInv ((SessionSpec.shift s ((s.ent.lastIndSeq + 1) &&& maxSeq)).setTimer t).ent := by
  rw [and_maxSeq]
  refine (h.shift (Nat.mod_lt _ (by norm_num)) ?_).congr rfl rfl rfl
  rw [gap_add (by norm_num)]
  norm_num

theorem EntInv.flush {s : Session} (h : EntInv s.ent) (hz : ℕ) (now : Tick) :
    EntInv (s.baFlushReorderingTimeoutMpdus hz now).ent := by
  rcases flush_cases hz s now with hf | hf | ⟨-, hf⟩ <;> rw [hf]
  · exact h
  · exact h.refresh.congr rfl rfl rfl
  · exact (h.shift_one now).drain

theorem NoneHeld.refresh {s : Session} (h : EntInv s.ent) : NoneHeld s.baRefreshReorderingMpdus.ent := by
  intro m hm
  rw [refresh_list h.counted] at hm
  simp at hm

theorem NoneHeld.flush {s : Session} (h : EntInv s.ent) (hn : NoneHeld s.ent) (hz : ℕ) (now : Tick) :
    NoneHeld (s.baFlushReorderingTimeoutMpdus hz now).ent := by
  rcases flush_cases hz s now with hf | hf | ⟨-, hf⟩ <;> rw [hf]
  · exact hn
  · exact (NoneHeld.refresh h).congr rfl rfl
  · exact (h.shift_one now).noneHeld_drain

theorem EntInv.indicate {s : Session} (h : EntInv s.ent) (env : RxEnv) (rx : RxBlk) :
    EntInv (indicateLegacyOrAmsdu env s rx).ent := by
  rcases indicateLegacyOrAmsdu_cases env s rx with hi | hi <;> rw [hi]
  · exact h
  · exact h.flush _ _

theorem NoneHeld.indicate {s : Session} (h : EntInv s.ent) (hn : NoneHeld s.ent) (env : RxEnv)
    (rx : RxBlk) : NoneHeld (indicateLegacyOrAmsdu env s rx).ent := by
  rcases indicateLegacyOrAmsdu_cases env s rx with hi | hi <;> rw [hi]
  · exact hn
  · exact NoneHeld.flush h hn _ _

/-! ### Insertion -/

/-- **Inserting a frame** of the window: it is refused and released when it is listed already, and
otherwise put in its place. -/
theorem insertPacket_split {s : Session} (h : EntInv s.ent) {m : ReorderingMpdu}
    (hm : off s.ent.lastIndSeq m < 2048) :
    (m.sequence ∈ s.ent.list.next.map ReorderingMpdu.sequence ∧ s.insertPacket m =
      { s.emit (.release m.pPacket) with freelist := baEnqueue s.freelist m }) ∨
    ∃ pre post, s.ent.list.next = pre ++ post ∧ (∀ x ∈ pre, off s.ent.lastIndSeq x <
        off s.ent.lastIndSeq m) ∧ (∀ x ∈ post, off s.ent.lastIndSeq m < off s.ent.lastIndSeq x) ∧
      s.insertPacket m =
        { s with ent := { s.ent with list := ⟨pre ++ m :: post, s.ent.list.qlen + 1⟩ } } := by
  rcases insertsortedScan_spec hm h.sorted (fun x hx => h.off_lt hx) with
    ⟨h1, h2⟩ | ⟨pre, post, h1, h2, h3, h4⟩
  · left
    rcases insertPacket_cases s m with ⟨-, he⟩ | ⟨l, hl, -⟩
    · exact ⟨h2, he⟩
    · simp [h1] at hl
  · right
    rcases insertPacket_cases s m with ⟨hl, -⟩ | ⟨l, hl, he⟩
    · simp [h2] at hl
    · rw [h2, Option.some.injEq] at hl
      exact ⟨pre, post, h1, h3, h4, by rw [he, hl]⟩

theorem EntInv.insertPacket {s : Session} (h : EntInv s.ent) (hs : s.ent.lastIndSeq < 4096)
    {m : ReorderingMpdu} (hlo : 1 ≤ off s.ent.lastIndSeq m)
    (hhi : off s.ent.lastIndSeq m ≤ s.ent.baWinSize) : EntInv (s.insertPacket m).ent := by
  have hw := s.ent.baWinSize.isLt
  rcases insertPacket_split h (m := m) (by omega) with ⟨-, h1⟩ | ⟨pre, post, h1, h2, h3, h4⟩
  · rw [h1]
    exact h
  · rw [h4]
    have hsorted := h.sorted
    have hwithin := h.within
    have hc : s.ent.list.qlen = (pre ++ post).length := by rw [← h1]; exact h.counted
    rw [h1] at hsorted hwithin
    refine ⟨?_, h.last, hsorted.insert h2 h3, fun x hx => ?_, fun hr => ?_⟩
    · simp only [Counted, List.length_append, List.length_cons] at *
      omega
    · rcases List.mem_append.mp hx with hx | hx
      · exact hwithin x (List.mem_append_left _ hx)
      · rcases List.mem_cons.mp hx with rfl | hx
        · exact ⟨hlo, hhi⟩
        · exact hwithin x (List.mem_append_right _ hx)
    · exact absurd (show s.ent.lastIndSeq = resetRcvSeq from hr) (by unfold resetRcvSeq; omega)

theorem NoneHeld.insertPacket {s : Session} (h : EntInv s.ent) (hn : NoneHeld s.ent)
    {m : ReorderingMpdu} (hlo : off s.ent.lastIndSeq m ≠ 1) (hhi : off s.ent.lastIndSeq m < 2048) :
    NoneHeld (s.insertPacket m).ent := by
  rcases insertPacket_split h hhi with ⟨-, h1⟩ | ⟨pre, post, h1, h2, h3, h4⟩
  · rw [h1]
    exact hn
  · rw [h4]
    intro x hx
    unfold NoneHeld at hn
    rw [h1] at hn
    rcases List.mem_append.mp hx with hx | hx
    · exact hn x (List.mem_append_left _ hx)
    · rcases List.mem_cons.mp hx with rfl | hx
      · exact hlo
      · exact hn x (List.mem_append_right _ hx)

/-! ### A received subframe -/

/-- **The cases of `Indicate_AMPDU_Packet`** as distances from `LastIndSeq`. -/
theorem classify_gap {e : BaRecEntry} (hs : e.lastIndSeq < 4096) (q : Fin 4096) : match classify e q with
    | .reset => False
    | .inOrder => gap e.lastIndSeq q = 1
    | .duplicate => gap e.lastIndSeq q = 0
    | .old => 2048 ≤ gap e.lastIndSeq q
    | .inWindow => 2 ≤ gap e.lastIndSeq q ∧ gap e.lastIndSeq q ≤ e.baWinSize
    | .surpass => 2 ≤ gap e.lastIndSeq q ∧ e.baWinSize < gap e.lastIndSeq q ∧
        gap e.lastIndSeq q < 2048 := by
  have hq := q.isLt
  have hw := e.baWinSize.isLt
  have h1 : seqStepone q e.lastIndSeq = true ↔ gap e.lastIndSeq q = 1 := by
    rw [seqStepone_iff]
    simp only [gap, ahead]
    omega
  have h2 : (q : ℕ) = e.lastIndSeq ↔ gap e.lastIndSeq q = 0 := by
    simp only [gap, ahead]
    omega
  have h3 := seqSmaller_iff q e.lastIndSeq
  have h4 := seqSmaller_iff q ((e.lastIndSeq + e.baWinSize + 1) % 4096)
  have h5 : gap ((e.lastIndSeq + e.baWinSize + 1) % 4096) q =
      (gap e.lastIndSeq q + 4096 - e.baWinSize - 1) % 4096 := by
    simp only [gap, ahead]
    omega
  rw [h5] at h4
  unfold classify
  rw [and_maxSeq]
  split_ifs with hr ha hb hc hd <;> simp only [h1, h2, h3, h4, resetRcvSeq] at * <;> omega

theorem winStartSeq_lt (e : BaRecEntry) (q : ℕ) : winStartSeq e q < 4096 := by
  simp only [winStartSeq, and_maxSeq]
  omega

theorem winStartSeq_gap {e : BaRecEntry} (hs : e.lastIndSeq < 4096) (q : Fin 4096)
    (h : e.baWinSize < gap e.lastIndSeq q) :
    gap e.lastIndSeq (winStartSeq e q) = gap e.lastIndSeq q - e.baWinSize ∧
      gap (winStartSeq e q) q = e.baWinSize := by
  have hq := q.isLt
  have hw := e.baWinSize.isLt
  simp only [winStartSeq, and_maxSeq, gap, ahead] at *
  simp only [maxSeq]
  split_ifs <;> omega

structure InWindow (e : BaRecEntry) (q : ℕ) : Prop where
  last : e.lastIndSeq < 4096
  lo : 1 ≤ gap e.lastIndSeq q
  hi : gap e.lastIndSeq q ≤ e.baWinSize

theorem EntInv.bypassPacket {s : Session} (h : EntInv s.ent) (env : RxEnv) {rx : RxBlk}
    (hw : InWindow s.ent rx.sequence) : EntInv (bypassPacket env s rx).ent := by
  have := hw.hi
  have := s.ent.baWinSize.isLt
  exact (h.shift rx.sequence.isLt (by omega)).indicate env rx

theorem EntInv.enqueue {s : Session} (h : EntInv s.ent) (hf : Counted s.freelist) (env : RxEnv)
    {rx : RxBlk} (hw : InWindow s.ent rx.sequence) : EntInv (baEnqueueReorderingPacket env s rx).ent := by
  have ha : EntInv (allocated s).ent := h
  rcases enqueue_cases env s rx hf with ⟨-, blk, -, he⟩ | ⟨-, he⟩ <;> rw [he]
  · exact ha.insertPacket hw.last hw.lo hw.hi
  · exact ha.bypassPacket env hw

/-- **A frame that is passed by the list** leaves nothing behind that is next in line, unless its own
successor is waiting there. -/
theorem NoneHeld.bypassPacket {s : Session} (h : EntInv s.ent) (env : RxEnv) {rx : RxBlk}
    (hw : InWindow s.ent rx.sequence) (hsucc : ∀ m ∈ s.ent.list.next, (m.sequence : ℕ) ≠ (rx.sequence + 1) % 4096) :
    NoneHeld (Session.bypassPacket env s rx).ent := by
  have hhi := hw.hi
  have hwin := s.ent.baWinSize.isLt
  refine NoneHeld.indicate (h.shift rx.sequence.isLt (by omega)) ?_ env rx
  obtain ⟨pre, post, h1, -, -, h4⟩ := shift_spec h rx.sequence.isLt (by omega)
  rw [h4]
  intro m hm
  rw [advanceTo_next h1] at hm
  rw [advanceTo_last]
  exact fun hc => hsucc m (by rw [h1]; exact List.mem_append_right _ hm) (gap_succ.mpr hc)

theorem NoneHeld.enqueue {s : Session} (h : EntInv s.ent) (hn : NoneHeld s.ent)
    (hf : Counted s.freelist) (env : RxEnv) {rx : RxBlk} (hw : InWindow s.ent rx.sequence)
    (hd : gap s.ent.lastIndSeq rx.sequence ≠ 1)
    (hsucc : Bypassed s rx → ∀ m ∈ s.ent.list.next, (m.sequence : ℕ) ≠ (rx.sequence + 1) % 4096) :
    NoneHeld (baEnqueueReorderingPacket env s rx).ent := by
  have ha : EntInv (allocated s).ent := h
  have hhi := hw.hi
  have hwin := s.ent.baWinSize.isLt
  rcases enqueue_cases env s rx hf with ⟨-, blk, -, he⟩ | ⟨hb, he⟩ <;> rw [he]
  · refine NoneHeld.insertPacket ha hn hd ?_
    change gap s.ent.lastIndSeq rx.sequence < 2048
    omega
  · exact NoneHeld.bypassPacket ha env hw (hsucc hb)

/-! ### The whole operations -/

def InOrderListed (s : Session) (rx : RxBlk) : Prop :=
  classify s.ent rx.sequence = .inOrder ∧ rx.sequence ∈ s.ent.list.next.map ReorderingMpdu.sequence

def SuccessorListed (s : Session) (rx : RxBlk) : Prop :=
  classify s.ent rx.sequence = .inWindow ∧ Bypassed s rx ∧
    ∃ m ∈ s.ent.list.next, (m.sequence : ℕ) = (rx.sequence + 1) % 4096

instance (s : Session) (rx : RxBlk) : Decidable (InOrderListed s rx) := inferInstanceAs (Decidable (_ ∧ _))

instance (s : Session) (rx : RxBlk) : Decidable (SuccessorListed s rx) := inferInstanceAs (Decidable (_ ∧ _))

theorem EntInv.arrive {s : Session} (h : EntInv s.ent) (env : RxEnv) (rx : RxBlk) :
    EntInv (arrive env s rx).ent := by
  have h1 : EntInv { s.ent with rcvSeq := rx.sequence } := h.congr rfl rfl rfl
  exact (EntInv.flush (s := { s with ent := { s.ent with rcvSeq := rx.sequence } }) h1 env.osHz
    env.now32).congr rfl rfl rfl

theorem NoneHeld.arrive {s : Session} (h : EntInv s.ent) (hn : NoneHeld s.ent) (env : RxEnv)
    (rx : RxBlk) : NoneHeld (Session.arrive env s rx).ent := by
  have h1 : EntInv { s.ent with rcvSeq := rx.sequence } := h.congr rfl rfl rfl
  exact (NoneHeld.flush (s := { s with ent := { s.ent with rcvSeq := rx.sequence } }) h1
    (hn.congr rfl rfl) env.osHz env.now32).congr rfl rfl

theorem EntInv.setLast_next {s : Session} (h : EntInv s.ent) {q : Fin 4096} (hd : gap s.ent.lastIndSeq q = 1)
    (hq : q ∉ s.ent.list.next.map ReorderingMpdu.sequence) : EntInv (s.setLast q).ent := by
  have hadv := h.advance (show s.ent.list.next = [] ++ s.ent.list.next from rfl) q.isLt ?_
  · simpa [advanceTo] using hadv
  · intro m hm
    rw [hd]
    have h1 := (h.within m hm).1
    have h2 : off s.ent.lastIndSeq m ≠ 1 := by
      intro hc
      refine hq (List.mem_map.mpr ⟨m, hm, ?_⟩)
      exact Fin.ext (ahead_inj (by norm_num) m.sequence.isLt q.isLt (hc.trans hd.symm))
    omega

theorem NoneHeld.not_inOrderListed {s : Session} (hn : NoneHeld s.ent)
    (hs : s.ent.lastIndSeq < 4096) (rx : RxBlk) : ¬ InOrderListed s rx := by
  rintro ⟨hc, hm⟩
  obtain ⟨m, hm, hq⟩ := List.mem_map.mp hm
  have hd := classify_gap hs rx.sequence
  rw [hc] at hd
  refine hn m hm ?_
  rw [off, hq]
  exact hd

theorem surpass_inWindow {s : Session} (hs : s.ent.lastIndSeq < 4096) (hwin : s.ent.baWinSize ≠ 0)
    {q : Fin 4096} (hd : s.ent.baWinSize < gap s.ent.lastIndSeq q) (now : Tick) :
    InWindow (s.surpassShift q now).ent q := by
  have hid := identity_indicateLeSeq s (winStartSeq s.ent q)
  have hw : (s.surpassShift q now).ent.baWinSize = s.ent.baWinSize := by
    simp only [identity, Prod.mk.injEq] at hid
    exact hid.2.2.2
  have hl : (s.surpassShift q now).ent.lastIndSeq = winStartSeq s.ent q := rfl
  have h2 := (winStartSeq_gap hs q hd).2
  have hpos : 0 < (s.ent.baWinSize : ℕ) := Fin.pos_iff_ne_zero.mpr hwin
  refine ⟨?_, ?_, ?_⟩
  · rw [hl]
    exact winStartSeq_lt _ _
  · rw [hl, h2]
    omega
  · rw [hl, hw, h2]

theorem EntInv.surpassShift {s : Session} (h : EntInv s.ent) (hs : s.ent.lastIndSeq < 4096)
    {q : Fin 4096} (hd : s.ent.baWinSize < gap s.ent.lastIndSeq q)
    (hd' : gap s.ent.lastIndSeq q < 2048) (now : Tick) : EntInv (s.surpassShift q now).ent := by
  refine (h.shift (winStartSeq_lt _ _) ?_).congr rfl rfl rfl
  rw [(winStartSeq_gap hs q hd).1]
  omega

/-- What the cases of `Indicate_AMPDU_Packet` rely on: a window that is not empty, and a counted free
list. -/
structure Ready (s : Session) : Prop where
  ent : EntInv s.ent
  bal : Balanced s
  win : s.ent.baWinSize ≠ 0

theorem Ready.arrive {s : Session} (h : Ready s) (env : RxEnv) (rx : RxBlk) : Ready (arrive env s rx) := by
  refine ⟨h.ent.arrive env rx, h.bal.arrive env rx, ?_⟩
  have hid : identity (Session.arrive env s rx).ent = identity s.ent := by
    rw [Session.arrive, identity_setTimer, identity_flush]
    rfl
  simp only [identity, Prod.mk.injEq] at hid
  rw [hid.2.2.2]
  exact h.win

theorem EntInv.list_empty {e : BaRecEntry} (h : EntInv e) (hs : e.lastIndSeq = resetRcvSeq) : e.list = ⟨[], 0⟩ := by
  have hl := h.reset hs
  have hc := h.counted
  rw [Counted, hl] at hc
  cases hls : e.list
  simp_all

/-- **One frame keeps the invariant**, unless it is next in line and listed at the same time. -/
theorem EntInv.indicateCases {s : Session} (h : Ready s) (env : RxEnv) {rx : RxBlk}
    (hno : ¬ InOrderListed s rx) : EntInv (indicateCases env s rx).ent := by
  have hq := rx.sequence.isLt
  rcases h.ent.last with hs | hs
  · have hd := classify_gap hs rx.sequence
    unfold Session.indicateCases
    cases hc : classify s.ent rx.sequence with
    | reset => simp [hc] at hd
    | inOrder =>
      rw [hc] at hd
      have hnl : rx.sequence ∉ s.ent.list.next.map ReorderingMpdu.sequence := fun hm => hno ⟨hc, hm⟩
      exact ((h.ent.setLast_next hd hnl).indicate env rx).drain.congr rfl rfl rfl
    | duplicate => exact h.ent.congr rfl rfl rfl
    | old => exact h.ent.congr rfl rfl rfl
    | inWindow =>
      rw [hc] at hd
      exact h.ent.enqueue h.bal.free env ⟨hs, by omega, hd.2⟩
    | surpass =>
      rw [hc] at hd
      have hsh := h.ent.surpassShift hs hd.2.1 hd.2.2 env.now32
      have hin := surpass_inWindow hs h.win hd.2.1 env.now32
      exact (hsh.enqueue (h.bal.surpassShift _ _).free env hin).drain
  · have hc : classify s.ent rx.sequence = .reset := if_pos hs
    unfold Session.indicateCases
    rw [hc]
    have hlist := h.ent.list_empty hs
    have h0 : EntInv ((s.setLast rx.sequence).setTimer env.now32).ent := EntInv.empty hlist (Or.inl hq)
    exact h0.indicate env rx

theorem EntInv.indicateAmpduSession {s : Session} (h : Ready s) (env : RxEnv) {rx : RxBlk}
    (hno : ¬ InOrderListed (Session.arrive env s rx) rx) : EntInv (indicateAmpduSession env s rx).ent :=
  EntInv.indicateCases (h.arrive env rx) env hno

/-- **One frame leaves nothing that is next in line**, unless it is passed by the list while its
successor is listed. -/
theorem NoneHeld.indicateCases {s : Session} (h : Ready s) (hn : NoneHeld s.ent) (env : RxEnv)
    {rx : RxBlk} (hno : ¬ SuccessorListed s rx) : NoneHeld (Session.indicateCases env s rx).ent := by
  rcases h.ent.last with hs | hs
  · have hd := classify_gap hs rx.sequence
    unfold Session.indicateCases
    cases hc : classify s.ent rx.sequence with
    | reset => simp [hc] at hd
    | inOrder =>
      rw [hc] at hd
      have hnl := hn.not_inOrderListed hs rx
      have hset := h.ent.setLast_next hd fun hm => hnl ⟨hc, hm⟩
      exact (hset.indicate env rx).noneHeld_drain.congr rfl rfl
    | duplicate => exact hn.congr rfl rfl
    | old => exact hn.congr rfl rfl
    | inWindow =>
      rw [hc] at hd
      refine NoneHeld.enqueue h.ent hn h.bal.free env ⟨hs, by omega, hd.2⟩ (by omega) ?_
      intro hb m hm hq
      exact hno ⟨hc, hb, m, hm, hq⟩
    | surpass =>
      rw [hc] at hd
      have hsh := h.ent.surpassShift hs hd.2.1 hd.2.2 env.now32
      have hin := surpass_inWindow hs h.win hd.2.1 env.now32
      exact (hsh.enqueue (h.bal.surpassShift _ _).free env hin).noneHeld_drain
  · have hc : classify s.ent rx.sequence = .reset := if_pos hs
    unfold Session.indicateCases
    rw [hc]
    have hlist := h.ent.list_empty hs
    have h0 : EntInv ((s.setLast rx.sequence).setTimer env.now32).ent :=
      EntInv.empty hlist (Or.inl rx.sequence.isLt)
    refine NoneHeld.indicate h0 ?_ env rx
    intro m hm
    have : m ∈ s.ent.list.next := hm
    rw [hlist] at this
    simp at this

/-! ### A block-ack request -/

theorem bar_gap {b : ℕ} {q : Fin 4096} (h : seqSmaller b q = true) :
    1 ≤ gap b q ∧ gap b q ≤ 2048 ∧
      gap b (if (q : ℕ) = 0 then maxSeq else q - 1) = gap b q - 1 := by
  have hq := q.isLt
  rw [seqSmaller_iff] at h
  simp only [gap, ahead, maxSeq] at *
  split_ifs <;> omega

/-- **What a block-ack request releases:** everything up to its starting sequence, inclusive. -/
theorem cntlBar_spec {s : Session} (h : EntInv s.ent) {q : Fin 4096} (hq : seqSmaller s.ent.lastIndSeq q = true) :
    ∃ pre post, s.ent.list.next = pre ++ post ∧
      (∀ m ∈ pre, off s.ent.lastIndSeq m ≤ gap s.ent.lastIndSeq q) ∧
      (∀ m ∈ post, gap s.ent.lastIndSeq q < off s.ent.lastIndSeq m) ∧
      s.cntlBar q = advanceTo s pre.length (if (q : ℕ) = 0 then maxSeq else q - 1) := by
  obtain ⟨h1, h2, h3⟩ := bar_gap hq
  obtain ⟨pre, post, h4, h5, h6, h7⟩ := leSeq_split h.counted h.sorted (fun m hm => h.off_lt hm) q.isLt h2
  refine ⟨pre, post, h4, h5, h6, ?_⟩
  rw [cntlBar, if_pos hq, h7]
  rfl

theorem bar_last_lt (q : Fin 4096) : (if (q : ℕ) = 0 then maxSeq else q - 1) < 4096 := by
  have := q.isLt
  unfold maxSeq
  split_ifs <;> omega

theorem EntInv.cntlBar {s : Session} (h : EntInv s.ent) (q : Fin 4096) : EntInv (s.cntlBar q).ent := by
  by_cases hq : seqSmaller s.ent.lastIndSeq q = true
  · obtain ⟨h1, h2, h3⟩ := bar_gap hq
    obtain ⟨pre, post, h4, h5, h6, h7⟩ := cntlBar_spec h hq
    rw [h7]
    refine h.advance h4 (bar_last_lt q) fun m hm => ?_
    have := h6 m hm
    omega
  · rw [Session.cntlBar, if_neg hq]
    exact h

theorem NoneHeld.cntlBar {s : Session} (h : EntInv s.ent) (hn : NoneHeld s.ent) (q : Fin 4096) :
    NoneHeld (s.cntlBar q).ent := by
  by_cases hq : seqSmaller s.ent.lastIndSeq q = true
  · obtain ⟨h1, h2, h3⟩ := bar_gap hq
    obtain ⟨pre, post, h4, h5, h6, h7⟩ := cntlBar_spec h hq
    rw [h7]
    intro m hm
    rw [advanceTo_next h4] at hm
    have h8 := h6 m hm
    have h9 : off (if (q : ℕ) = 0 then maxSeq else q - 1) m = _ :=
      gap_rebase (show gap s.ent.lastIndSeq _ ≤ off s.ent.lastIndSeq m by omega)
    rw [advanceTo_last]
    unfold off at *
    omega
  · rw [Session.cntlBar, if_neg hq]
    exact hn

end Mt7610u.BlockAck.ReorderInv
