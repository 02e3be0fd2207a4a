import Mt7610u.BlockAck.Steps

/-! # Delivery in order

What the reordering code passes up between two resets of `LastIndSeq` strictly advances: each frame is
`SEQ_LARGER` than the one before it.

The code breaks the order in four ways, which `InOrderStep` excludes: a block-ack request passes its
starting sequence up and then sets `LastIndSeq` before it; a frame is passed by a list that holds its
copy; `Indicate_Legacy_Packet` flushes later frames before it passes its own frame up; and a frame that
is 2048 numbers or more beyond the last delivered one is taken for an earlier one. -/

namespace Mt7610u.BlockAck.Delivery

open Reorder Session SessionSpec Window Tables Consistency Steps ReorderInv Lib.SerialNumber Lib.Runs

/-! ### Ordered events -/

/-- Each delivered frame is `SEQ_LARGER` than the one before it since the last reset; `p` is what was
delivered before. -/
def Ordered : Option (Fin 4096) → List Event → Prop
  | _, [] => True
  | p, .deliver _ q :: es => (∀ r ∈ p, seqLarger q r) ∧ Ordered (some q) es
  | p, .release _ :: es => Ordered p es
  | _, .reset :: es => Ordered none es

def lastDelivered : Option (Fin 4096) → List Event → Option (Fin 4096)
  | p, [] => p
  | _, .deliver _ q :: es => lastDelivered (some q) es
  | p, .release _ :: es => lastDelivered p es
  | _, .reset :: es => lastDelivered none es

theorem ordered_append : ∀ {a b : List Event} {p : Option (Fin 4096)},
    Ordered p (a ++ b) ↔ Ordered p a ∧ Ordered (lastDelivered p a) b
  | [], b, p => by simp [Ordered, lastDelivered]
  | .deliver _ q :: a, b, p => by
    simp only [List.cons_append, Ordered, lastDelivered]
    rw [ordered_append, and_assoc]
  | .release _ :: a, b, p => by
    simp only [List.cons_append, Ordered, lastDelivered]
    exact ordered_append
  | .reset :: a, b, p => by
    simp only [List.cons_append, Ordered, lastDelivered]
    exact ordered_append

theorem lastDelivered_append : ∀ (a b : List Event) (p : Option (Fin 4096)),
    lastDelivered p (a ++ b) = lastDelivered (lastDelivered p a) b
  | [], _, _ => rfl
  | .deliver _ q :: a, b, _ => lastDelivered_append a b (some q)
  | .release _ :: a, b, p => lastDelivered_append a b p
  | .reset :: a, b, _ => lastDelivered_append a b none

def deliveries (l : List ReorderingMpdu) : List Event := l.map fun b => .deliver b.pPacket b.sequence

theorem lastDelivered_deliveries : ∀ (l : List ReorderingMpdu) (p : Option (Fin 4096)),
    lastDelivered p (deliveries l) = (l.getLast?.map ReorderingMpdu.sequence).or p
  | [], p => rfl
  | [x], p => rfl
  | x :: y :: l, p => by
    have ih := lastDelivered_deliveries (y :: l) (some x.sequence)
    rw [deliveries, List.map_cons, lastDelivered]
    rw [deliveries] at ih
    rw [ih, List.getLast?_cons_cons]
    cases h : (y :: l).getLast? with
    | none => simp at h
    | some z => rfl

theorem seqLarger_of_gap {b : ℕ} {p q : Fin 4096} (hlt : gap p b + gap b q < 2048)
    (hpos : 0 < gap p b + gap b q) : seqLarger q p = true := by
  rw [seqLarger_iff q.isLt p.isLt]
  have h : gap p q = gap p b + gap b q := gap_trans (by omega)
  omega

theorem seqLarger_of_off {b : ℕ} {p q : Fin 4096} (hlt : gap b p < gap b q)
    (hhi : gap b q < 2048) : seqLarger q p = true := by
  rw [seqLarger_iff q.isLt p.isLt]
  have h : gap p q = gap b q - gap b p := gap_rebase hlt.le
  omega

theorem ordered_deliveries {b : ℕ} : ∀ {l : List ReorderingMpdu} {p : Option (Fin 4096)},
    Sorted b l → (∀ m ∈ l, off b m < 2048) → (∀ r ∈ p, ∀ m ∈ l.head?, seqLarger m.sequence r) →
    Ordered p (deliveries l)
  | [], _, _, _, _ => trivial
  | x :: l, p, hs, hl, hp => by
    rw [Sorted, List.pairwise_cons] at hs
    refine ⟨fun r hr => hp r hr x rfl, ?_⟩
    refine ordered_deliveries hs.2 (fun m hm => hl m (List.mem_cons_of_mem x hm)) fun r hr m hm => ?_
    obtain rfl : x.sequence = r := by simpa using hr
    have hm' : m ∈ l := List.mem_of_head? hm
    exact seqLarger_of_off (hs.1 m hm') (hl m (List.mem_cons_of_mem x hm'))

/-! ### The invariant -/

/-- The events are in order, the head of the list lies fewer than 2048 numbers ahead of what was
delivered last, counted over `LastIndSeq`, and a reset forgets what was delivered. -/
structure Advancing (p : Option (Fin 4096)) (s : Session) : Prop where
  ordered : Ordered p s.events
  head : ∀ r ∈ lastDelivered p s.events, ∀ m ∈ s.ent.list.next.head?,
    gap r s.ent.lastIndSeq + off s.ent.lastIndSeq m < 2048
  reset : s.ent.lastIndSeq = resetRcvSeq → lastDelivered p s.events = none

theorem Advancing.congr {p : Option (Fin 4096)} {s t : Session} (h : Advancing p s)
    (he : t.events = s.events) (hl : t.ent.list = s.ent.list)
    (hs : t.ent.lastIndSeq = s.ent.lastIndSeq) : Advancing p t := by
  refine ⟨?_, ?_, ?_⟩
  · rw [he]
    exact h.ordered
  · rw [he, hl, hs]
    exact h.head
  · rw [he, hs]
    exact h.reset

theorem Advancing.ordered_release {p : Option (Fin 4096)} {s : Session} (h : Advancing p s)
    (he : EntInv s.ent) {pre post : List ReorderingMpdu} (hl : s.ent.list.next = pre ++ post) :
    Ordered p (s.events ++ deliveries pre) := by
  have hmem : ∀ m ∈ pre, m ∈ s.ent.list.next := by
    intro m hm
    rw [hl]
    exact List.mem_append_left _ hm
  have hsorted : Sorted s.ent.lastIndSeq pre := by
    have := he.sorted
    rw [hl, Sorted, List.pairwise_append] at this
    exact this.1
  rw [ordered_append]
  refine ⟨h.ordered, ordered_deliveries hsorted (fun m hm => he.off_lt (hmem m hm)) fun r hr m hm => ?_⟩
  have hh : m ∈ s.ent.list.next.head? := by
    rw [hl, List.head?_append, hm]
    rfl
  have h1 := h.head r hr m hh
  have h2 := (he.within m (hmem m (List.mem_of_head? hm))).1
  rw [off] at h1 h2
  exact seqLarger_of_gap h1 (by omega)

theorem advanceTo_events {s : Session} {pre post : List ReorderingMpdu} {b : ℕ}
    (hl : s.ent.list.next = pre ++ post) : (advanceTo s pre.length b).events = s.events ++ deliveries pre := by
  simp [advanceTo, setLast, releaseFirst, hl, deliveries]

theorem lastDelivered_advanceTo {p : Option (Fin 4096)} {s : Session}
    {pre post : List ReorderingMpdu} {b : ℕ} (hl : s.ent.list.next = pre ++ post) :
    lastDelivered p (advanceTo s pre.length b).events =
      (pre.getLast?.map ReorderingMpdu.sequence).or (lastDelivered p s.events) := by
  rw [advanceTo_events hl, lastDelivered_append, lastDelivered_deliveries]

theorem Advancing.advance {p : Option (Fin 4096)} {s : Session} (h : Advancing p s)
    (he : EntInv s.ent) {pre post : List ReorderingMpdu} {b : ℕ}
    (hl : s.ent.list.next = pre ++ post) (hb : b < 4096)
    (hpre : ∀ m ∈ pre, off s.ent.lastIndSeq m ≤ gap s.ent.lastIndSeq b)
    (hpost : ∀ m ∈ post, gap s.ent.lastIndSeq b < off s.ent.lastIndSeq m) :
    Advancing p (advanceTo s pre.length b) := by
  refine ⟨?_, fun r hr m hm => ?_, fun hr => ?_⟩
  · rw [advanceTo_events hl]
    exact h.ordered_release he hl
  · rw [lastDelivered_advanceTo hl] at hr
    rw [advanceTo_next hl] at hm
    rw [advanceTo_last, off]
    have hm' : m ∈ post := List.mem_of_head? hm
    have h1 := hpost m hm'
    have h3 : off s.ent.lastIndSeq m < 2048 := he.off_lt (by
      rw [hl]
      exact List.mem_append_right _ hm')
    rw [off] at h1 h3
    have h2 := gap_rebase h1.le
    cases hlast : pre.getLast? with
    | none =>
      -- nothing was released: the head of the list is where it was
      rw [hlast] at hr
      have hnil : pre = [] := List.getLast?_eq_none_iff.mp hlast
      have hh : m ∈ s.ent.list.next.head? := by
        rw [hl, hnil]
        exact hm
      have h4 := h.head r (by simpa using hr) m hh
      rw [off] at h4
      have h5 : gap r b = gap r s.ent.lastIndSeq + gap s.ent.lastIndSeq b := gap_trans (by omega)
      omega
    | some x =>
      rw [hlast] at hr
      obtain rfl : x.sequence = r := by simpa using hr
      have h4 := hpre x (List.mem_of_getLast? hlast)
      rw [off] at h4
      have h5 := gap_rebase h4
      omega
  · exact absurd (show b = resetRcvSeq from hr) (by unfold resetRcvSeq; omega)

/-! ### Releases without a frame -/

theorem Advancing.shift {p : Option (Fin 4096)} {s : Session} (h : Advancing p s) (he : EntInv s.ent)
    {b : ℕ} (hb : b < 4096) (hd : gap s.ent.lastIndSeq b ≤ 2048) : Advancing p (shift s b) := by
  obtain ⟨pre, post, h1, h2, h3, h4⟩ := shift_spec he hb hd
  rw [h4]
  exact h.advance he h1 hb h2 h3

theorem Advancing.drain {p : Option (Fin 4096)} {s : Session} (h : Advancing p s)
    (he : EntInv s.ent) : Advancing p (drain s) := by
  rcases he.last with hs | hs
  · obtain ⟨pre, post, h1, h2, h3, h4, h5⟩ := drain_spec he hs
    rw [h4]
    refine h.advance he h1 (Nat.mod_lt _ (by norm_num)) (fun m hm => ?_) fun m hm => ?_
    · have hr : off s.ent.lastIndSeq m ∈ List.range' 1 pre.length := by
        rw [← show pre.map (off s.ent.lastIndSeq) = List.range' 1 pre.length from h2]
        exact List.mem_map_of_mem hm
      rw [List.mem_range'_1] at hr
      omega
    · have := h3 m hm
      omega
  · rw [drain_empty (he.reset hs)]
    exact h

theorem Advancing.refresh {p : Option (Fin 4096)} {s : Session} (h : Advancing p s)
    (he : EntInv s.ent) : Advancing p s.baRefreshReorderingMpdus := by
  have hl : s.ent.list.next = s.ent.list.next ++ [] := (List.append_nil _).symm
  have hev : s.baRefreshReorderingMpdus.events = s.events ++ deliveries s.ent.list.next ++ [.reset] := by
    rw [baRefreshReorderingMpdus_eq he.counted]
    simp [emit, setLast, releaseFirst, deliveries]
  have hlast : lastDelivered p s.baRefreshReorderingMpdus.events = none := by
    rw [hev, lastDelivered_append]
    rfl
  refine ⟨?_, ?_, fun _ => hlast⟩
  · rw [hev, ordered_append]
    exact ⟨h.ordered_release he hl, trivial⟩
  · rw [hlast]
    intro r hr
    simp at hr

theorem Advancing.flush {p : Option (Fin 4096)} {s : Session} (h : Advancing p s) (he : EntInv s.ent)
    (hz : ℕ) (now : Tick) : Advancing p (s.baFlushReorderingTimeoutMpdus hz now) := by
  rcases flush_cases hz s now with hf | hf | ⟨-, hf⟩ <;> rw [hf]
  · exact h
  · exact (h.refresh he).congr rfl rfl rfl
  · refine Advancing.drain ?_ (he.shift_one now)
    refine (h.shift he (b := (s.ent.lastIndSeq + 1) &&& maxSeq) ?_ ?_).congr rfl rfl rfl
    · rw [and_maxSeq]
      omega
    · rw [and_maxSeq, gap_add (by norm_num)]
      norm_num

/-- **A block-ack request** that does not find its starting sequence in the list. -/
theorem Advancing.cntlBar {p : Option (Fin 4096)} {s : Session} (h : Advancing p s)
    (he : EntInv s.ent) {q : Fin 4096} (hq : seqSmaller s.ent.lastIndSeq q = true →
      q ∉ s.ent.list.next.map ReorderingMpdu.sequence) : Advancing p (s.cntlBar q) := by
  by_cases hs : seqSmaller s.ent.lastIndSeq q = true
  · obtain ⟨h1, h2, h3⟩ := bar_gap hs
    obtain ⟨pre, post, h4, h5, h6, h7⟩ := cntlBar_spec he hs
    rw [h7]
    refine h.advance he h4 (bar_last_lt q) (fun m hm => ?_) fun m hm => ?_
    · have hne : off s.ent.lastIndSeq m ≠ gap s.ent.lastIndSeq q := by
        intro hc
        refine hq hs (List.mem_map.mpr ⟨m, ?_, ?_⟩)
        · rw [h4]
          exact List.mem_append_left _ hm
        · exact Fin.ext (ahead_inj (by norm_num) m.sequence.isLt q.isLt hc)
      have := h5 m hm
      omega
    · have := h6 m hm
      omega
  · rw [Session.cntlBar, if_neg hs]
    exact h

/-! ### A received subframe -/

/-- With nothing listed, the number `q` lies fewer than 2048 numbers ahead of what was delivered last,
counted over `LastIndSeq`. -/
def Near (p : Option (Fin 4096)) (s : Session) (q : Fin 4096) : Prop :=
  s.ent.list.next = [] → ∀ r ∈ lastDelivered p s.events, gap r s.ent.lastIndSeq + gap s.ent.lastIndSeq q < 2048

theorem Advancing.larger_front {p : Option (Fin 4096)} {s : Session} (h : Advancing p s)
    {q : Fin 4096} (hn : Near p s q) (hpos : 1 ≤ gap s.ent.lastIndSeq q)
    (hfront : ∀ m ∈ s.ent.list.next, gap s.ent.lastIndSeq q < off s.ent.lastIndSeq m)
    {r : Fin 4096} (hr : r ∈ lastDelivered p s.events) : seqLarger q r = true := by
  cases hl : s.ent.list.next with
  | nil => exact seqLarger_of_gap (hn hl r hr) (by omega)
  | cons m rest =>
    have h1 := h.head r hr m (by rw [hl]; rfl)
    have h2 := hfront m (by rw [hl]; exact List.mem_cons_self)
    exact seqLarger_of_gap (b := s.ent.lastIndSeq) (by omega) (by omega)

theorem Advancing.larger_shift {p : Option (Fin 4096)} {s : Session} (h : Advancing p s)
    (he : EntInv s.ent) {q : Fin 4096} (hn : Near p s q) (hpos : 1 ≤ gap s.ent.lastIndSeq q)
    (hhi : gap s.ent.lastIndSeq q < 2048) (hq : q ∉ s.ent.list.next.map ReorderingMpdu.sequence) {r : Fin 4096}
    (hr : r ∈ lastDelivered p (SessionSpec.shift s q).events) : seqLarger q r = true := by
  obtain ⟨pre, post, h1, h2, h3, h4⟩ := shift_spec he q.isLt hhi.le
  rw [h4, lastDelivered_advanceTo h1] at hr
  cases hlast : pre.getLast? with
  | none =>
    rw [hlast] at hr
    have hnil : pre = [] := List.getLast?_eq_none_iff.mp hlast
    refine h.larger_front hn hpos (fun m hm => h3 m ?_) (by simpa using hr)
    rwa [h1, hnil] at hm
  | some x =>
    rw [hlast] at hr
    obtain rfl : x.sequence = r := by simpa using hr
    have hx := List.mem_of_getLast? hlast
    have hne : off s.ent.lastIndSeq x ≠ gap s.ent.lastIndSeq q := by
      intro hc
      refine hq (List.mem_map.mpr ⟨x, ?_, ?_⟩)
      · rw [h1]
        exact List.mem_append_left _ hx
      · exact Fin.ext (ahead_inj (by norm_num) x.sequence.isLt q.isLt hc)
    have h5 := h2 x hx
    exact seqLarger_of_off (b := s.ent.lastIndSeq) (by rw [off] at *; omega) hhi

theorem Near.shift {p : Option (Fin 4096)} {s : Session} (he : EntInv s.ent) {q : Fin 4096}
    (hn : Near p s q) {b : ℕ} (hb : b < 4096) (hle : gap s.ent.lastIndSeq b ≤ gap s.ent.lastIndSeq q)
    (hhi : gap s.ent.lastIndSeq q < 2048) : Near p (SessionSpec.shift s b) q := by
  obtain ⟨pre, post, h1, h2, h3, h4⟩ := shift_spec he hb (by omega)
  have h5 := gap_rebase hle
  rw [h4]
  intro hnil r hr
  rw [advanceTo_next h1] at hnil
  rw [lastDelivered_advanceTo h1] at hr
  rw [advanceTo_last]
  cases hlast : pre.getLast? with
  | none =>
    rw [hlast] at hr
    have hpre : pre = [] := List.getLast?_eq_none_iff.mp hlast
    have h6 := hn (by rw [h1, hpre, hnil]; rfl) r (by simpa using hr)
    have h7 : gap r b = gap r s.ent.lastIndSeq + gap s.ent.lastIndSeq b := gap_trans (by omega)
    omega
  | some x =>
    rw [hlast] at hr
    obtain rfl : x.sequence = r := by simpa using hr
    have h6 := h2 x (List.mem_of_getLast? hlast)
    rw [off] at h6
    have h7 := gap_rebase h6
    omega

theorem Advancing.deliver {p : Option (Fin 4096)} {s : Session} (ho : Ordered p s.events)
    (he : EntInv s.ent) {q : Fin 4096} (hq : s.ent.lastIndSeq = q)
    (hlarger : ∀ r ∈ lastDelivered p s.events, seqLarger q r = true) (pkt : ℕ) :
    Advancing p (s.emit (.deliver pkt q)) := by
  have hlast : lastDelivered p (s.emit (.deliver pkt q)).events = some q := by
    rw [emit, lastDelivered_append]
    rfl
  refine ⟨ordered_append.mpr ⟨ho, hlarger, trivial⟩, ?_, fun hr => ?_⟩
  · rw [hlast]
    intro r hr m hm
    obtain rfl : q = r := by simpa using hr
    have h1 := he.off_lt (List.mem_of_head? hm)
    have h2 : gap (q : ℕ) q = 0 := ahead_self (by norm_num) _
    change gap (q : ℕ) s.ent.lastIndSeq + off s.ent.lastIndSeq m < 2048
    rw [hq] at h1 ⊢
    omega
  · have := q.isLt
    exact absurd (hq.symm.trans hr) (by unfold resetRcvSeq; omega)

theorem Advancing.emit_release {p : Option (Fin 4096)} {s : Session} (h : Advancing p s) (pkt : ℕ) :
    Advancing p (s.emit (.release pkt)) := by
  have hlast : lastDelivered p (s.events ++ [.release pkt]) = lastDelivered p s.events := by
    rw [lastDelivered_append]
    rfl
  refine ⟨ordered_append.mpr ⟨h.ordered, trivial⟩, ?_, ?_⟩
  · intro r hr
    exact h.head r (hlast.symm.trans hr)
  · intro hr
    exact hlast.trans (h.reset hr)

theorem Advancing.insertPacket {p : Option (Fin 4096)} {s : Session} (h : Advancing p s)
    (he : EntInv s.ent) {m : ReorderingMpdu} (hhi : off s.ent.lastIndSeq m < 2048)
    (hn : Near p s m.sequence) : Advancing p (s.insertPacket m) := by
  rcases insertPacket_split he hhi with ⟨-, h1⟩ | ⟨pre, post, h1, h2, h3, h4⟩
  · rw [h1]
    exact (h.emit_release m.pPacket).congr rfl rfl rfl
  · rw [h4]
    refine ⟨h.ordered, fun r hr x hx => ?_, h.reset⟩
    change x ∈ (pre ++ m :: post).head? at hx
    change gap r s.ent.lastIndSeq + off s.ent.lastIndSeq x < 2048
    cases pre with
    | nil =>
      obtain rfl : m = x := by simpa using hx
      cases post with
      | nil => exact hn h1 r hr
      | cons y post =>
        have h5 := h.head r hr y (by rw [h1]; rfl)
        have h6 := h3 y List.mem_cons_self
        omega
    | cons y pre =>
      obtain rfl : y = x := by simpa using hx
      exact h.head r hr y (by rw [h1]; rfl)

/-- The nested flush of `Indicate_Legacy_Packet` would find an overdue frame beyond this one. -/
def NestedFlush (env : RxEnv) (s : Session) (rx : RxBlk) : Prop :=
  indicatedLegacy env rx = true ∧
    rtmpTimeAfter env.legacyNow32 (env.now32 + reorderingPacketTimeout env.osHz) = true ∧
    ∃ m ∈ s.ent.list.next, gap s.ent.lastIndSeq rx.sequence < off s.ent.lastIndSeq m

instance (env : RxEnv) (s : Session) (rx : RxBlk) : Decidable (NestedFlush env s rx) :=
  inferInstanceAs (Decidable (_ ∧ _))

theorem indicate_eq_emit {env : RxEnv} {s : Session} {rx : RxBlk} (hc : Counted s.ent.list)
    (ht : s.ent.lastIndSeqAtTimer = env.now32)
    (hno : ¬ (indicatedLegacy env rx = true ∧
      rtmpTimeAfter env.legacyNow32 (env.now32 + reorderingPacketTimeout env.osHz) = true ∧
      s.ent.list.next ≠ [])) : indicateLegacyOrAmsdu env s rx = s.emit (.deliver rx.pRxPacket rx.sequence) := by
  unfold indicateLegacyOrAmsdu
  rw [if_neg]
  rintro ⟨h1, h2, h3⟩
  rw [ht] at h3
  refine hno ⟨h1, h3, fun hl => ?_⟩
  rw [hc, hl] at h2
  simp at h2

/-- **The frame is passed by the list:** its copy is not listed, and no nested flush comes before
it. -/
theorem Advancing.bypassPacket {p : Option (Fin 4096)} {env : RxEnv} {s : Session} {rx : RxBlk}
    (h : Advancing p s) (he : EntInv s.ent) (ht : s.ent.lastIndSeqAtTimer = env.now32)
    (hw : InWindow s.ent rx.sequence) (hn : Near p s rx.sequence)
    (hq : rx.sequence ∉ s.ent.list.next.map ReorderingMpdu.sequence)
    (hno : ¬ NestedFlush env s rx) : Advancing p (Session.bypassPacket env s rx) := by
  have hhi : gap s.ent.lastIndSeq rx.sequence < 2048 := by
    have := hw.hi
    have := s.ent.baWinSize.isLt
    omega
  have hs := h.shift he rx.sequence.isLt hhi.le
  have hes := he.shift rx.sequence.isLt hhi.le
  obtain ⟨pre, post, h1, -, h3, h4⟩ := shift_spec he rx.sequence.isLt hhi.le
  have hind : indicateLegacyOrAmsdu env (SessionSpec.shift s rx.sequence) rx =
      (SessionSpec.shift s rx.sequence).emit (.deliver rx.pRxPacket rx.sequence) := by
    refine indicate_eq_emit hes.counted (by rw [h4]; exact ht) ?_
    rintro ⟨h5, h6, h7⟩
    rw [h4, advanceTo_next h1] at h7
    obtain ⟨m, hm⟩ := List.exists_mem_of_ne_nil post h7
    exact hno ⟨h5, h6, m, by rw [h1]; exact List.mem_append_right _ hm, h3 m hm⟩
  change Advancing p (indicateLegacyOrAmsdu env (SessionSpec.shift s rx.sequence) rx)
  rw [hind]
  exact Advancing.deliver hs.ordered hes rfl
    (fun r hr => h.larger_shift he hn hw.lo hhi hq hr) rx.pRxPacket

theorem Advancing.enqueue {p : Option (Fin 4096)} {env : RxEnv} {s : Session} {rx : RxBlk}
    (h : Advancing p s) (he : EntInv s.ent) (hf : Counted s.freelist)
    (ht : s.ent.lastIndSeqAtTimer = env.now32) (hw : InWindow s.ent rx.sequence)
    (hn : Near p s rx.sequence) (hby : Bypassed s rx →
      rx.sequence ∉ s.ent.list.next.map ReorderingMpdu.sequence ∧ ¬ NestedFlush env s rx) :
    Advancing p (baEnqueueReorderingPacket env s rx) := by
  have ha : Advancing p (allocated s) := h.congr rfl rfl rfl
  have hea : EntInv (allocated s).ent := he
  rcases enqueue_cases env s rx hf with ⟨-, blk, -, hc⟩ | ⟨hb, hc⟩ <;> rw [hc]
  · refine ha.insertPacket hea ?_ hn
    have := hw.hi
    have := s.ent.baWinSize.isLt
    change gap s.ent.lastIndSeq rx.sequence < 2048
    omega
  · exact ha.bypassPacket hea ht hw hn (hby hb).1 (hby hb).2

def InOrderFrame (env : RxEnv) (p : Option (Fin 4096)) (s : Session) (rx : RxBlk) : Prop :=
  (classify s.ent rx.sequence = .inOrder ∨ classify s.ent rx.sequence = .inWindow ∧ Bypassed s rx →
    rx.sequence ∉ s.ent.list.next.map ReorderingMpdu.sequence ∧ ¬ NestedFlush env s rx) ∧
  (classify s.ent rx.sequence = .inOrder ∨ classify s.ent rx.sequence = .inWindow ∨
    classify s.ent rx.sequence = .surpass → Near p s rx.sequence)

instance (p : Option (Fin 4096)) (s : Session) (q : Fin 4096) : Decidable (Near p s q) :=
  have : Decidable (∀ r ∈ lastDelivered p s.events,
      gap r s.ent.lastIndSeq + gap s.ent.lastIndSeq q < 2048) := Option.decidableForallMem _
  inferInstanceAs (Decidable (_ → _))

instance (env : RxEnv) (p : Option (Fin 4096)) (s : Session) (rx : RxBlk) :
    Decidable (InOrderFrame env p s rx) :=
  inferInstanceAs (Decidable (_ ∧ _))

theorem surpass_not_listed {s : Session} (he : EntInv s.ent) (hs : s.ent.lastIndSeq < 4096)
    {q : Fin 4096} (hd : s.ent.baWinSize < gap s.ent.lastIndSeq q)
    (hd' : gap s.ent.lastIndSeq q < 2048) (now : Tick) :
    ∀ m ∈ (s.surpassShift q now).ent.list.next,
      off (s.surpassShift q now).ent.lastIndSeq m < gap (s.surpassShift q now).ent.lastIndSeq q := by
  have hw := winStartSeq_gap hs q hd
  obtain ⟨pre, post, h1, -, h3, h4⟩ := shift_spec he (winStartSeq_lt s.ent q) (by omega)
  intro m hm
  change m ∈ (SessionSpec.shift s (winStartSeq s.ent q)).ent.list.next at hm
  rw [h4, advanceTo_next h1] at hm
  change off (winStartSeq s.ent q) m < gap (winStartSeq s.ent q) q
  have h5 := h3 m hm
  have h6 := (he.within m (by rw [h1]; exact List.mem_append_right _ hm)).2
  rw [off] at h5 h6 ⊢
  have h7 := gap_rebase h5.le
  omega

section Frame

variable {p : Option (Fin 4096)} {env : RxEnv} {s : Session} {rx : RxBlk}

theorem Advancing.caseReset (h : Advancing p s) (he : EntInv s.ent) (hs : s.ent.lastIndSeq = resetRcvSeq) :
    Advancing p (indicateLegacyOrAmsdu env ((s.setLast rx.sequence).setTimer env.now32) rx) := by
  have hlist := he.list_empty hs
  have h0 : EntInv ((s.setLast rx.sequence).setTimer env.now32).ent := EntInv.empty hlist (Or.inl rx.sequence.isLt)
  have hind : indicateLegacyOrAmsdu env ((s.setLast rx.sequence).setTimer env.now32) rx =
      ((s.setLast rx.sequence).setTimer env.now32).emit (.deliver rx.pRxPacket rx.sequence) := by
    refine indicate_eq_emit h0.counted rfl ?_
    rintro ⟨-, -, h7⟩
    exact h7 (congrArg ReorderingList.next hlist)
  rw [hind]
  refine Advancing.deliver (s := (s.setLast rx.sequence).setTimer env.now32) h.ordered h0 rfl
    (fun r hr' => ?_) rx.pRxPacket
  have hnone : lastDelivered p s.events = none := h.reset hs
  change r ∈ lastDelivered p s.events at hr'
  rw [hnone] at hr'
  simp at hr'

theorem front_of_next (he : EntInv s.ent) {q : Fin 4096} (hd : gap s.ent.lastIndSeq q = 1)
    (hq : q ∉ s.ent.list.next.map ReorderingMpdu.sequence) {m : ReorderingMpdu}
    (hm : m ∈ s.ent.list.next) : gap s.ent.lastIndSeq q < off s.ent.lastIndSeq m := by
  have h1 := (he.within m hm).1
  have h2 : off s.ent.lastIndSeq m ≠ 1 := by
    intro hc
    refine hq (List.mem_map.mpr ⟨m, hm, ?_⟩)
    exact Fin.ext (ahead_inj (by norm_num) m.sequence.isLt q.isLt (hc.trans hd.symm))
  omega

theorem Advancing.caseInOrder (h : Advancing p s) (he : EntInv s.ent)
    (ht : s.ent.lastIndSeqAtTimer = env.now32) (hd : gap s.ent.lastIndSeq rx.sequence = 1)
    (hnear : Near p s rx.sequence) (hq : rx.sequence ∉ s.ent.list.next.map ReorderingMpdu.sequence)
    (hno : ¬ NestedFlush env s rx) :
    Advancing p (SessionSpec.drain (indicateLegacyOrAmsdu env (s.setLast rx.sequence) rx)) := by
  have hset := he.setLast_next hd hq
  have hind : indicateLegacyOrAmsdu env (s.setLast rx.sequence) rx =
      (s.setLast rx.sequence).emit (.deliver rx.pRxPacket rx.sequence) := by
    refine indicate_eq_emit he.counted ht ?_
    rintro ⟨h5, h6, h7⟩
    obtain ⟨m, hm⟩ := List.exists_mem_of_ne_nil _ h7
    exact hno ⟨h5, h6, m, hm, front_of_next he hd hq hm⟩
  have h1 : Advancing p (indicateLegacyOrAmsdu env (s.setLast rx.sequence) rx) := by
    rw [hind]
    exact Advancing.deliver (s := s.setLast rx.sequence) h.ordered hset rfl
      (fun r hr => h.larger_front hnear (by omega) (fun m hm => front_of_next he hd hq hm) hr)
      rx.pRxPacket
  exact h1.drain (hset.indicate env rx)

theorem Advancing.caseSurpass (h : Advancing p s) (hr : Ready s) (hs : s.ent.lastIndSeq < 4096)
    (hd : s.ent.baWinSize < gap s.ent.lastIndSeq rx.sequence)
    (hd' : gap s.ent.lastIndSeq rx.sequence < 2048) (hnear : Near p s rx.sequence) :
    Advancing p (SessionSpec.drain
      (baEnqueueReorderingPacket env (s.surpassShift rx.sequence env.now32) rx)) := by
  have he := hr.ent
  have hw := winStartSeq_gap hs rx.sequence hd
  have hnear' : Near p (s.surpassShift rx.sequence env.now32) rx.sequence :=
    Near.shift he hnear (winStartSeq_lt s.ent rx.sequence) (by omega) hd'
  have hsh : Advancing p (s.surpassShift rx.sequence env.now32) :=
    (h.shift he (winStartSeq_lt s.ent rx.sequence) (by omega)).congr rfl rfl rfl
  have hes := he.surpassShift hs hd hd' env.now32
  have hin := surpass_inWindow hs hr.win hd env.now32
  have hbal := hr.bal.surpassShift rx.sequence env.now32
  have hnl := surpass_not_listed he hs hd hd' env.now32
  refine (hsh.enqueue hes hbal.free rfl hin hnear' fun _ => ⟨fun hm => ?_, ?_⟩).drain
    (hes.enqueue hbal.free env hin)
  · obtain ⟨m, hm, hq⟩ := List.mem_map.mp hm
    have := hnl m hm
    rw [off, hq] at this
    exact lt_irrefl _ this
  · rintro ⟨-, -, m, hm, hlt⟩
    exact absurd (hnl m hm) (by omega)

theorem Advancing.indicateCases (h : Advancing p s) (hr : Ready s)
    (ht : s.ent.lastIndSeqAtTimer = env.now32) (hok : InOrderFrame env p s rx) :
    Advancing p (Session.indicateCases env s rx) := by
  have he := hr.ent
  unfold Session.indicateCases
  rcases he.last with hs | hs
  · have hd := classify_gap hs rx.sequence
    cases hc : classify s.ent rx.sequence with
    | reset => simp [hc] at hd
    | inOrder =>
      rw [hc] at hd
      obtain ⟨hq, hno⟩ := hok.1 (Or.inl hc)
      exact (h.caseInOrder he ht hd (hok.2 (Or.inl hc)) hq hno).congr rfl rfl rfl
    | duplicate => exact (h.emit_release rx.pRxPacket).congr rfl rfl rfl
    | old => exact (h.emit_release rx.pRxPacket).congr rfl rfl rfl
    | inWindow =>
      rw [hc] at hd
      exact h.enqueue he hr.bal.free ht ⟨hs, by omega, hd.2⟩ (hok.2 (Or.inr (Or.inl hc)))
        fun hb => hok.1 (Or.inr ⟨hc, hb⟩)
    | surpass =>
      rw [hc] at hd
      exact h.caseSurpass hr hs hd.2.1 hd.2.2 (hok.2 (Or.inr (Or.inr hc)))
  · have hc : classify s.ent rx.sequence = .reset := if_pos hs
    rw [hc]
    exact h.caseReset he hs

end Frame

theorem Advancing.arrive {p : Option (Fin 4096)} {s : Session} (h : Advancing p s)
    (he : EntInv s.ent) (env : RxEnv) (rx : RxBlk) : Advancing p (Session.arrive env s rx) := by
  have h1 : EntInv { s.ent with rcvSeq := rx.sequence } := he.congr rfl rfl rfl
  have h2 : Advancing p { s with ent := { s.ent with rcvSeq := rx.sequence } } := h.congr rfl rfl rfl
  exact (h2.flush h1 env.osHz env.now32).congr rfl rfl rfl

theorem Advancing.indicateAmpduSession {p : Option (Fin 4096)} {env : RxEnv} {s : Session}
    {rx : RxBlk} (h : Advancing p s) (hr : Ready s) (hok : InOrderFrame env p (Session.arrive env s rx) rx) :
    EntInv (indicateAmpduSession env s rx).ent ∧ Advancing p (indicateAmpduSession env s rx) := by
  have ha := hr.arrive env rx
  refine ⟨EntInv.indicateCases ha env ?_, (h.arrive hr.ent env rx).indicateCases ha rfl hok⟩
  rintro ⟨hc, hm⟩
  exact (hok.1 (Or.inl hc)).1 hm

/-! ### Every run -/

/-- The events of the recipient entry `i`. -/
def sessionLog (pAd : RtmpAdapter) (i : Fin 128) : List Event :=
  pAd.log.filterMap fun e => if e.1 = some i then some e.2 else none

/-- The log of the entry `i` is in order, and its list continues it. -/
structure LogInv (pAd : RtmpAdapter) (i : Fin 128) : Prop where
  ent : EntInv (pAd.baRecEntry i)
  ordered : Ordered none (sessionLog pAd i)
  advancing : Advancing (lastDelivered none (sessionLog pAd i)) (session pAd i)

theorem sessionLog_onRecEntry (pAd : RtmpAdapter) (i : Fin 128) (f : Session → Session) (j : Fin 128) :
    sessionLog (pAd.onRecEntry i f) j =
      sessionLog pAd j ++ if j = i then (f (session pAd i)).events else [] := by
  simp only [sessionLog, RtmpAdapter.onRecEntry, List.filterMap_append, List.filterMap_map]
  refine congrArg _ ?_
  by_cases hj : j = i
  · subst hj
    rw [if_pos rfl]
    have : ((fun e : Option (Fin 128) × Event => if e.1 = some j then some e.2 else none) ∘
        fun e => (some j, e)) = some := by
      funext e
      simp
    rw [this, List.filterMap_some]
    rfl
  · rw [if_neg hj]
    have : ((fun e : Option (Fin 128) × Event => if e.1 = some j then some e.2 else none) ∘
        fun e => (some i, e)) = fun _ => none := by
      funext e
      simp [Ne.symm hj]
    rw [this, List.filterMap_eq_nil_iff]
    exact fun _ _ => rfl

theorem LogInv.onRecEntry {pAd : RtmpAdapter} (h : ∀ j, LogInv pAd j) {i : Fin 128}
    {f : Session → Session} (he : EntInv (f (session pAd i)).ent)
    (hf : Advancing (lastDelivered none (sessionLog pAd i)) (f (session pAd i))) (j : Fin 128) :
    LogInv (pAd.onRecEntry i f) j := by
  have hlog := sessionLog_onRecEntry pAd i f j
  by_cases hj : j = i
  · subst hj
    rw [if_pos rfl] at hlog
    have hent := onRecEntry_self pAd j f
    refine ⟨?_, ?_, ⟨trivial, ?_, ?_⟩⟩
    · rw [hent]
      exact he
    · rw [hlog, ordered_append]
      exact ⟨(h j).ordered, hf.ordered⟩
    · rw [hlog, lastDelivered_append]
      simp only [session, hent]
      exact hf.head
    · rw [hlog, lastDelivered_append]
      simp only [session, hent]
      exact hf.reset
  · rw [if_neg hj, List.append_nil] at hlog
    have hent := onRecEntry_of_ne hj pAd f
    refine ⟨?_, ?_, ?_⟩
    · rw [hent]
      exact (h j).ent
    · rw [hlog]
      exact (h j).ordered
    · rw [hlog]
      exact (h j).advancing.congr rfl (by rw [session, hent]; rfl) (by rw [session, hent]; rfl)

theorem Advancing.openSession {p : Option (Fin 4096)} {s : Session} (ho : Ordered p s.events)
    (w : Fin 256) (aid : Fin 32) (frame : FrameAddbaReq) : Advancing p (openSession w aid frame s) := by
  have hlast : lastDelivered p (s.events ++ [.reset]) = none := by
    rw [lastDelivered_append]
    rfl
  refine ⟨ordered_append.mpr ⟨ho, trivial⟩, fun r hr => ?_, fun _ => hlast⟩
  change r ∈ lastDelivered p (s.events ++ [.reset]) at hr
  rw [hlast] at hr
  simp at hr

theorem moveInvariant_logInv : MoveInvariant fun pAd => ∀ i, LogInv pAd i := by
  constructor
  · intro a b hs h i
    have hlog : sessionLog b i = sessionLog a i := by rw [sessionLog, sessionLog, hs.log]
    refine ⟨?_, ?_, ?_⟩
    · rw [hs.entries]
      exact (h i).ent
    · rw [hlog]
      exact (h i).ordered
    · rw [hlog]
      exact (h i).advancing.congr rfl (by rw [session, hs.entries]; rfl)
        (by rw [session, hs.entries]; rfl)
  · intro a i now _ h
    exact LogInv.onRecEntry h ((h i).ent.flush _ now) ((h i).advancing.flush (h i).ent _ now)
  · intro a i _ h
    exact LogInv.onRecEntry h (h i).ent.refresh ((h i).advancing.refresh (h i).ent)
  · intro a i w aid frame _ hl h
    exact LogInv.onRecEntry h (EntInv.empty hl (Or.inr rfl))
      (Advancing.openSession (h i).advancing.ordered w aid frame)
  · intro a i hb h
    have hl := refresh_list (s := session a i) (hb.list i)
    exact LogInv.onRecEntry h (EntInv.empty hl (Or.inr rfl))
      (((h i).advancing.refresh (h i).ent).congr rfl rfl rfl)

/-- The operation does not break the order: a received subframe is an `InOrderFrame` when it comes to
the sequence tests, and a block-ack request that moves `LastIndSeq` does not find its starting sequence
in the list. -/
def InOrderStep (pAd : RtmpAdapter) : Op → Prop
  | .indicateAmpduPacket rx now32 legacyNow32 => ∀ i ∈ rxSession pAd rx,
      InOrderFrame (rxEnv pAd now32 legacyNow32) (lastDelivered none (sessionLog pAd i))
        (arrive (rxEnv pAd now32 legacyNow32) (session pAd i) rx) rx
  | .cntlEnqueueForRecv wcid msgLen tid q => ∀ i ∈ barEntry pAd wcid msgLen tid,
      seqSmaller (pAd.baRecEntry i).lastIndSeq q = true →
        q ∉ (pAd.baRecEntry i).list.next.map ReorderingMpdu.sequence
  | _ => True

instance (pAd : RtmpAdapter) : ∀ op, Decidable (InOrderStep pAd op)
  | .indicateAmpduPacket rx _ _ =>
    inferInstanceAs (Decidable (∀ i ∈ rxSession pAd rx, _))
  | .cntlEnqueueForRecv wcid msgLen tid _ =>
    inferInstanceAs (Decidable (∀ i ∈ barEntry pAd wcid msgLen tid, _ → _))
  | .configure _ | .baOriSessionSetUp .. | .baOriSessionAdd .. | .baOriSessionTearDown ..
  | .baOriSessionSetupTimeout _ | .baRecSessionAdd .. | .baRecSessionTearDown ..
  | .baSessionTearDownALL .. | .baRecSessionIdleTimeout .. | .peerAddBAReqAction ..
  | .peerAddBARspAction .. | .peerDelBAAction .. | .flushRecEntry ..
  | .baReOrderingBufferMaintain _ => isTrue trivial

theorem step_logInv {pAd : RtmpAdapter} {op : Op} (h : BaseInv pAd ∧ ∀ i, LogInv pAd i)
    (hok : InOrderStep pAd op) : BaseInv (step pAd op) ∧ ∀ i, LogInv (step pAd op) i := by
  obtain ⟨hb, hi⟩ := h
  refine moveInvariant_logInv.step hb hi op ?_ ?_
  · rintro rx now32 legacyNow32 rfl
    rcases indicateAmpduPacket_cases pAd rx now32 legacyNow32 with ⟨-, e, -, hc⟩ | ⟨i, hrx, hc⟩
    · rw [hc]
      intro j
      have hlog : sessionLog { pAd with log := pAd.log ++ [(none, e)] } j = sessionLog pAd j := by
        simp [sessionLog]
      refine ⟨(hi j).ent, ?_, ?_⟩
      · rw [hlog]
        exact (hi j).ordered
      · rw [hlog]
        exact (hi j).advancing.congr rfl rfl rfl
    · rw [hc]
      have hr : Ready (session pAd i) := ⟨(hi i).ent, hb.balanced i, hb.win i (hb.rxSession_live hrx)⟩
      have h1 := (hi i).advancing.indicateAmpduSession hr (hok i hrx)
      exact LogInv.onRecEntry hi h1.1 h1.2
  · rintro wcid msgLen tid q rfl
    rcases cntlEnqueueForRecv_cases pAd wcid msgLen tid q with ⟨-, hc⟩ | ⟨i, hbar, hc⟩
    · rw [hc]
      exact hi
    · rw [hc]
      exact LogInv.onRecEntry hi ((hi i).ent.cntlBar q)
        ((hi i).advancing.cntlBar (hi i).ent (hok i hbar))

/-- **Delivery in order.** In every run whose steps keep the order, each frame that a recipient entry
passes up is `SEQ_LARGER` than the one before it since the last reset of `LastIndSeq`. -/
theorem ordered_run (cfg : Config) (num : ℕ) (attrs : Fin 32 → MacTableEntry) (ops : List Op)
    (hok : Along step InOrderStep (initAdapter cfg num attrs) ops) (i : Fin 128) :
    Ordered none (sessionLog (run step (initAdapter cfg num attrs) ops) i) := by
  have h := run_invariant (I := fun pAd => BaseInv pAd ∧ ∀ i, LogInv pAd i)
    (fun s op hs ho => step_logInv hs ho) ops (initAdapter cfg num attrs)
    ⟨initAdapter_baseInv cfg num attrs, fun i =>
      ⟨EntInv.empty rfl (Or.inl (by simp [initAdapter, zeroRecEntry])), trivial, trivial,
        fun r hr => by simp [sessionLog, initAdapter, lastDelivered, session] at hr,
        fun _ => rfl⟩⟩ hok
  exact (h.2 i).ordered

/-- Frame 13 waits, a block-ack request gives frame 11 up, and frame 12 comes. -/
def barRun : List Op :=
  [sampleOpen, sampleFrame 0 10 false, sampleFrame 1 13 false, .cntlEnqueueForRecv 1 20 0 12,
    sampleFrame 2 12 false]

set_option maxRecDepth 4000 in
theorem ordered_run_sample : Along step InOrderStep sampleAdapter barRun ∧
    sessionLog (run step sampleAdapter barRun) 1 = [.reset, .deliver 0 10, .deliver 2 12, .deliver 1 13] ∧
    Ordered none (sessionLog (run step sampleAdapter barRun) 1) :=
  ⟨by decide, by decide, ordered_run sampleConfig 512 (fun _ => sampleStation) barRun (by decide) 1⟩

set_option maxRecDepth 4000 in
/-- The block-ack request passes its starting sequence 13 up, and a copy of frame 13 is passed up
again. -/
theorem not_ordered_bar : ¬ Ordered none (sessionLog (run step sampleAdapter
    [sampleOpen, sampleFrame 0 10 false, sampleFrame 1 13 false, .cntlEnqueueForRecv 1 20 0 13,
      sampleFrame 2 13 false]) 1) := by
  have hlog : sessionLog (run step sampleAdapter
      [sampleOpen, sampleFrame 0 10 false, sampleFrame 1 13 false, .cntlEnqueueForRecv 1 20 0 13,
        sampleFrame 2 13 false]) 1 =
      [.reset, .deliver 0 10, .deliver 1 13, .deliver 2 13] := by decide
  rw [hlog]
  rintro ⟨-, -, h, -⟩
  exact absurd (h 13 rfl) (by decide)

end Mt7610u.BlockAck.Delivery
