import Mathlib.Algebra.GroupWithZero.Nat
import Mt7610u.Lib.Chain

/-! # The software transmit queues

A packet waits in the queue of its access category, an intrusive list with a counter, until
`RTMPDeQueuePacket` puts it into a block, alone or with others that it is aggregated with. -/

namespace Mt7610u.Data.TxQueue

open Lib.Chain

/-- `QUEUE_HEADER`. A queue entry is the packet that it belongs to. -/
structure QueueHeader where
  head : Option ℕ
  tail : Option ℕ
  number : ℕ

def initializeQueueHeader : QueueHeader := ⟨none, none, 0⟩

/-- What is written in the packets: the link of the queue entry, the number of fragments and the length. -/
structure Packets where
  next : ℕ → Option ℕ
  fragments : ℕ → ℕ
  len : ℕ → ℕ

namespace Packets

variable (m : Packets)

def removeHeadQueue (q : QueueHeader) : Packets × QueueHeader × Option ℕ :=
  match q.head with
  | some p =>
    ({ m with next := Function.update m.next p none },
      ⟨m.next p, if m.next p = none then none else q.tail, q.number - 1⟩, some p)
  | none => (m, q, none)

def insertHeadQueue (q : QueueHeader) (p : ℕ) : Packets × QueueHeader :=
  ({ m with next := Function.update m.next p q.head },
    ⟨some p, if q.tail = none then some p else q.tail, q.number + 1⟩)

def insertTailQueue (q : QueueHeader) (p : ℕ) : Packets × QueueHeader :=
  match q.tail with
  | some c =>
    ({ m with next := Function.update (Function.update m.next p none) c (some p) }, ⟨q.head, some p, q.number + 1⟩)
  | none => ({ m with next := Function.update m.next p none }, ⟨some p, some p, q.number + 1⟩)

def insertTailQueueAc (q : QueueHeader) (p : ℕ) : Packets × QueueHeader := m.insertTailQueue q p

end Packets

/-! ### Sending -/

/-- What `STASendPacket` finds out about a packet and the station: whether the checks before the queue let
it pass, the queue that it belongs to, and what the number of fragments depends on. -/
structure Sending where
  passes : Bool
  queIdx : ℕ
  multicast : Bool
  aggregationInUsed : Bool
  amsduInUsed : Bool
  mimoRate : Bool
  totalPacketLength : ℕ
  fragmentThreshold : ℕ

def numberOfFrag (x : Sending) : ℕ :=
  if x.multicast ∨ x.aggregationInUsed ∨ x.amsduInUsed ∨ x.mimoRate then 1
  else
    let allowFragSize := x.fragmentThreshold - 24 - 4
    let length := x.totalPacketLength - 14 + 8
    let n := (length / allowFragSize + 1) % 256
    if length % allowFragSize = 0 then (n + 255) % 256 else n

/-- The part of `STASendPacket` after the checks, on the queue of the packet: with the packet in it, unless
it is full. -/
def staSendPacket (txSwQMaxLen : ℕ) (m : Packets) (q : QueueHeader) (x : Sending) (p : ℕ) :
    Packets × QueueHeader × Bool :=
  let m := { m with fragments := Function.update m.fragments p (numberOfFrag x) }
  if q.number ≥ txSwQMaxLen then (m, q, false)
  else
    let (m, q) := m.insertTailQueueAc q p
    (m, q, true)

/-! ### Taking packets out -/

/-- `TX_UNKOWN_FRAME`, `TX_MCAST_FRAME`, `TX_LEGACY_FRAME`, `TX_AMPDU_FRAME`, `TX_AMSDU_FRAME`,
`TX_RALINK_FRAME` and `TX_FRAG_FRAME`. -/
inductive TxFrameType
  | unknown | mcast | legacy | ampdu | amsdu | ralink | frag
deriving DecidableEq

/-- `TX_BLK`, as far as it is filled in before the packets are handed over. -/
structure TxBlk where
  queIdx : ℕ
  txFrameType : TxFrameType
  totalFrameNum : ℕ
  totalFragNum : ℕ
  totalFrameLen : ℕ
  txPacketList : QueueHeader
  pPacket : Option ℕ

/-- A block after `NdisZeroMemory`, for a queue. -/
def TxBlk.zero (queIdx : ℕ) : TxBlk := ⟨queIdx, .unknown, 0, 0, 0, ⟨none, none, 0⟩, none⟩

/-- A packet is put at the end of a block, with its fragments and its length added up in 8, 16 and 16 bits. -/
def TxBlk.insert (blk : TxBlk) (m : Packets) (p : ℕ) : Packets × TxBlk :=
  let (m', list) := m.insertTailQueue blk.txPacketList p
  (m', { blk with
    totalFrameNum := (blk.totalFrameNum + 1) % 256
    totalFragNum := (blk.totalFragNum + m.fragments p) % 65536
    totalFrameLen := (blk.totalFrameLen + m.len p) % 65536
    txPacketList := list })

def rxBufferAggresize : ℕ := 3840

/-- `CanDoAggregateTransmit`. `own` is what the packet says itself: it is a unicast one, none of DHCP, EAPOL
or WAI, and has a payload, and the station is associated with an access point. -/
def canDoAggregateTransmit (own : Bool) (len : ℕ) (blk : TxBlk) : Bool :=
  if own = false then false
  else if blk.txFrameType = .amsdu ∧ blk.totalFrameLen + len > rxBufferAggresize - 100 then false
  else if blk.txFrameType = .ralink ∧ blk.txPacketList.number = 2 then false
  else true

/-- What is decided about a packet at the head of the queue and those behind it: `TxPktClassification`,
`RTMP_HAS_ENOUGH_FREE_DESC`, the two answers of `RTUSBNeedQueueBackForAgg`, and for each packet that might
follow whether there is room for it and whether it can be aggregated. `stops` is the test of the flags. -/
structure Admission where
  stops : Bool
  txFrameType : TxFrameType
  hasTxDesc : Bool
  needQueueBack : Bool
  needQueueBack' : Bool
  more : List (Bool × Bool)

def gather : List (Bool × Bool) → Packets → QueueHeader → TxBlk → Packets × QueueHeader × TxBlk
  | [], m, q, blk => (m, q, blk)
  | (hasTxDesc, own) :: more, m, q, blk =>
    match q.head with
    | none => (m, q, blk)
    | some p =>
      if hasTxDesc = false ∨ canDoAggregateTransmit own (m.len p) blk = false then (m, q, blk)
      else
        let (m, q, _) := m.removeHeadQueue q
        let (m, blk) := blk.insert m p
        gather more m q blk

def TxBlk.unaggregated (blk : TxBlk) : TxBlk :=
  if blk.txPacketList.number = 1 then { blk with txFrameType := .legacy } else blk

/-- What `RTMPDeQueuePacket` does under the lock in one turn: the queue, and the block to hand over, if
there is one. -/
def dequeueOne (queIdx : ℕ) (a : Admission) (m : Packets) (q : QueueHeader) :
    Packets × QueueHeader × Option TxBlk :=
  match q.head with
  | none => (m, q, none)
  | some p =>
    if a.hasTxDesc = false then (m, q, none)
    else
      let blk := { TxBlk.zero queIdx with txFrameType := a.txFrameType, pPacket := some p }
      let (m, q, _) := m.removeHeadQueue q
      let (m, blk) := blk.insert m p
      -- NEED_QUEUE_BACK_FOR_AGG asks twice, and only for a Ralink aggregate
      if a.txFrameType = .ralink ∧ (a.needQueueBack = true ∨ a.needQueueBack' = true) then
        let (m, q) := m.insertHeadQueue q p
        (m, q, none)
      else if a.txFrameType = .ralink ∨ a.txFrameType = .amsdu then
        let (m, q, blk) := gather a.more m q blk
        (m, q, some blk.unaggregated)
      else (m, q, some blk)

/-! ### What a queue holds -/

/-- The queue holds the packets `l` in order, and counts them. -/
structure Holds (m : Packets) (q : QueueHeader) (l : List ℕ) : Prop where
  queued : Queued m.next q.head q.tail l
  number : q.number = l.length

/-- No link is different but those of the packets in `l`. -/
def OnlyIn (l : List ℕ) (m m' : Packets) : Prop := ∀ p ∉ l, m'.next p = m.next p

namespace OnlyIn

variable {l l' : List ℕ} {m m' m'' : Packets}

theorem refl (l : List ℕ) (m : Packets) : OnlyIn l m m := fun _ _ => rfl

theorem trans (h : OnlyIn l m m') (h' : OnlyIn l m' m'') : OnlyIn l m m'' :=
  fun p hp => (h' p hp).trans (h p hp)

theorem mono (h : OnlyIn l m m') (hl : ∀ p ∈ l, p ∈ l') : OnlyIn l' m m' :=
  fun p hp => h p fun hc => hp (hl p hc)

end OnlyIn

namespace Holds

variable {m : Packets} {q : QueueHeader} {l : List ℕ}

theorem nil (m : Packets) : Holds m initializeQueueHeader [] := ⟨⟨rfl, rfl⟩, rfl⟩

theorem nodup (h : Holds m q l) : l.Nodup := h.queued.1.nodup

theorem head_eq (h : Holds m q l) : q.head = l.head? := by
  cases l with
  | nil => exact h.queued.1
  | cons p l => exact h.queued.1.1

theorem insertTail (h : Holds m q l) {p : ℕ} (hp : p ∉ l) :
    Holds (m.insertTailQueue q p).1 (m.insertTailQueue q p).2 (l ++ [p]) ∧
      OnlyIn (l ++ [p]) m (m.insertTailQueue q p).1 := by
  obtain ⟨hq, hn⟩ := h
  have hsnoc := hq.snoc hp
  have htail := hq.2
  cases ht : q.tail with
  | none =>
    have hnil : l = [] := List.getLast?_eq_none_iff.1 (htail.symm.trans ht)
    subst hnil
    have hhead : q.head = none := hq.1
    rw [ht, hhead, if_pos rfl] at hsnoc
    unfold Packets.insertTailQueue
    rw [ht]
    refine ⟨⟨hsnoc, by rw [hn]; rfl⟩, fun x hx => Function.update_of_ne ?_ _ _⟩
    exact fun hc => hx (by rw [hc]; exact List.mem_singleton.2 rfl)
  | some c =>
    have hc : c ∈ l := List.mem_of_getLast? (htail.symm.trans ht)
    have hhead : q.head ≠ none := fun hnone => by
      rw [hq.head_eq_none.1 hnone] at hc
      cases hc
    rw [ht, if_neg hhead] at hsnoc
    unfold Packets.insertTailQueue
    rw [ht]
    refine ⟨⟨hsnoc, by rw [List.length_append, List.length_singleton, hn]⟩, fun x hx => ?_⟩
    rw [List.mem_append, List.mem_singleton, not_or] at hx
    have hxc : x ≠ c := by
      rintro rfl
      exact hx.1 hc
    exact (Function.update_of_ne hxc _ _).trans (Function.update_of_ne hx.2 _ _)

theorem removeHead {p : ℕ} (h : Holds m q (p :: l)) :
    (m.removeHeadQueue q).2.2 = some p ∧ Holds (m.removeHeadQueue q).1 (m.removeHeadQueue q).2.1 l ∧
      OnlyIn [p] m (m.removeHeadQueue q).1 := by
  obtain ⟨⟨hlink, htail⟩, hn⟩ := h
  have hp : p ∉ l := (List.nodup_cons.1 hlink.nodup).1
  unfold Packets.removeHeadQueue
  rw [show q.head = some p from hlink.1]
  refine ⟨rfl, ⟨⟨linked_update hlink.2 hp, ?_⟩, ?_⟩, fun x hx => Function.update_of_ne ?_ _ _⟩
  · show (if m.next p = none then none else q.tail) = l.getLast?
    cases l with
    | nil => exact if_pos hlink.2
    | cons c l =>
      have hsome : m.next p = some c := hlink.2.1
      rw [hsome, if_neg (Option.some_ne_none c), htail, List.getLast?_cons_cons]
  · show q.number - 1 = l.length
    rw [hn, List.length_cons, Nat.add_sub_cancel]
  · exact fun hc => hx (List.mem_singleton.2 hc)

theorem insertHead (h : Holds m q l) {p : ℕ} (hp : p ∉ l) :
    Holds (m.insertHeadQueue q p).1 (m.insertHeadQueue q p).2 (p :: l) ∧
      OnlyIn [p] m (m.insertHeadQueue q p).1 := by
  obtain ⟨⟨hlink, htail⟩, hn⟩ := h
  refine ⟨⟨⟨hlink.push hp, ?_⟩, ?_⟩, fun x hx => Function.update_of_ne ?_ _ _⟩
  · show (if q.tail = none then some p else q.tail) = (p :: l).getLast?
    rw [htail]
    cases l with
    | nil => rfl
    | cons c l =>
      rw [List.getLast?_cons_cons, if_neg]
      exact fun hc => List.cons_ne_nil c l (List.getLast?_eq_none_iff.1 hc)
  · show q.number + 1 = (p :: l).length
    rw [hn, List.length_cons]
  · exact fun hc => hx (List.mem_singleton.2 hc)

end Holds

/-! ### What becomes of the packets -/

/-- The block holds the packets `l`, and its totals are theirs. -/
structure Blocks (m : Packets) (blk : TxBlk) (l : List ℕ) : Prop where
  holds : Holds m blk.txPacketList l
  frames : blk.totalFrameNum = l.length % 256
  fragments : blk.totalFragNum = (l.map m.fragments).sum % 65536
  len : blk.totalFrameLen = (l.map m.len).sum % 65536

def SameData (m m' : Packets) : Prop := m'.fragments = m.fragments ∧ m'.len = m.len

theorem sameData_removeHead (m : Packets) (q : QueueHeader) : SameData m (m.removeHeadQueue q).1 := by
  unfold Packets.removeHeadQueue
  split <;> exact ⟨rfl, rfl⟩

theorem sameData_insertTail (m : Packets) (q : QueueHeader) (p : ℕ) : SameData m (m.insertTailQueue q p).1 := by
  unfold Packets.insertTailQueue
  split <;> exact ⟨rfl, rfl⟩

/-- Nothing that is written in the packets `l` is different. -/
def Agree (l : List ℕ) (m m' : Packets) : Prop :=
  ∀ p ∈ l, m'.next p = m.next p ∧ m'.fragments p = m.fragments p ∧ m'.len p = m.len p

theorem OnlyIn.agree {l k : List ℕ} {m m' : Packets} (h : OnlyIn l m m') (hd : SameData m m')
    (hdisj : ∀ p ∈ k, p ∉ l) : Agree k m m' :=
  fun p hp => ⟨h p (hdisj p hp), congrFun hd.1 p, congrFun hd.2 p⟩

theorem Holds.congr {m m' : Packets} {q : QueueHeader} {l : List ℕ} (h : Holds m q l) (ha : Agree l m m') :
    Holds m' q l :=
  ⟨⟨h.queued.1.congr fun p hp => (ha p hp).1, h.queued.2⟩, h.number⟩

theorem Blocks.congr {m m' : Packets} {blk : TxBlk} {l : List ℕ} (h : Blocks m blk l) (ha : Agree l m m') :
    Blocks m' blk l := by
  refine ⟨h.holds.congr ha, h.frames, ?_, ?_⟩
  · rw [List.map_congr_left fun p hp => (ha p hp).2.1]
    exact h.fragments
  · rw [List.map_congr_left fun p hp => (ha p hp).2.2]
    exact h.len

theorem Blocks.unaggregated {m : Packets} {blk : TxBlk} {l : List ℕ} (h : Blocks m blk l) :
    Blocks m blk.unaggregated l := by
  unfold TxBlk.unaggregated
  split_ifs
  · exact ⟨h.holds, h.frames, h.fragments, h.len⟩
  · exact h

theorem Blocks.insert {m : Packets} {blk : TxBlk} {l : List ℕ} (h : Blocks m blk l) {p : ℕ} (hp : p ∉ l) :
    Blocks (blk.insert m p).1 (blk.insert m p).2 (l ++ [p]) ∧ OnlyIn (l ++ [p]) m (blk.insert m p).1 ∧
      SameData m (blk.insert m p).1 := by
  obtain ⟨hholds, honly⟩ := h.holds.insertTail hp
  have hd := sameData_insertTail m blk.txPacketList p
  refine ⟨⟨hholds, ?_, ?_, ?_⟩, honly, hd⟩
  · show (blk.totalFrameNum + 1) % 256 = _
    rw [h.frames, List.length_append, List.length_singleton, Nat.mod_add_mod]
  · show (blk.totalFragNum + m.fragments p) % 65536 = ((l ++ [p]).map (m.insertTailQueue _ p).1.fragments).sum % _
    rw [hd.1, h.fragments, List.map_append, List.sum_append, List.map_singleton, List.sum_singleton,
      Nat.mod_add_mod]
  · show (blk.totalFrameLen + m.len p) % 65536 = ((l ++ [p]).map (m.insertTailQueue _ p).1.len).sum % _
    rw [hd.2, h.len, List.map_append, List.sum_append, List.map_singleton, List.sum_singleton, Nat.mod_add_mod]

theorem move_spec {m : Packets} {q : QueueHeader} {blk : TxBlk} {p : ℕ} {l b : List ℕ}
    (hq : Holds m q (p :: l)) (hb : Blocks m blk b) (hdisj : ∀ x ∈ p :: l, x ∉ b) :
    Holds (blk.insert (m.removeHeadQueue q).1 p).1 (m.removeHeadQueue q).2.1 l ∧
      Blocks (blk.insert (m.removeHeadQueue q).1 p).1 (blk.insert (m.removeHeadQueue q).1 p).2 (b ++ [p]) ∧
      OnlyIn (b ++ [p]) m (blk.insert (m.removeHeadQueue q).1 p).1 ∧
      SameData m (blk.insert (m.removeHeadQueue q).1 p).1 := by
  have hpl := (List.nodup_cons.1 hq.nodup).1
  have hpb : p ∉ b := hdisj p List.mem_cons_self
  obtain ⟨-, hq', honly⟩ := hq.removeHead
  have hd := sameData_removeHead m q
  have hb' : Blocks (m.removeHeadQueue q).1 blk b :=
    hb.congr (honly.agree hd fun x hx hxp => hpb (List.mem_singleton.1 hxp ▸ hx))
  obtain ⟨hblk, honly', hd'⟩ := hb'.insert hpb
  refine ⟨hq'.congr (honly'.agree hd' fun x hx hc => ?_), hblk,
    (honly.mono fun x hx => List.mem_append_right b hx).trans honly', hd'.1.trans hd.1, hd'.2.trans hd.2⟩
  rcases List.mem_append.1 hc with hxb | hxp
  · exact hdisj x (List.mem_cons_of_mem p hx) hxb
  · exact hpl (List.mem_singleton.1 hxp ▸ hx)

/-- **Gathering** takes some packets from the front of the queue to the end of the block. -/
theorem gather_spec (more : List (Bool × Bool)) {m : Packets} {q : QueueHeader} {blk : TxBlk}
    {l b : List ℕ} (hq : Holds m q l) (hb : Blocks m blk b) (hdisj : ∀ x ∈ l, x ∉ b) :
    ∃ l₁ l₂, l = l₁ ++ l₂ ∧ Holds (gather more m q blk).1 (gather more m q blk).2.1 l₂ ∧
      Blocks (gather more m q blk).1 (gather more m q blk).2.2 (b ++ l₁) ∧
      OnlyIn (b ++ l) m (gather more m q blk).1 ∧ SameData m (gather more m q blk).1 := by
  have hnone : ∃ l₁ l₂, l = l₁ ++ l₂ ∧ Holds m q l₂ ∧ Blocks m blk (b ++ l₁) ∧ OnlyIn (b ++ l) m m ∧
      SameData m m := ⟨[], l, rfl, hq, by rwa [List.append_nil], OnlyIn.refl _ _, rfl, rfl⟩
  induction more generalizing m q blk l b with
  | nil => exact hnone
  | cons x more ih =>
    obtain ⟨hasTxDesc, own⟩ := x
    have hhead := hq.head_eq
    unfold gather
    cases l with
    | nil =>
      rw [hhead]
      exact hnone
    | cons p l =>
      rw [hhead]
      simp only [List.head?_cons]
      split_ifs
      · exact hnone
      · obtain ⟨hq', hb', honly, hd⟩ := move_spec hq hb hdisj
        have hdisj' : ∀ x ∈ l, x ∉ b ++ [p] := by
          intro x hx hc
          rcases List.mem_append.1 hc with hxb | hxp
          · exact hdisj x (List.mem_cons_of_mem p hx) hxb
          · exact (List.nodup_cons.1 hq.nodup).1 (List.mem_singleton.1 hxp ▸ hx)
        obtain ⟨l₁, l₂, hl, hq'', hb'', honly', hd'⟩ := ih hq' hb' hdisj'
          ⟨[], l, rfl, hq', by rwa [List.append_nil], OnlyIn.refl _ _, rfl, rfl⟩
        refine ⟨p :: l₁, l₂, by rw [hl, List.cons_append], hq'', ?_, ?_, hd'.1.trans hd.1, hd'.2.trans hd.2⟩
        · rw [List.append_assoc, List.singleton_append] at hb''
          exact hb''
        · rw [List.append_assoc, List.singleton_append] at honly'
          refine (honly.mono fun x hx => ?_).trans honly'
          rcases List.mem_append.1 hx with hxb | hxp
          · exact List.mem_append_left _ hxb
          · exact List.mem_append_right _ (List.mem_singleton.1 hxp ▸ List.mem_cons_self)

/-- What one turn leaves: nothing has been taken, or the packets `l₁` from the front of the queue. -/
def Turned (m : Packets) (l : List ℕ) (r : Packets × QueueHeader × Option TxBlk) : Prop :=
  OnlyIn l m r.1 ∧ SameData m r.1 ∧
    match r.2.2 with
    | none => Holds r.1 r.2.1 l
    | some blk => ∃ l₁ l₂, l = l₁ ++ l₂ ∧ l₁ ≠ [] ∧ Holds r.1 r.2.1 l₂ ∧ Blocks r.1 blk l₁

/-- **One turn under the lock.** Whatever is decided about the packets, either the queue holds what it held,
in the same order, or a number of packets have gone from its front to the block, in their order. -/
theorem dequeueOne_spec {m : Packets} {q : QueueHeader} {l : List ℕ} (hq : Holds m q l) (queIdx : ℕ)
    (a : Admission) : Turned m l (dequeueOne queIdx a m q) := by
  have hnone : Turned m l (m, q, none) := ⟨OnlyIn.refl _ _, ⟨rfl, rfl⟩, hq⟩
  have hhead := hq.head_eq
  unfold dequeueOne
  cases l with
  | nil =>
    rw [hhead]
    exact hnone
  | cons p l =>
    rw [hhead]
    simp only [List.head?_cons]
    set blk : TxBlk := { TxBlk.zero queIdx with txFrameType := a.txFrameType, pPacket := some p }
    have hblk : Blocks m blk [] := ⟨Holds.nil m, rfl, rfl, rfl⟩
    obtain ⟨hq', hb', honly, hd⟩ := move_spec hq hblk fun _ _ hc => (by cases hc)
    have hpl := (List.nodup_cons.1 hq.nodup).1
    have hfirst : ∀ x ∈ [p], x ∈ p :: l := fun x hx => List.mem_singleton.1 hx ▸ List.mem_cons_self
    split_ifs with hdesc hback hmany
    · exact hnone
    · obtain ⟨hback, honly'⟩ := hq'.insertHead hpl
      exact ⟨(honly.mono hfirst).trans (honly'.mono hfirst), hd, hback⟩
    · obtain ⟨l₁, l₂, hl, hq'', hb'', honly', hd'⟩ := gather_spec a.more hq' hb' fun x hx hc =>
        hpl (List.mem_singleton.1 hc ▸ hx)
      refine ⟨(honly.mono hfirst).trans honly', ⟨hd'.1.trans hd.1, hd'.2.trans hd.2⟩, p :: l₁, l₂,
        by rw [hl, List.cons_append], List.cons_ne_nil _ _, hq'', ?_⟩
      exact hb''.unaggregated
    · exact ⟨honly.mono hfirst, hd, [p], l, rfl, List.cons_ne_nil _ _, hq', hb'⟩

end Mt7610u.Data.TxQueue
