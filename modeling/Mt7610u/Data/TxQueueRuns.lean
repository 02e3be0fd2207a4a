import Mt7610u.Data.TxQueue
import Mt7610u.Lib.Ledger
import Mt7610u.Lib.Runs

/-! # The discipline of the software transmit queues

Any number of contexts send packets and dequeue them. A packet enters its queue under `irq_lock`; a context
that dequeues takes packets out under the same lock, gives the lock back and hands them to
`STAHardTransmit`. `DeQueueRunning` lets one context at a time dequeue from a queue. -/

namespace Mt7610u.Data.TxQueue

open Lib Lib.Runs Lib.Chain

/-! ### Contexts and steps -/

/-- Where a context is in `RTMPDeQueuePacket`: outside, before `RTMP_START_DEQUEUE`, at the head of the
loop, before `STAHardTransmit`, before `RTMP_STOP_DEQUEUE` at the end of the loop, and before the one ahead of the
early return. `max` is `Max_Tx_Packets`, and `queIdx` runs up to `eQIdx`. -/
inductive Loc
  | idle
  | start (queIdx eQIdx max : ℕ)
  | loop (queIdx eQIdx max count : ℕ)
  | transmit (queIdx eQIdx max count : ℕ) (blk : TxBlk)
  | stop (queIdx eQIdx max : ℕ)
  | quit (queIdx : ℕ)

namespace Loc

def queue : Loc → Option ℕ
  | .idle | .start .. => none
  | .loop i .. | .transmit i .. | .stop i .. | .quit i => some i

/-- The block with packets of queue `i` that the context holds. -/
def blkAt (i : ℕ) : Loc → Option TxBlk
  | .transmit j _ _ _ blk => if j = i then some blk else none
  | _ => none

theorem blkAt_transmit_self (i e max count : ℕ) (blk : TxBlk) :
    (transmit i e max count blk).blkAt i = some blk := if_pos rfl

theorem blkAt_transmit_ne {i j : ℕ} (h : j ≠ i) (e max count : ℕ) (blk : TxBlk) :
    (transmit i e max count blk).blkAt j = none := if_neg (Ne.symm h)

def after (queIdx eQIdx max : ℕ) : Loc := if queIdx + 1 ≤ eQIdx then .start (queIdx + 1) eQIdx max else .idle

theorem queue_after (queIdx eQIdx max : ℕ) : (after queIdx eQIdx max).queue = none := by
  unfold after
  split_ifs <;> rfl

theorem blkAt_after (i queIdx eQIdx max : ℕ) : (after queIdx eQIdx max).blkAt i = none := by
  unfold after
  split_ifs <;> rfl

theorem queue_of_blkAt {l : Loc} {i : ℕ} {blk : TxBlk} (h : l.blkAt i = some blk) : l.queue = some i := by
  cases l with
  | transmit j e n c b =>
    have hb : (if j = i then some b else none) = some blk := h
    split_ifs at hb with hj
    exact congrArg some hj
  | idle => cases h
  | start => cases h
  | loop => cases h
  | stop => cases h
  | quit => cases h

end Loc

/-- The queues, the contexts, and by queue the packets that were accepted, handed to `STAHardTransmit` and
released. `rejected` are the packets that `STASendPacket` released itself. -/
structure State where
  mem : Packets
  txSwQueue : ℕ → QueueHeader
  deQueueRunning : ℕ → Bool
  loc : ℕ → Loc
  accepted : ℕ → List ℕ
  handed : ℕ → List ℕ
  released : ℕ → List ℕ
  rejected : List ℕ

def numOfTxRing : ℕ := 5

/-- The steps: `STASendPacket` with a packet, a call of `RTMPDeQueuePacket`, the next step of a context that
is in it, and the part of `RTMPResetTxRxRingMemory` that empties a queue. -/
inductive Op
  | send (x : Sending) (p : ℕ)
  | call (t qIdx max : ℕ)
  | turn (t : ℕ) (a : Admission)
  | reset (queIdx : ℕ)

/-- The packets of a chain, `n` at most. -/
def follow (next : ℕ → Option ℕ) : ℕ → Option ℕ → List ℕ
  | n + 1, some p => p :: follow next n (next p)
  | _, _ => []

/-- The loop that releases the packets of a queue, for `n` turns at most. -/
def flush : ℕ → Packets → QueueHeader → Packets × QueueHeader × List ℕ
  | 0, m, q => (m, q, [])
  | n + 1, m, q =>
    match m.removeHeadQueue q with
    | (m, q, some p) =>
      let (m, q, l) := flush n m q
      (m, q, p :: l)
    | (m, q, none) => (m, q, [])

namespace State

def init (mem : Packets) : State where
  mem := mem
  txSwQueue := fun _ => initializeQueueHeader
  deQueueRunning := fun _ => false
  loc := fun _ => .idle
  accepted := fun _ => []
  handed := fun _ => []
  released := fun _ => []
  rejected := []

variable (s : State)

def goto (t : ℕ) (l : Loc) : State := { s with loc := Function.update s.loc t l }

def send (txSwQMaxLen : ℕ) (x : Sending) (p : ℕ) : State :=
  if x.passes = false then { s with rejected := s.rejected ++ [p] }
  else
    match staSendPacket txSwQMaxLen s.mem (s.txSwQueue x.queIdx) x p with
    | (m, q, true) =>
      { s with
        mem := m
        txSwQueue := Function.update s.txSwQueue x.queIdx q
        accepted := Function.update s.accepted x.queIdx (s.accepted x.queIdx ++ [p]) }
    | (m, _, false) => { s with mem := m, rejected := s.rejected ++ [p] }

/-- The beginning of `RTMPDeQueuePacket`. -/
def call (t qIdx max : ℕ) : State :=
  match s.loc t with
  | .idle => s.goto t (if qIdx = numOfTxRing then .start 0 3 max else .start qIdx qIdx max)
  | _ => s

/-- The next step of a context in `RTMPDeQueuePacket`. -/
def turn (t : ℕ) (a : Admission) : State :=
  match s.loc t with
  | .idle => s
  | .start i e max =>
    if s.deQueueRunning i then s.goto t (.after i e max)
    else { s with deQueueRunning := Function.update s.deQueueRunning i true }.goto t (.loop i e max 0)
  | .loop i e max count =>
    if a.stops then s.goto t (.quit i)
    else if count ≥ max then s.goto t (.stop i e max)
    else
      match dequeueOne i a s.mem (s.txSwQueue i) with
      | (m, q, none) =>
        { s with mem := m, txSwQueue := Function.update s.txSwQueue i q }.goto t (.stop i e max)
      | (m, q, some blk) =>
        { s with mem := m, txSwQueue := Function.update s.txSwQueue i q }.goto t (.transmit i e max count blk)
  | .transmit i e max count blk =>
    let list := blk.txPacketList
    { s with
      handed := Function.update s.handed i (s.handed i ++ follow s.mem.next list.number list.head) }.goto t
        (.loop i e max ((count + list.number) % 256))
  | .stop i e max =>
    { s with deQueueRunning := Function.update s.deQueueRunning i false }.goto t (.after i e max)
  | .quit i => { s with deQueueRunning := Function.update s.deQueueRunning i false }.goto t .idle

def reset (i : ℕ) : State :=
  match flush (s.txSwQueue i).number s.mem (s.txSwQueue i) with
  | (m, q, l) =>
    { s with
      mem := m
      txSwQueue := Function.update s.txSwQueue i q
      released := Function.update s.released i (s.released i ++ l) }

def step (txSwQMaxLen : ℕ) (s : State) : Op → State
  | .send x p => s.send txSwQMaxLen x p
  | .call t qIdx max => s.call t qIdx max
  | .turn t a => s.turn t a
  | .reset i => s.reset i

def Foreign (p : ℕ) : Prop :=
  (∀ i l, Holds s.mem (s.txSwQueue i) l → p ∉ l) ∧
    ∀ t i blk l, (s.loc t).blkAt i = some blk → Holds s.mem blk.txPacketList l → p ∉ l

def Sound (s : State) : Op → Prop
  | .send _ p => s.Foreign p
  | _ => True

/-! ### What is known of a queue -/

/-- **What is known of queue `i`**: the ledger `K` lists the packets that were accepted, handed over and
released; those in its line are linked in the queue, and those held are in the block of the context that
dequeues. -/
structure Kept (s : State) (K : Ledger ℕ) (i : ℕ) : Prop where
  accepted : K.accepted = s.accepted i
  handed : K.served = s.handed i
  released : K.dropped = s.released i
  line : Holds s.mem (s.txSwQueue i) K.line
  held : ∀ t blk, (s.loc t).blkAt i = some blk → Blocks s.mem blk K.held
  empty : (∀ t, (s.loc t).blkAt i = none) → K.held = []
  apart : ∀ p ∈ K.held, p ∉ K.line

/-- **Every accepted packet of every queue has one fate**: it was handed over, released, is in the block of
the context that dequeues, or waits in the queue. The packets of each fate are in the order of acceptance, the
linked packets are those that wait, and `Number` is their number. -/
def Disciplined (s : State) : Prop :=
  ∀ i, ∃ (q h : List ℕ) (l : List (ℕ × Fate)),
    Holds s.mem (s.txSwQueue i) q ∧
    (∀ t blk, (s.loc t).blkAt i = some blk → Blocks s.mem blk h) ∧
    ((∀ t, (s.loc t).blkAt i = none) → h = []) ∧
    l.map Prod.fst = s.accepted i ∧ ofFate .served l = s.handed i ∧ ofFate .dropped l = s.released i ∧
      ofFate .held l = h ∧ ofFate .waiting l = q ∧ (s.handed i).Sublist (s.accepted i)

/-! ### Chains and flushing -/

theorem follow_eq {next : ℕ → Option ℕ} {p : Option ℕ} {l : List ℕ} (h : Linked next p l) :
    follow next l.length p = l := by
  induction l generalizing p with
  | nil =>
    rw [linked_nil.1 h]
    rfl
  | cons a l ih =>
    rw [h.1]
    exact congrArg (List.cons a) (ih h.2)

theorem flush_succ {n p : ℕ} {m : Packets} {q : QueueHeader} (hp : (m.removeHeadQueue q).2.2 = some p) :
    flush (n + 1) m q = ((flush n (m.removeHeadQueue q).1 (m.removeHeadQueue q).2.1).1,
      (flush n (m.removeHeadQueue q).1 (m.removeHeadQueue q).2.1).2.1,
      p :: (flush n (m.removeHeadQueue q).1 (m.removeHeadQueue q).2.1).2.2) := by
  conv_lhs => unfold flush
  generalize m.removeHeadQueue q = r at hp ⊢
  obtain ⟨m', q', p'⟩ := r
  obtain rfl : p' = some p := hp
  rfl

theorem flush_spec {l : List ℕ} {m : Packets} {q : QueueHeader} (h : Holds m q l) :
    (flush l.length m q).2.2 = l ∧ Holds (flush l.length m q).1 (flush l.length m q).2.1 [] ∧
      OnlyIn l m (flush l.length m q).1 ∧ SameData m (flush l.length m q).1 := by
  induction l generalizing m q with
  | nil => exact ⟨rfl, h, OnlyIn.refl _ _, rfl, rfl⟩
  | cons p l ih =>
    obtain ⟨hp, hq, honly⟩ := h.removeHead
    have hd := sameData_removeHead m q
    obtain ⟨hl, hq', honly', hd'⟩ := ih hq
    rw [List.length_cons, flush_succ hp]
    refine ⟨congrArg (List.cons p) hl, hq', (honly.mono ?_).trans (honly'.mono ?_), hd'.1.trans hd.1,
      hd'.2.trans hd.2⟩
    · exact fun x hx => List.mem_singleton.1 hx ▸ List.mem_cons_self
    · exact fun x hx => List.mem_cons_of_mem p hx

/-! ### One queue changes, the others do not -/

/-- What is known of queue `j` is about the same packets and contexts. -/
structure SameAt (s s' : State) (j : ℕ) : Prop where
  accepted : s'.accepted j = s.accepted j
  handed : s'.handed j = s.handed j
  released : s'.released j = s.released j
  txSwQueue : s'.txSwQueue j = s.txSwQueue j
  blkAt : ∀ t, (s'.loc t).blkAt j = (s.loc t).blkAt j

theorem Kept.frame {s s' : State} {K : Ledger ℕ} {j : ℕ} (h : s.Kept K j) (hsame : s.SameAt s' j)
    (ha : Agree (K.held ++ K.line) s.mem s'.mem) : s'.Kept K j where
  accepted := h.accepted.trans hsame.accepted.symm
  handed := h.handed.trans hsame.handed.symm
  released := h.released.trans hsame.released.symm
  line := by
    rw [hsame.txSwQueue]
    exact h.line.congr fun p hp => ha p (List.mem_append_right _ hp)
  held := by
    intro t blk hblk
    rw [hsame.blkAt] at hblk
    exact (h.held t blk hblk).congr fun p hp => ha p (List.mem_append_left _ hp)
  empty := fun hnone => h.empty fun t => (hsame.blkAt t).symm.trans (hnone t)
  apart := h.apart

def Books (s : State) (L : ℕ → Ledger ℕ) : Prop :=
  (∀ i, s.Kept (L i) i) ∧ ∀ i j, i ≠ j → ∀ p ∈ (L i).held ++ (L i).line, p ∉ (L j).held ++ (L j).line

/-- **One ledger is replaced**: the others still hold if nothing of theirs is touched. -/
theorem Books.update {s s' : State} {L : ℕ → Ledger ℕ} (h : s.Books L) (i : ℕ) (K : Ledger ℕ)
    (hself : s'.Kept K i) (hsame : ∀ j ≠ i, s.SameAt s' j)
    (hagree : ∀ j ≠ i, Agree ((L j).held ++ (L j).line) s.mem s'.mem)
    (hsub : ∀ p ∈ K.held ++ K.line, ∀ j ≠ i, p ∉ (L j).held ++ (L j).line) : s'.Books (Function.update L i K) := by
  refine ⟨fun j => ?_, fun j k hjk p hp => ?_⟩
  · by_cases hji : j = i
    · rw [hji, Function.update_self]
      exact hself
    · rw [Function.update_of_ne hji]
      exact (h.1 j).frame (hsame j hji) (hagree j hji)
  · by_cases hji : j = i
    · rw [hji, Function.update_self] at hp
      rw [Function.update_of_ne (fun hki => hjk (hji.trans hki.symm))]
      exact hsub p hp k fun hki => hjk (hji.trans hki.symm)
    · rw [Function.update_of_ne hji] at hp
      by_cases hki : k = i
      · rw [hki, Function.update_self]
        exact fun hc => hsub p hc j hji hp
      · rw [Function.update_of_ne hki]
        exact h.2 j k hjk p hp

theorem Books.frame {s s' : State} {L : ℕ → Ledger ℕ} (h : s.Books L) (hsame : ∀ j, s.SameAt s' j)
    (hagree : ∀ j, Agree ((L j).held ++ (L j).line) s.mem s'.mem) : s'.Books L :=
  ⟨fun j => (h.1 j).frame (hsame j) (hagree j), h.2⟩

theorem Books.foreign {s : State} {L : ℕ → Ledger ℕ} (h : s.Books L) {p : ℕ} (hp : s.Foreign p) (j : ℕ) :
    p ∉ (L j).held ++ (L j).line := by
  intro hc
  rcases List.mem_append.1 hc with hheld | hline
  · have hsome : ∃ t, (s.loc t).blkAt j ≠ none := by
      by_contra hn
      push Not at hn
      rw [(h.1 j).empty hn] at hheld
      cases hheld
    obtain ⟨t, ht⟩ := hsome
    obtain ⟨blk, hblk⟩ := Option.ne_none_iff_exists'.1 ht
    exact hp.2 t j blk _ hblk ((h.1 j).held t blk hblk).holds hheld
  · exact hp.1 j _ (h.1 j).line hline

/-! ### Contexts move on -/

section

variable {s : State} {t : ℕ}

def Single (s : State) : Prop :=
  (∀ t i, (s.loc t).queue = some i → s.deQueueRunning i = true) ∧
    ∀ t t' i, (s.loc t).queue = some i → (s.loc t').queue = some i → t = t'

theorem Single.goto {s' : State} (h : s.Single) {l : Loc} (hloc : s'.loc = Function.update s.loc t l)
    (hrun : s'.deQueueRunning = s.deQueueRunning) (hl : l.queue = none ∨ l.queue = (s.loc t).queue) :
    s'.Single := by
  have hold : ∀ t' i, (s'.loc t').queue = some i → (s.loc t').queue = some i := by
    intro t' i hq
    rw [hloc] at hq
    by_cases ht : t' = t
    · rw [ht, Function.update_self] at hq
      rcases hl with hl | hl
      · rw [hl] at hq
        cases hq
      · rw [ht, ← hl, hq]
    · rwa [Function.update_of_ne ht] at hq
  refine ⟨fun t' i hq => ?_, fun t' t'' i hq hq' => h.2 t' t'' i (hold t' i hq) (hold t'' i hq')⟩
  rw [hrun]
  exact h.1 t' i (hold t' i hq)

theorem Single.mark {s' : State} (h : s.Single) {l : Loc} {i : ℕ} (hfree : s.deQueueRunning i = false)
    (hloc : s'.loc = Function.update s.loc t l)
    (hrun : s'.deQueueRunning = Function.update s.deQueueRunning i true) (hl : l.queue = some i) : s'.Single := by
  have hnone : ∀ t', (s.loc t').queue ≠ some i := fun t' hq => by
    have := h.1 t' i hq
    rw [hfree] at this
    cases this
  constructor
  · intro t' j hq
    rw [hloc] at hq
    rw [hrun]
    by_cases hji : j = i
    · rw [hji, Function.update_self]
    · rw [Function.update_of_ne hji]
      by_cases ht : t' = t
      · rw [ht, Function.update_self, hl] at hq
        exact absurd (Option.some.inj hq).symm hji
      · rw [Function.update_of_ne ht] at hq
        exact h.1 t' j hq
  · intro t' t'' j hq hq'
    rw [hloc] at hq hq'
    by_cases ht : t' = t
    · by_cases ht' : t'' = t
      · rw [ht, ht']
      · rw [ht, Function.update_self, hl] at hq
        rw [Function.update_of_ne ht', ← hq] at hq'
        exact absurd hq' (hnone t'')
    · rw [Function.update_of_ne ht] at hq
      by_cases ht' : t'' = t
      · rw [ht', Function.update_self, hl] at hq'
        rw [← hq'] at hq
        exact absurd hq (hnone t')
      · rw [Function.update_of_ne ht'] at hq'
        exact h.2 t' t'' j hq hq'

theorem Single.unmark {s' : State} (h : s.Single) {l : Loc} {i : ℕ} (hold : (s.loc t).queue = some i)
    (hloc : s'.loc = Function.update s.loc t l)
    (hrun : s'.deQueueRunning = Function.update s.deQueueRunning i false) (hl : l.queue = none) : s'.Single := by
  have hother : ∀ t' j, (s'.loc t').queue = some j → t' ≠ t ∧ (s.loc t').queue = some j := by
    intro t' j hq
    rw [hloc] at hq
    by_cases ht : t' = t
    · rw [ht, Function.update_self, hl] at hq
      cases hq
    · rw [Function.update_of_ne ht] at hq
      exact ⟨ht, hq⟩
  refine ⟨fun t' j hq => ?_, fun t' t'' j hq hq' => h.2 t' t'' j (hother t' j hq).2 (hother t'' j hq').2⟩
  obtain ⟨hne, hq⟩ := hother t' j hq
  have hji : j ≠ i := fun hji => hne (h.2 t' t i (hji ▸ hq) hold)
  rw [hrun, Function.update_of_ne hji]
  exact h.1 t' j hq

theorem blkAt_goto {s' : State} {l : Loc} (hloc : s'.loc = Function.update s.loc t l) {j : ℕ}
    (hold : (s.loc t).blkAt j = none) (hnew : l.blkAt j = none) (t' : ℕ) :
    (s'.loc t').blkAt j = (s.loc t').blkAt j := by
  rw [hloc]
  by_cases ht : t' = t
  · rw [ht, Function.update_self, hold, hnew]
  · rw [Function.update_of_ne ht]

end

/-! ### The steps -/

def Inv (s : State) : Prop := (∃ L, s.Books L) ∧ s.Single

section

variable {s : State} {L : ℕ → Ledger ℕ}

theorem agree_fragments {p n : ℕ} {l : List ℕ} (hp : p ∉ l) (m : Packets) :
    Agree l m { m with fragments := Function.update m.fragments p n } :=
  fun x hx => ⟨rfl, Function.update_of_ne (fun hc => hp (by rw [← hc]; exact hx)) _ _, rfl⟩

theorem Inv.send (h : s.Inv) (txSwQMaxLen : ℕ) (x : Sending) {p : ℕ} (hp : s.Foreign p) :
    (s.send txSwQMaxLen x p).Inv := by
  obtain ⟨⟨L, hL⟩, hsingle⟩ := h
  have hforeign := hL.foreign hp
  unfold State.send
  split_ifs
  · exact ⟨⟨L, hL.frame (fun j => ⟨rfl, rfl, rfl, rfl, fun _ => rfl⟩) fun j x hx => ⟨rfl, rfl, rfl⟩⟩, hsingle⟩
  · unfold staSendPacket
    simp only []
    split_ifs
    · exact ⟨⟨L, hL.frame (fun j => ⟨rfl, rfl, rfl, rfl, fun _ => rfl⟩) fun j =>
        agree_fragments (hforeign j) s.mem⟩, hsingle⟩
    · set i := x.queIdx
      set m : Packets := { s.mem with fragments := Function.update s.mem.fragments p (numberOfFrag x) }
      have hK := hL.1 i
      have hpi := hforeign i
      rw [List.mem_append, not_or] at hpi
      have hline : Holds m (s.txSwQueue i) (L i).line := hK.line.congr (agree_fragments hpi.2 s.mem)
      obtain ⟨hins, honly⟩ := hline.insertTail hpi.2
      have hd := sameData_insertTail m (s.txSwQueue i) p
      obtain ⟨hacc, hserved, hdropped, hheld, hline'⟩ := (L i).accept_spec p
      -- the packets of the others and those in hand are neither in the line nor the new one
      have hagree : ∀ l : List ℕ, p ∉ l → (∀ y ∈ l, y ∉ (L i).line) →
          Agree l s.mem (m.insertTailQueue (s.txSwQueue i) p).1 := by
        intro l hpl hl y hy
        obtain ⟨h1, h2, h3⟩ := agree_fragments (n := numberOfFrag x) hpl s.mem y hy
        obtain ⟨h1', h2', h3'⟩ := honly.agree hd (k := l) (fun z hz hc => by
          rcases List.mem_append.1 hc with hc | hc
          · exact hl z hz hc
          · exact hpl (List.mem_singleton.1 hc ▸ hz)) y hy
        exact ⟨h1'.trans h1, h2'.trans h2, h3'.trans h3⟩
      refine ⟨⟨_, hL.update i ((L i).accept p) ⟨?_, ?_, ?_, ?_, ?_, ?_, ?_⟩ ?_ ?_ ?_⟩, hsingle⟩
      · show _ = Function.update s.accepted i _ i
        rw [Function.update_self, hacc, hK.accepted]
      · rw [hserved, hK.handed]
      · rw [hdropped, hK.released]
      · rw [hline']
        show Holds _ (Function.update s.txSwQueue i _ i) _
        rw [Function.update_self]
        exact hins
      · intro t blk hblk
        rw [hheld]
        exact (hK.held t blk hblk).congr (hagree _ hpi.1 hK.apart)
      · intro hnone
        rw [hheld]
        exact hK.empty hnone
      · rw [hheld, hline']
        intro y hy hc
        rcases List.mem_append.1 hc with hc | hc
        · exact hK.apart y hy hc
        · exact hpi.1 (List.mem_singleton.1 hc ▸ hy)
      · exact fun j hj => ⟨Function.update_of_ne hj _ _, rfl, rfl, Function.update_of_ne hj _ _, fun _ => rfl⟩
      · exact fun j hj => hagree _ (hforeign j) fun y hy hc =>
          hL.2 j i hj y hy (List.mem_append_right _ hc)
      · rw [hheld, hline', ← List.append_assoc]
        intro y hy j hj hc
        rcases List.mem_append.1 hy with hy | hy
        · exact hL.2 i j (Ne.symm hj) y hy hc
        · exact hforeign j (List.mem_singleton.1 hy ▸ hc)

theorem Books.goto {s' : State} {t : ℕ} {l : Loc} (hL : s.Books L)
    (hloc : s'.loc = Function.update s.loc t l) (hmem : s'.mem = s.mem)
    (hqueue : s'.txSwQueue = s.txSwQueue) (hacc : s'.accepted = s.accepted) (hhand : s'.handed = s.handed)
    (hrel : s'.released = s.released) (hold : ∀ j, (s.loc t).blkAt j = none)
    (hnew : ∀ j, l.blkAt j = none) : s'.Books L :=
  hL.frame
    (fun j => ⟨congrFun hacc j, congrFun hhand j, congrFun hrel j, congrFun hqueue j,
      blkAt_goto hloc (hold j) (hnew j)⟩)
    (fun j x _ => by rw [hmem]; exact ⟨rfl, rfl, rfl⟩)

theorem Inv.call (h : s.Inv) (t qIdx max : ℕ) : (s.call t qIdx max).Inv := by
  obtain ⟨⟨L, hL⟩, hsingle⟩ := h
  unfold State.call
  cases ht : s.loc t with
  | idle =>
    simp only []
    have hnew : ∀ j, (if qIdx = numOfTxRing then Loc.start 0 3 max else Loc.start qIdx qIdx max).blkAt j =
        none := fun j => by split_ifs <;> rfl
    have hqueue : (if qIdx = numOfTxRing then Loc.start 0 3 max else Loc.start qIdx qIdx max).queue = none := by
      split_ifs <;> rfl
    exact ⟨⟨L, hL.goto rfl rfl rfl rfl rfl rfl (fun j => by rw [ht]; rfl) hnew⟩,
      hsingle.goto rfl rfl (Or.inl hqueue)⟩
  | start => exact ⟨⟨L, hL⟩, hsingle⟩
  | loop => exact ⟨⟨L, hL⟩, hsingle⟩
  | transmit => exact ⟨⟨L, hL⟩, hsingle⟩
  | stop => exact ⟨⟨L, hL⟩, hsingle⟩
  | quit => exact ⟨⟨L, hL⟩, hsingle⟩

theorem held_of_loop (hL : s.Books L) (hsingle : s.Single) {t i e max count : ℕ}
    (ht : s.loc t = .loop i e max count) : (L i).held = [] := by
  refine (hL.1 i).empty fun t' => ?_
  by_contra hne
  obtain ⟨blk, hblk⟩ := Option.ne_none_iff_exists'.1 hne
  have heq := hsingle.2 t' t i (Loc.queue_of_blkAt hblk) (by rw [ht]; rfl)
  rw [heq, ht] at hblk
  cases hblk

/-- **A turn of the loop**, of which `dequeueOne_spec` tells the outcome. -/
theorem Inv.loop (h : s.Inv) {t i e max count : ℕ} (ht : s.loc t = .loop i e max count) (a : Admission) :
    (s.turn t a).Inv := by
  obtain ⟨⟨L, hL⟩, hsingle⟩ := h
  have hnoblk : ∀ j, (s.loc t).blkAt j = none := fun j => by rw [ht]; rfl
  have hqueue : (s.loc t).queue = some i := by rw [ht]; rfl
  have hheld := held_of_loop hL hsingle ht
  have hK := hL.1 i
  unfold State.turn
  rw [ht]
  simp only []
  split_ifs
  · exact ⟨⟨L, hL.goto rfl rfl rfl rfl rfl rfl hnoblk fun _ => rfl⟩, hsingle.goto rfl rfl (Or.inr hqueue.symm)⟩
  · exact ⟨⟨L, hL.goto rfl rfl rfl rfl rfl rfl hnoblk fun _ => rfl⟩, hsingle.goto rfl rfl (Or.inr hqueue.symm)⟩
  · obtain ⟨honly, hd, hout⟩ := dequeueOne_spec hK.line i a
    have hothers : ∀ j ≠ i, Agree ((L j).held ++ (L j).line) s.mem (dequeueOne i a s.mem (s.txSwQueue i)).1 :=
      fun j hj => honly.agree hd fun p hp hc => hL.2 j i hj p hp (List.mem_append_right _ hc)
    generalize dequeueOne i a s.mem (s.txSwQueue i) = r at honly hd hout hothers ⊢
    obtain ⟨m, q, blk⟩ := r
    cases blk with
    | none =>
      refine ⟨⟨_, hL.update i (L i) ⟨hK.accepted, hK.handed, hK.released, ?_, fun t' blk hblk => ?_,
        fun _ => hheld, hK.apart⟩ (fun j hj => ⟨rfl, rfl, rfl, Function.update_of_ne hj _ _,
          blkAt_goto rfl (hnoblk j) rfl⟩) hothers fun p hp j hj => hL.2 i j (Ne.symm hj) p hp⟩,
        hsingle.goto rfl rfl (Or.inr hqueue.symm)⟩
      · show Holds m (Function.update s.txSwQueue i q i) _
        rw [Function.update_self]
        exact hout
      · rw [blkAt_goto rfl (hnoblk i) rfl] at hblk
        refine (hK.held t' blk hblk).congr ?_
        rw [hheld]
        exact fun p hp => (by cases hp)
    | some blk =>
      obtain ⟨l₁, l₂, hl, hne, hq, hblk⟩ := hout
      obtain ⟨hacc, hserved, hdropped, hheld', hline'⟩ := (L i).take_spec hl hheld
      have hnd := hK.line.nodup
      rw [hl] at hnd
      refine ⟨⟨_, hL.update i ((L i).take l₁ l₂) ⟨hacc.trans hK.accepted, hserved.trans hK.handed,
        hdropped.trans hK.released, ?_, fun t' blk' hblk' => ?_, fun hnone => ?_, ?_⟩
        (fun j hj => ⟨rfl, rfl, rfl, Function.update_of_ne hj _ _, 
          blkAt_goto rfl (hnoblk j) (Loc.blkAt_transmit_ne hj e max count blk)⟩)
        hothers fun p hp j hj => ?_⟩, hsingle.goto rfl rfl (Or.inr hqueue.symm)⟩
      · rw [hline']
        show Holds m (Function.update s.txSwQueue i q i) _
        rw [Function.update_self]
        exact hq
      · rw [hheld']
        have hloc : (Function.update s.loc t (.transmit i e max count blk) t').blkAt i = some blk' := hblk'
        by_cases htt : t' = t
        · rw [htt, Function.update_self] at hloc
          exact Option.some.inj ((Loc.blkAt_transmit_self i e max count blk).symm.trans hloc) ▸ hblk
        · rw [Function.update_of_ne htt] at hloc
          exact absurd (hsingle.2 t' t i (Loc.queue_of_blkAt hloc) hqueue) htt
      · have hloc : (Function.update s.loc t (.transmit i e max count blk) t).blkAt i = none := hnone t
        rw [Function.update_self, Loc.blkAt_transmit_self] at hloc
        cases hloc
      · rw [hheld', hline']
        exact fun p hp hc => (List.nodup_append.1 hnd).2.2 p hp p hc rfl
      · rw [hheld', hline', ← hl] at hp
        exact hL.2 i j (Ne.symm hj) p (List.mem_append_right _ hp)

theorem Inv.transmit (h : s.Inv) {t i e max count : ℕ} {blk : TxBlk}
    (ht : s.loc t = .transmit i e max count blk) (a : Admission) : (s.turn t a).Inv := by
  obtain ⟨⟨L, hL⟩, hsingle⟩ := h
  have hqueue : (s.loc t).queue = some i := by rw [ht]; rfl
  have hK := hL.1 i
  have hblk : Blocks s.mem blk (L i).held := hK.held t blk (by rw [ht]; exact Loc.blkAt_transmit_self i e max count blk)
  obtain ⟨hacc, hserved, hdropped, hheld', hline'⟩ := (L i).settle_spec
  have hnone : ∀ t', (Function.update s.loc t
      (.loop i e max ((count + blk.txPacketList.number) % 256)) t').blkAt i = none := by
    intro t'
    by_cases htt : t' = t
    · rw [htt, Function.update_self]
      rfl
    · rw [Function.update_of_ne htt]
      by_contra hne
      obtain ⟨blk', hblk'⟩ := Option.ne_none_iff_exists'.1 hne
      exact htt (hsingle.2 t' t i (Loc.queue_of_blkAt hblk') hqueue)
  unfold State.turn
  rw [ht]
  refine ⟨⟨_, hL.update i (L i).settle ⟨hacc.trans hK.accepted, ?_, hdropped.trans hK.released, ?_,
    fun t' blk' hblk' => ?_, fun _ => hheld', ?_⟩ (fun j hj => ⟨rfl, Function.update_of_ne hj _ _, rfl, rfl,
      blkAt_goto rfl (by rw [ht]; exact Loc.blkAt_transmit_ne hj e max count blk) rfl⟩)
      (fun j _ p _ => ⟨rfl, rfl, rfl⟩) fun p hp j hj => ?_⟩, hsingle.goto rfl rfl (Or.inr hqueue.symm)⟩
  · show _ = Function.update s.handed i _ i
    rw [Function.update_self, hserved, hK.handed, hblk.holds.number, follow_eq hblk.holds.queued.1]
  · rw [hline']
    exact hK.line
  · exact absurd ((hnone t').symm.trans hblk') (Option.some_ne_none blk').symm
  · rw [hheld']
    exact fun p hp => (by cases hp)
  · rw [hheld', hline'] at hp
    exact hL.2 i j (Ne.symm hj) p (List.mem_append_right _ hp)

theorem Inv.turn (h : s.Inv) (t : ℕ) (a : Admission) : (s.turn t a).Inv := by
  cases ht : s.loc t with
  | loop i e max count => exact h.loop ht a
  | transmit i e max count blk => exact h.transmit ht a
  | idle =>
    unfold State.turn
    rw [ht]
    exact h
  | start i e max =>
    obtain ⟨⟨L, hL⟩, hsingle⟩ := h
    have hnoblk : ∀ j, (s.loc t).blkAt j = none := fun j => by rw [ht]; rfl
    unfold State.turn
    rw [ht]
    simp only []
    split_ifs with hrun
    · exact ⟨⟨L, hL.goto rfl rfl rfl rfl rfl rfl hnoblk fun j => Loc.blkAt_after j i e max⟩,
        hsingle.goto rfl rfl (Or.inl (Loc.queue_after i e max))⟩
    · exact ⟨⟨L, hL.goto rfl rfl rfl rfl rfl rfl hnoblk fun _ => rfl⟩,
        hsingle.mark (by simpa using hrun) rfl rfl rfl⟩
  | stop i e max =>
    obtain ⟨⟨L, hL⟩, hsingle⟩ := h
    have hnoblk : ∀ j, (s.loc t).blkAt j = none := fun j => by rw [ht]; rfl
    unfold State.turn
    rw [ht]
    exact ⟨⟨L, hL.goto rfl rfl rfl rfl rfl rfl hnoblk fun j => Loc.blkAt_after j i e max⟩,
      hsingle.unmark (by rw [ht]; rfl) rfl rfl (Loc.queue_after i e max)⟩
  | quit i =>
    obtain ⟨⟨L, hL⟩, hsingle⟩ := h
    have hnoblk : ∀ j, (s.loc t).blkAt j = none := fun j => by rw [ht]; rfl
    unfold State.turn
    rw [ht]
    exact ⟨⟨L, hL.goto rfl rfl rfl rfl rfl rfl hnoblk fun _ => rfl⟩, hsingle.unmark (by rw [ht]; rfl) rfl rfl rfl⟩

theorem Inv.reset (h : s.Inv) (i : ℕ) : (s.reset i).Inv := by
  obtain ⟨⟨L, hL⟩, hsingle⟩ := h
  have hK := hL.1 i
  obtain ⟨hl, hq, honly, hd⟩ := flush_spec hK.line
  obtain ⟨hacc, hserved, hdropped, hheld, hline⟩ := (L i).drop_spec
  unfold State.reset
  rw [hK.line.number]
  refine ⟨⟨_, hL.update i (L i).drop ⟨hacc.trans hK.accepted, hserved.trans hK.handed, ?_, ?_,
    fun t blk hblk => ?_, fun hnone => hheld.trans (hK.empty hnone), ?_⟩
    (fun j hj => ⟨rfl, rfl, Function.update_of_ne hj _ _, Function.update_of_ne hj _ _, fun _ => rfl⟩)
    (fun j hj => honly.agree hd fun p hp hc => hL.2 j i hj p hp (List.mem_append_right _ hc))
    fun p hp j hj => ?_⟩, hsingle⟩
  · show _ = Function.update s.released i _ i
    rw [Function.update_self, hdropped, hK.released, hl]
  · rw [hline]
    show Holds _ (Function.update s.txSwQueue i _ i) _
    rw [Function.update_self]
    exact hq
  · rw [hheld]
    exact (hK.held t blk hblk).congr (honly.agree hd hK.apart)
  · rw [hline]
    exact fun p _ hc => (by cases hc)
  · rw [hheld, hline, List.append_nil] at hp
    exact hL.2 i j (Ne.symm hj) p (List.mem_append_left _ hp)

end

theorem Inv.step {s : State} (h : s.Inv) (txSwQMaxLen : ℕ) (op : Op) (hs : s.Sound op) :
    (s.step txSwQMaxLen op).Inv := by
  cases op with
  | send x p => exact h.send txSwQMaxLen x hs
  | call t qIdx max => exact h.call t qIdx max
  | turn t a => exact h.turn t a
  | reset i => exact h.reset i

theorem Inv.disciplined {s : State} (h : s.Inv) : s.Disciplined := by
  obtain ⟨⟨L, hL⟩, -⟩ := h
  intro i
  have hK := hL.1 i
  obtain ⟨l, hacc, hserved, hdropped, hheld, hwaiting⟩ := (L i).exists_fates
  refine ⟨(L i).line, (L i).held, l, hK.line, hK.held, hK.empty, hacc.trans hK.accepted,
    hserved.trans hK.handed, hdropped.trans hK.released, hheld, hwaiting, ?_⟩
  rw [← hK.accepted, ← hK.handed, ← hacc, ← hserved]
  exact ofFate_sublist _ l

theorem inv_init (mem : Packets) : (init mem).Inv := by
  refine ⟨⟨fun _ => .empty, fun i => ⟨rfl, rfl, rfl, Holds.nil mem, fun t blk hblk => (by cases hblk),
    fun _ => rfl, fun p hp => (by cases hp)⟩, fun i j _ p hp => (by cases hp)⟩,
    fun t i hq => (by cases hq), fun t t' i hq => (by cases hq)⟩

theorem foreign_init (mem : Packets) (p : ℕ) : (init mem).Foreign p := by
  refine ⟨fun i l hl hp => ?_, fun t i blk l hblk => (by cases hblk)⟩
  have hhead := hl.head_eq
  cases l with
  | nil => cases hp
  | cons => cases hhead

/-- A unicast packet of 1000 octets for the queue of best effort, to be sent in two fragments. -/
def sampleSending : Sending := ⟨true, 0, false, false, false, false, 1000, 600⟩

def sampleAdmission : Admission := ⟨false, .frag, true, false, false, []⟩

def samplePackets : Packets := ⟨fun _ => none, fun _ => 0, fun _ => 1000⟩

end State

end Mt7610u.Data.TxQueue
