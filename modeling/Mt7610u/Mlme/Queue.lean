import Mt7610u.Lib.Bytes
import Mt7610u.Lib.Ring
import Mt7610u.Lib.Runs

/-! # The MLME queue

The ring of messages for the MLME task. Any number of contexts enter messages; one handler takes them
out. A call tests for a full queue under the lock, gives the lock back, and takes it again to write; the
handler takes an element out under the lock and works on it, and clears it, without. -/

namespace Mt7610u.Mlme

open Lib Lib.Runs Lib.Ring

/-! ### Elements and calls -/

def maxLenOfMlmeQueue : ℕ := 40

def mgmtDmaBufferSize : ℕ := 1600

structure RecvInfo where
  timeStampHigh : BitVec 32
  timeStampLow : BitVec 32
  rssi0 : Byte
  rssi1 : Byte
  rssi2 : Byte
  signal : Byte
  channel : Byte
  opMode : Byte
  deriving DecidableEq

/-- `MLME_QUEUE_ELEM`; `msg` is its buffer. -/
structure Elem where
  msg : Bytes 1600
  machine : ℕ
  msgType : ℕ
  msgLen : ℕ
  info : RecvInfo
  wcid : Byte
  occupied : Bool
  priv : ℕ

/-- A call that enters a message. What `MsgTypeSubst` makes of a received frame, machine and message
type, comes with the call. -/
inductive Call
  | mlmeEnqueue (machine msgType msgLen : ℕ) (msg : Option (List Byte)) (priv : ℕ)
  | mlmeEnqueueForRecv (wcid : ℕ) (info : RecvInfo) (msgLen : ℕ) (msg : Option (List Byte))
      (subst : Option (ℕ × ℕ))

namespace Call

def msgLen : Call → ℕ
  | mlmeEnqueue _ _ len _ _ => len
  | mlmeEnqueueForRecv _ _ len _ _ => len

end Call

/-- `NdisMoveMemory` of the message into the buffer of an element. -/
def moveMsg (buf : Bytes 1600) (msgLen : ℕ) : Option (List Byte) → Bytes 1600
  | none => buf
  | some msg => fun i => if i.val < msgLen then msg.getD i 0 else buf i

def Elem.write (e : Elem) : Call → Elem
  | .mlmeEnqueue machine msgType msgLen msg priv =>
    { e with
      wcid := 0xff#8
      occupied := true
      machine := machine
      msgType := msgType
      msgLen := msgLen
      priv := priv
      msg := moveMsg e.msg msgLen msg }
  | .mlmeEnqueueForRecv wcid info msgLen msg subst =>
    { e with
      occupied := true
      -- the call got here only with a machine and a message type
      machine := (subst.getD (0xff, 0)).1
      msgType := (subst.getD (0xff, 0)).2
      msgLen := msgLen
      info := info
      wcid := BitVec.ofNat 8 wcid
      priv := 0
      msg := moveMsg e.msg msgLen msg }

/-- `Occupied = FALSE; MsgLen = 0`. -/
def Elem.free (e : Elem) : Elem := { e with occupied := false, msgLen := 0 }

/-! ### The state -/

/-- Where `MlmeHandler` stands. `holding` has the slot of the element that was handed out, the element
as it was then, and whether it has been acted upon. -/
inductive Handler
  | idle
  | looping
  | ready
  | holding (slot : ℕ) (elem : Elem) (acted : Bool)

namespace Handler

def slot : Handler → Option ℕ
  | holding k _ _ => some k
  | _ => none

def pending : Handler → List Elem
  | holding _ e false => [e]
  | _ => []

end Handler

structure MlmeQueue where
  num : ℕ
  head : ℕ
  tail : ℕ
  entry : ℕ → Elem
  tested : ℕ → Option Call
  handler : Handler
  accepted : List Elem
  handled : List Elem

namespace MlmeQueue

/-- `MlmeQueueInit`, over whatever else the elements hold. -/
def init (entry : ℕ → Elem) : MlmeQueue where
  num := 0
  head := 0
  tail := 0
  entry := fun k => { (entry k).free with msg := zeros 1600 }
  tested := fun _ => none
  handler := .idle
  accepted := []
  handled := []

def mlmeQueueEmpty (s : MlmeQueue) : Bool := s.num = 0

/-- `MlmeQueueFull`: a received frame is held to half of the queue. -/
def mlmeQueueFull (s : MlmeQueue) : Call → Bool
  | .mlmeEnqueueForRecv .. => s.num ≥ maxLenOfMlmeQueue / 2 || (s.entry s.tail).occupied
  | .mlmeEnqueue .. => s.num = maxLenOfMlmeQueue

/-- The index behind `k`. -/
def next (k : ℕ) : ℕ := if k + 1 = maxLenOfMlmeQueue then 0 else k + 1

/-- `MlmeEnqueue` and `MlmeEnqueueForRecv` up to the locked section. -/
def test (s : MlmeQueue) (t : ℕ) (halting : Bool) (c : Call) : MlmeQueue :=
  if (s.tested t).isSome ∨ halting = true ∨ c.msgLen > mgmtDmaBufferSize ∨ s.mlmeQueueFull c = true then s
  else match c with
    | .mlmeEnqueueForRecv _ _ _ _ none => s
    | c => { s with tested := Function.update s.tested t (some c) }

def put (s : MlmeQueue) (t : ℕ) : MlmeQueue :=
  match s.tested t with
  | none => s
  | some c =>
    let e := (s.entry s.tail).write c
    { s with
      tail := next s.tail
      num := s.num + 1
      entry := Function.update s.entry s.tail e
      tested := Function.update s.tested t none
      accepted := s.accepted ++ [e] }

/-- `MlmeHandler` is called; only one runs at a time. -/
def start (s : MlmeQueue) : MlmeQueue :=
  match s.handler with
  | .idle => { s with handler := .looping }
  | _ => s

def loop (s : MlmeQueue) (stop : Bool) : MlmeQueue :=
  match s.handler with
  | .looping => { s with handler := if s.mlmeQueueEmpty || stop then .idle else .ready }
  | _ => s

def mlmeDequeue (s : MlmeQueue) : MlmeQueue :=
  match s.handler with
  | .ready =>
    { s with
      num := s.num - 1
      head := next s.head
      handler := .holding s.head (s.entry s.head) false }
  | _ => s

/-- The element is acted upon: `MlmeRestartStateMachine`, or the action of the machine it is for, on
what the slot holds by now. -/
def act (s : MlmeQueue) : MlmeQueue :=
  match s.handler with
  | .holding k e false =>
    { s with handled := s.handled ++ [s.entry k], handler := .holding k e true }
  | _ => s

def clear (s : MlmeQueue) : MlmeQueue :=
  match s.handler with
  | .holding k _ true =>
    { s with entry := Function.update s.entry k (s.entry k).free, handler := .looping }
  | _ => s

end MlmeQueue

inductive Op
  | test (t : ℕ) (halting : Bool) (c : Call)
  | put (t : ℕ)
  | start
  | loop (stop : Bool)
  | dequeue
  | act
  | clear

namespace MlmeQueue

def step (s : MlmeQueue) : Op → MlmeQueue
  | .test t halting c => s.test t halting c
  | .put t => s.put t
  | .start => s.start
  | .loop stop => s.loop stop
  | .dequeue => s.mlmeDequeue
  | .act => s.act
  | .clear => s.clear

/-! ### Discipline -/

def queued (s : MlmeQueue) : List Elem := contents maxLenOfMlmeQueue s.entry s.head s.num

/-- **The discipline of the queue.** The element in the handler's hands still holds the message that was
handed out, is still marked as occupied, and is not in the queue again. -/
structure Disciplined (s : MlmeQueue) : Prop where
  num_le : s.num ≤ maxLenOfMlmeQueue
  tail_eq : s.tail = (s.head + s.num) % maxLenOfMlmeQueue
  order : s.accepted = s.handled ++ s.handler.pending ++ s.queued
  held : ∀ k e acted, s.handler = .holding k e acted →
    s.entry k = e ∧ e.occupied = true ∧ ∀ i < s.num, slot maxLenOfMlmeQueue s.head i ≠ k

/-- When a message is written, the queue has room for it, and the slot is not that of the element in
the handler's hands. -/
def Roomy (s : MlmeQueue) : Op → Prop
  | .put t => (s.tested t).isSome = true → s.num < maxLenOfMlmeQueue ∧ s.handler.slot ≠ some s.tail
  | _ => True

instance (s : MlmeQueue) (op : Op) : Decidable (s.Roomy op) :=
  match op with
  | .put _ => inferInstanceAs (Decidable (_ → _))
  | .test .. | .start | .loop _ | .dequeue | .act | .clear => isTrue trivial

/-! ### Steps -/

/-- The discipline, and what carries it on: the head is an index, a handler that is about to take an
element finds one, and what was accepted was marked as occupied. -/
structure Inv (s : MlmeQueue) : Prop extends Disciplined s where
  head_lt : s.head < maxLenOfMlmeQueue
  some_ready : s.handler = .ready → 0 < s.num
  occupied : ∀ e ∈ s.accepted, e.occupied = true

theorem next_eq {k : ℕ} (h : k < maxLenOfMlmeQueue) : next k = (k + 1) % maxLenOfMlmeQueue := by
  unfold next
  unfold maxLenOfMlmeQueue at *
  split
  · omega
  · omega

theorem init_inv (entry : ℕ → Elem) : (init entry).Inv where
  num_le := Nat.zero_le _
  tail_eq := rfl
  order := rfl
  held := by
    intro k e acted h
    cases h
  head_lt := Nat.zero_lt_succ _
  some_ready := by
    intro h
    cases h
  occupied := by
    intro e he
    cases he

theorem Inv.of_handler {s : MlmeQueue} (hI : s.Inv) {t : ℕ → Option Call} {h : Handler}
    (hp : h.pending = s.handler.pending) (hh : ∀ k e acted, h ≠ .holding k e acted)
    (hr : h = .ready → 0 < s.num) : Inv { s with tested := t, handler := h } where
  num_le := hI.num_le
  tail_eq := hI.tail_eq
  order := by
    show s.accepted = s.handled ++ h.pending ++ s.queued
    rw [hp]
    exact hI.order
  held := fun k e acted heq => absurd heq (hh k e acted)
  head_lt := hI.head_lt
  some_ready := hr
  occupied := hI.occupied

theorem Inv.test {s : MlmeQueue} (hI : s.Inv) (t : ℕ) (halting : Bool) (c : Call) : (s.test t halting c).Inv := by
  have hupd : ∀ tested, Inv { s with tested := tested } := fun tested =>
    { num_le := hI.num_le, tail_eq := hI.tail_eq, order := hI.order, held := hI.held,
      head_lt := hI.head_lt, some_ready := hI.some_ready, occupied := hI.occupied }
  unfold MlmeQueue.test
  split
  · exact hI
  · split
    · exact hI
    · exact hupd _

theorem Elem.occupied_write (e : Elem) (c : Call) : (e.write c).occupied = true := by
  cases c <;> rfl

theorem Inv.put {s : MlmeQueue} (hI : s.Inv) (t : ℕ) (hroom : s.Roomy (.put t)) : (s.put t).Inv := by
  unfold MlmeQueue.put
  cases hc : s.tested t with
  | none => exact hI
  | some c =>
    obtain ⟨hlt, hslot⟩ := hroom (by rw [hc]; rfl)
    have htail : s.tail = slot maxLenOfMlmeQueue s.head s.num := hI.tail_eq
    refine ⟨⟨hlt, ?_, ?_, ?_⟩, hI.head_lt, fun _ => Nat.succ_pos _, ?_⟩
    · show next s.tail = (s.head + (s.num + 1)) % maxLenOfMlmeQueue
      rw [next_eq (by rw [htail]; exact Nat.mod_lt _ (by decide)), htail]
      unfold slot
      rw [Nat.mod_add_mod, Nat.add_assoc]
    · show s.accepted ++ [_] = s.handled ++ s.handler.pending ++ contents _ _ s.head (s.num + 1)
      rw [htail, contents_push _ hlt, hI.order, List.append_assoc _ s.queued]
      rfl
    · intro k e acted hk
      change s.handler = _ at hk
      obtain ⟨hent, hocc, hout⟩ := hI.held k e acted hk
      have hne : k ≠ s.tail := by
        rintro rfl
        rw [hk] at hslot
        exact hslot rfl
      refine ⟨?_, hocc, fun i hi => ?_⟩
      · show Function.update s.entry s.tail _ k = e
        rw [Function.update_of_ne hne, hent]
      · rcases Nat.lt_succ_iff_lt_or_eq.1 hi with hi | rfl
        · exact hout i hi
        · show slot maxLenOfMlmeQueue s.head s.num ≠ k
          rw [← htail]
          exact hne.symm
    · intro e he
      rcases List.mem_append.1 he with he | he
      · exact hI.occupied e he
      · rw [List.mem_singleton.1 he]
        exact Elem.occupied_write _ c

theorem Inv.start {s : MlmeQueue} (hI : s.Inv) : s.start.Inv := by
  unfold MlmeQueue.start
  cases h : s.handler with
  | idle =>
    refine hI.of_handler (t := s.tested) (h := .looping) ?_ (fun k e acted hc => by cases hc)
      (fun hc => by cases hc)
    rw [h]
    rfl
  | looping => exact hI
  | ready => exact hI
  | holding k e acted => exact hI

theorem Inv.loop {s : MlmeQueue} (hI : s.Inv) (stop : Bool) : (s.loop stop).Inv := by
  unfold MlmeQueue.loop
  cases h : s.handler with
  | idle => exact hI
  | looping =>
    refine hI.of_handler (t := s.tested) ?_ (fun k e acted hc => ?_) (fun hc => ?_)
    · rw [h]
      split <;> rfl
    · split at hc <;> cases hc
    · split at hc
      · cases hc
      · rename_i hne
        unfold mlmeQueueEmpty at hne
        by_contra hzero
        simp [Nat.eq_zero_of_not_pos hzero] at hne
  | ready => exact hI
  | holding k e acted => exact hI

theorem Inv.dequeue {s : MlmeQueue} (hI : s.Inv) : s.mlmeDequeue.Inv := by
  unfold mlmeDequeue
  cases h : s.handler with
  | idle => exact hI
  | looping => exact hI
  | holding k e acted => exact hI
  | ready =>
    have hle := hI.num_le
    obtain ⟨n, hn⟩ := Nat.exists_eq_succ_of_ne_zero (hI.some_ready h).ne'
    have hpop := contents_pop maxLenOfMlmeQueue s.entry s.head n
    have hqueued : s.queued = s.entry s.head ::
        contents maxLenOfMlmeQueue s.entry (next s.head) (s.num - 1) := by
      unfold queued
      rw [hn, hpop, Nat.mod_eq_of_lt hI.head_lt, next_eq hI.head_lt]
      rfl
    have horder := hI.order
    rw [h, hqueued] at horder
    refine ⟨⟨?_, ?_, ?_, ?_⟩, ?_, ?_, hI.occupied⟩
    · show s.num - 1 ≤ maxLenOfMlmeQueue
      omega
    · show s.tail = (next s.head + (s.num - 1)) % maxLenOfMlmeQueue
      rw [hI.tail_eq, next_eq hI.head_lt, Nat.mod_add_mod]
      congr 1
      omega
    · show s.accepted = s.handled ++ [s.entry s.head] ++ contents _ s.entry (next s.head) (s.num - 1)
      rw [horder]
      simp [Handler.pending]
    · rintro k e acted hk
      cases hk
      refine ⟨rfl, hI.occupied _ (by rw [horder]; simp), fun i hi => ?_⟩
      show slot maxLenOfMlmeQueue (next s.head) i ≠ s.head
      change i < s.num - 1 at hi
      have hne : slot maxLenOfMlmeQueue s.head 0 ≠ slot maxLenOfMlmeQueue s.head (i + 1) :=
        slot_ne (Nat.succ_pos i) (by omega)
      unfold slot at hne ⊢
      rw [next_eq hI.head_lt, Nat.mod_add_mod, Nat.add_assoc, Nat.add_comm 1 i]
      rw [Nat.add_zero, Nat.mod_eq_of_lt hI.head_lt] at hne
      exact hne.symm
    · show next s.head < maxLenOfMlmeQueue
      rw [next_eq hI.head_lt]
      exact Nat.mod_lt _ (by decide)
    · intro hc
      cases hc

theorem Inv.act {s : MlmeQueue} (hI : s.Inv) : s.act.Inv := by
  unfold MlmeQueue.act
  cases h : s.handler with
  | idle => exact hI
  | looping => exact hI
  | ready => exact hI
  | holding k e acted =>
    cases acted with
    | true => exact hI
    | false =>
      have horder := hI.order
      have hheld := hI.held k e false h
      refine ⟨⟨hI.num_le, hI.tail_eq, ?_, ?_⟩, hI.head_lt, ?_, hI.occupied⟩
      · show s.accepted = s.handled ++ [s.entry k] ++ [] ++ s.queued
        rw [hheld.1, horder, h, List.append_nil]
        rfl
      · rintro k' e' acted' hk
        cases hk
        exact hheld
      · intro hc
        cases hc

theorem Inv.clear {s : MlmeQueue} (hI : s.Inv) : s.clear.Inv := by
  unfold MlmeQueue.clear
  cases h : s.handler with
  | idle => exact hI
  | looping => exact hI
  | ready => exact hI
  | holding k e acted =>
    cases acted with
    | false => exact hI
    | true =>
      have horder := hI.order
      obtain ⟨-, -, hout⟩ := hI.held k e true h
      refine ⟨⟨hI.num_le, hI.tail_eq, ?_, ?_⟩, hI.head_lt, ?_, hI.occupied⟩
      · show s.accepted = s.handled ++ [] ++ contents _ (Function.update s.entry k _) s.head s.num
        rw [contents_update _ hout, horder, h]
        rfl
      · intro k' e' acted' hk
        cases hk
      · intro hc
        cases hc

theorem Inv.step {s : MlmeQueue} (hI : s.Inv) (op : Op) (hroom : s.Roomy op) : (s.step op).Inv := by
  cases op with
  | test t halting c => exact hI.test t halting c
  | put t => exact hI.put t hroom
  | start => exact hI.start
  | loop stop => exact hI.loop stop
  | dequeue => exact hI.dequeue
  | act => exact hI.act
  | clear => exact hI.clear

/-! ### Runs -/

/-- **The MLME queue is disciplined** in every state of a run in which each message is written to a slot
that is free when it is written. -/
theorem disciplined_of_roomy (entry : ℕ → Elem) (ops : List Op)
    (h : Along step Roomy (init entry) ops) : (run step (init entry) ops).Disciplined :=
  (run_invariant (I := Inv) (fun _ op hI hroom => hI.step op hroom) ops _ (init_inv entry)
    h).toDisciplined

def emptyElem : Elem := ⟨zeros 1600, 0, 0, 0, ⟨0, 0, 0, 0, 0, 0, 0, 0⟩, 0, false, 0⟩

/-- Context `t` enters a message of type `k` without being interrupted. -/
def enter (t k : ℕ) : List Op := [.test t false (.mlmeEnqueue 1 k 0 none 0), .put t]

def overlappingRun : List Op :=
  enter 0 1 ++ [.start, .loop false, .dequeue] ++ enter 1 2 ++ [.act, .clear, .loop false, .dequeue, .act]

theorem disciplined_overlappingRun :
    Along step Roomy (init fun _ => emptyElem) overlappingRun ∧
      (run step (init fun _ => emptyElem) overlappingRun).Disciplined :=
  have h : Along step Roomy (init fun _ => emptyElem) overlappingRun := by decide
  ⟨h, disciplined_of_roomy _ _ h⟩

def fullRun : List Op := (List.range 40).flatMap (fun _ => enter 0 1) ++ [.start, .loop false, .dequeue]

def crowdedRun : List Op :=
  (List.range 39).flatMap (fun _ => enter 0 1) ++
    [.test 0 false (.mlmeEnqueue 1 1 0 none 0), .test 1 false (.mlmeEnqueue 1 1 0 none 0), .put 0, .put 1]

set_option maxRecDepth 2000 in
/-- A message entered while the first element of a full queue is worked on is written over it; and two
contexts that pass the test together overfill the queue. -/
theorem not_disciplined_full :
    ¬ (run step (init fun _ => emptyElem) (fullRun ++ enter 0 2)).Disciplined ∧
      ¬ (run step (init fun _ => emptyElem) crowdedRun).Disciplined := by
  constructor
  · intro h
    have hheld : (run step (init fun _ => emptyElem) (fullRun ++ enter 0 2)).handler.pending.map
        (fun e => e.msgType) = [1] := by decide
    have hslot : (run step (init fun _ => emptyElem) (fullRun ++ enter 0 2)).handler.slot = some 0 := by
      decide
    have hentry : ((run step (init fun _ => emptyElem) (fullRun ++ enter 0 2)).entry 0).msgType = 2 := by
      decide
    generalize run step (init fun _ => emptyElem) (fullRun ++ enter 0 2) = s at *
    cases hs : s.handler with
    | idle => simp [hs, Handler.slot] at hslot
    | looping => simp [hs, Handler.slot] at hslot
    | ready => simp [hs, Handler.slot] at hslot
    | holding k e acted =>
      obtain ⟨heq, -, -⟩ := h.held k e acted hs
      obtain rfl : k = 0 := by simpa [hs, Handler.slot] using hslot
      rw [heq] at hentry
      cases acted with
      | false => simp [hs, Handler.pending, hentry] at hheld
      | true => simp [hs, Handler.pending] at hheld
  · intro h
    have hnum : (run step (init fun _ => emptyElem) crowdedRun).num = 41 := by decide
    have hle := h.num_le
    rw [hnum] at hle
    exact absurd hle (by decide)

end MlmeQueue

end Mt7610u.Mlme
