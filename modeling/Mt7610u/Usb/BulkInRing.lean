import Mathlib.Data.Fintype.Card
import Mt7610u.Lib.Runs

/-! # The bulk-in ring

A ring of receive contexts. `DoBulkIn` hands the context at `NextRxBulkInIndex` to USB; its completion runs in
a tasklet that makes the context readable and moves the index on; `RTUSBBulkReceive`, in any number of
contexts of execution, handles the readable context at `NextRxBulkInReadIndex`. `ResetBulkInHdlr` starts the
ring again after an error, and `RTUSBCancelPendingBulkInIRP` takes a context back from USB without the lock. -/

namespace Mt7610u.Usb.BulkIn

open Lib.Runs

abbrev rxRingSize : ℕ := 8

abbrev Idx : Type := Fin rxRingSize

/-- What the ring keeps of an `RX_CONTEXT`. -/
structure RxCtx where
  inUse : Bool
  irpPending : Bool
  readable : Bool
  bRxHandling : Bool
  bulkInOffset : ℕ

inductive UrbStatus
  | noError
  | inProgress
  | failed
  deriving DecidableEq

/-- A URB: whether the host controller has it, and what it will leave or has left in it. `start` is where in
the transfer buffer the data goes. -/
structure Urb where
  active : Bool
  status : UrbStatus
  actualLength : ℕ
  start : ℕ

/-- Where a context of execution is: outside, in `STARxDoneInterruptHandle`, between the lock and
`RTUSB_SUBMIT_URB`, behind a submission that failed, or behind `RTUSB_UNLINK_URB`. -/
inductive Local
  | idle
  | handling (i : Idx)
  | claimed (i : Idx)
  | refused (i : Idx)
  | unlinked (i : Idx)
  deriving DecidableEq

/-- The ring, the URBs, the tasklet, the contexts of execution `κ`, and the records of what happened. A
context is filled when it becomes readable; fills are numbered. -/
structure Sys (κ : Type) where
  ctx : Idx → RxCtx
  pendingRx : ℕ
  nextRxBulkInIndex : Idx
  nextRxBulkInReadIndex : Idx
  nextRxBulkInPosition : ℕ
  readPosition : ℕ
  urb : Idx → Urb
  -- the tasklet is scheduled with this URB, and it is running with this URB and status
  scheduled : Option Idx
  running : Option (Idx × UrbStatus)
  loc : κ → Local
  -- fills, the last fill of a context, the fills whose handling was begun and completed
  fills : ℕ
  stamp : Idx → Option ℕ
  begun : List ℕ
  done : List ℕ

inductive Op (κ : Type)
  -- `DoBulkIn` and the loop of `ResetBulkInHdlr`: the locked section, the submission, and the section after
  -- a failed one
  | claim (k : κ)
  | submit (k : κ) (accepted : Bool)
  | giveBack (k : κ)
  -- the host controller completes a URB
  | complete (i : Idx) (status : UrbStatus) (actualLength : ℕ)
  -- `rx_done_tasklet`: the status is read before the lock
  | rxDone
  | rxDoneLock
  -- `RTUSBBulkReceive`: its first locked section, a call that moves `ReadPosition`, its last locked section
  | begin (k : κ)
  | parse (k : κ) (readPosition : ℕ)
  | finish (k : κ)
  -- `RTUSBCancelPendingBulkInIRP` at one context: up to `RTUSB_UNLINK_URB`, and behind it
  | cancel (k : κ) (i : Idx) (actualLength : ℕ)
  | clear (k : κ)
  -- `PendingRx = 0` and the new position in `ResetBulkInHdlr`
  | zeroPending
  | resetPosition

def Sys.init (κ : Type) : Sys κ :=
  { ctx := fun _ =>
      { inUse := false, irpPending := false, readable := false, bRxHandling := false, bulkInOffset := 0 }
    pendingRx := 0
    nextRxBulkInIndex := 0
    nextRxBulkInReadIndex := 0
    nextRxBulkInPosition := 0
    readPosition := 0
    urb := fun _ => { active := false, status := .noError, actualLength := 0, start := 0 }
    scheduled := none
    running := none
    loc := fun _ => .idle
    fills := 0
    stamp := fun _ => none
    begun := []
    done := [] }

namespace Sys

variable {κ : Type} [DecidableEq κ]

def claim (s : Sys κ) (k : κ) : Sys κ :=
  let i := s.nextRxBulkInIndex
  if s.pendingRx > 0 ∨ (s.ctx i).readable = true ∨ (s.ctx i).inUse = true then s
  else
    { s with
      ctx := Function.update s.ctx i { s.ctx i with inUse := true, irpPending := true }
      pendingRx := (s.pendingRx + 1) % 256
      loc := Function.update s.loc k (.claimed i) }

/-- `RTUSBInitRxDesc` and `RTUSB_SUBMIT_URB`, which refuses a URB that is still active. -/
def submit (s : Sys κ) (k : κ) (i : Idx) (accepted : Bool) : Sys κ :=
  if accepted = true ∧ (s.urb i).active = false then
    { s with
      urb := Function.update s.urb i
        { active := true, status := .inProgress, actualLength := 0, start := s.nextRxBulkInPosition }
      loc := Function.update s.loc k .idle }
  else { s with loc := Function.update s.loc k (.refused i) }

/-- The section after a failed submission; `PendingRx` is a `UCHAR`. -/
def giveBack (s : Sys κ) (k : κ) (i : Idx) : Sys κ :=
  { s with
    ctx := Function.update s.ctx i { s.ctx i with inUse := false, irpPending := false }
    pendingRx := (s.pendingRx + 255) % 256
    loc := Function.update s.loc k .idle }

def complete (s : Sys κ) (i : Idx) (status : UrbStatus) (actualLength : ℕ) : Sys κ :=
  if (s.urb i).active = true then
    { s with
      urb := Function.update s.urb i
        { s.urb i with active := false, status := status, actualLength := actualLength }
      scheduled := some i }
  else s

def rxDone (s : Sys κ) : Sys κ :=
  match s.scheduled, s.running with
  | some i, none => { s with scheduled := none, running := some (i, (s.urb i).status) }
  | _, _ => s

/-- The locked section of `rx_done_tasklet`. -/
def rxDoneLock (s : Sys κ) (i : Idx) (status : UrbStatus) : Sys κ :=
  let c := { s.ctx i with
    inUse := false
    irpPending := false
    bulkInOffset := (s.ctx i).bulkInOffset + (s.urb i).actualLength }
  let pendingRx := if s.pendingRx > 0 then s.pendingRx - 1 else s.pendingRx
  if status = .noError then
    if c.bulkInOffset ≠ 0 then
      { s with
        ctx := Function.update s.ctx i { c with readable := true }
        running := none
        pendingRx := pendingRx
        nextRxBulkInPosition := 0
        nextRxBulkInIndex := s.nextRxBulkInIndex + 1
        fills := s.fills + 1
        stamp := Function.update s.stamp i (some s.fills) }
    else
      { s with
        ctx := Function.update s.ctx i c
        running := none
        pendingRx := pendingRx
        nextRxBulkInPosition := 0 }
  else
    { s with
      ctx := Function.update s.ctx i { c with readable := false }
      running := none
      pendingRx := pendingRx }

def begin (s : Sys κ) (k : κ) : Sys κ :=
  let i := s.nextRxBulkInReadIndex
  if ((s.ctx i).inUse = false ∧ (s.ctx i).readable = true) ∧ (s.ctx i).bRxHandling = false then
    { s with
      ctx := Function.update s.ctx i { s.ctx i with bRxHandling := true }
      loc := Function.update s.loc k (.handling i)
      begun := s.begun ++ (s.stamp i).toList }
  else s

def finish (s : Sys κ) (k : κ) (i : Idx) : Sys κ :=
  { s with
    ctx := Function.update s.ctx i
      { s.ctx i with bulkInOffset := 0, readable := false, bRxHandling := false }
    readPosition := 0
    nextRxBulkInReadIndex := s.nextRxBulkInReadIndex + 1
    loc := Function.update s.loc k .idle
    done := s.done ++ (s.stamp i).toList }

def cancel (s : Sys κ) (k : κ) (i : Idx) (actualLength : ℕ) : Sys κ :=
  if (s.ctx i).irpPending = true then
    { s.complete i .failed actualLength with loc := Function.update s.loc k (.unlinked i) }
  else s

def clear (s : Sys κ) (k : κ) (i : Idx) : Sys κ :=
  { s with
    ctx := Function.update s.ctx i { s.ctx i with irpPending := false, inUse := false }
    loc := Function.update s.loc k .idle }

/-- One step; a step of a context of execution that is not at that place changes nothing. -/
def step (s : Sys κ) : Op κ → Sys κ
  | .claim k => if s.loc k = .idle then s.claim k else s
  | .submit k accepted =>
    match s.loc k with
    | .claimed i => s.submit k i accepted
    | _ => s
  | .giveBack k =>
    match s.loc k with
    | .refused i => s.giveBack k i
    | _ => s
  | .complete i status actualLength => s.complete i status actualLength
  | .rxDone => s.rxDone
  | .rxDoneLock =>
    match s.running with
    | some (i, status) => s.rxDoneLock i status
    | none => s
  | .begin k => if s.loc k = .idle then s.begin k else s
  | .parse k readPosition =>
    match s.loc k with
    | .handling _ => { s with readPosition := readPosition }
    | _ => s
  | .finish k =>
    match s.loc k with
    | .handling i => s.finish k i
    | _ => s
  | .cancel k i actualLength => if s.loc k = .idle then s.cancel k i actualLength else s
  | .clear k =>
    match s.loc k with
    | .unlinked i => s.clear k i
    | _ => s
  | .zeroPending => { s with pendingRx := 0 }
  | .resetPosition => { s with nextRxBulkInPosition := (s.ctx s.nextRxBulkInIndex).bulkInOffset }

end Sys

/-! ### Ownership -/

variable {κ : Type}

structure Owned (s : Sys κ) : Prop where
  apart : ∀ i, ¬ ((s.ctx i).inUse = true ∧ (s.ctx i).readable = true)
  single : ∀ i j, (s.urb i).active = true → (s.urb j).active = true → i = j
  held : ∀ i, (s.urb i).active = true → (s.ctx i).inUse = true
  pending : s.pendingRx = (Finset.univ.filter fun i => (s.ctx i).inUse = true).card
  -- handling is begun once for each fill, in order, and one handling is completed before the next begins
  begun : s.begun = List.range s.begun.length
  done : s.done <+: s.begun
  alone : s.begun.length ≤ s.done.length + 1
  known : s.begun.length ≤ s.fills
  -- what was filled stays readable until it is completely handled, and is not with USB before
  kept : ∀ n < s.fills, n ∉ s.done → ∃ i, (s.ctx i).readable = true ∧ s.stamp i = some n
  before : ∀ i n, (s.ctx i).inUse = true → s.stamp i = some n → n ∈ s.done
  -- a buffer is handled from its first byte on
  start : (∀ i, (s.ctx i).bRxHandling = false) → s.readPosition = 0

/-- The condition: nothing is pending when pending transfers are cancelled or the counter is cleared. -/
def Quiet (s : Sys κ) : Op κ → Prop
  | .cancel _ i _ => (s.ctx i).irpPending = false
  | .zeroPending => s.pendingRx = 0
  | _ => True

/-! ### The invariant -/

inductive Holder (κ : Type)
  | free
  | thread (k : κ)
  | usb
  | task

structure Transfer (s : Sys κ) (holder : Holder κ) : Prop where
  inUse : ∀ i, (s.ctx i).inUse = true ↔ holder ≠ .free ∧ i = s.nextRxBulkInIndex
  irp : ∀ i, (s.ctx i).irpPending = (s.ctx i).inUse
  pending_free : holder = .free → s.pendingRx = 0
  pending_held : holder ≠ .free → s.pendingRx = 1
  claimed : ∀ k i, s.loc k = .claimed i → holder = .thread k ∧ i = s.nextRxBulkInIndex
  refused : ∀ k i, s.loc k = .refused i → holder = .thread k ∧ i = s.nextRxBulkInIndex
  unlinked : ∀ k i, s.loc k ≠ .unlinked i
  active : ∀ i, (s.urb i).active = true → holder = .usb ∧ i = s.nextRxBulkInIndex
  scheduled : ∀ i, s.scheduled = some i → holder = .task ∧ i = s.nextRxBulkInIndex
  running : ∀ x, s.running = some x → holder = .task ∧ x.1 = s.nextRxBulkInIndex ∧ s.scheduled = none

/-- The readable contexts are those of the fills from `done.length` up to `fills`. -/
structure Ring (s : Sys κ) : Prop where
  done_le : s.done.length ≤ s.fills
  le_done : s.fills ≤ s.done.length + 8
  index : (s.nextRxBulkInIndex : ℕ) = s.fills % 8
  readIndex : (s.nextRxBulkInReadIndex : ℕ) = s.done.length % 8
  readable : ∀ i, (s.ctx i).readable = true ↔ ∃ n, s.done.length ≤ n ∧ n < s.fills ∧ n % 8 = i.val
  stamped : ∀ n i, s.done.length ≤ n → n < s.fills → n % 8 = i.val → s.stamp i = some n
  stamp_lt : ∀ i n, s.stamp i = some n → n < s.fills ∧ ((s.ctx i).readable = false → n < s.done.length)

/-- The context of execution `reader` that handles the buffer at the read index. -/
structure Reading (s : Sys κ) (reader : Option κ) : Prop where
  handling : ∀ k i, s.loc k = .handling i → reader = some k ∧ i = s.nextRxBulkInReadIndex
  flag : ∀ i, (s.ctx i).bRxHandling = true ↔ reader ≠ none ∧ i = s.nextRxBulkInReadIndex
  busy : reader ≠ none → s.done.length < s.fills
  done : s.done = List.range s.done.length
  begun : s.begun = List.range (s.done.length + if reader.isSome then 1 else 0)
  position : reader = none → s.readPosition = 0

structure Inv (s : Sys κ) (holder : Holder κ) (reader : Option κ) : Prop where
  transfer : Transfer s holder
  ring : Ring s
  reading : Reading s reader
  room : holder ≠ .free → s.fills < s.done.length + 8

variable {s s' : Sys κ} {holder : Holder κ} {reader : Option κ}

theorem inv_init : Inv (Sys.init κ) .free none := by
  refine ⟨⟨?_, ?_, ?_, ?_, ?_, ?_, ?_, ?_, ?_, ?_⟩, ⟨?_, ?_, ?_, ?_, ?_, ?_, ?_⟩,
    ⟨?_, ?_, ?_, ?_, ?_, ?_⟩, ?_⟩ <;> simp [Sys.init]

theorem Ring.not_readable (h : Ring s) (hroom : s.fills < s.done.length + 8) :
    (s.ctx s.nextRxBulkInIndex).readable = false := by
  rw [← Bool.not_eq_true, h.readable]
  rintro ⟨n, h1, h2, h3⟩
  have := h.index
  omega

theorem Ring.room (h : Ring s) (hread : (s.ctx s.nextRxBulkInIndex).readable = false) :
    s.fills < s.done.length + 8 := by
  by_contra hfull
  have hle := h.le_done
  have hw := h.index
  have := (h.readable s.nextRxBulkInIndex).2 ⟨s.done.length, le_rfl, by omega, by omega⟩
  rw [hread] at this
  exact absurd this (by decide)

theorem Inv.owned (h : Inv s holder reader) : Owned s := by
  obtain ⟨ht, hr, hd, hroom⟩ := h
  have hlen : s.begun.length = s.done.length + if reader.isSome then 1 else 0 := by
    rw [hd.begun, List.length_range]
  refine ⟨?_, ?_, ?_, ?_, ?_, ?_, ?_, ?_, ?_, ?_, ?_⟩
  · rintro i ⟨hu, hread⟩
    obtain ⟨hne, rfl⟩ := (ht.inUse i).1 hu
    rw [hr.not_readable (hroom hne)] at hread
    exact absurd hread (by decide)
  · intro i j hi hj
    exact (ht.active i hi).2.trans (ht.active j hj).2.symm
  · intro i hi
    obtain ⟨hu, hw⟩ := ht.active i hi
    exact (ht.inUse i).2 ⟨by rw [hu]; nofun, hw⟩
  · by_cases hfree : holder = .free
    · have hnone : (Finset.univ.filter fun i => (s.ctx i).inUse = true) = ∅ := by
        refine Finset.filter_eq_empty_iff.2 fun i _ hi => ?_
        exact ((ht.inUse i).1 hi).1 hfree
      rw [hnone, ht.pending_free hfree]
      rfl
    · have hone : (Finset.univ.filter fun i => (s.ctx i).inUse = true) = {s.nextRxBulkInIndex} := by
        ext i
        simp [ht.inUse i, hfree]
      rw [hone, ht.pending_held hfree]
      rfl
  · rw [hlen]
    exact hd.begun
  · rw [hd.begun, hd.done, List.length_range]
    refine ⟨(List.range (if reader.isSome then 1 else 0)).map (s.done.length + ·), ?_⟩
    rw [List.range_add]
  · rw [hlen]
    split_ifs <;> omega
  · have := hr.done_le
    rw [hlen]
    split_ifs with hsome
    · have := hd.busy (by rintro rfl; exact absurd hsome (by simp))
      omega
    · omega
  · intro n hn hnd
    rw [hd.done, List.mem_range, not_lt] at hnd
    refine ⟨⟨n % 8, Nat.mod_lt n (by decide)⟩, ?_, ?_⟩
    · exact (hr.readable _).2 ⟨n, hnd, hn, rfl⟩
    · exact hr.stamped n _ hnd hn rfl
  · intro i n hu hst
    obtain ⟨hne, rfl⟩ := (ht.inUse i).1 hu
    rw [hd.done, List.mem_range]
    exact (hr.stamp_lt _ n hst).2 (hr.not_readable (hroom hne))
  · intro hnone
    refine hd.position ?_
    by_contra hne
    have := (hd.flag s.nextRxBulkInReadIndex).2 ⟨hne, rfl⟩
    rw [hnone] at this
    exact absurd this (by decide)

/-! ### What a step leaves alone -/

theorem field_update {α : Type} (f : RxCtx → α) (ctx : Idx → RxCtx) {i : Idx} {c : RxCtx}
    (hc : f c = f (ctx i)) (j : Idx) : f (Function.update ctx i c j) = f (ctx j) := by
  by_cases hj : j = i
  · subst hj
    rw [Function.update_self, hc]
  · rw [Function.update_of_ne hj]

theorem field_update_iff (f : RxCtx → Bool) (ctx : Idx → RxCtx) {i : Idx} {c : RxCtx} (j : Idx) :
    f (Function.update ctx i c j) = true ↔ (j = i ∧ f c = true) ∨ (j ≠ i ∧ f (ctx j) = true) := by
  by_cases hj : j = i
  · subst hj
    simp
  · simp [hj]

theorem Ring.frame (h : Ring s) (hread : ∀ i, (s'.ctx i).readable = (s.ctx i).readable)
    (hstamp : s'.stamp = s.stamp) (hdone : s'.done = s.done) (hfills : s'.fills = s.fills)
    (hw : s'.nextRxBulkInIndex = s.nextRxBulkInIndex)
    (hr : s'.nextRxBulkInReadIndex = s.nextRxBulkInReadIndex) : Ring s' := by
  refine ⟨?_, ?_, ?_, ?_, ?_, ?_, ?_⟩
  · rw [hdone, hfills]
    exact h.done_le
  · rw [hdone, hfills]
    exact h.le_done
  · rw [hw, hfills]
    exact h.index
  · rw [hr, hdone]
    exact h.readIndex
  · intro i
    rw [hread, hdone, hfills]
    exact h.readable i
  · rw [hdone, hfills, hstamp]
    exact h.stamped
  · intro i n
    rw [hread, hdone, hfills, hstamp]
    exact h.stamp_lt i n

theorem Reading.frame (h : Reading s reader) (hloc : ∀ k i, s'.loc k = .handling i → s.loc k = .handling i)
    (hflag : ∀ i, (s'.ctx i).bRxHandling = (s.ctx i).bRxHandling) (hdone : s'.done = s.done)
    (hbegun : s'.begun = s.begun) (hfills : s.fills ≤ s'.fills)
    (hr : s'.nextRxBulkInReadIndex = s.nextRxBulkInReadIndex) (hpos : s'.readPosition = s.readPosition) :
    Reading s' reader := by
  refine ⟨?_, ?_, ?_, ?_, ?_, ?_⟩
  · intro k i hl
    rw [hr]
    exact h.handling k i (hloc k i hl)
  · intro i
    rw [hflag, hr]
    exact h.flag i
  · intro hne
    rw [hdone]
    exact (h.busy hne).trans_le hfills
  · rw [hdone]
    exact h.done
  · rw [hdone, hbegun]
    exact h.begun
  · rw [hpos]
    exact h.position

theorem Transfer.frame (h : Transfer s holder) (huse : ∀ i, (s'.ctx i).inUse = (s.ctx i).inUse)
    (hirp : ∀ i, (s'.ctx i).irpPending = (s.ctx i).irpPending) (hpend : s'.pendingRx = s.pendingRx)
    (hclaimed : ∀ k i, s'.loc k = .claimed i → s.loc k = .claimed i)
    (hrefused : ∀ k i, s'.loc k = .refused i → s.loc k = .refused i)
    (hunlinked : ∀ k i, s'.loc k = .unlinked i → s.loc k = .unlinked i)
    (hurb : s'.urb = s.urb) (hsched : s'.scheduled = s.scheduled) (hrun : s'.running = s.running)
    (hw : s'.nextRxBulkInIndex = s.nextRxBulkInIndex) : Transfer s' holder := by
  refine ⟨?_, ?_, ?_, ?_, ?_, ?_, ?_, ?_, ?_, ?_⟩
  · intro i
    rw [huse, hw]
    exact h.inUse i
  · intro i
    rw [huse, hirp]
    exact h.irp i
  · rw [hpend]
    exact h.pending_free
  · rw [hpend]
    exact h.pending_held
  · intro k i hl
    rw [hw]
    exact h.claimed k i (hclaimed k i hl)
  · intro k i hl
    rw [hw]
    exact h.refused k i (hrefused k i hl)
  · intro k i hl
    exact h.unlinked k i (hunlinked k i hl)
  · rw [hurb, hw]
    exact h.active
  · rw [hsched, hw]
    exact h.scheduled
  · rw [hrun, hw, hsched]
    exact h.running

variable [DecidableEq κ]

omit [DecidableEq κ] in
theorem active_update {urb : Idx → Urb} {i j : Idx} {u : Urb} (h : (Function.update urb i u j).active = true) :
    (j = i ∧ u.active = true) ∨ (j ≠ i ∧ (urb j).active = true) := by
  by_cases hj : j = i
  · subst hj
    rw [Function.update_self] at h
    exact Or.inl ⟨rfl, h⟩
  · rw [Function.update_of_ne hj] at h
    exact Or.inr ⟨hj, h⟩

/-! ### The steps of a transfer -/

theorem inv_claim (h : Inv s holder reader) (k : κ) : ∃ holder', Inv (s.claim k) holder' reader := by
  simp only [Sys.claim]
  split
  · exact ⟨holder, h⟩
  · next hno =>
    simp only [not_or, Bool.not_eq_true] at hno
    obtain ⟨hpend, hread, huse⟩ := hno
    obtain ⟨ht, hr, hd, -⟩ := h
    have hfree : holder = .free := by
      by_contra hne
      have := ht.pending_held hne
      omega
    subst hfree
    refine ⟨.thread k, ⟨?_, ?_, nofun, ?_, ?_, ?_, ?_, ?_, ?_, ?_⟩, ?_, ?_, fun _ => hr.room hread⟩
    · intro i
      refine (field_update_iff RxCtx.inUse s.ctx i).trans ?_
      simp [ht.inUse]
    · intro i
      by_cases hi : i = s.nextRxBulkInIndex
      · subst hi
        simp
      · simp only [Function.update_of_ne hi]
        exact ht.irp i
    · intro _
      simp [ht.pending_free rfl]
    · intro k' i hl
      rcases loc_update_cases hl with ⟨rfl, hsame⟩ | ⟨-, hold⟩
      · exact ⟨rfl, (Local.claimed.inj hsame).symm⟩
      · exact absurd (ht.claimed k' i hold).1 nofun
    · intro k' i hl
      exact absurd (ht.refused k' i (loc_update hl nofun).2).1 nofun
    · intro k' i hl
      exact ht.unlinked k' i (loc_update hl nofun).2
    · intro i hi
      exact absurd (ht.active i hi).1 nofun
    · intro i hi
      exact absurd (ht.scheduled i hi).1 nofun
    · intro x hx
      exact absurd (ht.running x hx).1 nofun
    · exact hr.frame (field_update RxCtx.readable s.ctx rfl) rfl rfl rfl rfl rfl
    · exact hd.frame (fun k' i hl => (loc_update hl nofun).2) (field_update RxCtx.bRxHandling s.ctx rfl)
        rfl rfl le_rfl rfl rfl

theorem inv_submit (h : Inv s holder reader) {k : κ} {i : Idx} (hk : s.loc k = .claimed i)
    (accepted : Bool) : ∃ holder', Inv (s.submit k i accepted) holder' reader := by
  obtain ⟨ht, hr, hd, hroom⟩ := h
  obtain ⟨rfl, rfl⟩ := ht.claimed k i hk
  have hother : ∀ k' : κ, k' ≠ k → ∀ j, s.loc k' ≠ .claimed j ∧ s.loc k' ≠ .refused j := by
    intro k' hne j
    constructor
    · intro hl
      exact hne (Holder.thread.inj (ht.claimed k' j hl).1).symm
    · intro hl
      exact hne (Holder.thread.inj (ht.refused k' j hl).1).symm
  simp only [Sys.submit]
  split
  · refine ⟨.usb, ⟨?_, ht.irp, nofun, fun _ => ht.pending_held nofun, ?_, ?_, ?_, ?_, ?_, ?_⟩, ?_, ?_,
      fun _ => hroom nofun⟩
    · intro j
      simp [ht.inUse j]
    · intro k' j hl
      obtain ⟨hne, hl'⟩ := loc_update hl nofun
      exact absurd hl' (hother k' hne j).1
    · intro k' j hl
      obtain ⟨hne, hl'⟩ := loc_update hl nofun
      exact absurd hl' (hother k' hne j).2
    · intro k' j hl
      exact ht.unlinked k' j (loc_update hl nofun).2
    · intro j hj
      rcases active_update hj with ⟨hji, -⟩ | ⟨-, hj⟩
      · exact ⟨rfl, hji⟩
      · exact absurd (ht.active j hj).1 nofun
    · intro j hj
      exact absurd (ht.scheduled j hj).1 nofun
    · intro x hx
      exact absurd (ht.running x hx).1 nofun
    · exact hr.frame (fun _ => rfl) rfl rfl rfl rfl rfl
    · exact hd.frame (fun k' i hl => (loc_update hl nofun).2) (fun _ => rfl) rfl rfl le_rfl rfl rfl
  · refine ⟨.thread k, ⟨ht.inUse, ht.irp, nofun, ht.pending_held, ?_, ?_, ?_, ht.active, ht.scheduled,
      ht.running⟩, ?_, ?_, hroom⟩
    · intro k' j hl
      exact ht.claimed k' j (loc_update hl nofun).2
    · intro k' j hl
      rcases loc_update_cases hl with ⟨rfl, hsame⟩ | ⟨-, hold⟩
      · exact ⟨rfl, (Local.refused.inj hsame).symm⟩
      · exact ht.refused k' j hold
    · intro k' j hl
      exact ht.unlinked k' j (loc_update hl nofun).2
    · exact hr.frame (fun _ => rfl) rfl rfl rfl rfl rfl
    · exact hd.frame (fun k' i hl => (loc_update hl nofun).2) (fun _ => rfl) rfl rfl le_rfl rfl rfl

theorem inv_giveBack (h : Inv s holder reader) {k : κ} {i : Idx} (hk : s.loc k = .refused i) :
    Inv (s.giveBack k i) .free reader := by
  obtain ⟨ht, hr, hd, hroom⟩ := h
  obtain ⟨rfl, rfl⟩ := ht.refused k i hk
  refine ⟨⟨?_, ?_, ?_, fun hne => absurd rfl hne, ?_, ?_, ?_, ?_, ?_, ?_⟩, ?_, ?_, fun hne => absurd rfl hne⟩
  · intro j
    refine (field_update_iff RxCtx.inUse s.ctx j).trans ?_
    simp [ht.inUse j]
  · intro j
    by_cases hj : j = s.nextRxBulkInIndex
    · subst hj
      simp [Sys.giveBack]
    · simp only [Sys.giveBack, Function.update_of_ne hj]
      exact ht.irp j
  · intro _
    simp [Sys.giveBack, ht.pending_held nofun]
  · intro k' j hl
    obtain ⟨hne, hl'⟩ := loc_update hl nofun
    exact absurd (Holder.thread.inj (ht.claimed k' j hl').1).symm hne
  · intro k' j hl
    obtain ⟨hne, hl'⟩ := loc_update hl nofun
    exact absurd (Holder.thread.inj (ht.refused k' j hl').1).symm hne
  · intro k' j hl
    exact ht.unlinked k' j (loc_update hl nofun).2
  · intro j hj
    exact absurd (ht.active j hj).1 nofun
  · intro j hj
    exact absurd (ht.scheduled j hj).1 nofun
  · intro x hx
    exact absurd (ht.running x hx).1 nofun
  · exact hr.frame (field_update RxCtx.readable s.ctx rfl) rfl rfl rfl rfl rfl
  · exact hd.frame (fun k' i hl => (loc_update hl nofun).2) (field_update RxCtx.bRxHandling s.ctx rfl)
      rfl rfl le_rfl rfl rfl

omit [DecidableEq κ] in
theorem inv_complete (h : Inv s holder reader) (i : Idx) (status : UrbStatus) (actualLength : ℕ) :
    ∃ holder', Inv (s.complete i status actualLength) holder' reader := by
  unfold Sys.complete
  split
  · next hact =>
    obtain ⟨ht, hr, hd, hroom⟩ := h
    obtain ⟨rfl, rfl⟩ := ht.active i hact
    refine ⟨.task, ⟨?_, ht.irp, nofun, fun _ => ht.pending_held nofun, ?_, ?_, ht.unlinked, ?_, ?_, ?_⟩,
      ?_, ?_, fun _ => hroom nofun⟩
    · intro j
      simp [ht.inUse j]
    · intro k' j hl
      exact absurd (ht.claimed k' j hl).1 nofun
    · intro k' j hl
      exact absurd (ht.refused k' j hl).1 nofun
    · intro j hj
      rcases active_update hj with ⟨-, hj⟩ | ⟨hne, hj⟩
      · exact absurd hj nofun
      · exact absurd (ht.active j hj).2 hne
    · intro j hj
      exact ⟨rfl, (Option.some.inj hj).symm⟩
    · intro x hx
      exact absurd (ht.running x hx).1 nofun
    · exact hr.frame (fun _ => rfl) rfl rfl rfl rfl rfl
    · exact hd.frame (fun _ _ hl => hl) (fun _ => rfl) rfl rfl le_rfl rfl rfl
  · exact ⟨holder, h⟩

omit [DecidableEq κ] in
theorem inv_rxDone (h : Inv s holder reader) : Inv s.rxDone holder reader := by
  unfold Sys.rxDone
  split
  · next i hsched hrun =>
    obtain ⟨ht, hr, hd, hroom⟩ := h
    obtain ⟨rfl, rfl⟩ := ht.scheduled i hsched
    refine ⟨{ ht with scheduled := nofun, running := ?_ }, ?_, ?_, hroom⟩
    · intro x hx
      obtain rfl := Option.some.inj hx
      exact ⟨rfl, rfl, rfl⟩
    · exact hr.frame (fun _ => rfl) rfl rfl rfl rfl rfl
    · exact hd.frame (fun _ _ hl => hl) (fun _ => rfl) rfl rfl le_rfl rfl rfl
  · exact h

omit [DecidableEq κ] in
/-- **The locked section of the tasklet, as far as the transfer goes.** The context at the index is nobody's;
the index stays or moves on. -/
theorem Transfer.release (ht : Transfer s .task) {c : RxCtx} (hc : c.inUse = false)
    (hirp : c.irpPending = false) (hctx : s'.ctx = Function.update s.ctx s.nextRxBulkInIndex c)
    (hpend : s'.pendingRx = s.pendingRx - 1) (hloc : s'.loc = s.loc) (hurb : s'.urb = s.urb)
    (hsched : s'.scheduled = none) (hrun : s'.running = none) : Transfer s' .free := by
  have hnone : ∀ j, (s'.ctx j).inUse = false := by
    intro j
    rw [hctx, ← Bool.not_eq_true]
    intro hj
    rcases (field_update_iff RxCtx.inUse s.ctx j).1 hj with ⟨-, hj⟩ | ⟨hne, hj⟩
    · rw [hc] at hj
      exact absurd hj (by decide)
    · exact hne ((ht.inUse j).1 hj).2
  refine ⟨?_, ?_, ?_, fun hne => absurd rfl hne, ?_, ?_, ?_, ?_, ?_, ?_⟩
  · intro j
    simp [hnone j]
  · intro j
    rw [hnone j, hctx]
    by_cases hj : j = s.nextRxBulkInIndex
    · rw [hj, Function.update_self, hirp]
    · rw [Function.update_of_ne hj, ht.irp j, ← Bool.not_eq_true]
      intro hu
      exact hj ((ht.inUse j).1 hu).2
  · intro _
    rw [hpend, ht.pending_held nofun]
  · intro k j hl
    rw [hloc] at hl
    exact absurd (ht.claimed k j hl).1 nofun
  · intro k j hl
    rw [hloc] at hl
    exact absurd (ht.refused k j hl).1 nofun
  · rw [hloc]
    exact ht.unlinked
  · intro j hj
    rw [hurb] at hj
    exact absurd (ht.active j hj).1 nofun
  · intro j hj
    rw [hsched] at hj
    exact absurd hj nofun
  · intro x hx
    rw [hrun] at hx
    exact absurd hx nofun

omit [DecidableEq κ] in
theorem Ring.fill (h : Ring s) (hroom : s.fills < s.done.length + 8)
    (hread : ∀ i, (s'.ctx i).readable = true ↔ i = s.nextRxBulkInIndex ∨ (s.ctx i).readable = true)
    (hstamp : s'.stamp = Function.update s.stamp s.nextRxBulkInIndex (some s.fills))
    (hdone : s'.done = s.done) (hfills : s'.fills = s.fills + 1)
    (hw : s'.nextRxBulkInIndex = s.nextRxBulkInIndex + 1)
    (hr : s'.nextRxBulkInReadIndex = s.nextRxBulkInReadIndex) : Ring s' := by
  have hindex := h.index
  have hle := h.done_le
  refine ⟨?_, ?_, ?_, ?_, ?_, ?_, ?_⟩
  · rw [hdone, hfills]
    omega
  · rw [hdone, hfills]
    omega
  · rw [hw, hfills, Fin.val_add, hindex]
    simp
  · rw [hr, hdone]
    exact h.readIndex
  · intro i
    rw [hread, hdone, hfills, h.readable]
    constructor
    · rintro (rfl | ⟨n, h1, h2, h3⟩)
      · exact ⟨s.fills, hle, by omega, hindex.symm⟩
      · exact ⟨n, h1, by omega, h3⟩
    · rintro ⟨n, h1, h2, h3⟩
      by_cases hn : n = s.fills
      · left
        apply Fin.ext
        rw [hindex, ← hn]
        exact h3.symm
      · exact Or.inr ⟨n, h1, by omega, h3⟩
  · intro n i h1 h2 h3
    rw [hdone] at h1
    rw [hfills] at h2
    rw [hstamp]
    by_cases hi : i = s.nextRxBulkInIndex
    · have hn : n = s.fills := by
        rw [hi, hindex] at h3
        omega
      rw [hi, Function.update_self, hn]
    · rw [Function.update_of_ne hi]
      refine h.stamped n i h1 ?_ h3
      have hn : n ≠ s.fills := by
        rintro rfl
        exact hi (Fin.ext (by rw [hindex]; exact h3.symm))
      omega
  · intro i n hst
    rw [hstamp] at hst
    rw [hfills, hdone]
    by_cases hi : i = s.nextRxBulkInIndex
    · rw [hi, Function.update_self] at hst
      obtain rfl := Option.some.inj hst
      refine ⟨by omega, fun hf => ?_⟩
      rw [(hread i).2 (Or.inl hi)] at hf
      exact absurd hf (by decide)
    · rw [Function.update_of_ne hi] at hst
      obtain ⟨hlt, hdn⟩ := h.stamp_lt i n hst
      refine ⟨by omega, fun hf => hdn ?_⟩
      rw [← Bool.not_eq_true] at hf ⊢
      exact fun hr => hf ((hread i).2 (Or.inr hr))

omit [DecidableEq κ] in
theorem inv_rxDoneLock (h : Inv s holder reader) {i : Idx} {status : UrbStatus}
    (hrun : s.running = some (i, status)) : Inv (s.rxDoneLock i status) .free reader := by
  obtain ⟨ht, hr, hd, hroom⟩ := h
  obtain ⟨rfl, hi, hsched⟩ := ht.running _ hrun
  obtain rfl : i = s.nextRxBulkInIndex := hi
  have hnr := hr.not_readable (hroom nofun)
  have hpend : (if s.pendingRx > 0 then s.pendingRx - 1 else s.pendingRx) = s.pendingRx - 1 := by
    split_ifs <;> omega
  simp only [Sys.rxDoneLock, hpend]
  split
  · split
    · refine ⟨ht.release rfl rfl rfl rfl rfl rfl hsched rfl, hr.fill (hroom nofun) ?_ rfl rfl rfl rfl rfl, ?_,
        fun hne => absurd rfl hne⟩
      · intro j
        refine (field_update_iff RxCtx.readable s.ctx j).trans ?_
        by_cases hj : j = s.nextRxBulkInIndex
        · simp [hj]
        · simp [hj]
      · exact hd.frame (fun _ _ hl => hl) (field_update RxCtx.bRxHandling s.ctx rfl) rfl rfl
          (Nat.le_succ _) rfl rfl
    · refine ⟨ht.release rfl rfl rfl rfl rfl rfl hsched rfl, ?_, ?_, fun hne => absurd rfl hne⟩
      · exact hr.frame (field_update RxCtx.readable s.ctx rfl) rfl rfl rfl rfl rfl
      · exact hd.frame (fun _ _ hl => hl) (field_update RxCtx.bRxHandling s.ctx rfl) rfl rfl le_rfl rfl rfl
  · refine ⟨ht.release rfl rfl rfl rfl rfl rfl hsched rfl, ?_, ?_, fun hne => absurd rfl hne⟩
    · exact hr.frame (field_update RxCtx.readable s.ctx hnr.symm) rfl rfl rfl rfl rfl
    · exact hd.frame (fun _ _ hl => hl) (field_update RxCtx.bRxHandling s.ctx rfl) rfl rfl le_rfl rfl rfl

/-! ### The steps of handling -/

omit [DecidableEq κ] in
theorem Ring.stamp_readIndex (h : Ring s) (hlt : s.done.length < s.fills) :
    s.stamp s.nextRxBulkInReadIndex = some s.done.length :=
  h.stamped _ _ le_rfl hlt h.readIndex.symm

theorem inv_begin (h : Inv s holder reader) (k : κ) : ∃ reader', Inv (s.begin k) holder reader' := by
  simp only [Sys.begin]
  split
  · next hyes =>
    obtain ⟨⟨-, hread⟩, hfree⟩ := hyes
    obtain ⟨ht, hr, hd, hroom⟩ := h
    have hnone : reader = none := by
      by_contra hne
      have := (hd.flag s.nextRxBulkInReadIndex).2 ⟨hne, rfl⟩
      rw [hfree] at this
      exact absurd this (by decide)
    subst hnone
    have hlt : s.done.length < s.fills := by
      obtain ⟨n, h1, h2, -⟩ := (hr.readable _).1 hread
      omega
    refine ⟨some k, ?_, ?_, ⟨?_, ?_, fun _ => hlt, hd.done, ?_, nofun⟩, hroom⟩
    · exact ht.frame (field_update RxCtx.inUse s.ctx rfl) (field_update RxCtx.irpPending s.ctx rfl) rfl
        (fun k' j hl => (loc_update hl nofun).2) (fun k' j hl => (loc_update hl nofun).2)
        (fun k' j hl => (loc_update hl nofun).2) rfl rfl rfl rfl
    · exact hr.frame (field_update RxCtx.readable s.ctx rfl) rfl rfl rfl rfl rfl
    · intro k' j hl
      rcases loc_update_cases hl with ⟨rfl, hsame⟩ | ⟨-, hold⟩
      · exact ⟨rfl, (Local.handling.inj hsame).symm⟩
      · exact absurd (hd.handling k' j hold).1 nofun
    · intro j
      refine (field_update_iff RxCtx.bRxHandling s.ctx j).trans ?_
      simp [hd.flag j]
    · have hb := hd.begun
      rw [hr.stamp_readIndex hlt]
      simp only [hb, Option.toList_some, Option.isSome_none, Option.isSome_some, if_true]
      exact List.range_succ.symm
  · exact ⟨reader, h⟩

omit [DecidableEq κ] in
theorem Ring.read (h : Ring s) (hlt : s.done.length < s.fills)
    (hread : ∀ i, (s'.ctx i).readable = true ↔ i ≠ s.nextRxBulkInReadIndex ∧ (s.ctx i).readable = true)
    (hstamp : s'.stamp = s.stamp) (hdone : s'.done.length = s.done.length + 1) (hfills : s'.fills = s.fills)
    (hw : s'.nextRxBulkInIndex = s.nextRxBulkInIndex)
    (hr : s'.nextRxBulkInReadIndex = s.nextRxBulkInReadIndex + 1) : Ring s' := by
  have hindex := h.readIndex
  have hle := h.le_done
  refine ⟨?_, ?_, ?_, ?_, ?_, ?_, ?_⟩
  · rw [hdone, hfills]
    omega
  · rw [hdone, hfills]
    omega
  · rw [hw, hfills]
    exact h.index
  · rw [hr, hdone, Fin.val_add, hindex]
    simp
  · intro i
    rw [hread, hdone, hfills, h.readable]
    constructor
    · rintro ⟨hne, n, h1, h2, h3⟩
      have hn : n ≠ s.done.length := by
        rintro rfl
        exact hne (Fin.ext (by rw [hindex]; exact h3.symm))
      exact ⟨n, by omega, h2, h3⟩
    · rintro ⟨n, h1, h2, h3⟩
      refine ⟨?_, n, by omega, h2, h3⟩
      rintro rfl
      rw [hindex] at h3
      omega
  · intro n i h1 h2 h3
    rw [hdone] at h1
    rw [hfills] at h2
    rw [hstamp]
    exact h.stamped n i (by omega) h2 h3
  · intro i n hst
    rw [hstamp] at hst
    rw [hfills, hdone]
    obtain ⟨hn, hdn⟩ := h.stamp_lt i n hst
    refine ⟨hn, fun hf => ?_⟩
    by_cases hi : i = s.nextRxBulkInReadIndex
    · rw [hi, h.stamp_readIndex hlt] at hst
      have := Option.some.inj hst
      omega
    · have : (s.ctx i).readable = false := by
        rw [← Bool.not_eq_true] at hf ⊢
        exact fun hr => hf ((hread i).2 ⟨hi, hr⟩)
      have := hdn this
      omega

theorem inv_finish (h : Inv s holder reader) {k : κ} {i : Idx} (hk : s.loc k = .handling i) :
    Inv (s.finish k i) holder none := by
  obtain ⟨ht, hr, hd, hroom⟩ := h
  obtain ⟨rfl, rfl⟩ := hd.handling k i hk
  have hlt := hd.busy nofun
  have hst := hr.stamp_readIndex hlt
  have hdone : (s.finish k s.nextRxBulkInReadIndex).done = List.range (s.done.length + 1) := by
    simp only [Sys.finish, hst, Option.toList_some]
    rw [List.range_succ, ← hd.done]
  have hlen : (s.finish k s.nextRxBulkInReadIndex).done.length = s.done.length + 1 := by
    rw [hdone, List.length_range]
  refine ⟨?_, hr.read hlt ?_ rfl hlen rfl rfl rfl, ⟨?_, ?_, fun hne => absurd rfl hne, ?_, ?_, fun _ => rfl⟩, ?_⟩
  · exact ht.frame (field_update RxCtx.inUse s.ctx rfl) (field_update RxCtx.irpPending s.ctx rfl) rfl
      (fun k' j hl => (loc_update hl nofun).2) (fun k' j hl => (loc_update hl nofun).2)
      (fun k' j hl => (loc_update hl nofun).2) rfl rfl rfl rfl
  · intro j
    refine (field_update_iff RxCtx.readable s.ctx j).trans ?_
    simp
  · intro k' j hl
    obtain ⟨hne, hl'⟩ := loc_update hl nofun
    exact absurd (Option.some.inj (hd.handling k' j hl').1).symm hne
  · intro j
    refine (field_update_iff RxCtx.bRxHandling s.ctx j).trans ?_
    simp [hd.flag j]
  · rw [hlen]
    exact hdone
  · rw [hlen]
    exact hd.begun
  · intro hne
    have := hroom hne
    rw [hlen]
    show s.fills < s.done.length + 1 + 8
    omega

/-! ### Runs -/

theorem inv_step (op : Op κ) (h : ∃ holder reader, Inv s holder reader) (hok : Quiet s op) :
    ∃ holder reader, Inv (s.step op) holder reader := by
  obtain ⟨holder, reader, h⟩ := h
  cases op with
  | claim k =>
    simp only [Sys.step]
    split
    · obtain ⟨holder', h'⟩ := inv_claim h k
      exact ⟨holder', reader, h'⟩
    · exact ⟨holder, reader, h⟩
  | submit k accepted =>
    simp only [Sys.step]
    split
    · next i hk =>
      obtain ⟨holder', h'⟩ := inv_submit h hk accepted
      exact ⟨holder', reader, h'⟩
    · exact ⟨holder, reader, h⟩
  | giveBack k =>
    simp only [Sys.step]
    split
    · next i hk => exact ⟨_, reader, inv_giveBack h hk⟩
    · exact ⟨holder, reader, h⟩
  | complete i status actualLength =>
    obtain ⟨holder', h'⟩ := inv_complete h i status actualLength
    exact ⟨holder', reader, h'⟩
  | rxDone => exact ⟨holder, reader, inv_rxDone h⟩
  | rxDoneLock =>
    simp only [Sys.step]
    split
    · next i status hrun => exact ⟨_, reader, inv_rxDoneLock h hrun⟩
    · exact ⟨holder, reader, h⟩
  | begin k =>
    simp only [Sys.step]
    split
    · obtain ⟨reader', h'⟩ := inv_begin h k
      exact ⟨holder, reader', h'⟩
    · exact ⟨holder, reader, h⟩
  | parse k readPosition =>
    simp only [Sys.step]
    split
    · next i hk =>
      obtain ⟨ht, hr, hd, hroom⟩ := h
      obtain ⟨rfl, -⟩ := hd.handling k i hk
      refine ⟨holder, some k, ?_, ?_, { hd with position := nofun }, hroom⟩
      · exact ht.frame (fun _ => rfl) (fun _ => rfl) rfl (fun _ _ hl => hl) (fun _ _ hl => hl)
          (fun _ _ hl => hl) rfl rfl rfl rfl
      · exact hr.frame (fun _ => rfl) rfl rfl rfl rfl rfl
    · exact ⟨holder, reader, h⟩
  | finish k =>
    simp only [Sys.step]
    split
    · next i hk => exact ⟨holder, _, inv_finish h hk⟩
    · exact ⟨holder, reader, h⟩
  | cancel k i actualLength =>
    -- nothing is pending, so nothing is cancelled
    have hno : ¬ (s.ctx i).irpPending = true := by
      rw [Bool.not_eq_true]
      exact hok
    simp only [Sys.step, Sys.cancel, if_neg hno, ite_self]
    exact ⟨holder, reader, h⟩
  | clear k =>
    simp only [Sys.step]
    split
    · next i hk => exact absurd hk (h.transfer.unlinked k i)
    · exact ⟨holder, reader, h⟩
  | zeroPending =>
    have hzero : ({ s with pendingRx := 0 } : Sys κ) = s := by
      have hp : s.pendingRx = 0 := hok
      cases s
      simp only at hp
      subst hp
      rfl
    simp only [Sys.step, hzero]
    exact ⟨holder, reader, h⟩
  | resetPosition =>
    obtain ⟨ht, hr, hd, hroom⟩ := h
    refine ⟨holder, reader, ?_, ?_, ?_, hroom⟩
    · exact ht.frame (fun _ => rfl) (fun _ => rfl) rfl (fun _ _ hl => hl) (fun _ _ hl => hl)
        (fun _ _ hl => hl) rfl rfl rfl rfl
    · exact hr.frame (fun _ => rfl) rfl rfl rfl rfl rfl
    · exact hd.frame (fun _ _ hl => hl) (fun _ => rfl) rfl rfl le_rfl rfl rfl

/-- **The ring along runs without a cancelled transfer.** In every state of every run in which nothing is
pending when pending transfers are cancelled or the counter is cleared, contexts are owned by one side at a
time and buffers are handled once and in order. -/
theorem owned_of_quiet (ops : List (Op κ)) (hok : Along Sys.step Quiet (Sys.init κ) ops) :
    Owned (run Sys.step (Sys.init κ) ops) := by
  have h := run_invariant (I := fun s => ∃ holder reader, Inv s holder reader)
    (fun s op hs hop => inv_step op hs hop) ops (Sys.init κ) ⟨_, _, inv_init⟩ hok
  obtain ⟨holder, reader, h⟩ := h
  exact h.owned

/-- A transfer fails, the ring is started again, and the buffer is handled by one context of execution while
the other hands out the next. -/
def sampleOps : List (Op ℕ) :=
  [.claim 0, .submit 0 true, .complete 0 .failed 100, .rxDone, .rxDoneLock, .cancel 1 0 0, .zeroPending,
    .resetPosition, .claim 1, .submit 1 true, .complete 0 .noError 200, .rxDone, .rxDoneLock, .begin 0,
    .claim 1, .parse 0 300, .finish 0]

theorem owned_sample :
    Along Sys.step Quiet (Sys.init ℕ) sampleOps ∧ Owned (run Sys.step (Sys.init ℕ) sampleOps) := by
  have h : Along Sys.step Quiet (Sys.init ℕ) sampleOps := by
    refine ⟨trivial, trivial, trivial, trivial, trivial, ?_, ?_, trivial, trivial, trivial, trivial, trivial,
      trivial, trivial, trivial, trivial, trivial, trivial⟩
    · show (_ : Bool) = false
      decide
    · show (_ : ℕ) = 0
      decide
  exact ⟨h, owned_of_quiet sampleOps h⟩

def cancelled : List (Op ℕ) := [.claim 0, .submit 0 true, .cancel 1 0 0, .clear 1]

/-- A transfer completes; before its tasklet runs, the transfer is cancelled, the counter is cleared and the
context is claimed for the next transfer. -/
def lateCompletion : List (Op ℕ) :=
  [.claim 0, .submit 0 true, .complete 0 .noError 100, .cancel 1 0 0, .clear 1, .zeroPending, .claim 1,
    .rxDone, .rxDoneLock, .submit 1 true, .claim 0, .submit 0 true]

/-- **Cancelling a pending transfer.** At once `PendingRx` counts a context that is not in use; and after a late
completion two contexts are with USB, one of them readable. -/
theorem not_owned_cancelled :
    ((run Sys.step (Sys.init ℕ) cancelled).pendingRx = 1 ∧
      (∀ i, ((run Sys.step (Sys.init ℕ) cancelled).ctx i).inUse = false) ∧
      ¬ Owned (run Sys.step (Sys.init ℕ) cancelled)) ∧
    (((run Sys.step (Sys.init ℕ) lateCompletion).urb 0).active = true ∧
      ((run Sys.step (Sys.init ℕ) lateCompletion).urb 1).active = true ∧
      ((run Sys.step (Sys.init ℕ) lateCompletion).ctx 0).readable = true ∧
      ¬ Owned (run Sys.step (Sys.init ℕ) lateCompletion)) := by
  have hpend : (run Sys.step (Sys.init ℕ) cancelled).pendingRx = 1 := by decide
  have huse : ∀ i, ((run Sys.step (Sys.init ℕ) cancelled).ctx i).inUse = false := by decide
  have h0 : ((run Sys.step (Sys.init ℕ) lateCompletion).urb 0).active = true := by decide
  have h1 : ((run Sys.step (Sys.init ℕ) lateCompletion).urb 1).active = true := by decide
  refine ⟨⟨hpend, huse, ?_⟩, h0, h1, by decide, ?_⟩
  · intro h
    have hcount := h.pending
    simp only [hpend, huse] at hcount
    exact absurd hcount (by decide)
  · intro h
    exact absurd (h.single 0 1 h0 h1) (by decide)

end Mt7610u.Usb.BulkIn
