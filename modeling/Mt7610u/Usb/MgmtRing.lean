import Mathlib.Algebra.Ring.Nat
import Mt7610u.Lib.Ring
import Mt7610u.Lib.Runs

/-! # The management ring

Management packets wait in a ring of cells. `MiniportMMRequest` tests the free count and
`RtmpUSBMgmtKickOut`, under the lock of the ring's writers, puts the packet into the cell at `TxCpuIdx`;
`RTUSBBulkOutMLMEPacket` submits the cell at `TxDmaIdx` unless a transfer is pending, and
`rtusb_mgmt_dma_done_tasklet` frees its packet and moves on. The free count is tested before the lock is
taken, and so is the cell that is to be submitted. -/

namespace Mt7610u.Usb.Mgmt

open Lib.Runs Lib.Ring

abbrev mgmtRingSize : ℕ := 32

structure Pkt where
  addr : ℕ
  srcBufLen : ℕ
  deriving DecidableEq

/-- A cell of the ring with its `TX_CONTEXT`; `transferBuffer` is the packet to whose data it points. -/
structure Cell where
  pNdisPacket : Option Pkt
  transferBuffer : Option Pkt
  bulkOutSize : ℕ
  inUse : Bool
  bWaitingBulkOut : Bool
  irpPending : Bool

/-- Where a context of execution is. As a writer: behind the test of the free count, or in
`RtmpUSBMgmtKickOut` with the `SwIdx` it has read. In `RTUSBBulkOutMLMEPacket`: behind the read of
`TxDmaIdx`, behind the tests, behind the lock, behind a submission that failed. -/
inductive Local
  | idle
  | checked (p : Pkt)
  | entered (p : Pkt) (swIdx : ℕ)
  | looked (i : ℕ)
  | tested (i : ℕ)
  | claimed (i : ℕ)
  | refused (i : ℕ)
  deriving DecidableEq

inductive Task
  | idle
  | pipe (i : ℕ) (noError : Bool)
  | ring (i : ℕ)
  | free (p : Option Pkt)
  deriving DecidableEq

/-- The ring, the pipe, the tasklet, the contexts of execution `κ`, and the packets that were queued,
submitted and freed. -/
structure Sys (κ : Type) where
  cell : ℕ → Cell
  txCpuIdx : ℕ
  txDmaIdx : ℕ
  txSwFreeIdx : ℕ
  mgmtRingLock : Option κ
  bulkOutPending : Bool
  -- the adapter is resetting, halting or gone; the radio is off or being removed; `BULKOUT_RESET`
  halting : Bool
  radioOff : Bool
  bulkOutReset : Bool
  -- URBs with the host controller, and whether a URB came back without an error
  active : ℕ → Bool
  noError : ℕ → Bool
  scheduled : Option ℕ
  task : Task
  loc : κ → Local
  queued : List Pkt
  submitted : List Pkt
  freed : List Pkt

def Sys.needStopTx {κ : Type} (s : Sys κ) : Bool := s.halting || s.radioOff || s.bulkOutReset

inductive Op (κ : Type)
  -- `MiniportMMRequest` and `MlmeHardTransmitMgmtRing` around `RtmpUSBMgmtKickOut`
  | check (k : κ) (p : Pkt)
  | enter (k : κ)
  | abandon (k : κ)
  | kick (k : κ)
  -- `RTUSBBulkOutMLMEPacket`
  | look (k : κ)
  | test (k : κ)
  | claim (k : κ)
  | submit (k : κ) (accepted : Bool)
  | giveBack (k : κ)
  -- the host controller completes a URB
  | complete (i : ℕ) (noError : Bool)
  -- `rtusb_mgmt_dma_done_tasklet`
  | taskStart
  | taskPipe
  | taskRing
  | taskFree
  -- others change the adapter's flags
  | flags (halting radioOff bulkOutReset : Bool)

def Cell.empty : Cell :=
  { pNdisPacket := none, transferBuffer := none, bulkOutSize := 0, inUse := false, bWaitingBulkOut := false
    irpPending := false }

def Sys.init (κ : Type) : Sys κ :=
  { cell := fun _ => Cell.empty
    txCpuIdx := 0
    txDmaIdx := 0
    txSwFreeIdx := mgmtRingSize
    mgmtRingLock := none
    bulkOutPending := false
    halting := false
    radioOff := false
    bulkOutReset := false
    active := fun _ => false
    noError := fun _ => true
    scheduled := none
    task := .idle
    loc := fun _ => .idle
    queued := []
    submitted := []
    freed := [] }

namespace Sys

variable {κ : Type} [DecidableEq κ]

/-- `RtmpUSBMgmtKickOut` writes the packet to the cell at `TxCpuIdx` and the context of the cell `SwIdx` that it
has read before; `TxSwFreeIdx` is a `UINT32`. The lock of the writers is given back after bulk-out was
kicked, which only keeps them out for longer. -/
def kick (s : Sys κ) (k : κ) (p : Pkt) (swIdx : ℕ) : Sys κ :=
  let cell := Function.update s.cell s.txCpuIdx { s.cell s.txCpuIdx with pNdisPacket := some p }
  { s with
    cell := Function.update cell swIdx
      { cell swIdx with
        transferBuffer := some p
        bulkOutSize := (p.srcBufLen + 3) / 4 * 4 + 4
        inUse := true
        bWaitingBulkOut := true }
    txSwFreeIdx := (s.txSwFreeIdx + (2 ^ 32 - 1)) % 2 ^ 32
    txCpuIdx := (s.txCpuIdx + 1) % mgmtRingSize
    mgmtRingLock := none
    loc := Function.update s.loc k .idle
    queued := s.queued ++ [p] }

def test (s : Sys κ) (k : κ) (i : ℕ) : Sys κ :=
  if s.txSwFreeIdx ≥ mgmtRingSize ∨ (s.cell i).inUse = false ∨ (s.cell i).bWaitingBulkOut = false then
    { s with loc := Function.update s.loc k .idle }
  else { s with loc := Function.update s.loc k (.tested i) }

def claim (s : Sys κ) (k : κ) (i : ℕ) : Sys κ :=
  if s.bulkOutPending = true ∨ s.needStopTx = true then { s with loc := Function.update s.loc k .idle }
  else
    { s with
      bulkOutPending := true
      cell := Function.update s.cell i { s.cell i with irpPending := true, bWaitingBulkOut := false }
      loc := Function.update s.loc k (.claimed i) }

/-- `RTUSB_SUBMIT_URB`, which refuses a URB that is still active. -/
def submit (s : Sys κ) (k : κ) (i : ℕ) (accepted : Bool) : Sys κ :=
  if accepted = true ∧ s.active i = false then
    { s with
      active := Function.update s.active i true
      loc := Function.update s.loc k .idle
      submitted := s.submitted ++ (s.cell i).transferBuffer.toList }
  else { s with loc := Function.update s.loc k (.refused i) }

def giveBack (s : Sys κ) (k : κ) (i : ℕ) : Sys κ :=
  { s with
    bulkOutPending := false
    cell := Function.update s.cell i { s.cell i with irpPending := false, bWaitingBulkOut := true }
    loc := Function.update s.loc k .idle }

def complete (s : Sys κ) (i : ℕ) (noError : Bool) : Sys κ :=
  if s.active i = true then
    { s with
      active := Function.update s.active i false
      noError := Function.update s.noError i noError
      scheduled := some i }
  else s

def taskStart (s : Sys κ) : Sys κ :=
  match s.scheduled, s.task with
  | some i, .idle => { s with scheduled := none, task := .pipe i (s.noError i) }
  | _, _ => s

/-- The section under `BulkOutLock`. -/
def taskPipe (s : Sys κ) (i : ℕ) (noError : Bool) : Sys κ :=
  { s with
    bulkOutReset := if noError = false ∧ s.halting = false then true else s.bulkOutReset
    bulkOutPending := false
    task := .ring i }

/-- The section under `MLMEBulkOutLock`. -/
def taskRing (s : Sys κ) (i : ℕ) : Sys κ :=
  { s with
    cell := Function.update s.cell i
      { s.cell i with
        irpPending := false, inUse := false, bWaitingBulkOut := false, bulkOutSize := 0
        pNdisPacket := none }
    txDmaIdx := (s.txDmaIdx + 1) % mgmtRingSize
    txSwFreeIdx := (s.txSwFreeIdx + 1) % 2 ^ 32
    task := .free (s.cell i).pNdisPacket }

/-- One step; a step of a context of execution that is not at that place changes nothing. -/
def step (s : Sys κ) : Op κ → Sys κ
  | .check k p =>
    if s.loc k = .idle ∧ s.txSwFreeIdx > 0 then { s with loc := Function.update s.loc k (.checked p) } else s
  | .enter k =>
    match s.loc k, s.mgmtRingLock with
    | .checked p, none =>
      { s with mgmtRingLock := some k, loc := Function.update s.loc k (.entered p s.txCpuIdx) }
    | _, _ => s
  | .abandon k =>
    match s.loc k with
    | .entered _ _ => { s with mgmtRingLock := none, loc := Function.update s.loc k .idle }
    | _ => s
  | .kick k =>
    match s.loc k with
    | .entered p swIdx => s.kick k p swIdx
    | _ => s
  | .look k => if s.loc k = .idle then { s with loc := Function.update s.loc k (.looked s.txDmaIdx) } else s
  | .test k =>
    match s.loc k with
    | .looked i => s.test k i
    | _ => s
  | .claim k =>
    match s.loc k with
    | .tested i => s.claim k i
    | _ => s
  | .submit k accepted =>
    match s.loc k with
    | .claimed i => s.submit k i accepted
    | _ => s
  | .giveBack k =>
    match s.loc k with
    | .refused i => s.giveBack k i
    | _ => s
  | .complete i noError => s.complete i noError
  | .taskStart => s.taskStart
  | .taskPipe =>
    match s.task with
    | .pipe i noError => s.taskPipe i noError
    | _ => s
  | .taskRing =>
    match s.task with
    | .ring i => s.taskRing i
    | _ => s
  | .taskFree =>
    match s.task with
    | .free p => { s with freed := s.freed ++ p.toList, task := .idle }
    | _ => s
  | .flags halting radioOff bulkOutReset =>
    { s with halting := halting, radioOff := radioOff, bulkOutReset := bulkOutReset }

end Sys

/-! ### What the ring is for -/

variable {κ : Type}

def Sys.toFree (s : Sys κ) : List Pkt :=
  match s.task with
  | .free p => p.toList
  | _ => []

/-- The packets in the ring, from `TxDmaIdx` on. -/
def Sys.ring (s : Sys κ) : List (Option Pkt) :=
  contents mgmtRingSize (fun i => (s.cell i).pNdisPacket) s.txDmaIdx (mgmtRingSize - s.txSwFreeIdx)

structure Sound [DecidableEq κ] (s : Sys κ) : Prop where
  cpu : s.txCpuIdx = (s.txDmaIdx + (mgmtRingSize - s.txSwFreeIdx)) % mgmtRingSize
  free_le : s.txSwFreeIdx ≤ mgmtRingSize
  -- the context of an occupied cell points to the cell's packet
  paired : ∀ i p, i < mgmtRingSize → (s.cell i).pNdisPacket = some p →
    (s.cell i).transferBuffer = some p ∧ (s.cell i).inUse = true
  -- a queued packet is in its cell until it is taken out, and packets are taken out in order
  kept : s.queued.map some = (s.freed ++ s.toFree).map some ++ s.ring
  -- packets are submitted in order, each once, and taken out after they were submitted
  inOrder : s.submitted <+: s.queued
  sent : s.freed ++ s.toFree <+: s.submitted
  one : s.submitted.length ≤ (s.freed ++ s.toFree).length + 1
  -- with the pipe free and the adapter running, the next packet can be submitted
  served : ∀ k, s.loc k = .idle → s.bulkOutPending = false → (∀ i, s.task ≠ .ring i) →
    s.needStopTx = false → s.txSwFreeIdx < mgmtRingSize →
      ∃ p, s.queued[s.submitted.length]? = some p ∧
        (run Sys.step s [.look k, .test k, .claim k, .submit k true]).submitted = s.submitted ++ [p]

/-- The condition: what was tested before a lock was taken holds under the lock. -/
def Current (s : Sys κ) : Op κ → Prop
  | .kick k => ∀ p i, s.loc k = .entered p i → 0 < s.txSwFreeIdx
  | .claim k => ∀ i, s.loc k = .tested i → s.bulkOutPending = false → s.needStopTx = false →
      i = s.txDmaIdx ∧ (s.cell i).bWaitingBulkOut = true
  | _ => True

/-! ### The invariant -/

inductive Holder (κ : Type)
  | free
  | thread (k : κ)
  | usb
  | task
  | release

def Holder.pending : Holder κ → Bool
  | .thread _ | .usb | .task => true
  | .free | .release => false

def Holder.sent : Holder κ → Bool
  | .usb | .task | .release => true
  | .free | .thread _ => false

/-- The cells from `TxDmaIdx` on hold the packets `ps`, the others nothing. -/
structure Cells (s : Sys κ) (holder : Holder κ) (ps : List Pkt) : Prop where
  len : ps.length + s.txSwFreeIdx = 32
  dma_lt : s.txDmaIdx < 32
  cpu : s.txCpuIdx = slot 32 s.txDmaIdx ps.length
  full : ∀ j p, ps[j]? = some p → (s.cell (slot 32 s.txDmaIdx j)).pNdisPacket = some p ∧
    (s.cell (slot 32 s.txDmaIdx j)).transferBuffer = some p ∧
    (s.cell (slot 32 s.txDmaIdx j)).inUse = true
  empty : ∀ j, ps.length ≤ j → j < 32 → (s.cell (slot 32 s.txDmaIdx j)).pNdisPacket = none ∧
    (s.cell (slot 32 s.txDmaIdx j)).bWaitingBulkOut = false
  waiting : ∀ j < ps.length, ((s.cell (slot 32 s.txDmaIdx j)).bWaitingBulkOut = true ↔ j ≠ 0 ∨ holder = .free)
  held : holder ≠ .free → ps ≠ []

structure Pipe (s : Sys κ) (holder : Holder κ) : Prop where
  entered : ∀ k p i, s.loc k = .entered p i → s.mgmtRingLock = some k ∧ i = s.txCpuIdx
  claimed : ∀ k i, s.loc k = .claimed i → holder = .thread k ∧ i = s.txDmaIdx
  refused : ∀ k i, s.loc k = .refused i → holder = .thread k ∧ i = s.txDmaIdx
  active : ∀ i, s.active i = true → holder = .usb ∧ i = s.txDmaIdx
  scheduled : ∀ i, s.scheduled = some i → holder = .task ∧ i = s.txDmaIdx
  taskPipe : ∀ i b, s.task = .pipe i b → holder = .task ∧ i = s.txDmaIdx ∧ s.scheduled = none
  taskRing : ∀ i, s.task = .ring i → holder = .release ∧ i = s.txDmaIdx
  released : holder = .release → ∃ i, s.task = .ring i
  pending : s.bulkOutPending = holder.pending

structure Account (s : Sys κ) (holder : Holder κ) (ps : List Pkt) : Prop where
  queued : s.queued = s.freed ++ s.toFree ++ ps
  submitted : s.submitted = s.freed ++ s.toFree ++ if holder.sent then ps.take 1 else []

structure Inv (s : Sys κ) (holder : Holder κ) (ps : List Pkt) : Prop where
  cells : Cells s holder ps
  pipe : Pipe s holder
  account : Account s holder ps

variable {s s' : Sys κ} {holder holder' : Holder κ} {ps : List Pkt}

theorem inv_init : Inv (Sys.init κ) .free [] := by
  refine ⟨⟨?_, ?_, ?_, ?_, ?_, ?_, ?_⟩, ⟨?_, ?_, ?_, ?_, ?_, ?_, ?_, ?_, ?_⟩, ⟨?_, ?_⟩⟩ <;>
    simp [Sys.init, Sys.toFree, slot, Cell.empty, Holder.pending, Holder.sent]

theorem slot_zero {n : ℕ} (h : n < 32) : slot 32 n 0 = n := Nat.mod_eq_of_lt h

theorem slot_succ (n j : ℕ) : slot 32 ((n + 1) % 32) j = slot 32 n (j + 1) := by
  unfold slot
  omega

theorem exists_slot {n i : ℕ} (hn : n < 32) (hi : i < 32) : ∃ j < 32, slot 32 n j = i := by
  refine ⟨(i + 32 - n) % 32, Nat.mod_lt _ (by decide), ?_⟩
  unfold slot
  omega

theorem slot_inj {n i j : ℕ} (hi : i < 32) (hj : j < 32) (h : slot 32 n i = slot 32 n j) : i = j := by
  rcases lt_trichotomy i j with hlt | heq | hgt
  · exact absurd h (slot_ne hlt hj)
  · exact heq
  · exact absurd h.symm (slot_ne hgt hi)

theorem Cells.ring (h : Cells s holder ps) : s.ring = ps.map some := by
  have hlen := h.len
  have hcount : mgmtRingSize - s.txSwFreeIdx = ps.length := by
    show 32 - s.txSwFreeIdx = ps.length
    omega
  unfold Sys.ring contents
  rw [hcount]
  refine List.ext_getElem (by simp) fun j hj hj' => ?_
  have hjp : j < ps.length := by simpa using hj'
  simp only [List.getElem_map, List.getElem_range]
  exact (h.full j ps[j] (List.getElem?_eq_getElem hjp)).1

variable [DecidableEq κ]

theorem Inv.served (h : Inv s .free ps) {p : Pkt} (hp : ps[0]? = some p) (hstop : s.needStopTx = false)
    {k : κ} (hk : s.loc k = .idle) :
    (run Sys.step s [.look k, .test k, .claim k, .submit k true]).submitted = s.submitted ++ [p] := by
  obtain ⟨hc, hpipe, -⟩ := h
  have hpos : 0 < ps.length := (List.getElem?_eq_some_iff.1 hp).1
  obtain ⟨-, hbuf, huse⟩ := hc.full 0 p hp
  have hwait := (hc.waiting 0 hpos).2 (Or.inr rfl)
  rw [slot_zero hc.dma_lt] at hbuf huse hwait
  have hlen := hc.len
  have hroom : ¬ s.txSwFreeIdx ≥ 32 := by omega
  have hpend : s.bulkOutPending = false := hpipe.pending
  have hact : s.active s.txDmaIdx = false := by
    rw [← Bool.not_eq_true]
    intro ha
    exact absurd (hpipe.active _ ha).1 nofun
  simp only [Sys.needStopTx, Bool.or_eq_false_iff] at hstop
  obtain ⟨⟨hh, hr⟩, hb⟩ := hstop
  simp [Sys.step, Sys.test, Sys.claim, Sys.submit, Sys.needStopTx, hk, hroom, huse, hwait, hpend, hh, hr, hb,
    hact, hbuf]

theorem Inv.sound (h : Inv s holder ps) : Sound s := by
  obtain ⟨hc, hpipe, ha⟩ := h
  have hlen := hc.len
  have hsub : s.submitted = s.freed ++ s.toFree ++ if holder.sent then ps.take 1 else [] := ha.submitted
  refine ⟨?_, ?_, ?_, ?_, ?_, ?_, ?_, ?_⟩
  · rw [hc.cpu]
    unfold slot
    have : mgmtRingSize - s.txSwFreeIdx = ps.length := by
      show 32 - s.txSwFreeIdx = ps.length
      omega
    rw [this]
  · show s.txSwFreeIdx ≤ 32
    omega
  · intro i p hi hp
    obtain ⟨j, hj, rfl⟩ := exists_slot hc.dma_lt hi
    by_cases hjp : j < ps.length
    · obtain ⟨h1, h2, h3⟩ := hc.full j ps[j] (List.getElem?_eq_getElem hjp)
      rw [h1] at hp
      rw [h2, hp]
      exact ⟨rfl, h3⟩
    · rw [(hc.empty j (by omega) hj).1] at hp
      exact absurd hp nofun
  · rw [hc.ring, ← List.map_append, ha.queued]
  · rw [hsub, ha.queued]
    split_ifs
    · exact (List.prefix_append_right_inj _).2 (List.take_prefix 1 ps)
    · rw [List.append_nil]
      exact List.prefix_append _ _
  · rw [hsub]
    exact List.prefix_append _ _
  · rw [hsub, List.length_append]
    split_ifs <;> simp
  · intro k hk hpend hring hstop hfree
    have hfr : holder = .free := by
      have hp := hpipe.pending
      rw [hpend] at hp
      cases holder with
      | free => rfl
      | release =>
        obtain ⟨i, hi⟩ := hpipe.released rfl
        exact absurd hi (hring i)
      | thread k => exact absurd hp nofun
      | usb => exact absurd hp nofun
      | task => exact absurd hp nofun
    subst hfr
    have hpos : 0 < ps.length := by
      have : s.txSwFreeIdx < 32 := hfree
      omega
    refine ⟨ps[0], ?_, Inv.served ⟨hc, hpipe, ha⟩ (List.getElem?_eq_getElem hpos) hstop hk⟩
    have hnone : s.submitted = s.freed ++ s.toFree := by
      rw [hsub]
      simp [Holder.sent]
    rw [hnone, ha.queued, List.getElem?_append_right le_rfl, Nat.sub_self]
    exact List.getElem?_eq_getElem hpos

/-! ### What a step leaves alone -/

omit [DecidableEq κ] in
theorem Cells.frame (h : Cells s holder ps) (hcell : s'.cell = s.cell) (hdma : s'.txDmaIdx = s.txDmaIdx)
    (hcpu : s'.txCpuIdx = s.txCpuIdx) (hfree : s'.txSwFreeIdx = s.txSwFreeIdx)
    (hh : holder' = .free ↔ holder = .free) : Cells s' holder' ps := by
  refine ⟨?_, ?_, ?_, ?_, ?_, ?_, ?_⟩
  · rw [hfree]
    exact h.len
  · rw [hdma]
    exact h.dma_lt
  · rw [hcpu, hdma]
    exact h.cpu
  · rw [hcell, hdma]
    exact h.full
  · rw [hcell, hdma]
    exact h.empty
  · rw [hcell, hdma, hh]
    exact h.waiting
  · intro hne
    exact h.held fun hf => hne (hh.2 hf)

omit [DecidableEq κ] in
theorem Cells.rehold (h : Cells s holder ps) (hps : ps ≠ []) {c : Cell}
    (hcell : s'.cell = Function.update s.cell s.txDmaIdx c) (hpkt : c.pNdisPacket = (s.cell s.txDmaIdx).pNdisPacket)
    (hbuf : c.transferBuffer = (s.cell s.txDmaIdx).transferBuffer) (huse : c.inUse = (s.cell s.txDmaIdx).inUse)
    (hwait : c.bWaitingBulkOut = true ↔ holder' = .free) (hdma : s'.txDmaIdx = s.txDmaIdx)
    (hcpu : s'.txCpuIdx = s.txCpuIdx) (hfree : s'.txSwFreeIdx = s.txSwFreeIdx) : Cells s' holder' ps := by
  have hzero : slot 32 s.txDmaIdx 0 = s.txDmaIdx := slot_zero h.dma_lt
  have hpos : 0 < ps.length := List.length_pos_of_ne_nil hps
  have hlen := h.len
  have hother : ∀ j, 0 < j → j < 32 → s'.cell (slot 32 s.txDmaIdx j) = s.cell (slot 32 s.txDmaIdx j) := by
    intro j hj hj'
    rw [hcell, Function.update_of_ne]
    intro heq
    exact slot_ne hj hj' (hzero.trans heq.symm)
  refine ⟨?_, ?_, ?_, ?_, ?_, ?_, fun _ => hps⟩
  · rw [hfree]
    exact hlen
  · rw [hdma]
    exact h.dma_lt
  · rw [hcpu, hdma]
    exact h.cpu
  · intro j p hj
    have hjlt : j < ps.length := (List.getElem?_eq_some_iff.1 hj).1
    rw [hdma]
    by_cases hj0 : j = 0
    · subst hj0
      have hf := h.full 0 p hj
      rw [hzero] at hf ⊢
      rw [hcell, Function.update_self, hpkt, hbuf, huse]
      exact hf
    · rw [hother j (by omega) (by omega)]
      exact h.full j p hj
  · intro j hj hj'
    rw [hdma, hother j (by omega) hj']
    exact h.empty j hj hj'
  · intro j hj
    rw [hdma]
    by_cases hj0 : j = 0
    · subst hj0
      rw [hzero, hcell, Function.update_self, hwait]
      simp
    · rw [hother j (by omega) (by omega), h.waiting j hj]
      simp [hj0]

omit [DecidableEq κ] in
theorem Account.frame (h : Account s holder ps) (hq : s'.queued = s.queued) (hsub : s'.submitted = s.submitted)
    (hfreed : s'.freed = s.freed) (hto : s'.toFree = s.toFree) (hh : holder'.sent = holder.sent) :
    Account s' holder' ps := by
  refine ⟨?_, ?_⟩
  · rw [hq, hfreed, hto]
    exact h.queued
  · rw [hsub, hfreed, hto, hh]
    exact h.submitted

theorem Inv.move (h : Inv s holder ps) {k : κ} {l : Local} (he : ∀ p i, l ≠ .entered p i)
    (hc : ∀ i, l ≠ .claimed i) (hr : ∀ i, l ≠ .refused i) :
    Inv { s with loc := Function.update s.loc k l } holder ps := by
  obtain ⟨hcell, hpipe, ha⟩ := h
  refine ⟨hcell.frame rfl rfl rfl rfl Iff.rfl, { hpipe with entered := ?_, claimed := ?_, refused := ?_ },
    ha.frame rfl rfl rfl rfl rfl⟩
  · intro k' p i hl
    exact hpipe.entered k' p i (loc_update hl (he p i)).2
  · intro k' i hl
    exact hpipe.claimed k' i (loc_update hl (hc i)).2
  · intro k' i hl
    exact hpipe.refused k' i (loc_update hl (hr i)).2

/-! ### The writers' steps -/

theorem inv_enter (h : Inv s holder ps) {k : κ} {p : Pkt} (hlock : s.mgmtRingLock = none) :
    Inv { s with mgmtRingLock := some k, loc := Function.update s.loc k (.entered p s.txCpuIdx) }
      holder ps := by
  obtain ⟨hcell, hpipe, ha⟩ := h
  refine ⟨hcell.frame rfl rfl rfl rfl Iff.rfl, { hpipe with entered := ?_, claimed := ?_, refused := ?_ },
    ha.frame rfl rfl rfl rfl rfl⟩
  · intro k' p' i hl
    rcases loc_update_cases hl with ⟨rfl, hsame⟩ | ⟨-, hold⟩
    · exact ⟨rfl, (Local.entered.inj hsame).2.symm⟩
    · have := (hpipe.entered k' p' i hold).1
      rw [hlock] at this
      exact absurd this nofun
  · intro k' i hl
    exact hpipe.claimed k' i (loc_update hl nofun).2
  · intro k' i hl
    exact hpipe.refused k' i (loc_update hl nofun).2

theorem inv_abandon (h : Inv s holder ps) {k : κ} {p : Pkt} {i : ℕ} (hk : s.loc k = .entered p i) :
    Inv { s with mgmtRingLock := none, loc := Function.update s.loc k .idle } holder ps := by
  obtain ⟨hcell, hpipe, ha⟩ := h
  have hmine := (hpipe.entered k p i hk).1
  refine ⟨hcell.frame rfl rfl rfl rfl Iff.rfl, { hpipe with entered := ?_, claimed := ?_, refused := ?_ },
    ha.frame rfl rfl rfl rfl rfl⟩
  · intro k' p' j hl
    obtain ⟨hne, hold⟩ := loc_update hl nofun
    have hother := (hpipe.entered k' p' j hold).1
    rw [hmine] at hother
    exact absurd (Option.some.inj hother).symm hne
  · intro k' j hl
    exact hpipe.claimed k' j (loc_update hl nofun).2
  · intro k' j hl
    exact hpipe.refused k' j (loc_update hl nofun).2

omit [DecidableEq κ] in
theorem Cells.push (h : Cells s holder ps) (hfree : 0 < s.txSwFreeIdx) {c : Cell} {p : Pkt}
    (hcell : s'.cell = Function.update s.cell s.txCpuIdx c) (hpkt : c.pNdisPacket = some p)
    (hbuf : c.transferBuffer = some p) (huse : c.inUse = true) (hwait : c.bWaitingBulkOut = true)
    (hdma : s'.txDmaIdx = s.txDmaIdx) (hcpu : s'.txCpuIdx = (s.txCpuIdx + 1) % 32)
    (hfree' : s'.txSwFreeIdx + 1 = s.txSwFreeIdx) : Cells s' holder (ps ++ [p]) := by
  have hlen := h.len
  have hat : s'.cell (slot 32 s.txDmaIdx ps.length) = c := by
    rw [hcell, ← h.cpu, Function.update_self]
  have hother : ∀ j, j < 32 → j ≠ ps.length →
      s'.cell (slot 32 s.txDmaIdx j) = s.cell (slot 32 s.txDmaIdx j) := by
    intro j hj hne
    rw [hcell, h.cpu, Function.update_of_ne]
    intro heq
    exact hne (slot_inj hj (by omega) heq)
  refine ⟨?_, ?_, ?_, ?_, ?_, ?_, fun _ => by simp⟩
  · rw [List.length_append, List.length_singleton]
    omega
  · rw [hdma]
    exact h.dma_lt
  · rw [hcpu, hdma, h.cpu, List.length_append, List.length_singleton]
    unfold slot
    omega
  · intro j q hj
    have hjlt := (List.getElem?_eq_some_iff.1 hj).1
    rw [List.length_append, List.length_singleton] at hjlt
    rw [hdma]
    by_cases hjn : j = ps.length
    · subst hjn
      rw [List.getElem?_concat_length] at hj
      obtain rfl := Option.some.inj hj
      rw [hat]
      exact ⟨hpkt, hbuf, huse⟩
    · rw [hother j (by omega) hjn]
      rw [List.getElem?_append_left (by omega)] at hj
      exact h.full j q hj
  · intro j hj hj'
    rw [List.length_append, List.length_singleton] at hj
    rw [hdma, hother j hj' (by omega)]
    exact h.empty j (by omega) hj'
  · intro j hj
    rw [List.length_append, List.length_singleton] at hj
    rw [hdma]
    by_cases hjn : j = ps.length
    · subst hjn
      rw [hat, hwait]
      refine iff_of_true rfl ?_
      by_cases hps : ps = []
      · refine Or.inr ?_
        by_contra hne
        exact h.held hne hps
      · exact Or.inl fun h0 => hps (List.length_eq_zero_iff.1 h0)
    · rw [hother j (by omega) hjn]
      exact h.waiting j (by omega)

theorem inv_kick (h : Inv s holder ps) {k : κ} {p : Pkt} {i : ℕ} (hk : s.loc k = .entered p i)
    (hfree : 0 < s.txSwFreeIdx) : Inv (s.kick k p i) holder (ps ++ [p]) := by
  obtain ⟨hcell, hpipe, ha⟩ := h
  obtain ⟨hmine, rfl⟩ := hpipe.entered k p i hk
  have hlen := hcell.len
  have hkept : holder.sent = true → ps.take 1 = (ps ++ [p]).take 1 := by
    intro hsent
    have hne : ps ≠ [] := hcell.held (by rintro rfl; exact absurd hsent nofun)
    rw [List.take_append_of_le_length (List.length_pos_of_ne_nil hne)]
  refine ⟨?_, { hpipe with entered := ?_, claimed := ?_, refused := ?_ }, ⟨?_, ?_⟩⟩
  · refine hcell.push hfree (c :=
      { pNdisPacket := some p, transferBuffer := some p, bulkOutSize := (p.srcBufLen + 3) / 4 * 4 + 4
        inUse := true, bWaitingBulkOut := true, irpPending := (s.cell s.txCpuIdx).irpPending })
      ?_ rfl rfl rfl rfl rfl rfl ?_
    · simp only [Sys.kick, Function.update_self, Function.update_idem]
    · simp only [Sys.kick]
      omega
  · intro k' p' j hl
    obtain ⟨hne, hold⟩ := loc_update hl nofun
    have hother := (hpipe.entered k' p' j hold).1
    rw [hmine] at hother
    exact absurd (Option.some.inj hother).symm hne
  · intro k' j hl
    exact hpipe.claimed k' j (loc_update hl nofun).2
  · intro k' j hl
    exact hpipe.refused k' j (loc_update hl nofun).2
  · show s.queued ++ [p] = s.freed ++ s.toFree ++ (ps ++ [p])
    rw [ha.queued, List.append_assoc]
  · show s.submitted = s.freed ++ s.toFree ++ if holder.sent then (ps ++ [p]).take 1 else []
    rw [ha.submitted]
    split_ifs with hsent
    · rw [hkept hsent]
    · rfl

/-! ### The steps of a transfer -/

theorem inv_claim (h : Inv s holder ps) {k : κ} {i : ℕ}
    (hcur : s.bulkOutPending = false → s.needStopTx = false → i = s.txDmaIdx ∧ (s.cell i).bWaitingBulkOut = true) :
    ∃ holder', Inv (s.claim k i) holder' ps := by
  unfold Sys.claim
  split
  · exact ⟨holder, h.move nofun nofun nofun⟩
  · next hgo =>
    simp only [not_or, Bool.not_eq_true] at hgo
    obtain ⟨hpend, hstop⟩ := hgo
    obtain ⟨rfl, hwait⟩ := hcur hpend hstop
    obtain ⟨hcell, hpipe, ha⟩ := h
    have hzero := slot_zero hcell.dma_lt
    have hps : ps ≠ [] := by
      rintro rfl
      have := (hcell.empty 0 le_rfl (by decide)).2
      rw [hzero, hwait] at this
      exact absurd this (by decide)
    have hfree : holder = .free := by
      rw [← hzero] at hwait
      rcases (hcell.waiting 0 (List.length_pos_of_ne_nil hps)).1 hwait with h0 | hf
      · exact absurd rfl h0
      · exact hf
    subst hfree
    refine ⟨.thread k, ?_, ⟨?_, ?_, ?_, ?_, ?_, ?_, ?_, nofun, rfl⟩, ha.frame rfl rfl rfl rfl rfl⟩
    · exact hcell.rehold hps rfl rfl rfl rfl (iff_of_false nofun nofun) rfl rfl rfl
    · intro k' p j hl
      exact hpipe.entered k' p j (loc_update hl nofun).2
    · intro k' j hl
      rcases loc_update_cases hl with ⟨rfl, hsame⟩ | ⟨-, hold⟩
      · exact ⟨rfl, (Local.claimed.inj hsame).symm⟩
      · exact absurd (hpipe.claimed k' j hold).1 nofun
    · intro k' j hl
      exact absurd (hpipe.refused k' j (loc_update hl nofun).2).1 nofun
    · intro j hj
      exact absurd (hpipe.active j hj).1 nofun
    · intro j hj
      exact absurd (hpipe.scheduled j hj).1 nofun
    · intro j b hj
      exact absurd (hpipe.taskPipe j b hj).1 nofun
    · intro j hj
      exact absurd (hpipe.taskRing j hj).1 nofun

theorem inv_submit (h : Inv s holder ps) {k : κ} {i : ℕ} (hk : s.loc k = .claimed i) (accepted : Bool) :
    ∃ holder', Inv (s.submit k i accepted) holder' ps := by
  obtain ⟨hcell, hpipe, ha⟩ := h
  obtain ⟨rfl, rfl⟩ := hpipe.claimed k i hk
  have hother : ∀ k' : κ, k' ≠ k → ∀ j, s.loc k' ≠ .claimed j ∧ s.loc k' ≠ .refused j := by
    intro k' hne j
    constructor
    · intro hl
      exact hne (Holder.thread.inj (hpipe.claimed k' j hl).1).symm
    · intro hl
      exact hne (Holder.thread.inj (hpipe.refused k' j hl).1).symm
  unfold Sys.submit
  split
  · refine ⟨.usb, hcell.frame rfl rfl rfl rfl (iff_of_false nofun nofun),
      ⟨?_, ?_, ?_, ?_, ?_, ?_, ?_, nofun, hpipe.pending⟩, ⟨ha.queued, ?_⟩⟩
    · intro k' p j hl
      exact hpipe.entered k' p j (loc_update hl nofun).2
    · intro k' j hl
      obtain ⟨hne, hold⟩ := loc_update hl nofun
      exact absurd hold (hother k' hne j).1
    · intro k' j hl
      obtain ⟨hne, hold⟩ := loc_update hl nofun
      exact absurd hold (hother k' hne j).2
    · intro j hj
      rcases loc_update_cases hj with ⟨hji, -⟩ | ⟨-, hj⟩
      · exact ⟨rfl, hji⟩
      · exact absurd (hpipe.active j hj).1 nofun
    · intro j hj
      exact absurd (hpipe.scheduled j hj).1 nofun
    · intro j b hj
      exact absurd (hpipe.taskPipe j b hj).1 nofun
    · intro j hj
      exact absurd (hpipe.taskRing j hj).1 nofun
    · have hps := hcell.held nofun
      obtain ⟨p, rest, rfl⟩ := List.exists_cons_of_ne_nil hps
      have hbuf := (hcell.full 0 p rfl).2.1
      rw [slot_zero hcell.dma_lt] at hbuf
      have hsub := ha.submitted
      show s.submitted ++ (s.cell s.txDmaIdx).transferBuffer.toList = s.freed ++ s.toFree ++ [p]
      rw [hbuf, hsub]
      simp [Holder.sent]
  · refine ⟨.thread k, hcell.frame rfl rfl rfl rfl Iff.rfl,
      { hpipe with entered := ?_, claimed := ?_, refused := ?_ }, ha.frame rfl rfl rfl rfl rfl⟩
    · intro k' p j hl
      exact hpipe.entered k' p j (loc_update hl nofun).2
    · intro k' j hl
      exact hpipe.claimed k' j (loc_update hl nofun).2
    · intro k' j hl
      rcases loc_update_cases hl with ⟨rfl, hsame⟩ | ⟨-, hold⟩
      · exact ⟨rfl, (Local.refused.inj hsame).symm⟩
      · exact hpipe.refused k' j hold

theorem inv_giveBack (h : Inv s holder ps) {k : κ} {i : ℕ} (hk : s.loc k = .refused i) :
    Inv (s.giveBack k i) .free ps := by
  obtain ⟨hcell, hpipe, ha⟩ := h
  obtain ⟨rfl, rfl⟩ := hpipe.refused k i hk
  refine ⟨?_, ⟨?_, ?_, ?_, ?_, ?_, ?_, ?_, nofun, rfl⟩, ha.frame rfl rfl rfl rfl rfl⟩
  · exact hcell.rehold (hcell.held nofun) rfl rfl rfl rfl (iff_of_true rfl rfl) rfl rfl rfl
  · intro k' p j hl
    exact hpipe.entered k' p j (loc_update hl nofun).2
  · intro k' j hl
    obtain ⟨hne, hold⟩ := loc_update hl nofun
    exact absurd (Holder.thread.inj (hpipe.claimed k' j hold).1).symm hne
  · intro k' j hl
    obtain ⟨hne, hold⟩ := loc_update hl nofun
    exact absurd (Holder.thread.inj (hpipe.refused k' j hold).1).symm hne
  · intro j hj
    exact absurd (hpipe.active j hj).1 nofun
  · intro j hj
    exact absurd (hpipe.scheduled j hj).1 nofun
  · intro j b hj
    exact absurd (hpipe.taskPipe j b hj).1 nofun
  · intro j hj
    exact absurd (hpipe.taskRing j hj).1 nofun

omit [DecidableEq κ] in
theorem inv_complete (h : Inv s holder ps) (i : ℕ) (noError : Bool) :
    ∃ holder', Inv (s.complete i noError) holder' ps := by
  unfold Sys.complete
  split
  · next hact =>
    obtain ⟨hcell, hpipe, ha⟩ := h
    obtain ⟨rfl, rfl⟩ := hpipe.active i hact
    refine ⟨.task, hcell.frame rfl rfl rfl rfl (iff_of_false nofun nofun),
      ⟨hpipe.entered, ?_, ?_, ?_, ?_, ?_, ?_, nofun, hpipe.pending⟩, ha.frame rfl rfl rfl rfl rfl⟩
    · intro k j hl
      exact absurd (hpipe.claimed k j hl).1 nofun
    · intro k j hl
      exact absurd (hpipe.refused k j hl).1 nofun
    · intro j hj
      obtain ⟨hne, hold⟩ := loc_update hj nofun
      exact absurd (hpipe.active j hold).2 hne
    · intro j hj
      exact ⟨rfl, (Option.some.inj hj).symm⟩
    · intro j b hj
      exact absurd (hpipe.taskPipe j b hj).1 nofun
    · intro j hj
      exact absurd (hpipe.taskRing j hj).1 nofun
  · exact ⟨holder, h⟩

/-! ### The tasklet's steps -/

omit [DecidableEq κ] in
theorem inv_taskStart (h : Inv s holder ps) : Inv s.taskStart holder ps := by
  unfold Sys.taskStart
  split
  · next i hsched htask =>
    obtain ⟨hcell, hpipe, ha⟩ := h
    obtain ⟨rfl, rfl⟩ := hpipe.scheduled i hsched
    have hto : s.toFree = [] := by
      unfold Sys.toFree
      rw [htask]
    refine ⟨hcell.frame rfl rfl rfl rfl Iff.rfl,
      { hpipe with scheduled := nofun, taskPipe := ?_, taskRing := nofun, released := nofun },
      ha.frame rfl rfl rfl hto.symm rfl⟩
    intro j b hj
    exact ⟨rfl, (Task.pipe.inj hj).1.symm, rfl⟩
  · exact h

omit [DecidableEq κ] in
theorem inv_taskPipe (h : Inv s holder ps) {i : ℕ} {noError : Bool} (ht : s.task = .pipe i noError) :
    Inv (s.taskPipe i noError) .release ps := by
  obtain ⟨hcell, hpipe, ha⟩ := h
  obtain ⟨rfl, rfl, hsched⟩ := hpipe.taskPipe i noError ht
  have hto : s.toFree = [] := by
    unfold Sys.toFree
    rw [ht]
  refine ⟨hcell.frame rfl rfl rfl rfl (iff_of_false nofun nofun),
    ⟨hpipe.entered, ?_, ?_, ?_, ?_, nofun, ?_, fun _ => ⟨_, rfl⟩, rfl⟩, ha.frame rfl rfl rfl hto.symm rfl⟩
  · intro k j hl
    exact absurd (hpipe.claimed k j hl).1 nofun
  · intro k j hl
    exact absurd (hpipe.refused k j hl).1 nofun
  · intro j hj
    exact absurd (hpipe.active j hj).1 nofun
  · intro j hj
    have : s.scheduled = some j := hj
    rw [hsched] at this
    exact absurd this nofun
  · intro j hj
    exact ⟨rfl, (Task.ring.inj hj).symm⟩

omit [DecidableEq κ] in
theorem Cells.pop {p : Pkt} (h : Cells s .release (p :: ps)) {c : Cell}
    (hcell : s'.cell = Function.update s.cell s.txDmaIdx c) (hpkt : c.pNdisPacket = none)
    (hwait : c.bWaitingBulkOut = false) (hdma : s'.txDmaIdx = (s.txDmaIdx + 1) % 32)
    (hcpu : s'.txCpuIdx = s.txCpuIdx) (hfree : s'.txSwFreeIdx = s.txSwFreeIdx + 1) : Cells s' .free ps := by
  have hlen := h.len
  rw [List.length_cons] at hlen
  have hlt := h.dma_lt
  have hzero : slot 32 s.txDmaIdx 0 = s.txDmaIdx := slot_zero hlt
  have hother : ∀ j, j + 1 < 32 → s'.cell (slot 32 s.txDmaIdx (j + 1)) =
      s.cell (slot 32 s.txDmaIdx (j + 1)) := by
    intro j hj
    rw [hcell, Function.update_of_ne]
    intro heq
    exact slot_ne (Nat.succ_pos j) hj (hzero.trans heq.symm)
  refine ⟨by omega, ?_, ?_, ?_, ?_, ?_, fun hne => absurd rfl hne⟩
  · rw [hdma]
    exact Nat.mod_lt _ (by decide)
  · rw [hcpu, h.cpu, hdma, slot_succ, List.length_cons]
  · intro j q hj
    have hjlt := (List.getElem?_eq_some_iff.1 hj).1
    rw [hdma, slot_succ, hother j (by omega)]
    exact h.full (j + 1) q hj
  · intro j hj hj'
    rw [hdma, slot_succ]
    by_cases hlast : j + 1 < 32
    · rw [hother j hlast]
      exact h.empty (j + 1) (by rw [List.length_cons]; omega) hlast
    · -- the cell that was freed is now the farthest
      have hwrap : slot 32 s.txDmaIdx (j + 1) = s.txDmaIdx := by
        unfold slot
        omega
      rw [hwrap, hcell, Function.update_self]
      exact ⟨hpkt, hwait⟩
  · intro j hj
    rw [hdma, slot_succ, hother j (by omega), h.waiting (j + 1) (by rw [List.length_cons]; omega)]
    simp

omit [DecidableEq κ] in
theorem inv_taskRing (h : Inv s holder ps) {i : ℕ} (ht : s.task = .ring i) :
    ∃ ps', Inv (s.taskRing i) .free ps' := by
  obtain ⟨hcell, hpipe, ha⟩ := h
  obtain ⟨rfl, rfl⟩ := hpipe.taskRing i ht
  obtain ⟨p, rest, rfl⟩ := List.exists_cons_of_ne_nil (hcell.held nofun)
  have hpkt := (hcell.full 0 p rfl).1
  rw [slot_zero hcell.dma_lt] at hpkt
  have hto : s.toFree = [] := by
    unfold Sys.toFree
    rw [ht]
  have hto' : (s.taskRing s.txDmaIdx).toFree = [p] := by
    simp only [Sys.toFree, Sys.taskRing, hpkt, Option.toList_some]
  have hlen := hcell.len
  refine ⟨rest, ?_, ⟨?_, ?_, ?_, ?_, ?_, nofun, nofun, nofun, hpipe.pending⟩, ⟨?_, ?_⟩⟩
  · refine hcell.pop rfl rfl rfl rfl rfl ?_
    simp only [Sys.taskRing]
    rw [List.length_cons] at hlen
    omega
  · exact hpipe.entered
  · intro k j hl
    exact absurd (hpipe.claimed k j hl).1 nofun
  · intro k j hl
    exact absurd (hpipe.refused k j hl).1 nofun
  · intro j hj
    exact absurd (hpipe.active j hj).1 nofun
  · intro j hj
    exact absurd (hpipe.scheduled j hj).1 nofun
  · rw [hto']
    have hq := ha.queued
    rw [hto] at hq
    show s.queued = s.freed ++ [p] ++ rest
    rw [hq]
    simp
  · rw [hto']
    have hsub := ha.submitted
    rw [hto] at hsub
    show s.submitted = _
    rw [hsub]
    simp [Holder.sent, Sys.taskRing]

omit [DecidableEq κ] in
theorem inv_taskFree (h : Inv s holder ps) {p : Option Pkt} (ht : s.task = .free p) :
    Inv { s with freed := s.freed ++ p.toList, task := .idle } holder ps := by
  obtain ⟨hcell, hpipe, ha⟩ := h
  have hto : s.toFree = p.toList := by
    unfold Sys.toFree
    rw [ht]
  have hne : holder ≠ .release := by
    intro hr
    obtain ⟨i, hi⟩ := hpipe.released hr
    rw [ht] at hi
    exact absurd hi nofun
  refine ⟨hcell.frame rfl rfl rfl rfl Iff.rfl,
    { hpipe with taskPipe := nofun, taskRing := nofun, released := fun hr => absurd hr hne }, ⟨?_, ?_⟩⟩
  · have hq := ha.queued
    rw [hto] at hq
    show s.queued = s.freed ++ p.toList ++ [] ++ ps
    rw [hq, List.append_nil]
  · have hsub := ha.submitted
    rw [hto] at hsub
    show s.submitted = s.freed ++ p.toList ++ [] ++ _
    rw [hsub, List.append_nil]

/-! ### Runs -/

theorem inv_step (op : Op κ) (h : ∃ holder ps, Inv s holder ps) (hok : Current s op) :
    ∃ holder ps, Inv (s.step op) holder ps := by
  obtain ⟨holder, ps, h⟩ := h
  cases op with
  | check k p =>
    simp only [Sys.step]
    split
    · exact ⟨holder, ps, h.move nofun nofun nofun⟩
    · exact ⟨holder, ps, h⟩
  | enter k =>
    simp only [Sys.step]
    split
    · next p hk hlock => exact ⟨holder, ps, inv_enter h hlock⟩
    · exact ⟨holder, ps, h⟩
  | abandon k =>
    simp only [Sys.step]
    split
    · next p i hk => exact ⟨holder, ps, inv_abandon h hk⟩
    · exact ⟨holder, ps, h⟩
  | kick k =>
    simp only [Sys.step]
    split
    · next p i hk => exact ⟨holder, ps ++ [p], inv_kick h hk (hok p i hk)⟩
    · exact ⟨holder, ps, h⟩
  | look k =>
    simp only [Sys.step]
    split
    · exact ⟨holder, ps, h.move nofun nofun nofun⟩
    · exact ⟨holder, ps, h⟩
  | test k =>
    simp only [Sys.step]
    split
    · unfold Sys.test
      split
      · exact ⟨holder, ps, h.move nofun nofun nofun⟩
      · exact ⟨holder, ps, h.move nofun nofun nofun⟩
    · exact ⟨holder, ps, h⟩
  | claim k =>
    simp only [Sys.step]
    split
    · next i hk =>
      obtain ⟨holder', h'⟩ := inv_claim h (hok i hk)
      exact ⟨holder', ps, h'⟩
    · exact ⟨holder, ps, h⟩
  | submit k accepted =>
    simp only [Sys.step]
    split
    · next i hk =>
      obtain ⟨holder', h'⟩ := inv_submit h hk accepted
      exact ⟨holder', ps, h'⟩
    · exact ⟨holder, ps, h⟩
  | giveBack k =>
    simp only [Sys.step]
    split
    · next i hk => exact ⟨_, ps, inv_giveBack h hk⟩
    · exact ⟨holder, ps, h⟩
  | complete i noError =>
    obtain ⟨holder', h'⟩ := inv_complete h i noError
    exact ⟨holder', ps, h'⟩
  | taskStart => exact ⟨holder, ps, inv_taskStart h⟩
  | taskPipe =>
    simp only [Sys.step]
    split
    · next i noError ht => exact ⟨_, ps, inv_taskPipe h ht⟩
    · exact ⟨holder, ps, h⟩
  | taskRing =>
    simp only [Sys.step]
    split
    · next i ht =>
      obtain ⟨ps', h'⟩ := inv_taskRing h ht
      exact ⟨_, ps', h'⟩
    · exact ⟨holder, ps, h⟩
  | taskFree =>
    simp only [Sys.step]
    split
    · next p ht => exact ⟨holder, ps, inv_taskFree h ht⟩
    · exact ⟨holder, ps, h⟩
  | flags halting radioOff bulkOutReset =>
    obtain ⟨hcell, hpipe, ha⟩ := h
    exact ⟨holder, ps, hcell.frame rfl rfl rfl rfl Iff.rfl, { hpipe with }, ha.frame rfl rfl rfl rfl rfl⟩

/-- **The ring along runs in which tests stay current.** In every state of every run in which a writer finds a
free cell under the lock, and a context that is about to submit finds its cell still the first and waiting, the
ring is intact and packets are submitted and freed once, in order. -/
theorem sound_of_current (ops : List (Op κ)) (hok : Along Sys.step Current (Sys.init κ) ops) :
    Sound (run Sys.step (Sys.init κ) ops) := by
  have h := run_invariant (I := fun s => ∃ holder ps, Inv s holder ps)
    (fun s op hs hop => inv_step op hs hop) ops (Sys.init κ) ⟨_, _, inv_init⟩ hok
  obtain ⟨holder, ps, h⟩ := h
  exact h.sound

def pkt (n : ℕ) : Pkt := { addr := n, srcBufLen := 100 }

/-- One packet is queued and submitted; a second is queued before the first is freed. -/
def sampleOps : List (Op ℕ) :=
  [.check 0 (pkt 0), .check 1 (pkt 1), .enter 0, .kick 0, .look 0, .test 0, .claim 0, .submit 0 true,
    .enter 1, .kick 1, .complete 0 true, .taskStart, .taskPipe, .taskRing, .taskFree]

theorem sound_sample :
    Along Sys.step Current (Sys.init ℕ) sampleOps ∧ Sound (run Sys.step (Sys.init ℕ) sampleOps) := by
  have h : Along Sys.step Current (Sys.init ℕ) sampleOps := by
    refine ⟨trivial, trivial, trivial, ?_, trivial, trivial, ?_, trivial, trivial, ?_, trivial, trivial,
      trivial, trivial, trivial, trivial⟩
    · intro p i _
      decide
    · intro i hi _ _
      have htested : i = 0 := by
        have : Local.tested 0 = .tested i := by
          rw [← hi]
          decide
        exact (Local.tested.inj this).symm
      subst htested
      decide
    · intro p i _
      decide
  exact ⟨h, sound_of_current sampleOps h⟩

def queue (k n : ℕ) : List (Op ℕ) := [.check k (pkt n), .enter k, .kick k]

def fullRing : List (Op ℕ) :=
  (List.range 31).flatMap (queue 0) ++ [.check 0 (pkt 31), .check 1 (pkt 32), .enter 0, .kick 0, .enter 1, .kick 1]

/-- Two contexts find the same cell waiting; the second comes to the lock after the first one's transfer is
over. -/
def staleTest : List (Op ℕ) :=
  queue 0 0 ++ [.look 0, .test 0, .look 1, .test 1, .claim 0, .submit 0 true, .complete 0 true, .taskStart,
    .taskPipe, .taskRing, .taskFree, .claim 1, .submit 1 true]

/-- **A queued packet is overwritten, and a freed one is submitted again.** -/
theorem not_sound_staleTests :
    ((run Sys.step (Sys.init ℕ) fullRing).txSwFreeIdx = 2 ^ 32 - 1 ∧
      ((run Sys.step (Sys.init ℕ) fullRing).cell 0).pNdisPacket = some (pkt 32) ∧
      ¬ Sound (run Sys.step (Sys.init ℕ) fullRing)) ∧
    ((run Sys.step (Sys.init ℕ) staleTest).freed = [pkt 0] ∧
      (run Sys.step (Sys.init ℕ) staleTest).submitted = [pkt 0, pkt 0] ∧
      ¬ Sound (run Sys.step (Sys.init ℕ) staleTest)) := by
  have hfree : (run Sys.step (Sys.init ℕ) fullRing).txSwFreeIdx = 2 ^ 32 - 1 := by decide +kernel
  have hsub : (run Sys.step (Sys.init ℕ) staleTest).submitted = [pkt 0, pkt 0] := by decide
  have hqueued : (run Sys.step (Sys.init ℕ) staleTest).queued = [pkt 0] := by decide
  refine ⟨⟨hfree, by decide +kernel, ?_⟩, by decide +kernel, hsub, ?_⟩
  · intro h
    have := h.free_le
    rw [hfree] at this
    exact absurd this (by decide)
  · intro h
    have := h.inOrder
    rw [hsub, hqueued] at this
    exact absurd this.length_le (by decide)

end Mt7610u.Usb.Mgmt
