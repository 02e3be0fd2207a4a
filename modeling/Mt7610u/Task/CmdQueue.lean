import Mathlib.Data.List.Perm.Subperm
import Mt7610u.Lib.Bytes
import Mt7610u.Task.TimerQueue

/-! # The command queue (`common/cmm_cmd.c`, `common/rtusb_io.c`)

Work that may sleep is handed to a thread through a queue of commands. Any number of contexts call
`RTEnqueueInternalCmd` and `RTUSBEnqueueCmdFromNdis`; they allocate an element and a buffer, and insert the element
under the lock. `CMDHandler` tests the size of the queue without the lock, takes an element out under it, and
executes and frees it without. -/

namespace Mt7610u.Task.Cmd

open Lib Lib.Chain Lib.Runs

/-! ### Commands -/

inductive NdisStatus
  | success
  | failure
  | resources
deriving DecidableEq

/-- `CmdQElmt` without `next`; the buffer with its contents. -/
structure CmdQElmt where
  command : BitVec 32
  buffer : Option (List Byte)
  bufferlength : ℕ
  cmdFromNdis : Bool
  setOperation : Bool

/-- An element after `NdisZeroMemory`. -/
def zeroElmt : CmdQElmt := ⟨0, none, 0, false, false⟩

structure BuildCfg where
  ledControl : Bool
  cfg80211 : Bool
  streamMode : Bool

/-- Which entries of `CMDHdlrTable` are not null. -/
def cmdHdlrTable (cfg : BuildCfg) : List Bool :=
  List.replicate 10 true ++ List.replicate 6 false ++ [cfg.ledControl, false] ++ List.replicate 7 true ++
    [false, true] ++ List.replicate 4 cfg.cfg80211 ++ [false, false, cfg.streamMode, true]

def cmdThreadFirstCmdId : BitVec 32 := 0x0D730101

/-- `ValidCMD`: the index is a signed number of 16 bits. -/
def validCMD (cfg : BuildCfg) (command : BitVec 32) : Bool :=
  let cmdIndex : BitVec 16 := (command - cmdThreadFirstCmdId).setWidth 16
  if 0 ≤ cmdIndex.toInt ∧ cmdIndex.toInt < (cmdHdlrTable cfg).length then
    (cmdHdlrTable cfg).getD cmdIndex.toNat false
  else false

/-- The index with which `CMDHandler` goes to the table has 32 bits. -/
def hdlrIndex (command : BitVec 32) : ℕ := (command - cmdThreadFirstCmdId).toNat

/-! ### The system -/

/-- A call of `RTUSBEnqueueCmdFromNdis`, or of `RTEnqueueInternalCmd`, which has no `SetInformation`. -/
structure EnqueueCall where
  fromNdis : Bool
  oid : BitVec 32
  setInformation : Bool
  information : Option (List Byte)

def EnqueueCall.wantsBuffer (c : EnqueueCall) : Bool :=
  if c.fromNdis then c.information.isSome else decide (0 < (c.information.getD []).length)

def EnqueueCall.elmt (c : EnqueueCall) : CmdQElmt where
  command := c.oid
  buffer := if c.wantsBuffer then some (c.information.getD []) else none
  bufferlength := if c.wantsBuffer then (c.information.getD []).length else 0
  cmdFromNdis := c.fromNdis
  setOperation := c.fromNdis && c.setInformation

inductive CallLoc
  | idle
  | element (c : EnqueueCall) (n : ℕ)
  | filled (n : ℕ)
  | unlocked (n : ℕ) (status : NdisStatus)

/-- Where the thread is in `CMDHandler`: outside, at the test of the loop, before the lock, behind it with an
element, or behind the execution. -/
inductive HandlerLoc
  | idle
  | test
  | lock
  | got (n : ℕ)
  | ran (n : ℕ)
deriving DecidableEq

inductive Cause
  | handled (nicNotExist haltInProgress : Bool)
  | cleared

structure Disposal where
  elmt : ℕ
  command : BitVec 32
  cause : Cause

structure Return where
  elmt : Option ℕ
  status : NdisStatus

structure Sys where
  head : Option ℕ
  tail : Option ℕ
  size : BitVec 32
  cmdQState : ℕ
  next : ℕ → Option ℕ
  elmt : ℕ → CmdQElmt
  allocated : ℕ
  loc : ℕ → CallLoc
  handler : HandlerLoc
  freedElmts : List ℕ
  freedBuffers : List ℕ
  accepted : List (ℕ × BitVec 32)
  disposed : List Disposal
  executed : List ℕ
  returned : List Return

def rtInitializeCmdQ : Sys where
  head := none
  tail := none
  size := 0
  cmdQState := taskStatInited
  next := fun _ => none
  elmt := fun _ => zeroElmt
  allocated := 0
  loc := fun _ => .idle
  handler := .idle
  freedElmts := []
  freedBuffers := []
  accepted := []
  disposed := []
  executed := []
  returned := []

namespace Sys

/-- The macro `EnqueueCmd`; `none` if it goes through a null pointer. -/
def enqueueCmd (s : Sys) (n : ℕ) : Option Sys :=
  if s.size = 0 then
    some { s with head := some n, tail := some n, next := Function.update s.next n none, size := s.size + 1 }
  else
    match s.tail with
    | none => none
    | some c =>
      some { s with
        tail := some n
        next := Function.update (Function.update s.next c (some n)) n none
        size := s.size + 1 }

def rtThreadDequeueCmd (s : Sys) : Option ℕ × Sys :=
  match s.head with
  | none => (none, s)
  | some n =>
    (some n, { s with
      head := s.next n
      size := s.size - 1
      tail := if s.size - 1 = 0 then none else s.tail })

/-- The end of an element in `CMDHandler` and in the thread. -/
def freeCmd (s : Sys) (n : ℕ) : Sys :=
  let frees :=
    if (s.elmt n).cmdFromNdis then (s.elmt n).buffer.isSome
    else (s.elmt n).buffer.isSome && (s.elmt n).bufferlength != 0
  { s with
    freedBuffers := if frees then s.freedBuffers ++ [n] else s.freedBuffers
    freedElmts := s.freedElmts ++ [n] }

/-- The loop at the end of the thread; `none` if it does not end in `fuel` rounds. -/
def clearQueue : ℕ → Sys → Option Sys
  | 0, s => if s.size = 0 then some s else none
  | fuel + 1, s =>
    if s.size = 0 then some s
    else
      match s.rtThreadDequeueCmd with
      | (none, s) => clearQueue fuel s
      | (some n, s) =>
        clearQueue fuel { s.freeCmd n with disposed := s.disposed ++ [⟨n, (s.elmt n).command, .cleared⟩] }

end Sys

/-- The steps. Those of the enqueue functions name the context; an allocation says whether there was memory. -/
inductive Op
  | call (i : ℕ) (c : EnqueueCall) (legal ok : Bool) (stale : Option ℕ)
  | allocBuffer (i : ℕ) (ok : Bool)
  | insert (i : ℕ)
  | finish (i : ℕ)
  | wake
  | test
  | dequeue
  | execute (nicNotExist haltInProgress : Bool)
  | free
  | endThread
  | setState (cmdQState : ℕ)

namespace Sys

/-- The beginning of an enqueue function: the task is tested in one of them, and the element allocated. There is
room for `room` elements at a time. An element that is not zeroed has a stale `next`. -/
def call (room : ℕ) (s : Sys) (i : ℕ) (c : EnqueueCall) (legal ok : Bool) (stale : Option ℕ) : Sys :=
  if (c.fromNdis && !legal) || !ok || decide (room + s.freedElmts.length ≤ s.allocated) then
    { s with returned := s.returned ++ [⟨none, .resources⟩] }
  else
    { s with
      allocated := s.allocated + 1
      next := Function.update s.next s.allocated (if c.fromNdis then stale else none)
      elmt := Function.update s.elmt s.allocated zeroElmt
      loc := Function.update s.loc i (.element c s.allocated) }

def allocBuffer (s : Sys) (i : ℕ) (c : EnqueueCall) (n : ℕ) (ok : Bool) : Sys :=
  if c.wantsBuffer && !ok then
    { s with
      freedElmts := s.freedElmts ++ [n]
      loc := Function.update s.loc i .idle
      returned := s.returned ++ [⟨some n, .resources⟩] }
  else
    { s with elmt := Function.update s.elmt n c.elmt, loc := Function.update s.loc i (.filled n) }

def insert (s : Sys) (i n : ℕ) : Option Sys :=
  if s.cmdQState &&& taskCanDoInsert ≠ 0 then
    (s.enqueueCmd n).map fun s' => { s' with
      accepted := s.accepted ++ [(n, (s.elmt n).command)]
      loc := Function.update s.loc i (.unlocked n .success) }
  else some { s with loc := Function.update s.loc i (.unlocked n .failure) }

def finish (s : Sys) (i n : ℕ) (status : NdisStatus) : Sys :=
  let s' : Sys :=
    if status = .failure then
      { s with
        freedBuffers := if (s.elmt n).buffer.isSome then s.freedBuffers ++ [n] else s.freedBuffers
        freedElmts := s.freedElmts ++ [n] }
    else s
  { s' with loc := Function.update s.loc i .idle, returned := s.returned ++ [⟨some n, .success⟩] }

/-- The execution of a command; `none` if the handler is looked up outside the table. -/
def execute (cfg : BuildCfg) (s : Sys) (n : ℕ) (nicNotExist haltInProgress : Bool) : Option Sys :=
  let s' : Sys := { s with
    handler := .ran n
    disposed := s.disposed ++ [⟨n, (s.elmt n).command, .handled nicNotExist haltInProgress⟩] }
  if !(nicNotExist || haltInProgress) && validCMD cfg (s.elmt n).command then
    if hdlrIndex (s.elmt n).command < (cmdHdlrTable cfg).length then
      some { s' with executed := s.executed ++ [n] }
    else none
  else some s'

end Sys

def step (cfg : BuildCfg) (room : ℕ) (s : Option Sys) (op : Op) : Option Sys :=
  s.bind fun s =>
    match op with
    | .call i c legal ok stale =>
      match s.loc i with
      | .idle => some (s.call room i c legal ok stale)
      | _ => some s
    | .allocBuffer i ok =>
      match s.loc i with
      | .element c n => some (s.allocBuffer i c n ok)
      | _ => some s
    | .insert i =>
      match s.loc i with
      | .filled n => s.insert i n
      | _ => some s
    | .finish i =>
      match s.loc i with
      | .unlocked n status => some (s.finish i n status)
      | _ => some s
    | .wake => some (if s.handler = .idle then { s with handler := .test } else s)
    | .test =>
      some (if s.handler = .test then { s with handler := if s.size = 0 then .idle else .lock } else s)
    | .dequeue =>
      if s.handler = .lock then
        match s.rtThreadDequeueCmd with
        | (none, s) => some { s with handler := .idle }
        | (some n, s) => some { s with handler := .got n }
      else some s
    | .execute nicNotExist haltInProgress =>
      match s.handler with
      | .got n => s.execute cfg n nicNotExist haltInProgress
      | _ => some s
    | .free =>
      match s.handler with
      | .ran n => some { s.freeCmd n with handler := .test }
      | _ => some s
    | .endThread =>
      if s.handler = .idle then Sys.clearQueue s.size.toNat { s with cmdQState := taskStatStoped } else some s
    | .setState cmdQState => some { s with cmdQState := cmdQState }

/-! ### What holds in every state -/

def Disposal.runs (cfg : BuildCfg) (d : Disposal) : Bool :=
  match d.cause with
  | .handled nicNotExist haltInProgress => !(nicNotExist || haltInProgress) && validCMD cfg d.command
  | .cleared => false

def HandlerLoc.pending : HandlerLoc → List ℕ
  | .got n => [n]
  | _ => []

def HandlerLoc.holds : HandlerLoc → Option ℕ
  | .got n => some n
  | .ran n => some n
  | _ => none

def CallLoc.holds : CallLoc → Option ℕ
  | .idle => none
  | .element _ n => some n
  | .filled n => some n
  | .unlocked n status => if status = .failure then some n else none

def Sys.acceptedIds (s : Sys) : List ℕ := s.accepted.map Prod.fst

structure Orderly (cfg : BuildCfg) (s : Sys) : Prop where
  /-- The size is that of the chain, and the accepted commands are, in their order, those that have left the queue,
  the one in the hands of the thread, and those of the chain. -/
  queue : ∃ l, Linked s.next s.head l ∧ s.size.toNat = l.length ∧
    s.accepted = s.disposed.map (fun d => (d.elmt, d.command)) ++
      (s.handler.pending ++ l).map fun n => (n, (s.elmt n).command)
  once : s.acceptedIds.Nodup
  /-- Of those that have left, the ones executed are the valid ones that the thread took out while the device was
  there. -/
  executed : s.executed = (s.disposed.filter (Disposal.runs cfg)).map Disposal.elmt
  /-- Element and buffer are freed once, when neither a call nor the queue nor the thread has them any more. -/
  freedElmts : s.freedElmts.Nodup ∧ ∀ n, n ∈ s.freedElmts ↔ n < s.allocated ∧ (∀ i, (s.loc i).holds ≠ some n) ∧
    s.handler.holds ≠ some n ∧ ∀ l, Linked s.next s.head l → n ∉ l
  freedBuffers : s.freedBuffers.Nodup ∧ ∀ n, n ∈ s.freedBuffers ↔ n ∈ s.freedElmts ∧ (s.elmt n).buffer ≠ none
  /-- A call that put its command in the queue returns success, and one that returns `NDIS_STATUS_RESOURCES` did
  not. -/
  returned : ∀ r ∈ s.returned, ∀ n, r.elmt = some n →
    (n ∈ s.acceptedIds → r.status = .success) ∧ (r.status = .resources → n ∉ s.acceptedIds)

inductive Place
  | unborn
  | caller (i : ℕ)
  | queue
  | thread
  | gone
deriving DecidableEq

structure Owned (allocated : ℕ) (loc : ℕ → CallLoc) (handler : HandlerLoc) (l : List ℕ) (place : ℕ → Place) :
    Prop where
  born : ∀ n, place n = .unborn ↔ allocated ≤ n
  caller : ∀ n i, place n = .caller i ↔ (loc i).holds = some n
  thread : ∀ n, place n = .thread ↔ handler.holds = some n
  queue : ∀ n, place n = .queue ↔ n ∈ l

structure Freed (elmts buffers : List ℕ) (elmt : ℕ → CmdQElmt) (place : ℕ → Place) : Prop where
  nodup_elmts : elmts.Nodup
  elmts : ∀ n, n ∈ elmts ↔ place n = .gone
  nodup_buffers : buffers.Nodup
  buffers : ∀ n, n ∈ buffers ↔ place n = .gone ∧ (elmt n).buffer ≠ none

structure Logged (cfg : BuildCfg) (s : Sys) (l : List ℕ) (place : ℕ → Place) : Prop where
  order : s.accepted = s.disposed.map (fun d => (d.elmt, d.command)) ++
    (s.handler.pending ++ l).map fun n => (n, (s.elmt n).command)
  once : s.acceptedIds.Nodup
  place : ∀ n ∈ s.acceptedIds, place n ≠ .unborn ∧ ∀ i, place n ≠ .caller i
  executed : s.executed = (s.disposed.filter (Disposal.runs cfg)).map Disposal.elmt

structure Answered (s : Sys) (place : ℕ → Place) : Prop where
  returned : ∀ r ∈ s.returned, ∀ n, r.elmt = some n → place n ≠ .unborn ∧ (∀ i, place n ≠ .caller i) ∧
    r.status ≠ .failure ∧ (r.status = .resources → n ∉ s.acceptedIds)
  unlocked : ∀ i n status, s.loc i = .unlocked n status → status ≠ .resources ∧
    (status = .success → n ∈ s.acceptedIds)

/-- A command that passes `ValidCMD` has an index of 16 bits. -/
def Known (cfg : BuildCfg) (command : BitVec 32) : Prop := validCMD cfg command = true → hdlrIndex command < 65536

structure WellFormed (cfg : BuildCfg) (elmt : ℕ → CmdQElmt) : Prop where
  known : ∀ n, Known cfg (elmt n).command
  length : ∀ n, (elmt n).cmdFromNdis = false → (elmt n).buffer ≠ none → (elmt n).bufferlength ≠ 0

def Entered (cfg : BuildCfg) (s : Sys) : Prop :=
  ∀ i c n, s.loc i = .element c n → (s.elmt n).buffer = none ∧ Known cfg c.oid

structure Inv (cfg : BuildCfg) (room : ℕ) (s : Sys) (l : List ℕ) (place : ℕ → Place) : Prop where
  queued : Queued s.next s.head s.tail l
  size_eq : s.size.toNat = l.length
  owned : Owned s.allocated s.loc s.handler l place
  freed : Freed s.freedElmts s.freedBuffers s.elmt place
  logged : Logged cfg s l place
  answered : Answered s place
  wellFormed : WellFormed cfg s.elmt
  entered : Entered cfg s
  roomy : s.allocated ≤ room + s.freedElmts.length

section Inv

variable {cfg : BuildCfg} {room : ℕ} {s : Sys} {l : List ℕ} {place : ℕ → Place}

theorem Inv.orderly (h : Inv cfg room s l place) : Orderly cfg s where
  queue := ⟨l, h.queued.1, h.size_eq, h.logged.order⟩
  once := h.logged.once
  executed := h.logged.executed
  freedElmts := by
    refine ⟨h.freed.nodup_elmts, fun n => (h.freed.elmts n).trans ?_⟩
    constructor
    · intro hn
      refine ⟨?_, fun i hi => ?_, fun hh => ?_, fun l' hl' hmem => ?_⟩
      · by_contra hlt
        rw [(h.owned.born n).2 (by omega)] at hn
        exact absurd hn (by simp)
      · rw [(h.owned.caller n i).2 hi] at hn
        exact absurd hn (by simp)
      · rw [(h.owned.thread n).2 hh] at hn
        exact absurd hn (by simp)
      · rw [hl'.unique h.queued.1] at hmem
        rw [(h.owned.queue n).2 hmem] at hn
        exact absurd hn (by simp)
    · rintro ⟨hlt, hcall, hthread, hqueue⟩
      cases hp : place n with
      | unborn => exact absurd ((h.owned.born n).1 hp) (by omega)
      | caller i => exact absurd ((h.owned.caller n i).1 hp) (hcall i)
      | queue => exact absurd ((h.owned.queue n).1 hp) (hqueue l h.queued.1)
      | thread => exact absurd ((h.owned.thread n).1 hp) hthread
      | gone => rfl
  freedBuffers := by
    refine ⟨h.freed.nodup_buffers, fun n => ?_⟩
    rw [h.freed.buffers, h.freed.elmts]
  returned := by
    intro r hr n hn
    obtain ⟨-, -, hfail, hres⟩ := h.answered.returned r hr n hn
    refine ⟨fun hacc => ?_, hres⟩
    cases hst : r.status with
    | success => rfl
    | failure => exact absurd hst hfail
    | resources => exact absurd hacc (hres hst)

theorem known_zeroElmt : Known cfg zeroElmt.command := by
  intro hv
  have hfalse : validCMD cfg zeroElmt.command = false := by
    unfold validCMD
    rw [if_neg]
    rintro ⟨h0, -⟩
    exact absurd h0 (by decide)
  rw [hfalse] at hv
  exact absurd hv (by simp)

theorem WellFormed.update {elmt : ℕ → CmdQElmt} {n : ℕ} {e : CmdQElmt} (h : WellFormed cfg elmt)
    (hknown : Known cfg e.command) (hlength : e.cmdFromNdis = false → e.buffer ≠ none → e.bufferlength ≠ 0) :
    WellFormed cfg (Function.update elmt n e) := by
  constructor
  · intro m
    by_cases hm : m = n
    · subst hm
      rw [Function.update_self]
      exact hknown
    · rw [Function.update_of_ne hm]
      exact h.known m
  · intro m
    by_cases hm : m = n
    · subst hm
      rw [Function.update_self]
      exact hlength
    · rw [Function.update_of_ne hm]
      exact h.length m

theorem inv_init : Inv cfg room rtInitializeCmdQ [] fun _ => .unborn where
  queued := ⟨rfl, rfl⟩
  size_eq := rfl
  owned := ⟨fun n => by simp [rtInitializeCmdQ], fun n i => by simp [rtInitializeCmdQ, CallLoc.holds],
    fun n => by simp [rtInitializeCmdQ, HandlerLoc.holds], fun n => by simp⟩
  freed := ⟨List.nodup_nil, fun n => by simp [rtInitializeCmdQ], List.nodup_nil, fun n => by simp [rtInitializeCmdQ]⟩
  logged := ⟨rfl, List.nodup_nil, fun n hn => absurd hn (by simp [Sys.acceptedIds, rtInitializeCmdQ]), rfl⟩
  answered := ⟨fun r hr => absurd hr (by simp [rtInitializeCmdQ]),
    fun i n status hi => absurd hi (by simp [rtInitializeCmdQ])⟩
  wellFormed := ⟨fun _ => known_zeroElmt, fun _ _ hb => absurd rfl hb⟩
  entered := fun i c n hi => absurd hi (by simp [rtInitializeCmdQ])
  roomy := Nat.zero_le _

theorem Owned.move {allocated allocated' n : ℕ} {loc loc' : ℕ → CallLoc} {handler handler' : HandlerLoc}
    {l' : List ℕ} {p : Place} (h : Owned allocated loc handler l place) (hn : n < allocated') (hp : p ≠ .unborn)
    (hborn : ∀ m, m ≠ n → (allocated' ≤ m ↔ allocated ≤ m))
    (hloc : ∀ m i, m ≠ n → ((loc' i).holds = some m ↔ (loc i).holds = some m))
    (hthread : ∀ m, m ≠ n → (handler'.holds = some m ↔ handler.holds = some m))
    (hqueue : ∀ m, m ≠ n → (m ∈ l' ↔ m ∈ l))
    (hlocn : ∀ i, p = .caller i ↔ (loc' i).holds = some n) (hthreadn : p = .thread ↔ handler'.holds = some n)
    (hqueuen : p = .queue ↔ n ∈ l') : Owned allocated' loc' handler' l' (Function.update place n p) where
  born := by
    intro m
    by_cases hm : m = n
    · subst hm
      rw [Function.update_self]
      exact iff_of_false hp (by omega)
    · rw [Function.update_of_ne hm, hborn m hm]
      exact h.born m
  caller := by
    intro m i
    by_cases hm : m = n
    · subst hm
      rw [Function.update_self]
      exact hlocn i
    · rw [Function.update_of_ne hm, hloc m i hm]
      exact h.caller m i
  thread := by
    intro m
    by_cases hm : m = n
    · subst hm
      rw [Function.update_self]
      exact hthreadn
    · rw [Function.update_of_ne hm, hthread m hm]
      exact h.thread m
  queue := by
    intro m
    by_cases hm : m = n
    · subst hm
      rw [Function.update_self]
      exact hqueuen
    · rw [Function.update_of_ne hm, hqueue m hm]
      exact h.queue m

theorem holds_update {loc : ℕ → CallLoc} {i j m : ℕ} {x : CallLoc} (hold : (loc i).holds ≠ some m)
    (hnew : x.holds ≠ some m) : (Function.update loc i x j).holds = some m ↔ (loc j).holds = some m := by
  by_cases hj : j = i
  · subst hj
    rw [Function.update_self]
    exact iff_of_false hnew hold
  · rw [Function.update_of_ne hj]

theorem holds_update_self {allocated : ℕ} {loc : ℕ → CallLoc} {handler : HandlerLoc} {i j m : ℕ} {x : CallLoc}
    (h : Owned allocated loc handler l place) (hold : (loc i).holds = some m) :
    (Function.update loc i x j).holds = some m ↔ j = i ∧ x.holds = some m := by
  by_cases hj : j = i
  · subst hj
    rw [Function.update_self]
    simp
  · rw [Function.update_of_ne hj]
    refine iff_of_false (fun hc => ?_) (fun hc => hj hc.1)
    have h1 := (h.caller m i).2 hold
    rw [(h.caller m j).2 hc] at h1
    exact hj (Place.caller.inj h1)

theorem Freed.move {elmts buffers : List ℕ} {elmt : ℕ → CmdQElmt} {n : ℕ} {p : Place}
    (h : Freed elmts buffers elmt place) (hn : place n ≠ .gone) (hp : p ≠ .gone) :
    Freed elmts buffers elmt (Function.update place n p) := by
  have hgone : ∀ m, Function.update place n p m = .gone ↔ place m = .gone := by
    intro m
    by_cases hm : m = n
    · subst hm
      rw [Function.update_self]
      exact iff_of_false hp hn
    · rw [Function.update_of_ne hm]
  refine ⟨h.nodup_elmts, fun m => ?_, h.nodup_buffers, fun m => ?_⟩
  · rw [hgone]
    exact h.elmts m
  · rw [hgone]
    exact h.buffers m

theorem Freed.setElmt {elmts buffers : List ℕ} {elmt : ℕ → CmdQElmt} {n : ℕ} (h : Freed elmts buffers elmt place)
    (hn : place n ≠ .gone) (e : CmdQElmt) : Freed elmts buffers (Function.update elmt n e) place := by
  refine ⟨h.nodup_elmts, h.elmts, h.nodup_buffers, fun m => ?_⟩
  by_cases hm : m = n
  · subst hm
    refine iff_of_false (fun hc => hn ((h.buffers m).1 hc).1) (fun hc => hn hc.1)
  · rw [Function.update_of_ne hm]
    exact h.buffers m

/-- **The end of an element.** Its buffer is freed with it if it has one. -/
theorem Freed.free {elmts buffers : List ℕ} {elmt : ℕ → CmdQElmt} {n : ℕ} {b : Bool}
    (h : Freed elmts buffers elmt place) (hn : place n ≠ .gone) (hb : b = true ↔ (elmt n).buffer ≠ none) :
    Freed (elmts ++ [n]) (if b then buffers ++ [n] else buffers) elmt (Function.update place n .gone) := by
  have hnelmts : n ∉ elmts := fun hc => hn ((h.elmts n).1 hc)
  have hnbuffers : n ∉ buffers := fun hc => hn ((h.buffers n).1 hc).1
  refine ⟨?_, fun m => ?_, ?_, fun m => ?_⟩
  · exact h.nodup_elmts.append (List.nodup_singleton n) (List.disjoint_singleton.2 hnelmts)
  · by_cases hm : m = n
    · subst hm
      simp
    · rw [Function.update_of_ne hm, ← h.elmts m]
      simp [hm]
  · split_ifs
    · exact h.nodup_buffers.append (List.nodup_singleton n) (List.disjoint_singleton.2 hnbuffers)
    · exact h.nodup_buffers
  · by_cases hm : m = n
    · subst hm
      rw [Function.update_self, ← hb]
      cases b with
      | true => simp
      | false => simpa using hnbuffers
    · rw [Function.update_of_ne hm, ← h.buffers m]
      split_ifs
      · simp [hm]
      · rfl

theorem Logged.frame {s' : Sys} {place' : ℕ → Place} (h : Logged cfg s l place) (hacc : s'.accepted = s.accepted)
    (hdisp : s'.disposed = s.disposed) (hexec : s'.executed = s.executed)
    (hpend : s'.handler.pending = s.handler.pending) (helmt : ∀ n ∈ s.handler.pending ++ l, s'.elmt n = s.elmt n)
    (hplace : ∀ n, place n ≠ .unborn ∧ (∀ i, place n ≠ .caller i) → place' n ≠ .unborn ∧ ∀ i, place' n ≠ .caller i) :
    Logged cfg s' l place' := by
  have hids : s'.acceptedIds = s.acceptedIds := by
    unfold Sys.acceptedIds
    rw [hacc]
  refine ⟨?_, ?_, fun n hn => ?_, ?_⟩
  · rw [hacc, hdisp, hpend, h.order]
    refine congrArg _ (List.map_congr_left fun n hn => ?_)
    rw [helmt n hn]
  · rw [hids]
    exact h.once
  · rw [hids] at hn
    exact hplace n (h.place n hn)
  · rw [hexec, hdisp]
    exact h.executed

theorem Answered.move {s' : Sys} {i : ℕ} {x : CallLoc} {q : List Return} {place' : ℕ → Place} (h : Answered s place)
    (hloc : s'.loc = Function.update s.loc i x) (hret : s'.returned = s.returned ++ q)
    (hids : ∀ n ∈ s.acceptedIds, n ∈ s'.acceptedIds)
    (hnew : ∀ n ∈ s'.acceptedIds, n ∈ s.acceptedIds ∨ ∃ i, place n = .caller i)
    (hplace : ∀ n, place n ≠ .unborn ∧ (∀ i, place n ≠ .caller i) → place' n ≠ .unborn ∧ ∀ i, place' n ≠ .caller i)
    (hx : ∀ n status, x = .unlocked n status → status ≠ .resources ∧ (status = .success → n ∈ s'.acceptedIds))
    (hrs : ∀ r ∈ q, ∀ n, r.elmt = some n → place' n ≠ .unborn ∧ (∀ i, place' n ≠ .caller i) ∧
      r.status ≠ .failure ∧ (r.status = .resources → n ∉ s'.acceptedIds)) : Answered s' place' := by
  refine ⟨fun r hr n hn => ?_, fun j n status hj => ?_⟩
  · rw [hret, List.mem_append] at hr
    rcases hr with hr | hr
    · obtain ⟨hu, hc, hf, hres⟩ := h.returned r hr n hn
      refine ⟨(hplace n ⟨hu, hc⟩).1, (hplace n ⟨hu, hc⟩).2, hf, fun hst hmem => ?_⟩
      rcases hnew n hmem with hold | ⟨k, hk⟩
      · exact hres hst hold
      · exact hc k hk
    · exact hrs r hr n hn
  · rw [hloc] at hj
    rcases loc_update_cases hj with ⟨-, hx'⟩ | ⟨-, hj'⟩
    · exact hx n status hx'
    · obtain ⟨h1, h2⟩ := h.unlocked j n status hj'
      exact ⟨h1, fun hst => hids n (h2 hst)⟩

variable (place) in
theorem settled_update {n : ℕ} {p : Place} (hn : place n = .unborn ∨ (∃ i, place n = .caller i) ∨
    (p ≠ .unborn ∧ ∀ i, p ≠ .caller i)) :
    ∀ m, place m ≠ .unborn ∧ (∀ i, place m ≠ .caller i) →
      Function.update place n p m ≠ .unborn ∧ ∀ i, Function.update place n p m ≠ .caller i := by
  rintro m ⟨hu, hc⟩
  by_cases hm : m = n
  · subst hm
    rw [Function.update_self]
    rcases hn with hn | ⟨i, hn⟩ | hp
    · exact absurd hn hu
    · exact absurd hn (hc i)
    · exact hp
  · rw [Function.update_of_ne hm]
    exact ⟨hu, hc⟩

theorem Inv.not_mem_of_place {n : ℕ} (h : Inv cfg room s l place) (hq : place n ≠ .queue) (ht : place n ≠ .thread) :
    n ∉ s.handler.pending ++ l := by
  intro hmem
  rw [List.mem_append] at hmem
  rcases hmem with hmem | hmem
  · refine ht ((h.owned.thread n).2 ?_)
    cases hh : s.handler with
    | got m =>
      rw [hh] at hmem
      rw [List.mem_singleton.1 hmem]
      rfl
    | _ =>
      rw [hh] at hmem
      exact absurd hmem (by simp [HandlerLoc.pending])
  · exact hq ((h.owned.queue n).2 hmem)

/-! ### The enqueue functions -/

theorem inv_call (h : Inv cfg room s l place) {i : ℕ} (hi : s.loc i = .idle) {c : EnqueueCall}
    (hknown : Known cfg c.oid) (legal ok : Bool) (stale : Option ℕ) :
    ∃ place', Inv cfg room (s.call room i c legal ok stale) l place' := by
  unfold Sys.call
  by_cases hfail : ((c.fromNdis && !legal) || !ok || decide (room + s.freedElmts.length ≤ s.allocated)) = true
  · rw [if_pos hfail]
    refine ⟨place, ⟨h.queued, h.size_eq, h.owned, h.freed, h.logged.frame rfl rfl rfl rfl (fun _ _ => rfl)
      (fun _ hp => hp), ?_, h.wellFormed, h.entered, h.roomy⟩⟩
    refine h.answered.move (i := i) (x := .idle) ?_ rfl (fun _ hn => hn) (fun _ hn => Or.inl hn) (fun _ hp => hp)
      (fun n status hx => absurd hx (by simp)) ?_
    · rw [← hi, Function.update_eq_self]
    · intro r hr n hn
      rw [List.mem_singleton.1 hr] at hn
      exact absurd hn (by simp)
  · rw [if_neg hfail]
    set n := s.allocated with hn
    have hunborn : place n = .unborn := (h.owned.born n).2 le_rfl
    have hnl : n ∉ s.handler.pending ++ l := h.not_mem_of_place (by simp [hunborn]) (by simp [hunborn])
    have hnone : ∀ j, (s.loc j).holds ≠ some n := by
      intro j hj
      rw [(h.owned.caller n j).2 hj] at hunborn
      exact absurd hunborn (by simp)
    refine ⟨Function.update place n (.caller i), ⟨?_, h.size_eq, ?_, ?_, ?_, ?_, ?_, ?_, ?_⟩⟩
    · exact ⟨linked_update h.queued.1 fun hc => hnl (List.mem_append_right _ hc), h.queued.2⟩
    · refine h.owned.move (by simp) (by simp) (fun m hm => by simp only; omega) (fun m j hm => ?_) (fun _ _ => Iff.rfl)
        (fun _ _ => Iff.rfl) (fun j => ?_) ?_ ?_
      · exact holds_update (by simp [hi, CallLoc.holds]) (by simpa [CallLoc.holds] using Ne.symm hm)
      · by_cases hj : j = i
        · subst hj
          simp [CallLoc.holds]
        · refine iff_of_false (fun hc => hj (Place.caller.inj hc).symm) ?_
          simp only [Function.update_of_ne hj]
          exact hnone j
      · refine iff_of_false (by simp) fun hc => ?_
        rw [(h.owned.thread n).2 hc] at hunborn
        exact absurd hunborn (by simp)
      · exact iff_of_false (by simp) fun hc => hnl (List.mem_append_right _ hc)
    · exact (h.freed.setElmt (by simp [hunborn]) _).move (by simp [hunborn]) (by simp)
    · refine h.logged.frame rfl rfl rfl rfl (fun m hm => ?_) (settled_update _ (Or.inl hunborn))
      have hmn : m ≠ n := by
        rintro rfl
        exact hnl hm
      exact Function.update_of_ne hmn _ _
    · exact h.answered.move (q := []) rfl (List.append_nil _).symm (fun _ hm => hm) (fun _ hm => Or.inl hm)
        (settled_update _ (Or.inl hunborn)) (fun m status hx => absurd hx (by simp)) (fun r hr => absurd hr (by simp))
    · exact h.wellFormed.update known_zeroElmt fun _ hb => absurd rfl hb
    · intro j c' m hj
      rcases loc_update_cases hj with ⟨-, hx⟩ | ⟨-, hj'⟩
      · obtain ⟨rfl, rfl⟩ := CallLoc.element.inj hx
        refine ⟨?_, hknown⟩
        show (Function.update s.elmt n zeroElmt n).buffer = none
        rw [Function.update_self]
        rfl
      · obtain ⟨hb, hk⟩ := h.entered j c' m hj'
        have hmn : m ≠ n := by
          rintro rfl
          refine hnone j ?_
          rw [hj']
          rfl
        refine ⟨?_, hk⟩
        show (Function.update s.elmt n zeroElmt m).buffer = none
        rw [Function.update_of_ne hmn]
        exact hb
    · simp only [Bool.or_eq_true, decide_eq_true_eq, not_or] at hfail
      show s.allocated + 1 ≤ room + s.freedElmts.length
      omega

theorem Owned.callerGone {i n : ℕ} {x : CallLoc} {allocated : ℕ} {loc : ℕ → CallLoc} {handler : HandlerLoc}
    (h : Owned allocated loc handler l place) (hi : (loc i).holds = some n) (hx : x.holds = none) :
    Owned allocated (Function.update loc i x) handler l (Function.update place n .gone) := by
  have hplace := (h.caller n i).2 hi
  have hlt : n < allocated := by
    by_contra hc
    rw [(h.born n).2 (by omega)] at hplace
    exact absurd hplace (by simp)
  refine h.move hlt (by simp) (fun _ _ => Iff.rfl) (fun m j hm => ?_) (fun _ _ => Iff.rfl) (fun _ _ => Iff.rfl)
    (fun j => ?_) ?_ ?_
  · exact holds_update (by rw [hi]; simpa using Ne.symm hm) (by simp [hx])
  · rw [holds_update_self h hi, hx]
    simp
  · refine iff_of_false (by simp) fun hc => ?_
    rw [(h.thread n).2 hc] at hplace
    exact absurd hplace (by simp)
  · refine iff_of_false (by simp) fun hc => ?_
    rw [(h.queue n).2 hc] at hplace
    exact absurd hplace (by simp)

theorem Owned.callerKeeps {i n : ℕ} {x : CallLoc} {allocated : ℕ} {loc : ℕ → CallLoc} {handler : HandlerLoc}
    (h : Owned allocated loc handler l place) (hi : (loc i).holds = some n) (hx : x.holds = some n) :
    Owned allocated (Function.update loc i x) handler l place := by
  refine ⟨h.born, fun m j => (h.caller m j).trans ?_, h.thread, h.queue⟩
  by_cases hj : j = i
  · subst hj
    rw [Function.update_self, hi, hx]
  · rw [Function.update_of_ne hj]

theorem Inv.place_of_holds {i n : ℕ} (h : Inv cfg room s l place) (hi : (s.loc i).holds = some n) :
    place n = .caller i ∧ n ∉ s.handler.pending ++ l ∧ n ∉ s.acceptedIds := by
  have hplace := (h.owned.caller n i).2 hi
  refine ⟨hplace, h.not_mem_of_place (by simp [hplace]) (by simp [hplace]), fun hc => ?_⟩
  exact (h.logged.place n hc).2 i hplace

theorem elmt_length (c : EnqueueCall) :
    c.elmt.cmdFromNdis = false → c.elmt.buffer ≠ none → c.elmt.bufferlength ≠ 0 := by
  intro hndis hbuf
  have hndis' : c.fromNdis = false := hndis
  have hwants : c.wantsBuffer = true := by
    by_contra hc
    exact hbuf (if_neg hc)
  have hlen : c.elmt.bufferlength = (c.information.getD []).length := if_pos hwants
  rw [EnqueueCall.wantsBuffer, hndis', if_neg Bool.false_ne_true, decide_eq_true_eq] at hwants
  omega

theorem Entered.move {s' : Sys} {i : ℕ} {x : CallLoc} (h : Entered cfg s)
    (hloc : s'.loc = Function.update s.loc i x) (hx : ∀ c n, x ≠ .element c n)
    (helmt : ∀ m, (s.loc i).holds ≠ some m → s'.elmt m = s.elmt m)
    (hown : Owned s.allocated s.loc s.handler l place) : Entered cfg s' := by
  intro j c m hj
  rw [hloc] at hj
  rcases loc_update_cases hj with ⟨-, hx'⟩ | ⟨hji, hj'⟩
  · exact absurd hx' (hx c m)
  · have hm : (s.loc i).holds ≠ some m := by
      intro hi
      have hjm : (s.loc j).holds = some m := by
        rw [hj']
        rfl
      have hplace := (hown.caller m i).2 hi
      rw [(hown.caller m j).2 hjm] at hplace
      exact hji (Place.caller.inj hplace)
    rw [helmt m hm]
    exact h j c m hj'

theorem inv_allocBuffer (h : Inv cfg room s l place) {i n : ℕ} {c : EnqueueCall} (hi : s.loc i = .element c n)
    (ok : Bool) : ∃ place', Inv cfg room (s.allocBuffer i c n ok) l place' := by
  have hholds : (s.loc i).holds = some n := by
    rw [hi]
    rfl
  obtain ⟨hplace, hnl, hnacc⟩ := h.place_of_holds hholds
  obtain ⟨hnull, hknown⟩ := h.entered i c n hi
  unfold Sys.allocBuffer
  by_cases hfail : (c.wantsBuffer && !ok) = true
  · rw [if_pos hfail]
    refine ⟨Function.update place n .gone, ⟨h.queued, h.size_eq, h.owned.callerGone hholds rfl, ?_, ?_, ?_,
      h.wellFormed, h.entered.move rfl (by simp) (fun _ _ => rfl) h.owned, ?_⟩⟩
    · exact h.freed.free (b := false) (by simp [hplace]) (by simp [hnull])
    · exact h.logged.frame rfl rfl rfl rfl (fun _ _ => rfl) (settled_update _ (Or.inr (Or.inl ⟨i, hplace⟩)))
    · refine h.answered.move rfl rfl (fun _ hm => hm) (fun _ hm => Or.inl hm)
        (settled_update _ (Or.inr (Or.inl ⟨i, hplace⟩))) (fun m status hx => absurd hx (by simp)) ?_
      intro r hr m hm
      rw [List.mem_singleton.1 hr] at hm ⊢
      obtain rfl := Option.some.inj hm
      rw [Function.update_self]
      exact ⟨by simp, by simp, by simp, fun _ => hnacc⟩
    · show s.allocated ≤ room + (s.freedElmts ++ [n]).length
      rw [List.length_append]
      exact h.roomy.trans (by omega)
  · rw [if_neg hfail]
    refine ⟨place, ⟨h.queued, h.size_eq, h.owned.callerKeeps hholds rfl, h.freed.setElmt (by simp [hplace]) _, ?_, ?_,
      h.wellFormed.update hknown (elmt_length c), ?_, h.roomy⟩⟩
    · refine h.logged.frame rfl rfl rfl rfl (fun m hm => ?_) (fun _ hp => hp)
      have hmn : m ≠ n := by
        rintro rfl
        exact hnl hm
      exact Function.update_of_ne hmn _ _
    · exact h.answered.move (q := []) rfl (List.append_nil _).symm (fun _ hm => hm) (fun _ hm => Or.inl hm)
        (fun _ hp => hp) (fun m status hx => absurd hx (by simp)) (fun r hr => absurd hr (by simp))
    · refine h.entered.move rfl (by simp) (fun m hm => ?_) h.owned
      have hmn : m ≠ n := by
        rintro rfl
        exact hm hholds
      exact Function.update_of_ne hmn _ _

theorem Inv.size_lt (h : Inv cfg room s l place) (hroom : room < 2 ^ 32) {n i : ℕ} (hn : place n = .caller i) :
    l.length + 1 < 2 ^ 32 := by
  have hlt : ∀ m, place m ≠ .unborn → m < s.allocated := by
    intro m hm
    by_contra hc
    exact hm ((h.owned.born m).2 (by omega))
  have hnd : ((n :: l) ++ s.freedElmts).Nodup := by
    refine List.Nodup.append (List.nodup_cons.2 ⟨fun hc => ?_, h.queued.1.nodup⟩) h.freed.nodup_elmts ?_
    · rw [(h.owned.queue n).2 hc] at hn
      exact absurd hn (by simp)
    · intro m hm hf
      have hgone := (h.freed.elmts m).1 hf
      rcases List.mem_cons.1 hm with rfl | hm
      · rw [hn] at hgone
        exact absurd hgone (by simp)
      · rw [(h.owned.queue m).2 hm] at hgone
        exact absurd hgone (by simp)
  have hsub : (n :: l) ++ s.freedElmts ⊆ List.range s.allocated := by
    intro m hm
    rw [List.mem_range]
    refine hlt m ?_
    rcases List.mem_append.1 hm with hm | hm
    · rcases List.mem_cons.1 hm with rfl | hm
      · simp [hn]
      · simp [(h.owned.queue m).2 hm]
    · simp [(h.freed.elmts m).1 hm]
  have hlen := (hnd.subperm hsub).length_le
  rw [List.length_range, List.length_append, List.length_cons] at hlen
  have := h.roomy
  omega

theorem enqueueCmd_spec {n : ℕ} (hq : Queued s.next s.head s.tail l) (hsize : s.size.toNat = l.length)
    (hlt : l.length + 1 < 2 ^ 32) (hn : n ∉ l) :
    ∃ next head tail size, s.enqueueCmd n = some { s with next := next, head := head, tail := tail, size := size } ∧
      Queued next head tail (l ++ [n]) ∧ size.toNat = (l ++ [n]).length := by
  have hsnoc := hq.snoc hn
  have hsize' : (s.size + 1).toNat = (l ++ [n]).length := by
    have hone : (1 : BitVec 32).toNat = 1 := rfl
    rw [BitVec.toNat_add, hsize, hone, List.length_append, List.length_singleton]
    omega
  unfold Sys.enqueueCmd
  by_cases h0 : s.size = 0
  · have hnil : l = [] := by
      rw [h0] at hsize
      exact List.length_eq_zero_iff.1 hsize.symm
    subst hnil
    rw [if_pos h0]
    refine ⟨_, _, _, _, rfl, ?_, hsize'⟩
    rw [show s.tail = none from hq.2, show s.head = none from hq.1] at hsnoc
    exact hsnoc
  · rw [if_neg h0]
    have hne : l ≠ [] := by
      rintro rfl
      exact h0 (BitVec.eq_of_toNat_eq hsize)
    obtain ⟨l', c, rfl⟩ := (List.eq_nil_or_concat l).resolve_left hne
    rw [List.concat_eq_append] at hq hsnoc hn hsize' ⊢
    have htail : s.tail = some c := by
      rw [hq.2]
      simp
    have hhead : s.head ≠ none := fun hc => absurd (hq.head_eq_none.1 hc) (by simp)
    have hcn : n ≠ c := fun hc => hn (by simp [hc])
    rw [htail, if_neg hhead] at hsnoc
    refine ⟨Function.update (Function.update s.next c (some n)) n none, s.head, some n, s.size + 1, ?_, ?_, hsize'⟩
    · rw [htail]
    · rw [Function.update_comm hcn.symm]
      exact hsnoc

theorem inv_insert (h : Inv cfg room s l place) (hroom : room < 2 ^ 32) {i n : ℕ} (hi : s.loc i = .filled n) :
    ∃ s' l' place', s.insert i n = some s' ∧ Inv cfg room s' l' place' := by
  have hholds : (s.loc i).holds = some n := by
    rw [hi]
    rfl
  obtain ⟨hplace, hnl, hnacc⟩ := h.place_of_holds hholds
  have hn : n ∉ l := fun hc => hnl (List.mem_append_right _ hc)
  unfold Sys.insert
  by_cases hcan : s.cmdQState &&& taskCanDoInsert ≠ 0
  · rw [if_pos hcan]
    obtain ⟨next, head, tail, size, henq, hq, hsize⟩ :=
      enqueueCmd_spec h.queued h.size_eq (h.size_lt hroom hplace) hn
    have hlt : n < s.allocated := by
      by_contra hc
      rw [(h.owned.born n).2 (by omega)] at hplace
      exact absurd hplace (by simp)
    have hsettled := settled_update place (p := .queue) (Or.inr (Or.inl ⟨i, hplace⟩))
    rw [henq]
    refine ⟨_, l ++ [n], Function.update place n .queue, rfl, ⟨hq, hsize, ?_, ?_, ?_, ?_, h.wellFormed, ?_, h.roomy⟩⟩
    · refine h.owned.move hlt (by simp) (fun _ _ => Iff.rfl) (fun m j hm => ?_) (fun _ _ => Iff.rfl)
        (fun m hm => by simp [hm]) (fun j => ?_) ?_ (by simp)
      · exact holds_update (by rw [hholds]; simpa using Ne.symm hm) (by simp [CallLoc.holds])
      · rw [holds_update_self h.owned hholds]
        simp [CallLoc.holds]
      · refine iff_of_false (by simp) fun hc => ?_
        rw [(h.owned.thread n).2 hc] at hplace
        exact absurd hplace (by simp)
    · exact h.freed.move (by simp [hplace]) (by simp)
    · have hids : (s.accepted ++ [(n, (s.elmt n).command)]).map Prod.fst = s.acceptedIds ++ [n] := by
        simp [Sys.acceptedIds]
      refine ⟨?_, ?_, fun m hm => ?_, h.logged.executed⟩
      · show s.accepted ++ [(n, (s.elmt n).command)] = _
        rw [h.logged.order]
        simp
      · show ((s.accepted ++ [(n, (s.elmt n).command)]).map Prod.fst).Nodup
        rw [hids]
        exact h.logged.once.append (List.nodup_singleton n) (List.disjoint_singleton.2 hnacc)
      · have hm' : m ∈ s.acceptedIds ++ [n] := by
          rw [← hids]
          exact hm
        rcases List.mem_append.1 hm' with hm' | hm'
        · exact hsettled m (h.logged.place m hm')
        · rw [List.mem_singleton.1 hm', Function.update_self]
          exact ⟨by simp, by simp⟩
    · have hids : ∀ m, m ∈ (s.accepted ++ [(n, (s.elmt n).command)]).map Prod.fst ↔ m ∈ s.acceptedIds ∨ m = n := by
        simp [Sys.acceptedIds]
      refine h.answered.move (q := []) rfl (List.append_nil _).symm (fun m hm => (hids m).2 (Or.inl hm))
        (fun m hm => ?_) hsettled (fun m status hx => ?_) (fun r hr => absurd hr (by simp))
      · rcases (hids m).1 hm with hm | rfl
        · exact Or.inl hm
        · exact Or.inr ⟨i, hplace⟩
      · obtain ⟨rfl, rfl⟩ := CallLoc.unlocked.inj hx
        exact ⟨by simp, fun _ => (hids n).2 (Or.inr rfl)⟩
    · exact h.entered.move rfl (by simp) (fun _ _ => rfl) h.owned
  · rw [if_neg hcan]
    refine ⟨_, l, place, rfl, ⟨h.queued, h.size_eq, h.owned.callerKeeps hholds rfl, h.freed, ?_, ?_, h.wellFormed,
      h.entered.move rfl (by simp) (fun _ _ => rfl) h.owned, h.roomy⟩⟩
    · exact h.logged.frame rfl rfl rfl rfl (fun _ _ => rfl) (fun _ hp => hp)
    · refine h.answered.move (q := []) rfl (List.append_nil _).symm (fun _ hm => hm) (fun _ hm => Or.inl hm)
        (fun _ hp => hp) (fun m status hx => ?_) (fun r hr => absurd hr (by simp))
      obtain ⟨rfl, rfl⟩ := CallLoc.unlocked.inj hx
      exact ⟨by simp, fun hc => absurd hc (by simp)⟩

theorem inv_finish (h : Inv cfg room s l place) {i n : ℕ} {status : NdisStatus}
    (hi : s.loc i = .unlocked n status) : ∃ place', Inv cfg room (s.finish i n status) l place' := by
  obtain ⟨hres, hsucc⟩ := h.answered.unlocked i n status hi
  unfold Sys.finish
  by_cases hfail : status = .failure
  · have hholds : (s.loc i).holds = some n := by
      rw [hi, hfail]
      rfl
    obtain ⟨hplace, hnl, hnacc⟩ := h.place_of_holds hholds
    have hsettled := settled_update place (p := .gone) (Or.inr (Or.inl ⟨i, hplace⟩))
    dsimp only
    rw [if_pos hfail]
    refine ⟨Function.update place n .gone, ⟨h.queued, h.size_eq, h.owned.callerGone hholds rfl, ?_, ?_, ?_,
      h.wellFormed, h.entered.move rfl (by simp) (fun _ _ => rfl) h.owned, ?_⟩⟩
    · exact h.freed.free (by simp [hplace]) Option.isSome_iff_ne_none
    · exact h.logged.frame rfl rfl rfl rfl (fun _ _ => rfl) hsettled
    · refine h.answered.move rfl rfl (fun _ hm => hm) (fun _ hm => Or.inl hm) hsettled
        (fun m status hx => absurd hx (by simp)) ?_
      intro r hr m hm
      rw [List.mem_singleton.1 hr] at hm ⊢
      obtain rfl := Option.some.inj hm
      rw [Function.update_self]
      exact ⟨by simp, by simp, by simp, fun hc => absurd hc (by simp)⟩
    · show s.allocated ≤ room + (s.freedElmts ++ [n]).length
      rw [List.length_append]
      exact h.roomy.trans (by omega)
  · have hstatus : status = .success := by
      cases status with
      | success => rfl
      | failure => exact absurd rfl hfail
      | resources => exact absurd rfl hres
    have hnone : (s.loc i).holds = none := by
      rw [hi, hstatus]
      rfl
    dsimp only
    rw [if_neg hfail]
    refine ⟨place, ⟨h.queued, h.size_eq, ?_, h.freed, ?_, ?_, h.wellFormed,
      h.entered.move rfl (by simp) (fun _ _ => rfl) h.owned, h.roomy⟩⟩
    · refine ⟨h.owned.born, fun m j => (h.owned.caller m j).trans ?_, h.owned.thread, h.owned.queue⟩
      exact (holds_update (by simp [hnone]) (by simp [CallLoc.holds])).symm
    · exact h.logged.frame rfl rfl rfl rfl (fun _ _ => rfl) (fun _ hp => hp)
    · refine h.answered.move rfl rfl (fun _ hm => hm) (fun _ hm => Or.inl hm) (fun _ hp => hp)
        (fun m status hx => absurd hx (by simp)) ?_
      intro r hr m hm
      rw [List.mem_singleton.1 hr] at hm ⊢
      obtain rfl := Option.some.inj hm
      obtain ⟨hu, hc⟩ := h.logged.place n (hsucc hstatus)
      exact ⟨hu, hc, by simp, fun hc => absurd hc (by simp)⟩

/-! ### The thread -/

theorem pending_of_holds {x : HandlerLoc} (hx : x.holds = none) : x.pending = [] := by
  cases x with
  | got n => exact absurd hx (by simp [HandlerLoc.holds])
  | _ => rfl

theorem Inv.moveThread {x : HandlerLoc} (h : Inv cfg room s l place) (hs : s.handler.holds = none)
    (hx : x.holds = none) : Inv cfg room { s with handler := x } l place := by
  refine ⟨h.queued, h.size_eq, ⟨h.owned.born, h.owned.caller, fun n => ?_, h.owned.queue⟩, h.freed, ?_, ?_,
    h.wellFormed, h.entered, h.roomy⟩
  · rw [h.owned.thread, hs, hx]
  · exact h.logged.frame rfl rfl rfl (by rw [pending_of_holds hs, pending_of_holds hx]) (fun _ _ => rfl)
      (fun _ hp => hp)
  · exact ⟨h.answered.returned, h.answered.unlocked⟩

theorem dequeue_nil (h : Inv cfg room s [] place) : s.rtThreadDequeueCmd = (none, s) := by
  unfold Sys.rtThreadDequeueCmd
  rw [show s.head = none from h.queued.1]

theorem dequeue_cons {n : ℕ} (h : Inv cfg room s (n :: l) place) :
    ∃ head tail size, s.rtThreadDequeueCmd = (some n, { s with head := head, tail := tail, size := size }) ∧
      Queued s.next head tail l ∧ size.toNat = l.length := by
  have hsize : (s.size - 1).toNat = l.length := by
    have hone : (1 : BitVec 32).toNat = 1 := rfl
    have hlt := s.size.isLt
    have heq := h.size_eq
    rw [List.length_cons] at heq
    rw [BitVec.toNat_sub, hone]
    omega
  have hhead : s.head = some n := h.queued.1.1
  unfold Sys.rtThreadDequeueCmd
  rw [hhead]
  refine ⟨s.next n, if s.size - 1 = 0 then none else s.tail, s.size - 1, rfl, ⟨h.queued.1.2, ?_⟩, hsize⟩
  by_cases h0 : s.size - 1 = 0
  · rw [if_pos h0]
    rw [h0] at hsize
    rw [List.length_eq_zero_iff.1 hsize.symm]
    rfl
  · rw [if_neg h0, h.queued.2]
    cases l with
    | nil => exact absurd (BitVec.eq_of_toNat_eq hsize) h0
    | cons m l => exact List.getLast?_cons_cons

theorem inv_dequeue (h : Inv cfg room s l place) (hs : s.handler = .lock) :
    ∃ s' l' place', step cfg room (some s) .dequeue = some s' ∧ Inv cfg room s' l' place' ∧
      (s'.handler = .idle → l' = []) := by
  have hnone : s.handler.holds = none := by
    rw [hs]
    rfl
  simp only [step, Option.bind_some]
  rw [if_pos hs]
  cases l with
  | nil =>
    rw [dequeue_nil h]
    exact ⟨_, [], place, rfl, h.moveThread hnone rfl, fun _ => rfl⟩
  | cons n l =>
    obtain ⟨head, tail, size, hdeq, hq, hsize⟩ := dequeue_cons h
    have hplace : place n = .queue := (h.owned.queue n).2 List.mem_cons_self
    have hn : n ∉ l := (List.nodup_cons.1 h.queued.1.nodup).1
    have hlt : n < s.allocated := by
      by_contra hc
      rw [(h.owned.born n).2 (by omega)] at hplace
      exact absurd hplace (by simp)
    have hsettled := settled_update place (n := n) (p := .thread) (Or.inr (Or.inr ⟨by simp, by simp⟩))
    rw [hdeq]
    refine ⟨_, l, Function.update place n .thread, rfl, ⟨hq, hsize, ?_, ?_, ?_, ?_, h.wellFormed, h.entered, h.roomy⟩,
      fun hc => absurd hc (by simp)⟩
    · refine h.owned.move hlt (by simp) (fun _ _ => Iff.rfl) (fun _ _ _ => Iff.rfl) (fun m hm => ?_)
        (fun m hm => by simp [hm]) (fun j => ?_) (by simp [HandlerLoc.holds]) (by simpa using hn)
      · rw [hnone]
        simp [HandlerLoc.holds, Ne.symm hm]
      · refine iff_of_false (by simp) fun hc => ?_
        rw [(h.owned.caller n j).2 hc] at hplace
        exact absurd hplace (by simp)
    · exact h.freed.move (by simp [hplace]) (by simp)
    · refine ⟨?_, h.logged.once, fun m hm => hsettled m (h.logged.place m hm), h.logged.executed⟩
      have hord := h.logged.order
      rw [pending_of_holds hnone] at hord
      exact hord
    · refine ⟨fun r hr m hm => ?_, h.answered.unlocked⟩
      obtain ⟨hu, hc, hf, hres⟩ := h.answered.returned r hr m hm
      exact ⟨(hsettled m ⟨hu, hc⟩).1, (hsettled m ⟨hu, hc⟩).2, hf, hres⟩

theorem hdlrIndex_lt {command : BitVec 32} (hknown : Known cfg command) (hvalid : validCMD cfg command = true) :
    hdlrIndex command < (cmdHdlrTable cfg).length := by
  have hlt := hknown hvalid
  have hidx : ((command - cmdThreadFirstCmdId).setWidth 16).toNat = hdlrIndex command := by
    rw [BitVec.toNat_setWidth]
    exact Nat.mod_eq_of_lt hlt
  unfold validCMD at hvalid
  dsimp only at hvalid
  split_ifs at hvalid with hrange
  obtain ⟨h0, hlen⟩ := hrange
  rw [BitVec.toInt_eq_toNat_cond, hidx] at h0 hlen
  split_ifs at h0 hlen
  · omega
  · omega

theorem inv_execute (h : Inv cfg room s l place) {n : ℕ} (hs : s.handler = .got n) (a b : Bool) :
    ∃ s', s.execute cfg n a b = some s' ∧ Inv cfg room s' l place ∧ s'.handler = .ran n := by
  have hord := h.logged.order
  rw [hs] at hord
  have hinv : ∀ executed, executed = s.executed ++
      (if !(a || b) && validCMD cfg (s.elmt n).command then [n] else []) →
      Inv cfg room { s with
        handler := .ran n
        disposed := s.disposed ++ [⟨n, (s.elmt n).command, .handled a b⟩]
        executed := executed } l place := by
    rintro _ rfl
    refine ⟨h.queued, h.size_eq, ⟨h.owned.born, h.owned.caller, fun m => ?_, h.owned.queue⟩, h.freed, ?_, ?_,
      h.wellFormed, h.entered, h.roomy⟩
    · rw [h.owned.thread, hs]
      rfl
    · refine ⟨?_, h.logged.once, h.logged.place, ?_⟩
      · show s.accepted = _
        rw [hord]
        simp [HandlerLoc.pending]
      · show s.executed ++ _ = _
        rw [h.logged.executed, List.filter_append, List.map_append]
        refine congrArg _ ?_
        rw [List.filter_cons, List.filter_nil]
        unfold Disposal.runs
        dsimp only
        split_ifs <;> rfl
    · exact ⟨h.answered.returned, h.answered.unlocked⟩
  unfold Sys.execute
  dsimp only
  by_cases hrun : (!(a || b) && validCMD cfg (s.elmt n).command) = true
  · have hvalid : validCMD cfg (s.elmt n).command = true := (Bool.and_eq_true_iff.1 hrun).2
    rw [if_pos hrun, if_pos (hdlrIndex_lt (h.wellFormed.known n) hvalid)]
    exact ⟨_, rfl, hinv _ (by rw [if_pos hrun]), rfl⟩
  · rw [if_neg hrun]
    exact ⟨_, rfl, hinv s.executed (by rw [if_neg hrun, List.append_nil]), rfl⟩

theorem freeCmd_eq (hwf : WellFormed cfg s.elmt) (n : ℕ) :
    ∃ b : Bool, (b = true ↔ (s.elmt n).buffer ≠ none) ∧ s.freeCmd n = { s with
      freedBuffers := if b then s.freedBuffers ++ [n] else s.freedBuffers
      freedElmts := s.freedElmts ++ [n] } := by
  refine ⟨_, ?_, rfl⟩
  have hlen := hwf.length n
  split_ifs with hndis
  · exact Option.isSome_iff_ne_none
  · rw [Bool.and_eq_true, Option.isSome_iff_ne_none]
    refine ⟨fun hc => hc.1, fun hc => ⟨hc, ?_⟩⟩
    simpa using hlen (by simpa using hndis) hc

theorem Inv.free {n : ℕ} {l' : List ℕ} {s' : Sys} {b : Bool} (h : Inv cfg room s l place)
    (hplace : place n = .queue ∨ place n = .thread) (hb : b = true ↔ (s.elmt n).buffer ≠ none)
    (hqueued : Queued s'.next s'.head s'.tail l') (hsize : s'.size.toNat = l'.length)
    (hmem : ∀ m, m ∈ l' ↔ m ≠ n ∧ m ∈ l)
    (hthread : ∀ m, s'.handler.holds = some m ↔ m ≠ n ∧ s.handler.holds = some m)
    (hsame : s'.allocated = s.allocated ∧ s'.loc = s.loc ∧ s'.elmt = s.elmt ∧ s'.accepted = s.accepted ∧
      s'.executed = s.executed ∧ s'.returned = s.returned) (helmts : s'.freedElmts = s.freedElmts ++ [n])
    (hbuffers : s'.freedBuffers = if b then s.freedBuffers ++ [n] else s.freedBuffers)
    (horder : s'.accepted = s'.disposed.map (fun d => (d.elmt, d.command)) ++
      (s'.handler.pending ++ l').map fun n => (n, (s'.elmt n).command))
    (hexec : s'.executed = (s'.disposed.filter (Disposal.runs cfg)).map Disposal.elmt) :
    Inv cfg room s' l' (Function.update place n .gone) := by
  obtain ⟨halloc, hloc, helmt, hacc, hexe, hret⟩ := hsame
  have hids : s'.acceptedIds = s.acceptedIds := by
    unfold Sys.acceptedIds
    rw [hacc]
  have hsettled := settled_update place (n := n) (p := .gone) (Or.inr (Or.inr ⟨by simp, by simp⟩))
  have hlt : n < s.allocated := by
    by_contra hc
    rw [(h.owned.born n).2 (by omega)] at hplace
    exact absurd hplace (by simp)
  refine ⟨hqueued, hsize, ?_, ?_, ⟨horder, ?_, fun m hm => ?_, hexec⟩, ?_, ?_, ?_, ?_⟩
  · rw [halloc, hloc]
    refine h.owned.move hlt (by simp) (fun _ _ => Iff.rfl) (fun _ _ _ => Iff.rfl) (fun m hm => by simp [hthread, hm])
      (fun m hm => by simp [hmem, hm]) (fun j => ?_) (by simp [hthread]) (by simp [hmem])
    refine iff_of_false (by simp) fun hc => ?_
    rw [(h.owned.caller n j).2 hc] at hplace
    exact absurd hplace (by simp)
  · rw [helmts, hbuffers, helmt]
    refine h.freed.free ?_ hb
    rcases hplace with hp | hp <;> simp [hp]
  · rw [hids]
    exact h.logged.once
  · rw [hids] at hm
    exact hsettled m (h.logged.place m hm)
  · refine ⟨fun r hr m hm => ?_, fun i m status hi => ?_⟩
    · rw [hret] at hr
      obtain ⟨hu, hc, hf, hres⟩ := h.answered.returned r hr m hm
      rw [hids]
      exact ⟨(hsettled m ⟨hu, hc⟩).1, (hsettled m ⟨hu, hc⟩).2, hf, hres⟩
    · rw [hids]
      exact h.answered.unlocked i m status (hloc ▸ hi)
  · rw [helmt]
    exact h.wellFormed
  · intro i c m hi
    rw [helmt]
    exact h.entered i c m (hloc ▸ hi)
  · rw [halloc, helmts, List.length_append]
    exact h.roomy.trans (by omega)

theorem inv_free (h : Inv cfg room s l place) {n : ℕ} (hs : s.handler = .ran n) :
    ∃ place', Inv cfg room { s.freeCmd n with handler := .test } l place' := by
  obtain ⟨b, hb, hfree⟩ := freeCmd_eq h.wellFormed n
  have hplace : place n = .thread := (h.owned.thread n).2 (by rw [hs]; rfl)
  have hnl : n ∉ l := by
    intro hc
    rw [(h.owned.queue n).2 hc] at hplace
    exact absurd hplace (by simp)
  have hord := h.logged.order
  rw [hs] at hord
  rw [hfree]
  refine ⟨Function.update place n .gone, h.free (Or.inr hplace) hb h.queued h.size_eq (fun m => ?_) (fun m => ?_)
    ⟨rfl, rfl, rfl, rfl, rfl, rfl⟩ rfl rfl hord h.logged.executed⟩
  · refine ⟨fun hm => ⟨?_, hm⟩, fun hm => hm.2⟩
    rintro rfl
    exact hnl hm
  · rw [hs]
    refine iff_of_false (by simp [HandlerLoc.holds]) ?_
    rintro ⟨hm, hc⟩
    exact hm (Option.some.inj hc).symm

theorem inv_clear (fuel : ℕ) (h : Inv cfg room s l place) (hs : s.handler = .idle) (hfuel : l.length ≤ fuel) :
    ∃ s' place', Sys.clearQueue fuel s = some s' ∧ Inv cfg room s' [] place' ∧ s'.handler = .idle := by
  induction fuel generalizing s l place with
  | zero =>
    obtain rfl := List.length_eq_zero_iff.1 (Nat.le_zero.1 hfuel)
    have h0 : s.size = 0 := BitVec.eq_of_toNat_eq h.size_eq
    exact ⟨s, place, if_pos h0, h, hs⟩
  | succ fuel ih =>
    unfold Sys.clearQueue
    cases l with
    | nil =>
      have h0 : s.size = 0 := BitVec.eq_of_toNat_eq h.size_eq
      exact ⟨s, place, if_pos h0, h, hs⟩
    | cons n l =>
      have h0 : s.size ≠ 0 := by
        intro hc
        have heq := h.size_eq
        rw [hc] at heq
        exact absurd heq (by simp)
      obtain ⟨head, tail, size, hdeq, hq, hsize⟩ := dequeue_cons h
      have hplace : place n = .queue := (h.owned.queue n).2 List.mem_cons_self
      have hn : n ∉ l := (List.nodup_cons.1 h.queued.1.nodup).1
      have hord := h.logged.order
      obtain ⟨b, hb, hfree⟩ := freeCmd_eq
        (s := { s with head := head, tail := tail, size := size }) h.wellFormed n
      rw [hs] at hord
      rw [if_neg h0, hdeq]
      dsimp only
      rw [hfree]
      refine @ih _ l (Function.update place n .gone) (h.free (Or.inl hplace) hb hq hsize (fun m => ?_) (fun m => ?_)
        ⟨rfl, rfl, rfl, rfl, rfl, rfl⟩ rfl rfl ?_ ?_) hs (by simpa using hfuel)
      · rw [List.mem_cons]
        refine ⟨fun hm => ⟨?_, Or.inr hm⟩, fun hm => hm.2.resolve_left hm.1⟩
        rintro rfl
        exact hn hm
      · rw [hs]
        simp [HandlerLoc.holds]
      · show s.accepted = _
        rw [hord, hs]
        simp [HandlerLoc.pending]
      · show s.executed = _
        rw [h.logged.executed, List.filter_append]
        simp [Disposal.runs]

/-! ### Runs -/

def KnownCall (cfg : BuildCfg) : Op → Prop
  | .call _ c _ _ _ => Known cfg c.oid
  | _ => True

/-- `CMDHandler` is left only when the queue is empty. -/
def LeavesEmpty (s s' : Sys) : Prop := s.handler ≠ .idle → s'.handler = .idle → s'.head = none

theorem handler_insert {s' : Sys} {i n : ℕ} (h : s.insert i n = some s') : s'.handler = s.handler := by
  unfold Sys.insert Sys.enqueueCmd at h
  split_ifs at h
  · simp only [Option.map_some, Option.some.injEq] at h
    rw [← h]
  · cases ht : s.tail with
    | none =>
      rw [ht] at h
      exact absurd h (by simp)
    | some c =>
      rw [ht] at h
      simp only [Option.map_some, Option.some.injEq] at h
      rw [← h]
  · rw [← Option.some.inj h]

theorem inv_step (hroom : room < 2 ^ 32) (h : Inv cfg room s l place) {op : Op} (hknown : KnownCall cfg op) :
    ∃ s' l' place', step cfg room (some s) op = some s' ∧ Inv cfg room s' l' place' ∧ LeavesEmpty s s' := by
  have hstay : ∃ s' l' place', some s = some s' ∧ Inv cfg room s' l' place' ∧ LeavesEmpty s s' :=
    ⟨s, l, place, rfl, h, fun hne he => absurd he hne⟩
  cases op with
  | call i c legal ok stale =>
    simp only [step, Option.bind_some]
    cases hi : s.loc i with
    | idle =>
      obtain ⟨place', hinv⟩ := inv_call h hi hknown legal ok stale
      refine ⟨_, l, place', rfl, hinv, fun hne he => absurd ?_ hne⟩
      rw [← he]
      unfold Sys.call
      split
      · rfl
      · rfl
    | _ => exact hstay
  | allocBuffer i ok =>
    simp only [step, Option.bind_some]
    cases hi : s.loc i with
    | element c n =>
      obtain ⟨place', hinv⟩ := inv_allocBuffer h hi ok
      refine ⟨_, l, place', rfl, hinv, fun hne he => absurd ?_ hne⟩
      rw [← he]
      unfold Sys.allocBuffer
      split
      · rfl
      · rfl
    | _ => exact hstay
  | insert i =>
    simp only [step, Option.bind_some]
    cases hi : s.loc i with
    | filled n =>
      obtain ⟨s', l', place', hs', hinv⟩ := inv_insert h hroom hi
      refine ⟨s', l', place', hs', hinv, fun hne he => absurd ?_ hne⟩
      rw [← he]
      exact (handler_insert hs').symm
    | _ => exact hstay
  | finish i =>
    simp only [step, Option.bind_some]
    cases hi : s.loc i with
    | unlocked n status =>
      obtain ⟨place', hinv⟩ := inv_finish h hi
      refine ⟨_, l, place', rfl, hinv, fun hne he => absurd ?_ hne⟩
      rw [← he]
      unfold Sys.finish
      dsimp only
      split
      · rfl
      · rfl
    | _ => exact hstay
  | wake =>
    simp only [step, Option.bind_some]
    by_cases hs : s.handler = .idle
    · rw [if_pos hs]
      exact ⟨_, l, place, rfl, h.moveThread (by rw [hs]; rfl) rfl, fun hne => absurd hs hne⟩
    · rw [if_neg hs]
      exact hstay
  | test =>
    simp only [step, Option.bind_some]
    by_cases hs : s.handler = .test
    · have hnone : s.handler.holds = none := by
        rw [hs]
        rfl
      rw [if_pos hs]
      by_cases h0 : s.size = 0
      · rw [if_pos h0]
        refine ⟨_, l, place, rfl, h.moveThread hnone rfl, fun _ _ => ?_⟩
        have heq := h.size_eq
        rw [h0] at heq
        exact h.queued.head_eq_none.2 (List.length_eq_zero_iff.1 heq.symm)
      · rw [if_neg h0]
        exact ⟨_, l, place, rfl, h.moveThread hnone rfl, fun _ hc => absurd hc (by simp)⟩
    · rw [if_neg hs]
      exact hstay
  | dequeue =>
    by_cases hs : s.handler = .lock
    · obtain ⟨s', l', place', hstep, hinv, hempty⟩ := inv_dequeue h hs
      exact ⟨s', l', place', hstep, hinv, fun _ he => hinv.queued.head_eq_none.2 (hempty he)⟩
    · simp only [step, Option.bind_some]
      rw [if_neg hs]
      exact hstay
  | execute a b =>
    simp only [step, Option.bind_some]
    cases hs : s.handler with
    | got n =>
      obtain ⟨s', hs', hinv, hran⟩ := inv_execute h hs a b
      exact ⟨s', l, place, hs', hinv, fun _ he => absurd (hran.symm.trans he) (by simp)⟩
    | _ => exact hstay
  | free =>
    simp only [step, Option.bind_some]
    cases hs : s.handler with
    | ran n =>
      obtain ⟨place', hinv⟩ := inv_free h hs
      exact ⟨_, l, place', rfl, hinv, fun _ hc => absurd hc (by simp)⟩
    | _ => exact hstay
  | endThread =>
    simp only [step, Option.bind_some]
    by_cases hs : s.handler = .idle
    · rw [if_pos hs]
      obtain ⟨s', place', hs', hinv, -⟩ :=
        inv_clear (s := { s with cmdQState := taskStatStoped }) s.size.toNat
          ⟨h.queued, h.size_eq, h.owned, h.freed, h.logged.frame rfl rfl rfl rfl (fun _ _ => rfl) (fun _ hp => hp),
            ⟨h.answered.returned, h.answered.unlocked⟩, h.wellFormed, h.entered, h.roomy⟩ hs h.size_eq.ge
      exact ⟨s', [], place', hs', hinv, fun hne => absurd hs hne⟩
    · rw [if_neg hs]
      exact hstay
  | setState cmdQState =>
    exact ⟨_, l, place, rfl, ⟨h.queued, h.size_eq, h.owned, h.freed,
      h.logged.frame rfl rfl rfl rfl (fun _ _ => rfl) (fun _ hp => hp),
      ⟨h.answered.returned, h.answered.unlocked⟩, h.wellFormed, h.entered, h.roomy⟩, fun hne he => absurd he hne⟩

end Inv

/-- The system is in order, and the next step does not leave `CMDHandler` before the queue is empty. -/
def InOrder (cfg : BuildCfg) (room : ℕ) (s : Option Sys) : Prop := ∃ t l place, s = some t ∧ Inv cfg room t l place

/-- **The command queue.** In every run of enqueueing contexts, allocation failures, disabled states and runs of
`CMDHandler`, the queue is intact; accepted commands leave it once, in the order in which they were accepted; those
that the thread takes out while the device is there are executed if they are valid; element and buffer are freed once;
and the thread leaves `CMDHandler` only when the queue is empty. There is room for fewer than `2 ^ 32` elements in
memory. -/
theorem orderly_run (cfg : BuildCfg) {room : ℕ} (hroom : room < 2 ^ 32) (ops : List Op)
    (hops : ∀ op ∈ ops, KnownCall cfg op) :
    ∃ s, run (step cfg room) (some rtInitializeCmdQ) ops = some s ∧ Orderly cfg s ∧
      ∀ op, KnownCall cfg op → ∃ s', step cfg room (some s) op = some s' ∧ LeavesEmpty s s' := by
  have hinv : InOrder cfg room (run (step cfg room) (some rtInitializeCmdQ) ops) := by
    induction ops using List.reverseRecOn with
    | nil => exact ⟨_, [], _, rfl, inv_init⟩
    | append_singleton ops op ih =>
      obtain ⟨s, l, place, hs, hinv⟩ := ih fun op hop => hops op (List.mem_append_left _ hop)
      obtain ⟨s', l', place', hs', hinv', -⟩ := inv_step hroom hinv (hops op (by simp))
      rw [run_append, hs]
      exact ⟨s', l', place', hs', hinv'⟩
  obtain ⟨s, l, place, hs, hinv⟩ := hinv
  refine ⟨s, hs, hinv.orderly, fun op hop => ?_⟩
  obtain ⟨s', -, -, hs', -, hleaves⟩ := inv_step hroom hinv hop
  exact ⟨s', hs', hleaves⟩

def fullCfg : BuildCfg := ⟨true, true, true⟩

/-- `CMDTHREAD_RESET_BULK_IN` is enqueued, and the thread takes it out. -/
def resetBulkIn (nicNotExist : Bool) : List Op := [
  .call 0 ⟨false, 0x0D730102, false, none⟩ true true none, .allocBuffer 0 true, .insert 0, .finish 0,
  .wake, .test, .dequeue, .execute nicNotExist false, .free, .test]

theorem orderly_resetBulkIn : ∃ s, run (step fullCfg 1000) (some rtInitializeCmdQ) (resetBulkIn false) = some s ∧
    Orderly fullCfg s ∧ ∀ op, KnownCall fullCfg op → ∃ s', step fullCfg 1000 (some s) op = some s' ∧ LeavesEmpty s s' := by
  refine orderly_run fullCfg (by decide) (resetBulkIn false) fun op hop => ?_
  simp only [resetBulkIn, List.mem_cons, List.not_mem_nil, or_false] at hop
  rcases hop with rfl | rfl | rfl | rfl | rfl | rfl | rfl | rfl | rfl | rfl
  · exact fun _ => by decide
  all_goals trivial

/-- When `CMDHandler` has emptied the queue, all accepted commands have been executed. -/
def ExecutedAll (s : Sys) : Prop := s.handler = .idle → s.head = none → s.executed = s.acceptedIds

/-- A command that is taken out when the device has gone is freed, not executed. -/
theorem not_executedAll_unplugged : ¬∀ s,
    run (step fullCfg 1000) (some rtInitializeCmdQ) (resetBulkIn true) = some s → ExecutedAll s := by
  intro h
  have hall : ([] : List ℕ) = [0] := h _ rfl rfl rfl
  exact absurd hall (by decide)

end Mt7610u.Task.Cmd
