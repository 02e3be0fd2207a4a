import Mathlib.Data.List.FinRange
import Mt7610u.Lib.Chain
import Mt7610u.Lib.Runs

/-! # The timer queue

Expired timers are handed to a task through a queue of entries from a fixed pool. `RtmpTimerQInsert` and
`RtmpTimerQRemove` work under the queue's lock; the task takes an entry out under the lock and runs the
timer's handler without. It tests the head of the queue before it takes the lock, and the timer it holds is
a local variable that is cleared once for each time it wakes up, not for each entry. -/

namespace Mt7610u.Task

open Lib.Chain Lib.Runs

/-! ### The queue -/

abbrev timerQueueSizeMax : ℕ := 128

abbrev Entry : Type := Fin timerQueueSizeMax

def taskStatInited : ℕ := 1

def taskStatRunning : ℕ := 2

def taskStatStoped : ℕ := 4

def taskCanDoInsert : ℕ := taskStatInited ||| taskStatRunning

/-- `RTMP_TIMER_TASK_QUEUE` with the fields `pRaTimer` and `pNext` of its pool's entries; `τ` are the
addresses of timers. -/
structure TimerQ (τ : Type) where
  status : ℕ
  pQPollFreeList : Option Entry
  pQHead : Option Entry
  pQTail : Option Entry
  pRaTimer : Entry → Option τ
  pNext : Entry → Option Entry

variable {τ : Type}

/-- `RtmpTimerQInit`, the pool being allocated: the loop threads the entries, each before the ones that
come earlier in the pool. -/
def rtmpTimerQInit : TimerQ τ :=
  let c := (List.finRange timerQueueSizeMax).foldl
    (fun c pQNode => (Function.update c.1 pQNode c.2, some pQNode))
    ((fun _ => none : Entry → Option Entry), (none : Option Entry))
  { status := taskStatInited
    pQPollFreeList := c.2
    pQHead := none
    pQTail := none
    pRaTimer := fun _ => none
    pNext := c.1 }

/-- `RtmpTimerQInsert`: the queue and the entry that was used, if any. -/
def rtmpTimerQInsert (q : TimerQ τ) (pTimer : τ) : TimerQ τ × Option Entry :=
  if q.status &&& taskCanDoInsert ≠ 0 then
    match q.pQPollFreeList with
    | none => (q, none)
    | some pQNode =>
      ({ q with
          pQPollFreeList := q.pNext pQNode
          pRaTimer := Function.update q.pRaTimer pQNode (some pTimer)
          pNext := snocNext q.pNext q.pQTail pQNode
          pQTail := some pQNode
          pQHead := if q.pQHead = none then some pQNode else q.pQHead }, some pQNode)
  else (q, none)

def TimerQ.release (q : TimerQ τ) (pNode : Entry) : TimerQ τ :=
  { q with
    pNext := Function.update q.pNext pNode q.pQPollFreeList
    pQPollFreeList := some pNode }

/-- `RtmpTimerQRemove`: the queue and the entry that was taken out, if any; `none` if the loop over the
queue does not end. -/
def rtmpTimerQRemove [DecidableEq τ] (q : TimerQ τ) (pTimer : τ) : Option (TimerQ τ × Option Entry) :=
  if taskStatInited ≤ q.status then
    match walk (stepPred q.pNext) (fun x => decide (q.pRaTimer x.2 = some pTimer)) timerQueueSizeMax
        (q.pQHead.map fun pNode => (none, pNode)) with
    | none => none
    | some none => some (q, none)
    | some (some (pPrev, pNode)) =>
      some (TimerQ.release { q with
        pQHead := if some pNode = q.pQHead then q.pNext pNode else q.pQHead
        pQTail := if some pNode = q.pQTail then pPrev else q.pQTail
        pNext := unlinkNext q.pNext pPrev pNode } pNode, some pNode)
  else some (q, none)

/-- The locked section of `RtmpTimerQHandle`: the queue and the entry that was taken out, if any. -/
def rtmpTimerQTake (q : TimerQ τ) : TimerQ τ × Option Entry :=
  match q.pQHead with
  | none => (q, none)
  | some pEntry =>
    (TimerQ.release { q with
      pQHead := q.pNext pEntry
      pQTail := if some pEntry = q.pQTail then none else q.pQTail } pEntry, some pEntry)

/-! ### The task and the contexts around it -/

/-- What the task reads of a `RALINK_TIMER_STRUCT`; `handle` says whether the pointer is set. -/
structure RalinkTimer where
  handle : Bool
  repeats : Bool
  state : Bool
  timerValue : ℕ

/-- Where the task is in `RtmpTimerQHandle`: at the head of its outer loop, at the test of the inner one,
before the lock, behind the lock, or out of the loops. -/
inductive Pc
  | wait
  | test
  | lock
  | handle
  | done
  deriving DecidableEq

structure Round (τ : Type) where
  insertion : ℕ
  timer : τ
  called : Bool
  deriving DecidableEq

structure Sys (τ : Type) where
  q : TimerQ τ
  timers : τ → RalinkTimer
  pmFlgSuspend : Bool
  haltInProgress : Bool
  pc : Pc
  pTimer : Option τ
  status : ℤ
  -- timers inserted, and the insertion an entry serves
  inserted : List τ
  stamp : Entry → ℕ
  -- insertions that were removed, and that were taken out by the task
  removed : List ℕ
  taken : List ℕ
  -- the insertion that `pTimer` came from
  origin : ℕ
  rounds : List (Round τ)
  -- calls of `RTMP_OS_Add_Timer` by the task
  added : List (τ × ℕ)
  -- a call that does not return
  hung : Bool

/-- The steps. `wait` is the head of the outer loop up to the inner one, with what
`RTMP_OS_TASK_IS_KILLED` and `RtmpOSTaskWait` answer. -/
inductive Op (τ : Type)
  | insert (pTimer : τ)
  | remove (pTimer : τ)
  | wait (killed ok : Bool) (status : ℤ)
  | test
  | take
  | handle
  -- others write a timer's fields or `PM_FlgSuspend`
  | write (pTimer : τ) (fields : RalinkTimer)
  | suspend (b : Bool)

/-- At the start: the queue after `RtmpTimerQInit`, the task before its loop. -/
def Sys.init (timers : τ → RalinkTimer) : Sys τ :=
  { q := rtmpTimerQInit
    timers := timers
    pmFlgSuspend := false
    haltInProgress := false
    pc := .wait
    pTimer := none
    status := 0
    inserted := []
    stamp := fun _ => 0
    removed := []
    taken := []
    origin := 0
    rounds := []
    added := []
    hung := false }

namespace Sys

def insert (s : Sys τ) (pTimer : τ) : Sys τ :=
  match rtmpTimerQInsert s.q pTimer with
  | (_, none) => s
  | (q, some e) =>
    { s with
      q := q
      stamp := Function.update s.stamp e s.inserted.length
      inserted := s.inserted ++ [pTimer] }

def remove [DecidableEq τ] (s : Sys τ) (pTimer : τ) : Sys τ :=
  match rtmpTimerQRemove s.q pTimer with
  | none => { s with hung := true }
  | some (_, none) => s
  | some (q, some e) => { s with q := q, removed := s.removed ++ [s.stamp e] }

def wait (s : Sys τ) (killed ok : Bool) (status : ℤ) : Sys τ :=
  if killed then { s with pc := .done }
  else if !ok then { s with pTimer := none, status := status, haltInProgress := true, pc := .done }
  else if s.q.status = taskStatStoped then { s with pTimer := none, status := status, pc := .done }
  else { s with pTimer := none, status := status, pc := .test }

def test (s : Sys τ) : Sys τ :=
  if s.q.pQHead ≠ none then { s with pc := .lock }
  else if s.status ≠ 0 then
    { s with q := { s.q with status := taskStatStoped }, haltInProgress := true, pc := .done }
  else { s with pc := .wait }

def take (s : Sys τ) : Sys τ :=
  match rtmpTimerQTake s.q with
  | (_, none) => { s with pc := .handle }
  | (q, some e) =>
    { s with
      q := q
      pc := .handle
      pTimer := s.q.pRaTimer e
      taken := s.taken ++ [s.stamp e]
      origin := s.stamp e }

def handle (s : Sys τ) : Sys τ :=
  match s.pTimer with
  | none => { s with pc := .test }
  | some t =>
    { s with
      pc := .test
      rounds := s.rounds ++
        [{ insertion := s.origin, timer := t, called := (s.timers t).handle && !s.pmFlgSuspend }]
      added := if (s.timers t).repeats && !(s.timers t).state
        then s.added ++ [(t, (s.timers t).timerValue)] else s.added }

/-- One step; a step of the task that is not at that place changes nothing. -/
def step [DecidableEq τ] (s : Sys τ) : Op τ → Sys τ
  | .insert t => s.insert t
  | .remove t => s.remove t
  | .wait killed ok status => if s.pc = .wait then s.wait killed ok status else s
  | .test => if s.pc = .test then s.test else s
  | .take => if s.pc = .lock then s.take else s
  | .handle => if s.pc = .handle then s.handle else s
  | .write t fields => { s with timers := Function.update s.timers t fields }
  | .suspend b => { s with pmFlgSuspend := b }

/-- The insertions whose handlers were called, in the order of the calls. -/
def runs (s : Sys τ) : List (ℕ × τ) := (s.rounds.filter Round.called).map fun r => (r.insertion, r.timer)

end Sys

/-! ### The pool -/

/-- The entries of the pool are queued, in the order `pending` with `pQTail` the last, or on the free
list. -/
structure Pool (q : TimerQ τ) (pending free : List Entry) : Prop where
  queued : Queued q.pNext q.pQHead q.pQTail pending
  unused : Linked q.pNext q.pQPollFreeList free
  each : (pending ++ free).Perm (List.finRange timerQueueSizeMax)

variable {q q' : TimerQ τ} {pending free : List Entry} {t : τ} {e : Entry}

theorem pool_init : Pool (rtmpTimerQInit : TimerQ τ) [] (List.finRange timerQueueSizeMax).reverse := by
  refine ⟨⟨rfl, rfl⟩, ?_, ?_⟩
  · have h : Linked (fun _ => none : Entry → Option Entry) none [] := rfl
    have := linked_foldl_push (List.finRange timerQueueSizeMax) h
      (by rw [List.append_nil]; exact List.nodup_finRange _)
    rw [List.append_nil] at this
    exact this
  · rw [List.nil_append]
    exact List.reverse_perm _

theorem Pool.nodup (h : Pool q pending free) : (pending ++ free).Nodup := h.each.nodup_iff.2 (List.nodup_finRange _)

theorem Pool.not_mem_free (h : Pool q pending free) (he : e ∈ pending) : e ∉ free := by
  intro hf
  exact (List.nodup_append.1 h.nodup).2.2 e he e hf rfl

theorem Pool.length_pending_le (h : Pool q pending free) : pending.length ≤ timerQueueSizeMax := by
  have := h.each.length_eq
  rw [List.length_append, List.length_finRange] at this
  omega

theorem pool_release (hq : Queued q.pNext q.pQHead q.pQTail pending) (hf : Linked q.pNext q.pQPollFreeList free)
    (heach : (e :: (pending ++ free)).Perm (List.finRange timerQueueSizeMax)) :
    Pool (q.release e) pending (e :: free) := by
  have hnd : (e :: (pending ++ free)).Nodup := heach.nodup_iff.2 (List.nodup_finRange _)
  have he := (List.nodup_cons.1 hnd).1
  rw [List.mem_append, not_or] at he
  refine ⟨⟨linked_update hq.1 he.1, hq.2⟩, hf.push he.2, ?_⟩
  exact List.perm_middle.trans heach

theorem rtmpTimerQInsert_some (h : Pool q pending free) (hi : rtmpTimerQInsert q t = (q', some e)) :
    ∃ free', free = e :: free' ∧ Pool q' (pending ++ [e]) free' ∧
      q'.pRaTimer = Function.update q.pRaTimer e (some t) := by
  unfold rtmpTimerQInsert at hi
  split at hi
  · cases hp : q.pQPollFreeList with
    | none =>
      rw [hp] at hi
      exact absurd (congrArg Prod.snd hi) (by simp)
    | some n =>
      rw [hp] at hi
      obtain ⟨rfl, hn⟩ := Prod.mk.inj hi
      obtain rfl : n = e := Option.some.inj hn
      have hf := h.unused
      rw [hp] at hf
      cases free with
      | nil => exact absurd hf (by simp)
      | cons b free =>
        obtain rfl : n = b := Option.some.inj hf.1
        have hnp : n ∉ pending := fun hm => h.not_mem_free hm List.mem_cons_self
        have hnf : n ∉ free := (List.nodup_cons.1 (List.nodup_append.1 h.nodup).2.1).1
        refine ⟨free, rfl, ⟨h.queued.snoc hnp, ?_, ?_⟩, rfl⟩
        · refine linked_snocNext hf.2 hnf ?_
          intro c hc hcf
          have hcp : c ∈ pending := List.mem_of_getLast? (h.queued.2.symm.trans hc)
          exact h.not_mem_free hcp (List.mem_cons_of_mem n hcf)
        · rw [List.append_assoc]
          exact h.each
  · exact absurd (congrArg Prod.snd hi) (by simp)

theorem rtmpTimerQTake_none (ht : rtmpTimerQTake q = (q', none)) : q.pQHead = none := by
  unfold rtmpTimerQTake at ht
  split at ht
  · assumption
  · exact absurd (congrArg Prod.snd ht) (by simp)

theorem rtmpTimerQTake_some (h : Pool q pending free) (ht : rtmpTimerQTake q = (q', some e)) :
    ∃ pending', pending = e :: pending' ∧ Pool q' pending' (e :: free) ∧ q'.pRaTimer = q.pRaTimer := by
  unfold rtmpTimerQTake at ht
  split at ht
  · exact absurd (congrArg Prod.snd ht) (by simp)
  · next n hn =>
    obtain ⟨rfl, hne⟩ := Prod.mk.inj ht
    obtain rfl : n = e := Option.some.inj hne
    have hq := h.queued
    rw [hn] at hq
    obtain ⟨pending', rfl, hq'⟩ := hq.pop
    exact ⟨pending', rfl, pool_release hq' h.unused h.each, rfl⟩

theorem rtmpTimerQRemove_cases [DecidableEq τ] (h : Pool q pending free) (t : τ) :
    rtmpTimerQRemove q t = some (q, none) ∨
      ∃ q' e l₁ l₂, rtmpTimerQRemove q t = some (q', some e) ∧ pending = l₁ ++ e :: l₂ ∧
        Pool q' (l₁ ++ l₂) (e :: free) ∧ q'.pRaTimer = q.pRaTimer := by
  unfold rtmpTimerQRemove
  split
  · by_cases hex : ∃ e ∈ pending, q.pRaTimer e = some t
    · obtain ⟨l₁, e, l₂, rfl, he, hl₁⟩ : ∃ l₁ e l₂, pending = l₁ ++ e :: l₂ ∧
          decide (q.pRaTimer e = some t) = true ∧ ∀ b ∈ l₁, decide (q.pRaTimer b = some t) = false := by
        obtain ⟨e, hmem, he⟩ := hex
        obtain ⟨a, ha⟩ := Option.isSome_iff_exists.1
          (List.find?_isSome (p := fun b => decide (q.pRaTimer b = some t)).2 ⟨e, hmem, by simpa using he⟩)
        obtain ⟨hpa, l₁, l₂, hsplit, hl₁⟩ := List.find?_eq_some_iff_append.1 ha
        exact ⟨l₁, a, l₂, hsplit, hpa, fun b hb => by simpa using hl₁ b hb⟩
      have hlen := h.length_pending_le
      rw [List.length_append, List.length_cons] at hlen
      have hwalk := walk_pred_stop (fun b => decide (q.pRaTimer b = some t)) (n := timerQueueSizeMax)
        (q := none) h.queued.1 (by omega) hl₁ he
      rw [Option.or_none] at hwalk
      rw [hwalk]
      refine Or.inr ⟨_, e, l₁, l₂, rfl, rfl, ?_, rfl⟩
      have hpf : ∀ c, l₁.getLast? = some c → c ∉ free := fun c hc =>
        h.not_mem_free (List.mem_append_left _ (List.mem_of_getLast? hc))
      refine pool_release (q := { q with
        pQHead := if some e = q.pQHead then q.pNext e else q.pQHead
        pQTail := if some e = q.pQTail then l₁.getLast? else q.pQTail
        pNext := unlinkNext q.pNext l₁.getLast? e }) h.queued.unlink
        (linked_unlinkNext h.unused hpf) ?_
      have hmid : (e :: (l₁ ++ l₂ ++ free)).Perm (l₁ ++ e :: l₂ ++ free) := by
        rw [List.append_assoc, List.append_assoc, List.cons_append]
        exact List.perm_middle.symm
      exact hmid.trans h.each
    · have hnone : ∀ b ∈ pending, decide (q.pRaTimer b = some t) = false := by
        intro b hb
        simp only [decide_eq_false_iff_not]
        intro he
        exact hex ⟨b, hb, he⟩
      have hwalk := walk_pred_none (fun b => decide (q.pRaTimer b = some t)) (n := timerQueueSizeMax)
        (q := none) h.queued.1 h.length_pending_le hnone
      rw [hwalk]
      exact Or.inl rfl
  · exact Or.inl rfl

/-! ### What holds along a run -/

namespace Sys

def inHand (s : Sys τ) : List ℕ := if s.pc = .handle ∧ s.pTimer ≠ none then [s.origin] else []

end Sys

structure Accounted (s : Sys τ) (pending : List Entry) : Prop where
  carries : ∀ e ∈ pending, s.q.pRaTimer e = s.inserted[s.stamp e]?
  account : (s.taken ++ s.removed ++ pending.map s.stamp).Perm (List.range s.inserted.length)
  ordered : (s.taken ++ pending.map s.stamp).Pairwise (· < ·)
  handled : s.taken = s.rounds.map Round.insertion ++ s.inHand
  own : ∀ r ∈ s.rounds, s.inserted[r.insertion]? = some r.timer

/-- The queue and the free list hold each entry once, no call hangs, the pending entries are in the order
of their insertions, and handlers are called in that order, at most once for an insertion, and not for one
that was removed. -/
def Orderly (s : Sys τ) : Prop :=
  s.hung = false ∧ ∃ pending free, Pool s.q pending free ∧ Accounted s pending ∧
    (s.runs.map Prod.fst ++ pending.map s.stamp).Pairwise (· < ·) ∧
    ∀ r ∈ s.runs, s.inserted[r.1]? = some r.2 ∧ r.1 ∉ s.removed

/-- The condition: when the task finds the queue empty under the lock, it holds no timer. -/
def Fresh (s : Sys τ) : Op τ → Prop
  | .take => s.pc = .lock → s.q.pQHead = none → s.pTimer = none
  | _ => True

structure Inv (s : Sys τ) (pending free : List Entry) : Prop where
  pool : Pool s.q pending free
  returns : s.hung = false
  accounted : Accounted s pending
  hand : s.pc = .handle → ∀ t, s.pTimer = some t → s.inserted[s.origin]? = some t

variable {s : Sys τ}

theorem Accounted.lt_length (h : Accounted s pending) {n : ℕ}
    (hn : n ∈ s.taken ++ s.removed ++ pending.map s.stamp) : n < s.inserted.length :=
  List.mem_range.1 (h.account.mem_iff.1 hn)

theorem Accounted.not_mem_removed (h : Accounted s pending) {n : ℕ} (hn : n ∈ s.taken) : n ∉ s.removed := by
  have hnd : (s.taken ++ s.removed ++ pending.map s.stamp).Nodup := h.account.nodup_iff.2 List.nodup_range
  intro hr
  exact (List.nodup_append.1 (List.nodup_append.1 hnd).1).2.2 n hn n hr rfl

theorem runs_fst (s : Sys τ) : s.runs.map Prod.fst = (s.rounds.filter Round.called).map Round.insertion := by
  unfold Sys.runs
  rw [List.map_map]
  rfl

/-- **From the account of the insertions to the calls of the handlers.** -/
theorem Inv.orderly (h : Inv s pending free) : Orderly s := by
  obtain ⟨hp, hr, ha, -⟩ := h
  have hsub : (s.runs.map Prod.fst).Sublist s.taken := by
    rw [runs_fst, ha.handled]
    exact (List.Sublist.map _ List.filter_sublist).trans (List.sublist_append_left _ _)
  refine ⟨hr, pending, free, hp, ha, ?_, ?_⟩
  · exact ha.ordered.sublist (hsub.append_right _)
  · intro r hr
    have hmem : r.1 ∈ s.taken := hsub.subset (List.mem_map_of_mem hr)
    unfold Sys.runs at hr
    obtain ⟨x, hx, rfl⟩ := List.mem_map.1 hr
    exact ⟨ha.own x (List.mem_filter.1 hx).1, ha.not_mem_removed hmem⟩

theorem inv_init (timers : τ → RalinkTimer) :
    Inv (Sys.init timers) [] (List.finRange timerQueueSizeMax).reverse := by
  refine ⟨pool_init, rfl, ⟨?_, ?_, ?_, rfl, ?_⟩, ?_⟩
  · intro e he
    exact absurd he (by simp)
  · exact List.Perm.refl _
  · exact List.Pairwise.nil
  · intro r hr
    exact absurd hr (by simp [Sys.init])
  · intro hpc
    exact absurd hpc (by simp [Sys.init])

theorem inv_insert (h : Inv s pending free) (t : τ) : ∃ pending' free', Inv (s.insert t) pending' free' := by
  unfold Sys.insert
  split
  · exact ⟨pending, free, h⟩
  · next q e hi =>
    obtain ⟨hp, hr, ha, hh⟩ := h
    obtain ⟨free', rfl, hp', hq'⟩ := rtmpTimerQInsert_some hp hi
    have hne : ∀ b ∈ pending, b ≠ e := by
      rintro b hb rfl
      exact hp.not_mem_free hb List.mem_cons_self
    have hmap : (pending ++ [e]).map (Function.update s.stamp e s.inserted.length) =
        pending.map s.stamp ++ [s.inserted.length] := by
      rw [List.map_append, List.map_singleton, Function.update_self]
      congr 1
      exact List.map_congr_left fun b hb => Function.update_of_ne (hne b hb) _ _
    refine ⟨pending ++ [e], free', hp', hr, ⟨?_, ?_, ?_, ha.handled, ?_⟩, ?_⟩
    · intro b hb
      rcases List.mem_append.1 hb with hb | hb
      · have hlt := ha.lt_length (List.mem_append_right _ (List.mem_map_of_mem hb))
        simp only [hq', Function.update_of_ne (hne b hb), List.getElem?_append_left hlt]
        exact ha.carries b hb
      · obtain rfl := List.mem_singleton.1 hb
        simp only [hq', Function.update_self]
        simp
    · rw [hmap, ← List.append_assoc, List.length_append, List.length_singleton, List.range_succ]
      exact ha.account.append_right _
    · rw [hmap, ← List.append_assoc, List.pairwise_append]
      refine ⟨ha.ordered, List.pairwise_singleton _ _, ?_⟩
      intro a hm b hb
      obtain rfl := List.mem_singleton.1 hb
      refine ha.lt_length ?_
      rcases List.mem_append.1 hm with hm | hm
      · exact List.mem_append_left _ (List.mem_append_left _ hm)
      · exact List.mem_append_right _ hm
    · intro r hr
      have := ha.own r hr
      exact List.getElem?_append_left (List.getElem?_eq_some_iff.1 this).1 ▸ this
    · intro hpc t' ht'
      have := hh hpc t' ht'
      exact List.getElem?_append_left (List.getElem?_eq_some_iff.1 this).1 ▸ this

theorem inv_remove [DecidableEq τ] (h : Inv s pending free) (t : τ) :
    ∃ pending' free', Inv (s.remove t) pending' free' := by
  obtain ⟨hp, hr, ha, hh⟩ := h
  unfold Sys.remove
  rcases rtmpTimerQRemove_cases hp t with hnone | ⟨q', e, l₁, l₂, hsome, rfl, hp', hq'⟩
  · rw [hnone]
    exact ⟨pending, free, hp, hr, ha, hh⟩
  · rw [hsome]
    refine ⟨l₁ ++ l₂, e :: free, hp', hr, ⟨?_, ?_, ?_, ha.handled, ha.own⟩, hh⟩
    · intro b hb
      simp only [hq']
      refine ha.carries b ?_
      rcases List.mem_append.1 hb with hb | hb
      · exact List.mem_append_left _ hb
      · exact List.mem_append_right _ (List.mem_cons_of_mem e hb)
    · have hmove : (s.taken ++ (s.removed ++ [s.stamp e]) ++ (l₁ ++ l₂).map s.stamp).Perm
          (s.taken ++ s.removed ++ (l₁ ++ e :: l₂).map s.stamp) := by
        simp only [List.append_assoc, List.map_append, List.map_cons, List.singleton_append]
        refine List.Perm.append_left _ (List.Perm.append_left _ ?_)
        exact List.perm_middle.symm
      exact hmove.trans ha.account
    · refine ha.ordered.sublist (List.Sublist.append_left ?_ _)
      exact (List.Sublist.append_left (List.sublist_cons_self e l₂) l₁).map _

theorem Inv.moves {s' : Sys τ} (h : Inv s pending free) (hq : Pool s'.q pending free)
    (hRa : s'.q.pRaTimer = s.q.pRaTimer) (hhung : s'.hung = s.hung) (hstamp : s'.stamp = s.stamp)
    (hins : s'.inserted = s.inserted) (hrem : s'.removed = s.removed) (htak : s'.taken = s.taken)
    (hrou : s'.rounds = s.rounds) (hbefore : s.inHand = []) (hafter : s'.inHand = []) : Inv s' pending free := by
  obtain ⟨hp, hr, ha, hh⟩ := h
  refine ⟨hq, hhung.trans hr, ⟨?_, ?_, ?_, ?_, ?_⟩, ?_⟩
  · rw [hRa, hins, hstamp]
    exact ha.carries
  · rw [htak, hrem, hstamp, hins]
    exact ha.account
  · rw [htak, hstamp]
    exact ha.ordered
  · rw [htak, hrou, hafter, ← hbefore]
    exact ha.handled
  · rw [hrou, hins]
    exact ha.own
  · intro hpc t ht
    unfold Sys.inHand at hafter
    rw [if_pos ⟨hpc, by simp [ht]⟩] at hafter
    exact absurd hafter (by simp)

theorem inHand_of_pc (h : s.pc ≠ .handle) : s.inHand = [] := by
  unfold Sys.inHand
  rw [if_neg fun hc => h hc.1]

theorem inv_wait (h : Inv s pending free) (hpc : s.pc = .wait) (killed ok : Bool) (status : ℤ) :
    Inv (s.wait killed ok status) pending free := by
  have hbefore : s.inHand = [] := inHand_of_pc (by rw [hpc]; decide)
  unfold Sys.wait
  split
  · exact h.moves h.pool rfl rfl rfl rfl rfl rfl rfl hbefore (inHand_of_pc nofun)
  · split
    · exact h.moves h.pool rfl rfl rfl rfl rfl rfl rfl hbefore (inHand_of_pc nofun)
    · split
      · exact h.moves h.pool rfl rfl rfl rfl rfl rfl rfl hbefore (inHand_of_pc nofun)
      · exact h.moves h.pool rfl rfl rfl rfl rfl rfl rfl hbefore (inHand_of_pc nofun)

theorem inv_test (h : Inv s pending free) (hpc : s.pc = .test) : Inv s.test pending free := by
  have hbefore : s.inHand = [] := inHand_of_pc (by rw [hpc]; decide)
  have hp : Pool { s.q with status := taskStatStoped } pending free := ⟨h.pool.queued, h.pool.unused, h.pool.each⟩
  unfold Sys.test
  split
  · exact h.moves h.pool rfl rfl rfl rfl rfl rfl rfl hbefore (inHand_of_pc nofun)
  · split
    · exact h.moves hp rfl rfl rfl rfl rfl rfl rfl hbefore (inHand_of_pc nofun)
    · exact h.moves h.pool rfl rfl rfl rfl rfl rfl rfl hbefore (inHand_of_pc nofun)

/-- **The locked section.** An entry that is there goes into the task's hands; if there is none, the task
must not hold a timer. -/
theorem inv_take (h : Inv s pending free) (hpc : s.pc = .lock)
    (hfresh : s.q.pQHead = none → s.pTimer = none) : ∃ pending' free', Inv s.take pending' free' := by
  have hbefore : s.inHand = [] := inHand_of_pc (by rw [hpc]; decide)
  unfold Sys.take
  split
  · next q ht =>
    have hnone := hfresh (rtmpTimerQTake_none ht)
    refine ⟨pending, free, h.moves h.pool rfl rfl rfl rfl rfl rfl rfl hbefore ?_⟩
    unfold Sys.inHand
    rw [if_neg fun hc => hc.2 hnone]
  · next q e ht =>
    obtain ⟨hp, hr, ha, hh⟩ := h
    obtain ⟨pending', rfl, hp', hq'⟩ := rtmpTimerQTake_some hp ht
    have hlt : s.stamp e < s.inserted.length := ha.lt_length (by simp)
    have hcar : s.q.pRaTimer e = some s.inserted[s.stamp e] := by
      rw [ha.carries e List.mem_cons_self, List.getElem?_eq_getElem hlt]
    refine ⟨pending', e :: free, hp', hr, ⟨?_, ?_, ?_, ?_, ha.own⟩, ?_⟩
    · intro b hb
      simp only [hq']
      exact ha.carries b (List.mem_cons_of_mem e hb)
    · have hmove : (s.taken ++ [s.stamp e] ++ s.removed ++ pending'.map s.stamp).Perm
          (s.taken ++ s.removed ++ (e :: pending').map s.stamp) := by
        simp only [List.append_assoc, List.map_cons, List.singleton_append]
        exact List.Perm.append_left _ List.perm_middle.symm
      exact hmove.trans ha.account
    · rw [List.append_assoc]
      exact ha.ordered
    · have htaken := ha.handled
      rw [hbefore, List.append_nil] at htaken
      unfold Sys.inHand
      rw [if_pos ⟨rfl, by simp [hcar]⟩, htaken]
    · intro _ t ht
      rw [List.getElem?_eq_getElem hlt, ← hcar]
      exact ht

theorem inv_handle (h : Inv s pending free) (hpc : s.pc = .handle) : Inv s.handle pending free := by
  unfold Sys.handle
  split
  · next hnone =>
    have hbefore : s.inHand = [] := by
      unfold Sys.inHand
      rw [if_neg fun hc => hc.2 hnone]
    exact h.moves h.pool rfl rfl rfl rfl rfl rfl rfl hbefore (inHand_of_pc nofun)
  · next t ht =>
    obtain ⟨hp, hr, ha, hh⟩ := h
    have hbefore : s.inHand = [s.origin] := by
      unfold Sys.inHand
      rw [if_pos ⟨hpc, by simp [ht]⟩]
    refine ⟨hp, hr, ⟨ha.carries, ha.account, ha.ordered, ?_, ?_⟩, nofun⟩
    · have htaken := ha.handled
      rw [hbefore] at htaken
      simp only [List.map_append, htaken, Sys.inHand]
      simp
    · intro r hr
      rcases List.mem_append.1 hr with hr | hr
      · exact ha.own r hr
      · obtain rfl := List.mem_singleton.1 hr
        exact hh hpc t ht

variable [DecidableEq τ]

theorem inv_step (op : Op τ) (h : ∃ pending free, Inv s pending free) (hok : Fresh s op) :
    ∃ pending free, Inv (s.step op) pending free := by
  obtain ⟨pending, free, h⟩ := h
  cases op with
  | insert t => exact inv_insert h t
  | remove t => exact inv_remove h t
  | wait killed ok status =>
    simp only [Sys.step]
    split
    · next hpc => exact ⟨pending, free, inv_wait h hpc killed ok status⟩
    · exact ⟨pending, free, h⟩
  | test =>
    simp only [Sys.step]
    split
    · next hpc => exact ⟨pending, free, inv_test h hpc⟩
    · exact ⟨pending, free, h⟩
  | take =>
    simp only [Sys.step]
    split
    · next hpc => exact inv_take h hpc (hok hpc)
    · exact ⟨pending, free, h⟩
  | handle =>
    simp only [Sys.step]
    split
    · next hpc => exact ⟨pending, free, inv_handle h hpc⟩
    · exact ⟨pending, free, h⟩
  | write t fields =>
    obtain ⟨hp, hr, ⟨hc, ha, ho, hh, hw⟩, hd⟩ := h
    exact ⟨pending, free, hp, hr, ⟨hc, ha, ho, hh, hw⟩, hd⟩
  | suspend b =>
    obtain ⟨hp, hr, ⟨hc, ha, ho, hh, hw⟩, hd⟩ := h
    exact ⟨pending, free, hp, hr, ⟨hc, ha, ho, hh, hw⟩, hd⟩

/-- **Timers are handled in the order in which they were inserted, each insertion once.** This holds in
every state of every run in which the task, whenever it finds the queue empty under the lock, holds no
timer of an earlier round. -/
theorem orderly_of_fresh (timers : τ → RalinkTimer) (ops : List (Op τ))
    (hok : Along Sys.step Fresh (Sys.init timers) ops) : Orderly (run Sys.step (Sys.init timers) ops) := by
  have h := run_invariant (I := fun s => ∃ pending free, Inv s pending free)
    (fun s op hs hop => inv_step op hs hop) ops (Sys.init timers) ⟨_, _, inv_init timers⟩ hok
  obtain ⟨pending, free, h⟩ := h
  exact h.orderly

def oneShot : RalinkTimer := { handle := true, repeats := false, state := false, timerValue := 0 }

/-- The second of two timers is removed before the task wakes up; the first is handled. -/
def sampleOps : List (Op ℕ) := [.insert 1, .insert 2, .remove 2, .wait false true 0, .test, .take, .handle, .test]

theorem orderly_sample :
    Along Sys.step Fresh (Sys.init fun _ => oneShot) sampleOps ∧
      Orderly (run Sys.step (Sys.init fun _ => oneShot) sampleOps) := by
  have h : Along Sys.step Fresh (Sys.init fun _ => oneShot) sampleOps := by
    refine ⟨trivial, trivial, trivial, trivial, trivial, ?_, trivial, trivial, trivial⟩
    intro _ hhead
    exact absurd hhead (by decide)
  exact ⟨h, orderly_of_fresh _ sampleOps h⟩

/-- The second of two timers is removed between the task's test of the head and its lock. -/
def lateRemoval : List (Op ℕ) :=
  [.insert 1, .insert 2, .wait false true 0, .test, .take, .handle, .test, .remove 2, .take, .handle]

/-- **The handler of the first timer is called twice.** -/
theorem not_orderly_lateRemoval : (run Sys.step (Sys.init fun _ => oneShot) lateRemoval).inserted = [1, 2] ∧
    (run Sys.step (Sys.init fun _ => oneShot) lateRemoval).runs = [(0, 1), (0, 1)] ∧
    ¬ Orderly (run Sys.step (Sys.init fun _ => oneShot) lateRemoval) := by
  have hruns : (run Sys.step (Sys.init fun _ => oneShot) lateRemoval).runs = [(0, 1), (0, 1)] := by
    decide
  refine ⟨by decide, hruns, ?_⟩
  rintro ⟨-, pending, free, -, -, horder, -⟩
  rw [hruns] at horder
  exact absurd horder (by simp)

end Mt7610u.Task
