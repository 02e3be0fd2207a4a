import Mt7610u.Mcu.CmdMsg

/-! # The life of a command message

The completion of the transfer, the response and the timeout come in any order, and each of them moves the
message. A handler that comes late finds a message that is no longer where it expects it: unlinked, in
`tx_doneq` already, or freed. -/

namespace Mt7610u.Mcu

open Lib.DlList Lib.Runs

variable {κ μ : Type}

def Loc.msg : Loc μ → Option μ
  | .idle => none
  | .called m | .entered m | .kicking m _ | .waiting m | .expired m | .kill m | .killing m | .unlink m
  | .finish m _ => some m
  | .took _ _ x | .number _ _ x | .fill _ _ x | .linked _ _ x | .refused _ _ x | .failed _ _ x => some x

def Loc.holds : Loc μ → Option μ
  | .kicking m w => if w then some m else none
  | l => l.msg

def Loc.inside : Loc μ → Bool
  | .idle | .called _ => false
  | _ => true

def Lists (s : Sys κ μ) : Prop := ∃ c : Queue → List μ, Rings s.links c ∧ ∀ q m, m ∈ c q ↔ (s.msg m).place = some q

structure Sound (s : Sys κ μ) : Prop where
  lists : Lists s
  noFault : s.fault = none
  once : ∀ m, (s.msg m).frees ≤ 1
  unlinked : ∀ m, 0 < (s.msg m).frees → (s.msg m).place = none
  -- a message that is not freed yet is in a queue or in the hands of somebody who goes on with it
  kept : ∀ m, (s.msg m).allocated = true → (s.msg m).frees = 0 → (s.msg m).place = none →
    (∃ k, (s.loc k).holds = some m) ∨ (∃ ok, (s.msg m).urb = .unlinked ok) ∨ s.bh = .reaping m
  -- the tasklet frees what it finds in `tx_doneq`, and there is nothing else when all is quiet
  disposed : ∀ m, (s.msg m).place = some .txDoneq → Sys.disposable (s.msg m).state = true
  rest : (∀ k, s.loc k = .idle) → (∀ m, (s.msg m).urb = .idle) → s.bh = .idle →
    ∀ m, (s.msg m).allocated = true → (s.msg m).frees = 0 → (s.msg m).place = some .txDoneq

/-- The condition: nobody gets past the semaphore while another sender is behind it, and for a command with a
response: when the URB could not be submitted, when it comes back with an error, and when the timeout unlinks
the message, no response has been matched to it; when the URB comes back without an error, the sender still
has the message, and is not about to kill the URB of an unanswered command; and the handler is through before
the message is freed. -/
def Timely (s : Sys κ μ) : Op κ μ → Prop
  | .enter k interrupted => (∃ m, s.loc k = .called m) → interrupted = true ∨ 0 < s.mcuAtomic →
      ∀ k', (s.loc k').inside = false
  | .refuse k => ∀ m w x, s.loc k = .refused m w x → (s.msg x).needRsp = true →
      (s.msg x).answeredBy = none
  | .unlink k => ∀ m, s.loc k = .unlink m → (s.msg m).answeredBy = none
  | .complete m false => (s.msg m).urb = .active → (s.msg m).needRsp = true → (s.msg m).answeredBy = none
  | .complete m true => (s.msg m).urb = .active → (s.msg m).needRsp = true →
      (∃ k, (s.loc k).holds = some m) ∧
        ((s.msg m).answeredBy = none → ∀ k, s.loc k ≠ .kill m ∧ s.loc k ≠ .killing m)
  | .signal m => (s.msg m).urb = .marked → (s.msg m).frees = 0
  | _ => True

/-! ### The invariant -/

/-- How far a message has come. With a sender `k`: it is private to `k`, in `txq`, linked in `ackq` or
`kickq`, or taken out of there. Then it is in `tx_doneq`, in the hands of the tasklet, freed. -/
inductive Phase (κ : Type)
  | fresh
  | held (k : κ)
  | txq (k : κ)
  | linked (k : κ)
  | taken (k : κ)
  | done
  | reaped
  | freed

namespace Phase

def allocated : Phase κ → Bool
  | .fresh => false
  | _ => true

def frees : Phase κ → ℕ
  | .freed => 1
  | _ => 0

def place (needRsp : Bool) : Phase κ → Option Queue
  | .txq _ => some .txq
  | .linked _ => some (if needRsp then .ackq else .kickq)
  | .done => some .txDoneq
  | _ => none

def owner (v : Msg μ) : Phase κ → Option κ
  | .held k | .txq k => some k
  | .linked k | .taken k => if v.needRsp = true ∨ v.urb = .idle then some k else none
  | _ => none

@[simp] theorem owner_held {v : Msg μ} {k k' : κ} : (held k).owner v = some k' ↔ k' = k := by
  simp [owner, eq_comm]

@[simp] theorem owner_txq {v : Msg μ} {k k' : κ} : (txq k).owner v = some k' ↔ k' = k := by
  simp [owner, eq_comm]

@[simp] theorem owner_linked {v : Msg μ} {k k' : κ} :
    (linked k).owner v = some k' ↔ (v.needRsp = true ∨ v.urb = .idle) ∧ k' = k := by
  rw [owner, Option.ite_none_right_eq_some, Option.some.injEq, eq_comm (a := k)]

@[simp] theorem owner_taken {v : Msg μ} {k k' : κ} :
    (taken k).owner v = some k' ↔ (v.needRsp = true ∨ v.urb = .idle) ∧ k' = k := by
  rw [owner, Option.ite_none_right_eq_some, Option.some.injEq, eq_comm (a := k)]

end Phase

/-- What the sender has left behind: no handler is inside its first part, and a URB that is still out belongs
to a command that was answered. -/
def Settled (v : Msg μ) : Prop :=
  (∀ ok, v.urb ≠ .unlinked ok) ∧ (v.urb = .active → v.answeredBy ≠ none) ∧ (v.needRsp = false → v.urb = .idle)

def Stage (v : Msg μ) : Phase κ → Prop
  | .fresh | .held _ | .txq _ => v.urb = .idle ∧ v.ackDone = false ∧ v.answeredBy = none ∧
      v.submitted = false ∧ v.state ≠ .waitCmdOutAndAck ∧ v.state ≠ .waitAck
  | .linked _ => v.ackDone = false ∧ v.answeredBy = none ∧ (v.urb = .idle ∨ v.urb = .active) ∧
      (v.needRsp = true → (v.urb = .active → v.state = .waitCmdOutAndAck) ∧
        (v.state = .waitCmdOutAndAck ∨ v.state = .waitAck))
  | .taken _ =>
      (v.needRsp = true → (v.urb = .active → v.state = .waitCmdOutAndAck ∧ v.answeredBy ≠ none) ∧
        (∀ ok, v.urb = .unlinked ok → v.state = .waitCmdOutAndAck ∧ v.ackDone = false ∧ v.answeredBy = none) ∧
        (v.urb = .marked → v.state = .txKickoutFail ∧ v.answeredBy = none) ∧
        (v.ackDone = true → v.answeredBy ≠ none ∨ v.state = .txKickoutFail)) ∧
      (v.needRsp = false → v.urb = .idle ∨ ∃ ok, v.urb = .unlinked ok)
  | .done | .reaped => Sys.disposable v.state = true ∧ Settled v
  | .freed => Settled v

structure Fits (v : Msg μ) (p : Phase κ) : Prop where
  wait : v.needWait = v.needRsp
  onlyOnce : v.needRetransmit = false
  allocated : v.allocated = p.allocated
  frees : v.frees = p.frees
  place : v.place = p.place v.needRsp
  stage : Stage v p

/-- What the sender `k` can wait for with the message `v`. -/
def Waits (v : Msg μ) (p : Phase κ) (k : κ) : Prop :=
  p = .held k ∨ (p = .linked k ∧ (v.urb = .active ∨ v.state = .waitAck)) ∨
    (p = .taken k ∧ (v.state = .waitAck → v.answeredBy ≠ none))

def LocFits (msg : μ → Msg μ) (ph : μ → Phase κ) (k : κ) : Loc μ → Prop
  | .idle => True
  | .called m | .entered m => ph m = .held k
  | .kicking m w => w = (msg m).needRsp ∧ (w = true → ph m = .txq k ∨ Waits (msg m) (ph m) k) ∧
      (w = false → ph m ≠ .fresh ∧ ∀ k', (ph m).owner (msg m) = some k' → ph m = .txq k)
  | .took m w x | .number m w x | .fill m w x => x = m ∧ w = (msg x).needRsp ∧ ph x = .held k
  | .linked m w x | .refused m w x => x = m ∧ w = (msg x).needRsp ∧ (msg x).urb = .idle ∧
      (w = true → (msg x).state = .waitCmdOutAndAck) ∧
      (ph x = .linked k ∨ (w = true ∧ ph x = .taken k ∧ (msg x).answeredBy ≠ none))
  | .failed m w x => x = m ∧ w = (msg x).needRsp ∧ (msg x).urb = .idle ∧ ph x = .taken k ∧
      (w = true → (msg x).answeredBy = none)
  | .waiting m | .expired m => (msg m).needRsp = true ∧ Waits (msg m) (ph m) k
  | .kill m | .killing m => (msg m).needRsp = true ∧
      ((ph m = .linked k ∧ (msg m).urb = .active) ∨ ph m = .taken k)
  | .unlink m => (msg m).needRsp = true ∧ (msg m).urb = .idle ∧
      (ph m = .linked k ∨ (ph m = .taken k ∧ (msg m).answeredBy ≠ none))
  | .finish m state => (msg m).needRsp = true ∧ Sys.disposable state = true ∧
      (∀ ok, (msg m).urb ≠ .unlinked ok) ∧ (ph m = .held k ∨ ph m = .taken k)

def Answering (v : Msg μ) (p : Phase κ) : Prop :=
  v.needRsp = true ∧ v.answeredBy ≠ none ∧ ((∃ k, p = .taken k ∧ v.ackDone = false) ∨ p = .done)

structure Inv (s : Sys κ μ) (holder : Option κ) (ph : μ → Phase κ) : Prop where
  lists : Lists s
  fits : ∀ m, Fits (s.msg m) (ph m)
  owner : ∀ m k, (ph m).owner (s.msg m) = some k → (s.loc k).msg = some m
  locs : ∀ k, LocFits s.msg ph k (s.loc k)
  inside : ∀ k, (s.loc k).inside = true → holder = some k
  responding : ∀ m r, s.bh = .responding m r → Answering (s.msg m) (ph m)
  reaping : ∀ m, s.bh = .reaping m ↔ ph m = .reaped
  up : s.mcuInit = true
  noFault : s.fault = none

theorem inv_init : Inv (Sys.init κ μ) none fun _ => .fresh where
  lists := ⟨fun _ => [], rings_empty, by simp [Sys.init, Msg.blank]⟩
  fits _ := by
    constructor <;> simp [Sys.init, Msg.blank, Phase.allocated, Phase.frees, Phase.place, Stage]
  owner _ _ h := by simp [Phase.owner] at h
  locs _ := trivial
  inside _ h := by simp [Sys.init, Loc.inside] at h
  responding _ _ h := by simp [Sys.init] at h
  reaping _ := by simp [Sys.init]
  up := rfl
  noFault := rfl

variable {s s' : Sys κ μ} {holder : Option κ} {ph : μ → Phase κ} {k : κ} {m : μ} {v : Msg μ} {p : Phase κ}

theorem holds_msg {l : Loc μ} (h : l.holds = some m) : l.msg = some m := by
  cases l with
  | kicking x w =>
    cases w with
    | true => exact h
    | false => exact absurd h (by simp [Loc.holds])
  | _ => exact h

/-! ### What is sound about it -/

theorem Inv.unfreed (h : Inv s holder ph) {q : Queue} (hm : (s.msg m).place = some q) : (s.msg m).frees = 0 := by
  have hf := h.fits m
  rw [hf.place] at hm
  rw [hf.frees]
  cases hp : ph m <;> simp [hp, Phase.place, Phase.frees] at hm ⊢

theorem Inv.holds (h : Inv s holder ph) (ho : (ph m).owner (s.msg m) = some k)
    (hp : (s.msg m).place = none) : (s.loc k).holds = some m := by
  have hmsg := h.owner m k ho
  have hloc := h.locs k
  have hplace := (h.fits m).place
  cases hl : s.loc k with
  | kicking x w =>
    rw [hl] at hmsg hloc
    obtain rfl : x = m := Option.some.inj hmsg
    cases w with
    | true => rfl
    | false =>
      rw [(hloc.2.2 rfl).2 k ho, hp] at hplace
      exact absurd hplace (by simp [Phase.place])
  | _ =>
    rw [hl] at hmsg
    exact hmsg

theorem Inv.sound (h : Inv s holder ph) : Sound s where
  lists := h.lists
  noFault := h.noFault
  once m := by
    rw [(h.fits m).frees]
    cases ph m <;> simp [Phase.frees]
  unlinked m hm := by
    by_contra hne
    obtain ⟨q, hq⟩ := Option.ne_none_iff_exists'.1 hne
    have := h.unfreed hq
    omega
  kept m ha hfree hp := by
    have hf := h.fits m
    have howned : ∀ k, (ph m).owner (s.msg m) = some k → (∃ k, (s.loc k).holds = some m) ∨
        (∃ ok, (s.msg m).urb = .unlinked ok) ∨ s.bh = .reaping m :=
      fun k ho => Or.inl ⟨k, h.holds ho hp⟩
    have hplace := hf.place
    rw [hp] at hplace
    cases hph : ph m with
    | fresh => rw [hf.allocated, hph] at ha; exact absurd ha (by simp [Phase.allocated])
    | held k => exact howned k (by rw [hph]; rfl)
    | txq k => rw [hph] at hplace; exact absurd hplace (by simp [Phase.place])
    | linked k => rw [hph] at hplace; exact absurd hplace (by simp [Phase.place])
    | taken k =>
      cases hr : (s.msg m).needRsp with
      | true => exact howned k (by rw [hph]; simp [Phase.owner, hr])
      | false =>
        have hstage := hf.stage
        rw [hph] at hstage
        rcases hstage.2 hr with hidle | hun
        · exact howned k (by rw [hph]; simp [Phase.owner, hidle])
        · exact Or.inr (Or.inl hun)
    | done => rw [hph] at hplace; exact absurd hplace (by simp [Phase.place])
    | reaped => exact Or.inr (Or.inr ((h.reaping m).2 hph))
    | freed => rw [hf.frees, hph] at hfree; exact absurd hfree (by simp [Phase.frees])
  disposed m hm := by
    have hf := h.fits m
    have hstage := hf.stage
    rw [hf.place] at hm
    cases hph : ph m <;> rw [hph] at hm hstage <;> simp [Phase.place] at hm
    · split at hm <;> exact absurd hm (by simp)
    · exact hstage.1
  rest hloc hurb hbh m ha hfree := by
    have hf := h.fits m
    have hnone : ∀ k, (ph m).owner (s.msg m) ≠ some k := by
      intro k ho
      have := h.owner m k ho
      rw [hloc k] at this
      exact absurd this (by simp [Loc.msg])
    rw [hf.place]
    cases hph : ph m with
    | fresh => rw [hf.allocated, hph] at ha; exact absurd ha (by simp [Phase.allocated])
    | held k => exact absurd (by rw [hph]; rfl) (hnone k)
    | txq k => exact absurd (by rw [hph]; rfl) (hnone k)
    | linked k => exact absurd (by rw [hph]; simp [Phase.owner, hurb m]) (hnone k)
    | taken k => exact absurd (by rw [hph]; simp [Phase.owner, hurb m]) (hnone k)
    | done => rfl
    | reaped =>
      have := (h.reaping m).2 hph
      rw [hbh] at this
      exact absurd this (by simp)
    | freed => rw [hf.frees, hph] at hfree; exact absurd hfree (by simp [Phase.frees])

/-! ### Messages and senders -/

theorem LocFits.congr {msg msg' : μ → Msg μ} {ph' : μ → Phase κ} {l : Loc μ} (h : LocFits msg ph k l)
    (heq : ∀ x, l.msg = some x → msg' x = msg x ∧ ph' x = ph x) : LocFits msg' ph' k l := by
  cases l with
  | idle => trivial
  | called x | entered x =>
    rw [LocFits, (heq x rfl).2]
    exact h
  | kicking x w | waiting x | expired x | kill x | killing x | unlink x | finish x st =>
    rw [LocFits, (heq x rfl).1, (heq x rfl).2]
    exact h
  | took y w x | number y w x | fill y w x | linked y w x | refused y w x | failed y w x =>
    rw [LocFits, (heq x rfl).1, (heq x rfl).2]
    exact h

theorem Waits.owner_eq {k' : κ} (h : Waits v p k) (ho : p.owner v = some k') : k' = k := by
  rcases h with rfl | ⟨rfl, -⟩ | ⟨rfl, -⟩
  · exact Phase.owner_held.1 ho
  · exact (Phase.owner_linked.1 ho).2
  · exact (Phase.owner_taken.1 ho).2

theorem LocFits.not_fresh {msg : μ → Msg μ} {l : Loc μ} (h : LocFits msg ph k l) (hm : l.msg = some m) :
    ph m ≠ .fresh := by
  intro hp
  cases l with
  | idle => exact absurd hm (by simp [Loc.msg])
  | called x | entered x =>
    obtain rfl : x = m := Option.some.inj hm
    exact absurd (hp.symm.trans h) (by simp)
  | kicking x w =>
    obtain rfl : x = m := Option.some.inj hm
    cases w with
    | true => simpa [Waits, hp] using h.2.1 rfl
    | false => exact (h.2.2 rfl).1 hp
  | waiting x | expired x | kill x | killing x | unlink x | finish x st =>
    obtain rfl : x = m := Option.some.inj hm
    simp [LocFits, Waits, hp] at h
  | took y w x | number y w x | fill y w x | linked y w x | refused y w x | failed y w x =>
    obtain rfl : x = m := Option.some.inj hm
    simp [LocFits, hp] at h

theorem LocFits.submitting {msg : μ → Msg μ} {w : Bool} {x : μ} (h : LocFits msg ph k (.linked m w x)) :
    (∀ k', ph x = .held k' → k' = k) ∧ (∀ (v : Msg μ) k', (ph x).owner v = some k' → k' = k) := by
  constructor
  · intro k' hk'
    rcases h.2.2.2.2 with hp | ⟨-, hp, -⟩ <;> exact absurd (hp.symm.trans hk') (by simp)
  · intro v k' ho
    rcases h.2.2.2.2 with hp | ⟨-, hp, -⟩ <;> rw [hp] at ho
    · exact (Phase.owner_linked.1 ho).2
    · exact (Phase.owner_taken.1 ho).2

theorem LocFits.owner_or {msg : μ → Msg μ} {l : Loc μ} (h : LocFits msg ph k l) (hm : l.msg = some m) :
    (ph m).owner (msg m) = some k ∨ ((msg m).needRsp = false ∧ l = .kicking m false) := by
  cases l with
  | idle => exact absurd hm (by simp [Loc.msg])
  | called x | entered x =>
    obtain rfl : x = m := Option.some.inj hm
    exact Or.inl (by rw [show ph x = .held k from h]; rfl)
  | kicking x w =>
    obtain rfl : x = m := Option.some.inj hm
    cases w with
    | false => exact Or.inr ⟨h.1.symm, rfl⟩
    | true =>
      left
      rcases h.2.1 rfl with hp | hp | ⟨hp, -⟩ | ⟨hp, -⟩ <;> rw [hp] <;> simp [← h.1]
  | waiting x | expired x =>
    obtain rfl : x = m := Option.some.inj hm
    left
    rcases h.2 with hp | ⟨hp, -⟩ | ⟨hp, -⟩ <;> rw [hp] <;> simp [h.1]
  | kill x | killing x =>
    obtain rfl : x = m := Option.some.inj hm
    left
    rcases h.2 with ⟨hp, -⟩ | hp <;> rw [hp] <;> simp [h.1]
  | unlink x =>
    obtain rfl : x = m := Option.some.inj hm
    left
    rcases h.2.2 with hp | ⟨hp, -⟩ <;> rw [hp] <;> simp [h.1]
  | finish x st =>
    obtain rfl : x = m := Option.some.inj hm
    left
    rcases h.2.2.2 with hp | hp <;> rw [hp] <;> simp [h.1]
  | took y w x | number y w x | fill y w x =>
    obtain rfl : x = m := Option.some.inj hm
    exact Or.inl (by rw [h.2.2]; rfl)
  | linked y w x | refused y w x =>
    obtain rfl : x = m := Option.some.inj hm
    left
    rcases h.2.2.2.2 with hp | ⟨-, hp, -⟩ <;> rw [hp] <;> simp [h.2.2.1]
  | failed y w x =>
    obtain rfl : x = m := Option.some.inj hm
    exact Or.inl (by rw [h.2.2.2.1]; simp [h.2.2.1])

theorem Inv.at (h : Inv s holder ph) (hp : ph m = p) : Fits (s.msg m) p := hp ▸ h.fits m

theorem Inv.no_response (h : Inv s holder ph) {P : Prop} (hp : (∀ k, ph m ≠ .taken k) ∧ ph m ≠ .done)
    (r : Response μ) (hr : s.bh = .responding m r) : P := by
  obtain ⟨-, -, ⟨k, hk, -⟩ | hd⟩ := h.responding m r hr
  · exact absurd hk (hp.1 k)
  · exact absurd hd hp.2

theorem Inv.awaited (h : Inv s holder ph) (hm : (s.msg m).place = some .ackq) :
    ∃ k, holder = some k ∧ ph m = .linked k ∧ (s.loc k).msg = some m ∧ (s.msg m).needRsp = true := by
  have hf := h.fits m
  rw [hf.place] at hm
  cases hp : ph m <;> rw [hp] at hm <;> simp [Phase.place] at hm
  next k =>
    have hr : (s.msg m).needRsp = true := hm
    have hmsg := h.owner m k (by rw [hp]; simp [Phase.owner, hr])
    refine ⟨k, h.inside k ?_, rfl, hmsg, hr⟩
    have hloc := h.locs k
    cases hl : s.loc k with
    | idle => rw [hl] at hmsg; exact absurd hmsg (by simp [Loc.msg])
    | called x =>
      rw [hl] at hmsg hloc
      obtain rfl : x = m := Option.some.inj hmsg
      exact absurd (hp.symm.trans hloc) (by simp)
    | _ => rfl

theorem Inv.queued {x : μ} {w : Bool} (h : Inv s holder ph) (hk : s.loc k = .kicking m w)
    (hx : (s.msg x).place = some .txq) : x = m ∧ ph m = .txq k := by
  have hf := h.fits x
  rw [hf.place] at hx
  cases hp : ph x <;> rw [hp] at hx <;> simp [Phase.place] at hx
  · next k' =>
    have hmsg := h.owner x k' (by rw [hp]; rfl)
    have hin : (s.loc k').inside = true := by
      have hloc := h.locs k'
      cases hl : s.loc k' with
      | idle => rw [hl] at hmsg; exact absurd hmsg (by simp [Loc.msg])
      | called y =>
        rw [hl] at hmsg hloc
        obtain rfl : y = x := Option.some.inj hmsg
        exact absurd (hp.symm.trans hloc) (by simp)
      | _ => rfl
    have hkk : k' = k := by
      have hink : (s.loc k).inside = true := by rw [hk]; rfl
      exact Option.some.inj ((h.inside k' hin).symm.trans (h.inside k hink))
    subst hkk
    rw [hk] at hmsg
    obtain rfl : m = x := Option.some.inj hmsg
    exact ⟨rfl, hp⟩
  · split at hx <;> exact absurd hx (by simp)

theorem Inv.items (h : Inv s holder ph) :
    ∃ ys, s.items .ackq = some ys ∧ ∀ y, y ∈ ys ↔ (s.msg y).place = some .ackq := by
  obtain ⟨c, hc, hplaced⟩ := h.lists
  have hone : ∀ y ∈ c .ackq, ∀ z ∈ c .ackq, y = z := by
    intro y hy z hz
    obtain ⟨k, hk, -, hym, -⟩ := h.awaited ((hplaced .ackq y).1 hy)
    obtain ⟨k', hk', -, hzm, -⟩ := h.awaited ((hplaced .ackq z).1 hz)
    obtain rfl : k = k' := Option.some.inj (hk.symm.trans hk')
    exact Option.some.inj (hym.symm.trans hzm)
  have hlen : (c .ackq).length ≤ s.allocCmdMsg + 1 := by
    have hnd := hc.nodup .ackq
    rcases hcq : c .ackq with _ | ⟨y, _ | ⟨z, l⟩⟩
    · simp
    · simp
    · rw [hcq] at hnd
      have hyz := hone y (by simp [hcq]) z (by simp [hcq])
      simp [hyz] at hnd
  exact ⟨c .ackq, hc.members hlen, hplaced .ackq⟩

theorem Inv.ackq_empty {l : Loc μ} (h : Inv s holder ph) (hk : s.loc k = l) (hin : l.inside = true)
    (hm : l.msg = some m) (hp : ph m = .held k) : s.items .ackq = some [] := by
  obtain ⟨ys, hys, hmem⟩ := h.items
  rcases ys with _ | ⟨y, ys⟩
  · exact hys
  · obtain ⟨k', hk', hpy, hmy, -⟩ := h.awaited ((hmem y).1 List.mem_cons_self)
    have hkk : k' = k := Option.some.inj (hk'.symm.trans (h.inside k (hk ▸ hin)))
    rw [hkk, hk, hm] at hmy
    obtain rfl : m = y := Option.some.inj hmy
    exact absurd (hp.symm.trans hpy) (by simp)

theorem Inv.only {k' : κ} (h : Inv s holder ph) (hr : (s.msg m).needRsp = true)
    (ho : (ph m).owner (s.msg m) = some k) (hk' : (s.loc k').msg = some m) : k' = k := by
  rcases (h.locs k').owner_or hk' with ho' | ⟨hf, -⟩
  · exact Option.some.inj (ho'.symm.trans ho)
  · exact absurd (hr.symm.trans hf) (by simp)

theorem Inv.completing (h : Inv s holder ph) (hu : (s.msg m).urb = .active)
    (hlate : (s.msg m).needRsp = true → (s.msg m).answeredBy = none ∨ ∃ k, (s.loc k).holds = some m) :
    (∃ k, ph m = .linked k) ∨ ∃ k, ph m = .taken k ∧ (s.msg m).needRsp = true := by
  have hstage := (h.fits m).stage
  have hgone : Settled (s.msg m) → (∀ k, (ph m).owner (s.msg m) ≠ some k) →
      (∃ k, ph m = .linked k) ∨ ∃ k, ph m = .taken k ∧ (s.msg m).needRsp = true := by
    rintro ⟨-, hans, hidle⟩ hno
    have hr : (s.msg m).needRsp = true := by
      by_contra hr
      exact absurd (hu.symm.trans (hidle (by simpa using hr))) (by simp)
    rcases hlate hr with hnone | ⟨k, hk⟩
    · exact absurd hnone (hans hu)
    · rcases (h.locs k).owner_or (holds_msg hk) with ho | ⟨hf, -⟩
      · exact absurd ho (hno k)
      · exact absurd (hr.symm.trans hf) (by simp)
  cases hp : ph m with
  | fresh | held k | txq k =>
    rw [hp] at hstage
    exact absurd (hu.symm.trans hstage.1) (by simp)
  | linked k => exact Or.inl ⟨k, rfl⟩
  | taken k =>
    rw [hp] at hstage
    refine Or.inr ⟨k, rfl, ?_⟩
    by_contra hr
    rcases hstage.2 (by simpa using hr) with hi | ⟨ok, hun⟩
    · exact absurd (hu.symm.trans hi) (by simp)
    · exact absurd (hu.symm.trans hun) (by simp)
  | done | reaped =>
    rw [hp] at hstage hgone
    exact hgone hstage.2 (by simp [Phase.owner])
  | freed =>
    rw [hp] at hstage hgone
    exact hgone hstage (by simp [Phase.owner])

/-! ### The operations on the queues -/

theorem access_eq {ns : List (Queue ⊕ μ)} (h : ∀ x, .inr x ∈ ns → (s.msg x).frees = 0) : s.access ns = s := by
  have hany : ns.any s.isFreed = false := by
    rw [List.any_eq_false]
    intro n hn
    cases n with
    | inl q => simp [Sys.isFreed]
    | inr x => simp [Sys.isFreed, h x hn]
  rw [Sys.access, hany]
  rfl

theorem access_one (h : (s.msg m).frees = 0) : s.access [.inr m] = s := by
  refine access_eq fun x hx => ?_
  rw [List.mem_singleton, Sum.inr.injEq] at hx
  rw [hx]
  exact h

theorem Lists.congr (h : Lists s) (hl : s'.links = s.links)
    (hp : ∀ x, (s'.msg x).place = (s.msg x).place) : Lists s' := by
  obtain ⟨c, hc, hplaced⟩ := h
  refine ⟨c, hl ▸ hc, fun q x => ?_⟩
  rw [hp]
  exact hplaced q x

theorem Inv.same (h : Inv s holder ph) (hmsg : s'.msg = s.msg) (hlinks : s'.links = s.links)
    (hloc : s'.loc = s.loc) (hup : s'.mcuInit = s.mcuInit) (hfault : s'.fault = s.fault)
    (hresp : ∀ x r, s'.bh = .responding x r → s.bh = .responding x r)
    (hreap : ∀ x, s'.bh = .reaping x ↔ s.bh = .reaping x) : Inv s' holder ph where
  lists := h.lists.congr hlinks fun x => by rw [hmsg]
  fits x := hmsg ▸ h.fits x
  owner x k hx := by
    rw [hmsg] at hx
    rw [hloc]
    exact h.owner x k hx
  locs k := by
    rw [hmsg, hloc]
    exact h.locs k
  inside k hk := h.inside k (hloc ▸ hk)
  responding x r hx := by
    rw [hmsg]
    exact h.responding x r (hresp x r hx)
  reaping x := (hreap x).trans (h.reaping x)
  up := hup.trans h.up
  noFault := hfault.trans h.noFault

variable [DecidableEq μ]

theorem Lists.again {f : μ → Msg μ} {v₀ : Msg μ} (h : Lists s) (hl : s'.links = s.links)
    (hmsg₀ : s.msg = Function.update f m v₀) (hmsg : s'.msg = Function.update f m v)
    (hp : v.place = v₀.place) : Lists s' := by
  refine h.congr hl fun x => ?_
  rw [hmsg, hmsg₀]
  by_cases hx : x = m
  · subst hx
    rw [Function.update_self, Function.update_self, hp]
  · rw [Function.update_of_ne hx, Function.update_of_ne hx]

theorem Lists.write (h : Lists s) (hl : s'.links = s.links) (hmsg : s'.msg = Function.update s.msg m v)
    (hp : v.place = (s.msg m).place) : Lists s' :=
  h.again hl (Function.update_eq_self m s.msg).symm hmsg hp

theorem free_eq (h : (s.msg m).frees = 0) :
    s.free m = { s with msg := Function.update s.msg m { s.msg m with frees := 1 } } := by
  rw [Sys.free, access_one h, h]

theorem Inv.queueTail (h : Inv s holder ph) (q : Queue) (state : CmdMsgState)
    (hp : (s.msg m).place = none) (hfree : (s.msg m).frees = 0) :
    ∃ K, s.queueTail q m state =
        { s with links := K, msg := Function.update s.msg m { s.msg m with state := state, place := some q } } ∧
      Lists { s with
        links := K, msg := Function.update s.msg m { s.msg m with state := state, place := some q } } := by
  obtain ⟨c, hc, hplaced⟩ := h.lists
  have hout : ∀ j, m ∉ c j := by
    intro j hj
    rw [hplaced, hp] at hj
    exact absurd hj (by simp)
  obtain ⟨K, hK, hrings⟩ := hc.addTail q hout
  have hlast : ∀ x, .inr x ∈ (s.links.prev (.inl q)).toList → (s.msg x).frees = 0 := by
    intro x hx
    have hmem : .inr x ∈ before q (c q) := hc.around_mem List.mem_cons_self (List.mem_append_right _ hx)
    have hxq : x ∈ c q := by simpa [before] using hmem
    exact h.unfreed ((hplaced q x).1 hxq)
  refine ⟨K, ?_, Function.update c q (c q ++ [m]), hrings, ?_⟩
  · have hacc : s.access (.inr m :: (s.links.prev (.inl q)).toList) = s := by
      refine access_eq fun x hx => ?_
      rcases List.mem_cons.1 hx with hx | hx
      · rw [Sum.inr.inj hx]
        exact hfree
      · exact hlast x hx
    simp only [Sys.queueTail, hacc, Sys.enqueued, if_pos hp, hK]
  · intro j x
    by_cases hx : x = m
    · subst hx
      by_cases hj : j = q
      · subst hj
        simp
      · simp [hj, Ne.symm hj, hout j]
    · by_cases hj : j = q
      · subst hj
        simp [hx, hplaced]
      · simp [hx, hj, hplaced]

theorem Inv.unlink (h : Inv s holder ph) {q : Queue} (hp : (s.msg m).place = some q) :
    ∃ K, s.unlink q m =
        { s with links := K, msg := Function.update s.msg m { s.msg m with place := none } } ∧
      Lists { s with links := K, msg := Function.update s.msg m { s.msg m with place := none } } := by
  obtain ⟨c, hc, hplaced⟩ := h.lists
  have hm : m ∈ c q := (hplaced q m).2 hp
  obtain ⟨K, hK, hrings⟩ := hc.del hm
  have hnear : ∀ x, .inr x ∈ s.links.around (.inr m) → (s.msg x).frees = 0 := by
    intro x hx
    have hmem : .inr x ∈ before q (c q) := hc.around_mem (by simpa [before] using hm) hx
    have hxq : x ∈ c q := by simpa [before] using hmem
    exact h.unfreed ((hplaced q x).1 hxq)
  refine ⟨K, ?_, Function.update c q ((c q).erase m), hrings, ?_⟩
  · have hacc : s.access (.inr m :: s.links.around (.inr m)) = s := by
      refine access_eq fun x hx => ?_
      rcases List.mem_cons.1 hx with hx | hx
      · rw [Sum.inr.inj hx]
        exact h.unfreed hp
      · exact hnear x hx
    simp only [Sys.unlink, hacc, if_pos hp, hK]
  · intro j x
    by_cases hx : x = m
    · subst hx
      by_cases hj : j = q
      · subst hj
        simp [(hc.nodup j).not_mem_erase]
      · have hout : x ∉ c j := fun hxj => hj (hc.apart j q x hxj hm)
        simp [hj, hout]
    · by_cases hj : j = q
      · subst hj
        simp [hx, hplaced, List.mem_erase_of_ne hx]
      · simp [hx, hj, hplaced]

theorem Inv.dequeue (h : Inv s holder ph) (q : Queue) :
    (s.dequeue q = (s, none) ∧ ∀ x, (s.msg x).place ≠ some q) ∨
      ∃ x K, (s.msg x).place = some q ∧ s.dequeue q =
          ({ s with links := K, msg := Function.update s.msg x { s.msg x with place := none } }, some x) ∧
        Lists { s with links := K, msg := Function.update s.msg x { s.msg x with place := none } } := by
  obtain ⟨c, hc, hplaced⟩ := h.lists
  have hfirst := hc.first q
  cases hcq : c q with
  | nil =>
    rw [hcq] at hfirst
    left
    refine ⟨by rw [Sys.dequeue, hfirst]; rfl, fun x hx => ?_⟩
    rw [← hplaced, hcq] at hx
    exact absurd hx List.not_mem_nil
  | cons x l =>
    rw [hcq] at hfirst
    have hx : (s.msg x).place = some q := (hplaced q x).1 (by rw [hcq]; exact List.mem_cons_self)
    obtain ⟨K, hK, hlists⟩ := h.unlink hx
    exact Or.inr ⟨x, K, hx, by rw [Sys.dequeue, hfirst]; simp only [after, List.map_cons,
      List.cons_append, List.head?_cons, hK], hlists⟩

/-! ### One message moves on -/

theorem update_fits (h : Inv s holder ph) (hfits : Fits v p) (x : μ) :
    Fits (Function.update s.msg m v x) (Function.update ph m p x) := by
  by_cases hx : x = m
  · subst hx
    rw [Function.update_self, Function.update_self]
    exact hfits
  · rw [Function.update_of_ne hx, Function.update_of_ne hx]
    exact h.fits x

theorem update_owner (h : Inv s holder ph) (howner : ∀ k, p.owner v = some k → (s'.loc k).msg = some m)
    (hothers : ∀ k x, x ≠ m → (s.loc k).msg = some x → (s'.loc k).msg = some x) (x : μ) (k : κ)
    (hx : (Function.update ph m p x).owner (Function.update s.msg m v x) = some k) : (s'.loc k).msg = some x := by
  by_cases hxm : x = m
  · subst hxm
    rw [Function.update_self, Function.update_self] at hx
    exact howner k hx
  · rw [Function.update_of_ne hxm, Function.update_of_ne hxm] at hx
    exact hothers k x hxm (h.owner x k hx)

theorem update_responding (h : Inv s holder ph) (hm : ∀ r, s.bh = .responding m r → Answering v p) (x : μ)
    (r : Response μ) (hx : s.bh = .responding x r) :
    Answering (Function.update s.msg m v x) (Function.update ph m p x) := by
  by_cases hxm : x = m
  · subst hxm
    simp only [Function.update_self]
    exact hm r hx
  · simp only [Function.update_of_ne hxm]
    exact h.responding x r hx

theorem update_reaping (h : Inv s holder ph) (hm : ph m = .reaped ↔ p = .reaped) (x : μ) :
    s.bh = .reaping x ↔ Function.update ph m p x = .reaped := by
  by_cases hxm : x = m
  · subst hxm
    rw [Function.update_self, h.reaping]
    exact hm
  · rw [Function.update_of_ne hxm]
    exact h.reaping x

theorem update_locs (hl : LocFits s.msg ph k (s.loc k))
    (hm : (s.loc k).msg = some m → LocFits (Function.update s.msg m v) (Function.update ph m p) k (s.loc k)) :
    LocFits (Function.update s.msg m v) (Function.update ph m p) k (s.loc k) := by
  by_cases hk : (s.loc k).msg = some m
  · exact hm hk
  · refine hl.congr fun x hx => ?_
    have hxm : x ≠ m := fun he => hk (he ▸ hx)
    exact ⟨Function.update_of_ne hxm _ _, Function.update_of_ne hxm _ _⟩

end Mt7610u.Mcu
