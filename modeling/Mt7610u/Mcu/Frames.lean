import Mt7610u.Mcu.CmdMsg

/-! # What the steps of the driver leave alone

Most steps of a sender, of the completion handler and of the tasklet have nothing to do with numbers and
responses, and a sender moves by its own steps only. -/

namespace Mt7610u.Mcu

open Lib.DlList Lib.Runs

variable {κ μ : Type}

inductive Course
  | onWay
  | lost
  | done
  deriving DecidableEq

namespace Loc

def course : Loc μ → Course
  | .idle | .finish _ _ => .done
  | .expired _ | .kill _ | .killing _ | .unlink _ => .lost
  | _ => .onWay

def own : Loc μ → Option μ
  | .idle => none
  | .called m | .entered m | .kicking m _ | .waiting m | .expired m | .kill m | .killing m | .unlink m
  | .finish m _ | .took m _ _ | .number m _ _ | .fill m _ _ | .linked m _ _ | .refused m _ _
  | .failed m _ _ => some m

def unawaited : Loc μ → Bool
  | .kicking _ w | .took _ w _ | .number _ w _ | .fill _ w _ | .linked _ w _ | .refused _ w _
  | .failed _ w _ => !w
  | _ => false

def filling : Loc μ → Option μ
  | .fill _ _ x => some x
  | _ => none

end Loc

/-- Where the sender goes from `l₀` when nothing ends its wait: on, or it is behind the timeout or done already
and what the call returns stays. -/
def Steady (l₀ : Loc μ) (r₀ : ℤ) (l : Loc μ) (r : ℤ) : Prop :=
  l₀.unawaited = true ∨
    ((l = .idle ∨ l.own = l₀.own) ∧
      (l.course = .onWay ∨ (r = r₀ ∧ (l₀.course = .lost ∨ (l₀.course = .done ∧ l.course = .done)))))

/-! ### Writes and operations on the queues -/

structure SameResponse (v v' : Msg μ) : Prop where
  rspPayloadLen : v'.rspPayloadLen = v.rspPayloadLen
  needRsp : v'.needRsp = v.needRsp
  allocated : v'.allocated = v.allocated
  answeredBy : v'.answeredBy = v.answeredBy
  filledBy : v'.filledBy = v.filledBy

theorem SameResponse.refl (v : Msg μ) : SameResponse v v := ⟨rfl, rfl, rfl, rfl, rfl⟩

theorem SameResponse.trans {v v' v'' : Msg μ} (h : SameResponse v v') (h' : SameResponse v' v'') :
    SameResponse v v'' where
  rspPayloadLen := h'.rspPayloadLen.trans h.rspPayloadLen
  needRsp := h'.needRsp.trans h.needRsp
  allocated := h'.allocated.trans h.allocated
  answeredBy := h'.answeredBy.trans h.answeredBy
  filledBy := h'.filledBy.trans h.filledBy

/-- A write to a message that the matching does not notice. -/
structure Quiet (v v' : Msg μ) : Prop where
  response : SameResponse v v'
  seq : v'.seq = v.seq
  submitted : v'.submitted = v.submitted
  active : v'.urb = .active → v.urb = .active
  ackq : v'.place = some .ackq → v.place = some .ackq

theorem Quiet.refl (v : Msg μ) : Quiet v v := ⟨SameResponse.refl v, rfl, rfl, id, id⟩

theorem Quiet.trans {v v' v'' : Msg μ} (h : Quiet v v') (h' : Quiet v' v'') : Quiet v v'' where
  response := h.response.trans h'.response
  seq := h'.seq.trans h.seq
  submitted := h'.submitted.trans h.submitted
  active := fun hu => h.active (h'.active hu)
  ackq := fun hp => h.ackq (h'.ackq hp)

structure Kept (s s' : Sys κ μ) : Prop where
  msg : ∀ x, Quiet (s.msg x) (s'.msg x)
  rxDoneq : s'.rxDoneq = s.rxDoneq
  bh : s'.bh = s.bh
  loc : s'.loc = s.loc
  ret : s'.ret = s.ret

variable {s s' t : Sys κ μ} {k : κ} {m : μ} {v : Msg μ} {q : Queue}

theorem Kept.refl (s : Sys κ μ) : Kept s s := ⟨fun _ => Quiet.refl _, rfl, rfl, rfl, rfl⟩

theorem Kept.trans (h : Kept s t) (h' : Kept t s') : Kept s s' where
  msg x := (h.msg x).trans (h'.msg x)
  rxDoneq := h'.rxDoneq.trans h.rxDoneq
  bh := h'.bh.trans h.bh
  loc := h'.loc.trans h.loc
  ret := h'.ret.trans h.ret

theorem kept_raise (s : Sys κ μ) (f : Fault) : Kept s (s.raise f) := ⟨fun _ => Quiet.refl _, rfl, rfl, rfl, rfl⟩

theorem kept_access (s : Sys κ μ) (ns : List (Queue ⊕ μ)) : Kept s (s.access ns) := by
  unfold Sys.access
  split
  · exact kept_raise s _
  · exact Kept.refl s

variable [DecidableEq μ]

theorem quiet_update {f : μ → Msg μ} (h : Quiet (f m) v) (x : μ) : Quiet (f x) (Function.update f m v x) := by
  by_cases hx : x = m
  · subst hx
    rw [Function.update_self]
    exact h
  · rw [Function.update_of_ne hx]
    exact Quiet.refl _

theorem Kept.write (h : Kept s t) (hmsg : s'.msg = Function.update t.msg m v) (hrx : s'.rxDoneq = t.rxDoneq)
    (hbh : s'.bh = t.bh) (hloc : s'.loc = t.loc) (hret : s'.ret = t.ret) (hv : Quiet (t.msg m) v) : Kept s s' := by
  refine h.trans ⟨fun x => ?_, hrx, hbh, hloc, hret⟩
  rw [hmsg]
  exact quiet_update hv x

theorem kept_free (s : Sys κ μ) (m : μ) : Kept s (s.free m) :=
  (kept_access s _).write rfl rfl rfl rfl rfl ⟨⟨rfl, rfl, rfl, rfl, rfl⟩, rfl, rfl, id, id⟩

theorem kept_enqueued (s : Sys κ μ) (hq : q ≠ .ackq) (m : μ) (state : CmdMsgState)
    (links : Option (Links (Queue ⊕ μ))) : Kept s (s.enqueued q m state links) := by
  have hkept : Kept s (if (s.msg m).place = none then s else s.raise .linkedTwice) := by
    split
    · exact Kept.refl s
    · exact kept_raise s _
  unfold Sys.enqueued
  cases links with
  | none => exact hkept.trans (kept_raise _ _)
  | some K =>
    refine hkept.write rfl rfl rfl rfl rfl ⟨⟨rfl, rfl, rfl, rfl, rfl⟩, rfl, rfl, id, fun hp => ?_⟩
    exact absurd (Option.some.inj hp) hq

theorem kept_queueTail (s : Sys κ μ) (hq : q ≠ .ackq) (m : μ) (state : CmdMsgState) :
    Kept s (s.queueTail q m state) :=
  (kept_access s _).trans (kept_enqueued _ hq m state _)

theorem kept_queueHead (s : Sys κ μ) (hq : q ≠ .ackq) (m : μ) (state : CmdMsgState) :
    Kept s (s.queueHead q m state) :=
  (kept_access s _).trans (kept_enqueued _ hq m state _)

theorem kept_unlink (s : Sys κ μ) (q : Queue) (m : μ) : Kept s (s.unlink q m) := by
  have hacc := kept_access s (.inr m :: s.links.around (.inr m))
  unfold Sys.unlink
  generalize s.access (.inr m :: s.links.around (.inr m)) = t at hacc ⊢
  have hkept : Kept s (if (t.msg m).place = some q then t else t.raise .wrongQueue) := by
    split
    · exact hacc
    · exact hacc.trans (kept_raise t _)
  simp only
  split
  · exact hkept.trans (kept_raise _ _)
  · refine hkept.write rfl rfl rfl rfl rfl ⟨⟨rfl, rfl, rfl, rfl, rfl⟩, rfl, rfl, id, fun hp => ?_⟩
    exact absurd hp (by simp)

theorem kept_dequeue (s : Sys κ μ) (q : Queue) : Kept s (s.dequeue q).1 := by
  unfold Sys.dequeue
  split
  · exact kept_raise s _
  · exact Kept.refl s
  · exact kept_unlink s q _

/-! ### Steps of a sender -/

variable [DecidableEq κ] {w : Bool} {l : Loc μ} {r : ℤ}

/-- The sender `k` has gone to `l` and its call returns `r` so far; the matching is not touched. -/
structure Moved (s s' : Sys κ μ) (k : κ) (l : Loc μ) (r : ℤ) : Prop where
  msg : ∀ x, Quiet (s.msg x) (s'.msg x)
  rxDoneq : s'.rxDoneq = s.rxDoneq
  bh : s'.bh = s.bh
  loc : s'.loc = Function.update s.loc k l
  ret : s'.ret = Function.update s.ret k r

def Ordinary (s s' : Sys κ μ) (k : κ) : Prop :=
  ∃ l r, Moved s s' k l r ∧ (l.filling = none ∨ l = s.loc k) ∧ Steady (s.loc k) (s.ret k) l r

omit [DecidableEq μ] [DecidableEq κ] in
theorem steady_onWay {l₀ : Loc μ} (hk : s.loc k = l₀) (hown : l.own = l₀.own) (hway : l.course = .onWay) :
    Steady (s.loc k) (s.ret k) l r := by
  rw [hk]
  exact Or.inr ⟨Or.inr hown, Or.inl hway⟩

omit [DecidableEq μ] in
theorem Kept.moved (h : Kept s t) (hmsg : s'.msg = t.msg) (hrx : s'.rxDoneq = t.rxDoneq) (hbh : s'.bh = t.bh)
    (hloc : s'.loc = Function.update t.loc k l) (hret : s'.ret = t.ret) : Moved s s' k l (s.ret k) where
  msg x := by
    rw [hmsg]
    exact h.msg x
  rxDoneq := hrx.trans h.rxDoneq
  bh := hbh.trans h.bh
  loc := by rw [hloc, h.loc]
  ret := by rw [hret, h.ret, Function.update_eq_self]

omit [DecidableEq μ] in
theorem Kept.ordinary (h : Kept s t) (hmsg : s'.msg = t.msg) (hrx : s'.rxDoneq = t.rxDoneq)
    (hbh : s'.bh = t.bh) (hloc : s'.loc = Function.update t.loc k l) (hret : s'.ret = t.ret)
    (hfill : l.filling = none) (hsteady : Steady (s.loc k) (s.ret k) l (s.ret k)) : Ordinary s s' k :=
  ⟨l, s.ret k, h.moved hmsg hrx hbh hloc hret, Or.inl hfill, hsteady⟩

omit [DecidableEq μ] in
theorem Kept.stays (h : Kept s s') (k : κ) : Ordinary s s' k := by
  refine ⟨s.loc k, s.ret k, h.moved rfl rfl rfl ?_ rfl, Or.inr rfl, Or.inr ⟨Or.inr rfl, ?_⟩⟩
  · rw [h.loc, Function.update_eq_self]
  · cases hc : (s.loc k).course <;> simp

omit [DecidableEq μ] in
theorem ordinary_enter (hk : s.loc k = .called m) (interrupted : Bool) :
    Ordinary s (s.enter k m interrupted) k := by
  have hsteady : ∀ r, Steady (s.loc k) (s.ret k) (.entered m) r := by
    intro r
    exact steady_onWay hk rfl rfl
  unfold Sys.enter
  split
  · exact ⟨.entered m, _, ⟨fun _ => Quiet.refl _, rfl, rfl, rfl, rfl⟩, Or.inl rfl, hsteady _⟩
  · split
    · exact ⟨.entered m, _, ⟨fun _ => Quiet.refl _, rfl, rfl, rfl, rfl⟩, Or.inl rfl, hsteady _⟩
    · exact (Kept.refl s).stays k

theorem moved_check (hk : s.loc k = .entered m) :
    (s.forbidden = true ∧ Moved s (s.check k m) k .idle ndisStatusFailure) ∨ Ordinary s (s.check k m) k := by
  unfold Sys.check
  split
  · next hf =>
    have hkept := kept_free s m
    refine Or.inl ⟨hf, hkept.msg, hkept.rxDoneq, hkept.bh, ?_, rfl⟩
    exact congrArg (Function.update · k _) hkept.loc
  · have hkept := kept_queueTail s (q := .txq) (by simp) m .txStart
    refine Or.inr (hkept.ordinary (l := .kicking m (s.msg m).needWait) rfl rfl rfl ?_ rfl rfl ?_)
    · rw [hkept.loc]
    · exact steady_onWay hk rfl rfl

omit [DecidableEq μ] in
theorem Kept.afterKick (h : Kept s t) (hk : (s.loc k).own = some m) (hw : (s.loc k).unawaited = !w) :
    Ordinary s (t.afterKick k m w) k := by
  unfold Sys.afterKick
  cases w with
  | true =>
    refine h.ordinary (l := .waiting m) rfl rfl rfl rfl rfl rfl (Or.inr ⟨Or.inr ?_, Or.inl rfl⟩)
    exact hk.symm
  | false => exact h.ordinary (l := .idle) rfl rfl rfl rfl rfl rfl (Or.inl hw)

theorem ordinary_take (hk : s.loc k = .kicking m w) : Ordinary s (s.take k m w) k := by
  have hkept := kept_dequeue s .txq
  unfold Sys.take
  rcases hd : s.dequeue .txq with ⟨t, x⟩
  rw [hd] at hkept
  cases x with
  | none => exact hkept.afterKick (by rw [hk]; rfl) (by rw [hk]; rfl)
  | some x =>
    simp only
    split
    · split
      · exact hkept.stays k
      · exact (hkept.trans (kept_free t x)).stays k
    · refine hkept.ordinary rfl rfl rfl rfl rfl rfl ?_
      exact steady_onWay hk rfl rfl

theorem ordinary_test {x : μ} (hk : s.loc k = .took m w x) : Ordinary s (s.test k m w x) k := by
  unfold Sys.test
  split
  · exact (kept_raise s _).stays k
  · refine (Kept.refl s).ordinary rfl rfl rfl rfl rfl rfl ?_
    exact steady_onWay hk rfl rfl
  · next y ys _ =>
    have hkept := (kept_access s ((y :: ys).map .inr)).trans
      (kept_queueHead _ (q := .txq) (by simp) x (s.msg x).state)
    refine hkept.ordinary rfl rfl rfl (l := .kicking m w) ?_ rfl rfl ?_
    · rw [hkept.loc]
    · exact steady_onWay hk rfl rfl

theorem ordinary_refuse {x : μ} (hk : s.loc k = .refused m w x) : Ordinary s (s.refuse k m w x) k := by
  have hkept : Kept s (if (s.msg x).needRsp then s.unlink .ackq x else s.unlink .kickq x) := by
    split
    · exact kept_unlink s _ x
    · exact kept_unlink s _ x
  refine hkept.ordinary rfl rfl rfl rfl rfl rfl ?_
  exact steady_onWay hk rfl rfl

theorem ordinary_fail {x : μ} (hk : s.loc k = .failed m w x) : Ordinary s (s.fail k m w x) k := by
  unfold Sys.fail
  split
  · refine Kept.afterKick ((kept_access s [.inr x]).write rfl rfl rfl rfl rfl
      ⟨⟨rfl, rfl, rfl, rfl, rfl⟩, rfl, rfl, id, id⟩) ?_ ?_
    · rw [hk]
      rfl
    · rw [hk]
      rfl
  · refine (kept_queueTail s (by simp) x _).afterKick ?_ ?_
    · rw [hk]
      rfl
    · rw [hk]
      rfl

theorem moved_wake (s : Sys κ μ) (k : κ) (m : μ) :
    ((s.msg m).ackDone = true ∧ ∃ state, Moved s (s.wake k m) k (.finish m state) (s.ret k)) ∨
      Ordinary s (s.wake k m) k := by
  have hacc := kept_access s [.inr m]
  unfold Sys.wake
  split
  · next hack =>
    have hwrite : ∀ times, Kept s { s.access [.inr m] with
        msg := Function.update (s.access [.inr m]).msg m
          { (s.access [.inr m]).msg m with ackDone := false, retransmitTimes := times } } :=
      fun times => hacc.write rfl rfl rfl rfl rfl ⟨⟨rfl, rfl, rfl, rfl, rfl⟩, rfl, rfl, id, id⟩
    refine Or.inl ⟨hack, ?_⟩
    simp only
    split
    · exact ⟨_, (hwrite _).moved rfl rfl rfl rfl rfl⟩
    · exact ⟨_, (hwrite _).moved rfl rfl rfl rfl rfl⟩
  · exact Or.inr ((Kept.refl s).stays k)

theorem Kept.giveUp (h : Kept s t) (hk : (s.loc k).course = .lost) (hm : (s.loc k).own = some m) :
    Ordinary s (t.giveUp k m) k := by
  have hkept : Kept s { t.access [.inr m] with
      msg := Function.update (t.access [.inr m]).msg m
        { (t.access [.inr m]).msg m with
          retransmitTimes := ((t.access [.inr m]).msg m).retransmitTimes - 1 } } :=
    (h.trans (kept_access t [.inr m])).write rfl rfl rfl rfl rfl
      ⟨⟨rfl, rfl, rfl, rfl, rfl⟩, rfl, rfl, id, id⟩
  refine hkept.ordinary (l := .finish m .txTimeoutFail) rfl rfl rfl rfl rfl rfl ?_
  exact Or.inr ⟨Or.inr hm.symm, Or.inr ⟨rfl, Or.inl hk⟩⟩

theorem ordinary_look (hk : s.loc k = .expired m) : Ordinary s (s.look k m) k := by
  have hacc := kept_access s [.inr m]
  have hgo : ∀ l : Loc μ, l.filling = none → l.own = some m →
      Ordinary s { s.access [.inr m] with loc := Function.update (s.access [.inr m]).loc k l } k := by
    intro l hfill hown
    refine hacc.ordinary rfl rfl rfl rfl rfl hfill ?_
    rw [hk]
    exact Or.inr ⟨Or.inr hown, Or.inr ⟨rfl, Or.inl rfl⟩⟩
  unfold Sys.look
  split
  · simp only
    split
    · exact hgo (.kill m) rfl rfl
    · exact hgo (.unlink m) rfl rfl
    · exact hacc.giveUp (by rw [hk]; rfl) (by rw [hk]; rfl)
  · exact (Kept.refl s).giveUp (by rw [hk]; rfl) (by rw [hk]; rfl)

theorem ordinary_finish {state : CmdMsgState} (hk : s.loc k = .finish m state) :
    Ordinary s (s.finish k m state) k := by
  have hacc := kept_access s [.inr m]
  have hleave : ∀ t : Sys κ μ, Kept s t → Ordinary s (t.leave k) k := by
    intro t ht
    refine ht.ordinary (l := .idle) rfl rfl rfl rfl rfl rfl ?_
    rw [hk]
    exact Or.inr ⟨Or.inl rfl, Or.inr ⟨rfl, Or.inr ⟨rfl, rfl⟩⟩⟩
  unfold Sys.finish
  split
  · simp only
    split
    · have hwrite : Kept s { s.access [.inr m] with
          msg := Function.update (s.access [.inr m]).msg m
            { (s.access [.inr m]).msg m with ackDone := false } } :=
        hacc.write rfl rfl rfl rfl rfl ⟨⟨rfl, rfl, rfl, rfl, rfl⟩, rfl, rfl, id, id⟩
      have hkept := hwrite.trans (kept_queueHead _ (q := .txq) (by simp) m .txRetransmit)
      refine hkept.ordinary (l := .kicking m true) rfl rfl rfl ?_ rfl rfl ?_
      · rw [hkept.loc, hacc.loc]
      · exact steady_onWay hk rfl rfl
    · exact hleave _ (hacc.trans (kept_queueTail _ (by simp) m state))
  · exact hleave _ (kept_free s m)

/-! ### Whole steps -/

def Op.ordinary : Op κ μ → Option κ
  | .enter k _ | .dequeue k | .test k | .refuse k | .fail k | .look k | .kill k | .killed k | .unlink k
  | .finish k => some k
  | _ => none

theorem ordinary_step {op : Op κ μ} (hop : op.ordinary = some k) : Ordinary s (s.step op) k := by
  have hstay : Ordinary s s k := (Kept.refl s).stays k
  cases op with
  | enter _ i =>
    obtain rfl := Option.some.inj hop
    simp only [Sys.step]
    split
    · next hk => exact ordinary_enter hk i
    · exact hstay
  | dequeue _ =>
    obtain rfl := Option.some.inj hop
    simp only [Sys.step]
    split
    · next hk => exact ordinary_take hk
    · exact hstay
  | test _ =>
    obtain rfl := Option.some.inj hop
    simp only [Sys.step]
    split
    · next hk => exact ordinary_test hk
    · exact hstay
  | refuse _ =>
    obtain rfl := Option.some.inj hop
    simp only [Sys.step]
    split
    · next hk => exact ordinary_refuse hk
    · exact hstay
  | fail _ =>
    obtain rfl := Option.some.inj hop
    simp only [Sys.step]
    split
    · next hk => exact ordinary_fail hk
    · exact hstay
  | look _ =>
    obtain rfl := Option.some.inj hop
    simp only [Sys.step]
    split
    · next hk => exact ordinary_look hk
    · exact hstay
  | kill _ =>
    obtain rfl := Option.some.inj hop
    simp only [Sys.step]
    split
    · next hk =>
      refine (Kept.refl s).ordinary rfl rfl rfl rfl rfl rfl ?_
      rw [hk]
      exact Or.inr ⟨Or.inr rfl, Or.inr ⟨rfl, Or.inl rfl⟩⟩
    · exact hstay
  | killed _ =>
    obtain rfl := Option.some.inj hop
    simp only [Sys.step]
    split
    · next hk =>
      split
      · exact (Kept.refl s).giveUp (by rw [hk]; rfl) (by rw [hk]; rfl)
      · exact hstay
    · exact hstay
  | unlink _ =>
    obtain rfl := Option.some.inj hop
    simp only [Sys.step]
    split
    · next hk => exact (kept_unlink s _ _).giveUp (by rw [hk]; rfl) (by rw [hk]; rfl)
    · exact hstay
  | finish _ =>
    obtain rfl := Option.some.inj hop
    simp only [Sys.step]
    split
    · next hk => exact ordinary_finish hk
    · exact hstay
  | _ => exact absurd hop (by simp [Op.ordinary])

structure Aside (s s' : Sys κ μ) : Prop where
  msg : ∀ x, Quiet (s.msg x) (s'.msg x)
  rxDoneq : s'.rxDoneq = s.rxDoneq
  responding : ∀ m r, s'.bh = .responding m r ↔ s.bh = .responding m r
  loc : s'.loc = s.loc
  ret : s'.ret = s.ret

def Op.aside : Op κ μ → Bool
  | .complete _ _ | .handled _ | .signal _ | .bhStart | .bhTx | .bhFree | .flags _ _ _ => true
  | _ => false

omit [DecidableEq μ] [DecidableEq κ] in
theorem Kept.aside (h : Kept s s') : Aside s s' := ⟨h.msg, h.rxDoneq, fun m r => by rw [h.bh], h.loc, h.ret⟩

omit [DecidableEq μ] [DecidableEq κ] in
theorem Kept.tasklet (h : Kept s t) (hmsg : s'.msg = t.msg) (hrx : s'.rxDoneq = t.rxDoneq)
    (hloc : s'.loc = t.loc) (hret : s'.ret = t.ret) (hbh : ∀ m r, s.bh ≠ .responding m r)
    (hbh' : ∀ m r, s'.bh ≠ .responding m r) : Aside s s' where
  msg x := by
    rw [hmsg]
    exact h.msg x
  rxDoneq := hrx.trans h.rxDoneq
  responding m r := iff_of_false (hbh' m r) (hbh m r)
  loc := hloc.trans h.loc
  ret := hret.trans h.ret

omit [DecidableEq κ] in
theorem kept_complete (s : Sys κ μ) (m : μ) (ok : Bool) : Kept s (s.complete m ok) := by
  have hacc := kept_access s [.inr m]
  have hset : ∀ (t : Sys κ μ) (urb : Urb), Kept s t → urb ≠ .active →
      Kept s { t with msg := Function.update t.msg m { t.msg m with urb := urb } } := by
    intro t urb ht hurb
    exact ht.write rfl rfl rfl rfl rfl ⟨⟨rfl, rfl, rfl, rfl, rfl⟩, rfl, rfl, fun hu => absurd hu hurb, id⟩
  unfold Sys.complete
  simp only
  split
  · split
    · split
      · refine hacc.write rfl rfl rfl rfl rfl ⟨⟨rfl, rfl, rfl, rfl, rfl⟩, rfl, rfl, fun hu => ?_, id⟩
        exact absurd hu (by simp)
      · exact hset _ _ (hacc.trans (kept_unlink _ _ m)) (by simp)
    · exact hset _ _ (hacc.trans (kept_unlink _ _ m)) (by simp)
  · exact hset _ _ hacc (by simp)

omit [DecidableEq κ] in
theorem kept_handled (s : Sys κ μ) (m : μ) (ok : Bool) : Kept s (s.handled m ok) := by
  unfold Sys.handled
  split
  · refine (kept_access s [.inr m]).write rfl rfl rfl rfl rfl
      ⟨⟨rfl, rfl, rfl, rfl, rfl⟩, rfl, rfl, fun hu => ?_, id⟩
    exact absurd hu (by simp)
  · refine (kept_queueTail s (by simp) m _).write rfl rfl rfl rfl rfl
      ⟨⟨rfl, rfl, rfl, rfl, rfl⟩, rfl, rfl, fun hu => ?_, id⟩
    exact absurd hu (by simp)

theorem aside_step {op : Op κ μ} (hop : op.aside = true) : Aside s (s.step op) := by
  have hstay : Aside s s := (Kept.refl s).aside
  cases op with
  | complete m ok =>
    simp only [Sys.step]
    split
    · exact (kept_complete s m ok).aside
    · exact hstay
  | handled m =>
    simp only [Sys.step]
    split
    · exact (kept_handled s m _).aside
    · exact hstay
  | signal m =>
    simp only [Sys.step]
    split
    · refine Kept.aside ((kept_access s [.inr m]).write rfl rfl rfl rfl rfl
        ⟨⟨rfl, rfl, rfl, rfl, rfl⟩, rfl, rfl, fun hu => ?_, id⟩)
      exact absurd hu (by simp)
    · exact hstay
  | bhStart =>
    simp only [Sys.step]
    split
    · next hb => exact (Kept.refl s).tasklet rfl rfl rfl rfl (by simp [hb]) (by simp)
    · exact hstay
  | bhTx =>
    have hkept := kept_dequeue s .txDoneq
    simp only [Sys.step]
    split
    · next hb =>
      split
      · next hd =>
        rw [hd] at hkept
        exact hkept.tasklet rfl rfl rfl rfl (by simp [hb]) (by simp)
      · next hd =>
        rw [hd] at hkept
        exact hkept.tasklet rfl rfl rfl rfl (by simp [hb]) (by simp)
    · exact hstay
  | bhFree =>
    simp only [Sys.step]
    split
    · next m hb =>
      have hacc := kept_access s [.inr m]
      unfold Sys.reap
      simp only
      split
      · exact (hacc.trans (kept_free _ m)).tasklet rfl rfl rfl rfl (by simp [hb]) (by simp)
      · exact hacc.tasklet rfl rfl rfl rfl (by simp [hb]) (by simp)
    · exact hstay
  | flags a b c => exact ⟨fun _ => Quiet.refl _, rfl, fun _ _ => Iff.rfl, rfl, rfl⟩
  | _ => exact absurd hop (by simp [Op.aside])

end Mt7610u.Mcu
