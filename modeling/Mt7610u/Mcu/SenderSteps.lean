import Mt7610u.Mcu.LifeCycle

/-! # Steps of a sender

What `andes_send_cmd_msg` does to a message, between the semaphore and `tx_doneq`. The sender behind the
semaphore is alone there, and the one message in `txq` or `ackq` is its own. -/

namespace Mt7610u.Mcu

open Lib.DlList Lib.Runs

variable {κ μ : Type} [DecidableEq μ] [DecidableEq κ] {s s' : Sys κ μ} {holder : Option κ} {ph : μ → Phase κ} {k : κ}
  {m : μ} {v : Msg μ} {p : Phase κ}

/-! ### The sender and its message move on -/

theorem Inv.sender {l₀ l : Loc μ} (h : Inv s holder ph) (hk₀ : s.loc k = l₀) (hin₀ : l₀.inside = true)
    (hm₀ : l₀.msg = some m) (hmsg : s'.msg = Function.update s.msg m v)
    (hloc : s'.loc = Function.update s.loc k l) (hbh : s'.bh = s.bh) (hup : s'.mcuInit = s.mcuInit)
    (hfault : s'.fault = s.fault) (hlists : Lists s') (hfits : Fits v p) (hheld : ∀ k', ph m = .held k' → k' = k)
    (howner : ∀ k', p.owner v = some k' → k' = k ∧ l.msg = some m)
    (hl : LocFits (Function.update s.msg m v) (Function.update ph m p) k l)
    (hresp : ∀ r, s.bh = .responding m r → Answering v p)
    (hreap : ph m = .reaped ↔ p = .reaped) : ∃ holder' ph', Inv s' holder' ph' := by
  have hin : (s.loc k).inside = true := hk₀ ▸ hin₀
  have hk : (s.loc k).msg = some m := hk₀ ▸ hm₀
  have hother : ∀ k', k' ≠ k → (s.loc k').inside = false := by
    intro k' hne
    by_contra hc
    have := h.inside k' (by simpa using hc)
    exact hne (Option.some.inj (this.symm.trans (h.inside k hin)))
  refine ⟨if l.inside then some k else none, Function.update ph m p, ?_⟩
  constructor
  · exact hlists
  · exact fun x => hmsg ▸ update_fits h hfits x
  · intro x k' hx
    rw [hmsg] at hx
    refine update_owner h (fun k' hk' => ?_) (fun k' y hy hy' => ?_) x k' hx
    · obtain ⟨rfl, hlm⟩ := howner k' hk'
      rw [hloc, Function.update_self]
      exact hlm
    · have hne : k' ≠ k := by
        rintro rfl
        exact hy (Option.some.inj (hy'.symm.trans hk))
      rw [hloc, Function.update_of_ne hne]
      exact hy'
  · intro k'
    rw [hmsg, hloc]
    by_cases hne : k' = k
    · subst hne
      rw [Function.update_self]
      exact hl
    · rw [Function.update_of_ne hne]
      -- the others are before the semaphore, with messages of their own
      refine update_locs (h.locs k') fun hm' => ?_
      have hfit := h.locs k'
      have hout := hother k' hne
      cases hlk : s.loc k' with
      | idle => trivial
      | called y =>
        rw [hlk] at hm' hfit
        obtain rfl : y = m := Option.some.inj hm'
        exact absurd (hheld k' hfit) hne
      | _ => rw [hlk] at hout; exact absurd hout (by simp [Loc.inside])
  · intro k' hk'
    rw [hloc] at hk'
    by_cases hne : k' = k
    · subst hne
      rw [Function.update_self] at hk'
      rw [if_pos hk']
    · rw [Function.update_of_ne hne, hother k' hne] at hk'
      exact absurd hk' (by simp)
  · intro x r hx
    rw [hbh] at hx
    rw [hmsg]
    exact update_responding h hresp x r hx
  · intro x
    rw [hbh]
    exact update_reaping h hreap x
  · exact hup.trans h.up
  · exact hfault.trans h.noFault

theorem Inv.move {l₀ l : Loc μ} (h : Inv s holder ph) (hk₀ : s.loc k = l₀) (hin₀ : l₀.inside = true)
    (hm₀ : l₀.msg = some m) (hmsg : s'.msg = s.msg) (hlinks : s'.links = s.links)
    (hloc : s'.loc = Function.update s.loc k l) (hbh : s'.bh = s.bh) (hup : s'.mcuInit = s.mcuInit)
    (hfault : s'.fault = s.fault) (hheld : ∀ k', ph m = .held k' → k' = k)
    (howner : ∀ k', (ph m).owner (s.msg m) = some k' → k' = k ∧ l.msg = some m)
    (hl : LocFits s.msg ph k l) : ∃ holder' ph', Inv s' holder' ph' := by
  have hsame : Function.update s.msg m (s.msg m) = s.msg := Function.update_eq_self m s.msg
  have hph : Function.update ph m (ph m) = ph := Function.update_eq_self m ph
  have hlists : Lists s' := h.lists.congr hlinks fun x => by rw [hmsg]
  exact h.sender hk₀ hin₀ hm₀ (hmsg.trans hsame.symm) hloc hbh hup hfault hlists (h.fits m) hheld howner
    (by rw [hsame, hph]; exact hl) (h.responding m) Iff.rfl

/-! ### The steps of a sender -/

theorem Inv.send (h : Inv s holder ph) (hidle : s.loc k = .idle) (hm : (s.msg m).allocated = false)
    (wait : Bool) (n : ℕ) : Inv (s.send k m wait n) holder (Function.update ph m (.held k)) := by
  have hf := h.fits m
  have hp : ph m = .fresh := by
    have hall := hf.allocated
    rw [hm] at hall
    cases hp : ph m <;> simp [hp, Phase.allocated] at hall ⊢
  have hplace : (s.msg m).place = none := by rw [hf.place, hp]; rfl
  -- nobody has to do with a message that is not allocated yet
  have hne : ∀ k' x, (s.loc k').msg = some x → k' ≠ k ∧ x ≠ m := by
    intro k' x hx
    refine ⟨?_, ?_⟩
    · rintro rfl
      rw [hidle] at hx
      exact absurd hx (by simp [Loc.msg])
    · rintro rfl
      exact (h.locs k').not_fresh hx hp
  constructor
  · refine h.lists.congr rfl fun x => ?_
    by_cases hx : x = m
    · subst hx
      simp [Sys.send, initCmdMsg, Msg.blank, hplace]
    · simp [Sys.send, hx]
  · refine update_fits h ⟨?_, ?_, ?_, ?_, ?_, ?_⟩ <;>
      simp [initCmdMsg, Msg.blank, Phase.allocated, Phase.frees, Phase.place, Stage]
  · refine update_owner h (fun k' hk' => ?_) fun k' x _ hx => ?_
    · obtain rfl : k = k' := Option.some.inj hk'
      simp [Sys.send, Loc.msg]
    · simp [Sys.send, (hne k' x hx).1, hx]
  · intro k'
    by_cases hk : k' = k
    · subst hk
      simp [Sys.send, LocFits]
    · have hloc : (s.send k m wait n).loc k' = s.loc k' := by simp [Sys.send, hk]
      rw [hloc]
      refine (h.locs k').congr fun x hx => ⟨?_, ?_⟩
      · simp [Sys.send, (hne k' x hx).2]
      · simp [(hne k' x hx).2]
  · intro k' hk'
    by_cases hk : k' = k
    · subst hk
      exact absurd hk' (by simp [Sys.send, Loc.inside])
    · exact h.inside k' (by simpa [Sys.send, hk] using hk')
  · exact update_responding h (h.no_response (by simp [hp]))
  · exact fun x => update_reaping h (by simp [hp]) x
  · exact h.up
  · exact h.noFault

omit [DecidableEq μ] in
theorem Inv.enter (h : Inv s holder ph) (hk : s.loc k = .called m)
    (hfree : ∀ k', (s.loc k').inside = false) (hmsg : s'.msg = s.msg) (hlinks : s'.links = s.links)
    (hloc : s'.loc = Function.update s.loc k (.entered m)) (hbh : s'.bh = s.bh)
    (hup : s'.mcuInit = s.mcuInit) (hfault : s'.fault = s.fault) : Inv s' (some k) ph := by
  have hfit := h.locs k
  rw [hk] at hfit
  constructor
  · exact h.lists.congr hlinks fun x => by rw [hmsg]
  · exact fun x => hmsg ▸ h.fits x
  · intro x k' hx
    rw [hmsg] at hx
    rw [hloc]
    by_cases hne : k' = k
    · subst hne
      have := h.owner x k' hx
      rw [hk] at this
      rwa [Function.update_self]
    · rw [Function.update_of_ne hne]
      exact h.owner x k' hx
  · intro k'
    rw [hmsg, hloc]
    by_cases hne : k' = k
    · subst hne
      rw [Function.update_self]
      exact hfit
    · rw [Function.update_of_ne hne]
      exact h.locs k'
  · intro k' hk'
    rw [hloc] at hk'
    by_cases hne : k' = k
    · rw [hne]
    · rw [Function.update_of_ne hne, hfree k'] at hk'
      exact absurd hk' (by simp)
  · rw [hmsg, hbh]
    exact h.responding
  · rw [hbh]
    exact h.reaping
  · exact hup.trans h.up
  · exact hfault.trans h.noFault

theorem Inv.check (h : Inv s holder ph) (hk : s.loc k = .entered m) :
    ∃ holder' ph', Inv (s.check k m) holder' ph' := by
  have hp : ph m = .held k := by
    have := h.locs k
    rwa [hk] at this
  have hf := h.at hp
  have hs : Stage (s.msg m) (Phase.held k) := hf.stage
  have hheld : ∀ k', ph m = .held k' → k' = k := by simp [hp, eq_comm]
  unfold Sys.check
  split
  · rw [free_eq hf.frees]
    refine h.sender (l := .idle) (p := .freed) hk rfl rfl rfl rfl rfl rfl rfl
      (h.lists.write rfl rfl rfl) ?_ hheld ?_ trivial ?_ ?_
    · refine ⟨hf.wait, hf.onlyOnce, hf.allocated, rfl, hf.place, ?_⟩
      simp [Stage, Settled, hs.1]
    · exact fun k' hk' => absurd hk' (by simp [Phase.owner])
    · exact h.no_response (by simp [hp])
    · simp [hp]
  · obtain ⟨K, hK, hlists⟩ := h.queueTail .txq .txStart hf.place hf.frees
    rw [hK]
    refine h.sender (l := .kicking m (s.msg m).needWait) (p := .txq k) hk rfl rfl rfl rfl rfl rfl rfl
      (hlists.congr rfl fun _ => rfl) ?_ hheld ?_ ?_ ?_ ?_
    · exact ⟨hf.wait, hf.onlyOnce, hf.allocated, hf.frees, rfl, hs.1, hs.2.1, hs.2.2.1, hs.2.2.2.1,
        by simp⟩
    · intro k' hk'
      exact ⟨(Option.some.inj hk').symm, rfl⟩
    · simp [LocFits, hf.wait]
    · exact h.no_response (by simp [hp])
    · simp [hp]

theorem Inv.afterKick {w : Bool} {l₀ : Loc μ} (h : Inv s holder ph) (hk : s.loc k = l₀)
    (hin : l₀.inside = true) (hm : l₀.msg = some m) (hw : w = (s.msg m).needRsp)
    (hwait : w = true → Waits (s.msg m) (ph m) k) (hleft : w = false → ∀ k', (ph m).owner (s.msg m) ≠ some k')
    : ∃ holder' ph', Inv (s.afterKick k m w) holder' ph' := by
  have howner : ∀ k', (ph m).owner (s.msg m) = some k' → w = true ∧ k' = k := by
    intro k' ho
    cases w with
    | true => exact ⟨rfl, (hwait rfl).owner_eq ho⟩
    | false => exact absurd ho (hleft rfl k')
  have hheld : ∀ k', ph m = .held k' → k' = k := fun k' hp => (howner k' (by rw [hp]; rfl)).2
  unfold Sys.afterKick
  cases w with
  | true =>
    exact h.move (l := .waiting m) hk hin hm rfl rfl rfl rfl rfl rfl hheld
      (fun k' hk' => ⟨(howner k' hk').2, rfl⟩) ⟨hw.symm, hwait rfl⟩
  | false =>
    exact h.move (l := .idle) hk hin hm rfl rfl rfl rfl rfl rfl hheld
      (fun k' hk' => absurd hk' (hleft rfl k')) trivial

theorem Inv.take {w : Bool} (h : Inv s holder ph) (hk : s.loc k = .kicking m w) :
    ∃ holder' ph', Inv (s.take k m w) holder' ph' := by
  have hfit : LocFits s.msg ph k (.kicking m w) := hk ▸ h.locs k
  have hstay : s.loc = Function.update s.loc k (.kicking m w) := by rw [← hk, Function.update_eq_self]
  unfold Sys.take
  rcases h.dequeue .txq with ⟨hd, hempty⟩ | ⟨x, K, hx, hd, hlists⟩
  · rw [hd]
    have hnot : ∀ k', ph m ≠ .txq k' := by
      intro k' hp
      exact hempty m (by rw [(h.at hp).place]; rfl)
    refine h.afterKick hk rfl rfl hfit.1 (fun hw => ?_) fun hw k' ho => ?_
    · exact (hfit.2.1 hw).resolve_left (hnot k)
    · exact hnot k ((hfit.2.2 hw).2 k' ho)
  · obtain ⟨rfl, hp⟩ := h.queued hk hx
    have hf := h.at hp
    have hs : Stage (s.msg x) (Phase.txq k) := hf.stage
    have hheld : ∀ k', ph x = .held k' → k' = k := by simp [hp]
    have hresp : ∀ {P : Prop} r, s.bh = .responding x r → P := h.no_response (by simp [hp])
    have hown : ∀ k', (Phase.held k).owner { s.msg x with place := none } = some k' → k' = k := by
      intro k' hk'
      exact (Option.some.inj hk').symm
    have hfits : Fits { s.msg x with place := none } (.held k) :=
      ⟨hf.wait, hf.onlyOnce, hf.allocated, hf.frees, rfl, hs⟩
    rw [hd]
    simp only
    split
    · split
      · next hr =>
        refine h.sender (p := .held k) hk rfl rfl rfl hstay rfl rfl rfl hlists hfits hheld
          (fun k' hk' => ⟨hown k' hk', rfl⟩) ?_ (fun r hr => hresp r hr) (by simp [hp])
        rw [Function.update_self] at hr
        have hw : w = true := hfit.1.trans hr
        refine ⟨by simp [hfit.1], fun _ => ?_, fun hw' => ?_⟩
        · simp [Waits]
        · rw [hw] at hw'
          exact absurd hw' (by simp)
      · next hr =>
        rw [Function.update_self] at hr
        have hw : w = false := by
          rw [hfit.1]
          simpa using hr
        rw [free_eq (by simp only [Function.update_self]; exact hf.frees)]
        simp only [Function.update_self, Function.update_idem]
        refine h.sender (p := .freed) hk rfl rfl rfl hstay rfl rfl rfl (hlists.again rfl rfl rfl rfl) ?_
          hheld ?_ ?_ (fun r hr => hresp r hr) (by simp [hp])
        · refine ⟨hf.wait, hf.onlyOnce, hf.allocated, rfl, rfl, ?_⟩
          simp [Stage, Settled, hs.1]
        · exact fun k' hk' => absurd hk' (by simp [Phase.owner])
        · refine ⟨by simp [hfit.1], fun hw' => ?_, fun _ => by simp [Phase.owner]⟩
          rw [hw] at hw'
          exact absurd hw' (by simp)
    · refine h.sender (p := .held k) (l := .took x w x) hk rfl rfl rfl rfl rfl rfl rfl
        (hlists.congr rfl fun _ => rfl) hfits hheld (fun k' hk' => ⟨hown k' hk', rfl⟩) ?_
        (fun r hr => hresp r hr) (by simp [hp])
      simp [LocFits, hfit.1]

theorem Inv.test {w : Bool} {x : μ} (h : Inv s holder ph) (hk : s.loc k = .took m w x) :
    ∃ holder' ph', Inv (s.test k m w x) holder' ph' := by
  have hfit : LocFits s.msg ph k (.took m w x) := hk ▸ h.locs k
  have hp := hfit.2.2
  unfold Sys.test
  rw [h.ackq_empty hk rfl rfl hp]
  refine h.move (l := .number m w x) hk rfl rfl rfl rfl rfl rfl rfl rfl (by simp [hp, eq_comm]) ?_ hfit
  intro k' hk'
  rw [hp] at hk'
  exact ⟨(Option.some.inj hk').symm, rfl⟩

theorem Inv.setSeq {w : Bool} {x : μ} (h : Inv s holder ph) (hk : s.loc k = .number m w x) (seq : ℕ)
    (hmsg : s'.msg = (s.setSeq k m w x seq).msg) (hlinks : s'.links = s.links)
    (hloc : s'.loc = (s.setSeq k m w x seq).loc) (hbh : s'.bh = s.bh) (hup : s'.mcuInit = s.mcuInit)
    (hfault : s'.fault = s.fault) : ∃ holder' ph', Inv s' holder' ph' := by
  have hfit : LocFits s.msg ph k (.number m w x) := hk ▸ h.locs k
  have hp := hfit.2.2
  have hf := h.at hp
  refine h.sender (l := .fill m w x) (p := .held k) hk rfl rfl hmsg hloc hbh hup hfault
    (h.lists.write hlinks hmsg rfl) ?_ (by simp [hp, eq_comm]) ?_ ?_ (h.no_response (by simp [hp]))
    (by simp [hp])
  · exact ⟨hf.wait, hf.onlyOnce, hf.allocated, hf.frees, hf.place, hf.stage⟩
  · intro k' hk'
    exact ⟨(Option.some.inj hk').symm, rfl⟩
  · simp only [LocFits, Function.update_self]
    exact ⟨hfit.1, hfit.2.1, trivial⟩

theorem Inv.number_eq {w : Bool} {x : μ} (h : Inv s holder ph) (hk : s.loc k = .number m w x) :
    ∃ seq cmdSeq, ((s.msg x).needRsp = true → seq = nextSeq s.cmdSeq) ∧
      s.number k m w x = { s.setSeq k m w x seq with cmdSeq := cmdSeq } := by
  have hfit : LocFits s.msg ph k (.number m w x) := hk ▸ h.locs k
  unfold Sys.number
  split
  · rw [h.ackq_empty hk rfl rfl hfit.2.2]
    simp only [List.map_nil, getCmdMsgSeq, List.not_mem_nil, if_false]
    rw [access_eq (by simp)]
    exact ⟨_, _, fun _ => rfl, rfl⟩
  · next hr => exact ⟨0, s.cmdSeq, fun hr' => absurd hr' hr, rfl⟩

theorem Inv.number {w : Bool} {x : μ} (h : Inv s holder ph) (hk : s.loc k = .number m w x) :
    ∃ holder' ph', Inv (s.number k m w x) holder' ph' := by
  obtain ⟨seq, cmdSeq, -, heq⟩ := h.number_eq hk
  rw [heq]
  exact h.setSeq hk seq rfl rfl rfl rfl rfl rfl

theorem Inv.link_eq {w : Bool} {x : μ} (h : Inv s holder ph) (hk : s.loc k = .fill m w x) :
    ∃ K, s.link k m w x = { s with
        links := K
        msg := Function.update s.msg x { s.msg x with
          state := if (s.msg x).needRsp then .waitCmdOutAndAck else .waitCmdOut
          place := some (if (s.msg x).needRsp then .ackq else .kickq) }
        loc := Function.update s.loc k (.linked m w x) } ∧
      Lists (s.link k m w x) := by
  obtain ⟨-, -, hp⟩ : LocFits s.msg ph k (.fill m w x) := hk ▸ h.locs k
  have hf := h.at hp
  have hup := h.up
  unfold Sys.link
  cases hr : (s.msg x).needRsp with
  | true =>
    obtain ⟨K, hK, hlists⟩ := h.queueTail .ackq .waitCmdOutAndAck hf.place hf.frees
    simp only [if_true, hK, hup]
    exact ⟨K, rfl, hlists.congr rfl fun _ => rfl⟩
  | false =>
    obtain ⟨K, hK, hlists⟩ := h.queueTail .kickq .waitCmdOut hf.place hf.frees
    simp only [Bool.false_eq_true, if_false, hK, hup, if_true]
    exact ⟨K, rfl, hlists.congr rfl fun _ => rfl⟩

theorem Inv.link {w : Bool} {x : μ} (h : Inv s holder ph) (hk : s.loc k = .fill m w x) :
    ∃ holder' ph', Inv (s.link k m w x) holder' ph' := by
  obtain ⟨K, heq, hlists⟩ := h.link_eq hk
  obtain ⟨rfl, hw, hp⟩ : LocFits s.msg ph k (.fill m w x) := hk ▸ h.locs k
  have hf := h.at hp
  have hs : Stage (s.msg x) (Phase.held k) := hf.stage
  rw [heq] at hlists ⊢
  refine h.sender (l := .linked x w x) (p := .linked k) hk rfl rfl rfl rfl rfl rfl rfl hlists ?_
    (by simp [hp, eq_comm]) ?_ ?_ (h.no_response (by simp [hp])) (by simp [hp])
  · refine ⟨hf.wait, hf.onlyOnce, hf.allocated, hf.frees, rfl, hs.2.1, hs.2.2.1, Or.inl hs.1, fun hr => ?_⟩
    exact ⟨fun _ => if_pos hr, Or.inl (if_pos hr)⟩
  · intro k' hk'
    exact ⟨(Phase.owner_linked.1 hk').2, rfl⟩
  · simp only [LocFits, Function.update_self]
    exact ⟨trivial, hw, hs.1, fun hw' => if_pos (hw.symm.trans hw'), Or.inl trivial⟩

theorem Inv.submit {w : Bool} {x : μ} (h : Inv s holder ph) (hk : s.loc k = .linked m w x)
    (accepted : Bool) : ∃ holder' ph', Inv (s.submit k m w x accepted) holder' ph' := by
  have hfit : LocFits s.msg ph k (.linked m w x) := hk ▸ h.locs k
  obtain ⟨hheld, howner⟩ := hfit.submitting
  obtain ⟨rfl, hw, hidle, hst, hp⟩ := hfit
  have hf := h.fits x
  have hs := hf.stage
  unfold Sys.submit
  split
  · refine h.sender (l := .kicking x w) (p := ph x) hk rfl rfl rfl rfl rfl rfl rfl
      (h.lists.write rfl rfl rfl) ⟨hf.wait, hf.onlyOnce, hf.allocated, hf.frees, hf.place, ?_⟩ hheld
      (fun k' hk' => ⟨howner _ k' hk', rfl⟩) ?_ (h.responding x) Iff.rfl
    · rcases hp with hp | ⟨hw', hp, hans⟩ <;> rw [hp] at hs ⊢
      · exact ⟨hs.1, hs.2.1, Or.inr rfl, fun hr => ⟨fun _ => hst (hw.trans hr), (hs.2.2.2 hr).2⟩⟩
      · refine ⟨fun _ => ⟨fun _ => ⟨hst hw', hans⟩, by simp, by simp, fun _ => Or.inl hans⟩, fun hr => ?_⟩
        exact absurd (hw'.symm.trans (hw.trans hr)) (by simp)
    · simp only [LocFits, Waits, Function.update_self]
      refine ⟨hw, fun hw' => Or.inr (Or.inr ?_), fun hw' => ?_⟩
      · rcases hp with hp | ⟨-, hp, hans⟩
        · exact Or.inl ⟨hp, Or.inl trivial⟩
        · exact Or.inr ⟨hp, fun _ => hans⟩
      · rcases hp with hp | ⟨hw'', -⟩
        · rw [hp]
          simp [← hw, hw']
        · exact absurd (hw'.symm.trans hw'') (by simp)
  · exact h.move (l := .refused x w x) hk rfl rfl rfl rfl rfl rfl rfl rfl hheld
      (fun k' hk' => ⟨howner _ k' hk', rfl⟩) ⟨rfl, hw, hidle, hst, hp⟩

theorem Inv.refuse {w : Bool} {x : μ} (h : Inv s holder ph) (hk : s.loc k = .refused m w x)
    (hans : (s.msg x).needRsp = true → (s.msg x).answeredBy = none) :
    ∃ holder' ph', Inv (s.refuse k m w x) holder' ph' := by
  have hfit : LocFits s.msg ph k (.refused m w x) := hk ▸ h.locs k
  obtain ⟨hheld, -⟩ := hfit.submitting
  obtain ⟨rfl, hw, hidle, -, hp⟩ := hfit
  have hp : ph x = .linked k := by
    refine hp.resolve_right fun hc => ?_
    exact hc.2.2 (hans (hw.symm.trans hc.1))
  have hf := h.at hp
  have hs : Stage (s.msg x) (Phase.linked k) := hf.stage
  have hplace : (s.msg x).place = some (if (s.msg x).needRsp then .ackq else .kickq) := hf.place
  obtain ⟨K, hK, hlists⟩ := h.unlink hplace
  have hun : (if (s.msg x).needRsp = true then s.unlink .ackq x else s.unlink .kickq x) =
      s.unlink (if (s.msg x).needRsp then .ackq else .kickq) x := by
    split <;> rfl
  unfold Sys.refuse
  rw [hun, hK]
  refine h.sender (l := .failed x w x) (p := .taken k) hk rfl rfl rfl rfl rfl rfl rfl
    (hlists.congr rfl fun _ => rfl) ⟨hf.wait, hf.onlyOnce, hf.allocated, hf.frees, rfl, ?_⟩ hheld
    (fun k' hk' => ⟨(Phase.owner_taken.1 hk').2, rfl⟩) ?_ (h.no_response (by simp [hp])) (by simp [hp])
  · simp [Stage, hidle, hs.1]
  · simp only [LocFits, Function.update_self]
    exact ⟨trivial, hw, hidle, trivial, fun hw' => hans (hw.symm.trans hw')⟩

theorem Inv.fail {w : Bool} {x : μ} (h : Inv s holder ph) (hk : s.loc k = .failed m w x) :
    ∃ holder' ph', Inv (s.fail k m w x) holder' ph' := by
  obtain ⟨rfl, hw, hidle, hp, hans⟩ : LocFits s.msg ph k (.failed m w x) := hk ▸ h.locs k
  have hf := h.at hp
  unfold Sys.fail
  cases hr : (s.msg x).needRsp with
  | true =>
    rw [hr] at hw
    subst hw
    simp only [if_true, access_one hf.frees, Sys.afterKick]
    refine h.sender (l := .waiting x) (p := .taken k) hk rfl rfl rfl rfl rfl rfl rfl
      (h.lists.write rfl rfl rfl) ⟨hf.wait, hf.onlyOnce, hf.allocated, hf.frees, hf.place, ?_⟩
      (by simp [hp]) (fun k' hk' => ⟨(Phase.owner_taken.1 hk').2, rfl⟩) ?_ ?_ (by simp [hp])
    · simp [Stage, hidle]
    · simp [LocFits, Waits, hr]
    · exact fun r hresp => absurd (hans rfl) (h.responding x r hresp).2.1
  | false =>
    obtain ⟨K, hK, hlists⟩ := h.queueTail .txDoneq .txKickoutFail hf.place hf.frees
    rw [hr] at hw
    subst hw
    simp only [Bool.false_eq_true, if_false, hK]
    refine h.sender (l := .idle) (p := .done) hk rfl rfl rfl rfl rfl rfl rfl
      (hlists.congr rfl fun _ => rfl) ⟨hf.wait, hf.onlyOnce, hf.allocated, hf.frees, rfl, ?_⟩
      (by simp [hp]) ?_ trivial ?_ (by simp [hp])
    · simp [Stage, Sys.disposable, Settled, hidle]
    · exact fun k' hk' => absurd hk' (by simp [Phase.owner])
    · intro r hresp
      have := (h.responding x r hresp).1
      rw [hr] at this
      exact absurd this (by simp)

omit [DecidableEq μ] [DecidableEq κ] in
theorem Inv.awake (h : Inv s holder ph) (hk : s.loc k = .waiting m) (hack : (s.msg m).ackDone = true) :
    (s.msg m).needRsp = true ∧ ph m = .taken k := by
  obtain ⟨hr, hwait⟩ : LocFits s.msg ph k (.waiting m) := hk ▸ h.locs k
  refine ⟨hr, ?_⟩
  rcases hwait with hp | ⟨hp, -⟩ | ⟨hp, -⟩
  · exact absurd (hack.symm.trans (h.at hp).stage.2.1) (by simp)
  · exact absurd (hack.symm.trans (h.at hp).stage.1) (by simp)
  · exact hp

theorem Inv.woken {state : CmdMsgState} (h : Inv s holder ph) (hk : s.loc k = .waiting m)
    (hack : (s.msg m).ackDone = true) (hst : Sys.disposable state = true) (times : ℤ) :
    ∃ holder' ph', Inv { s with
      msg := Function.update s.msg m { s.msg m with ackDone := false, retransmitTimes := times }
      loc := Function.update s.loc k (.finish m state) } holder' ph' := by
  obtain ⟨hr, hp⟩ := h.awake hk hack
  have hf := h.at hp
  have hs : Stage (s.msg m) (Phase.taken k) := hf.stage
  have hun : ∀ ok, (s.msg m).urb ≠ .unlinked ok := by
    intro ok hu
    exact absurd (hack.symm.trans ((hs.1 hr).2.1 ok hu).2.1) (by simp)
  refine h.sender (l := .finish m state) (p := .taken k) hk rfl rfl rfl rfl rfl rfl rfl
    (h.lists.write rfl rfl rfl) ⟨hf.wait, hf.onlyOnce, hf.allocated, hf.frees, hf.place, ?_⟩
    (by simp [hp]) (fun k' hk' => ⟨(Phase.owner_taken.1 hk').2, rfl⟩) ?_ ?_ (by simp [hp])
  · exact ⟨fun hr => ⟨(hs.1 hr).1, fun ok hu => absurd hu (hun ok), (hs.1 hr).2.2.1, by simp⟩, hs.2⟩
  · simp [LocFits, hr, hst, hun]
  · exact fun r hresp => ⟨hr, (h.responding m r hresp).2.1, Or.inl ⟨k, rfl, rfl⟩⟩

theorem Inv.wake (h : Inv s holder ph) (hk : s.loc k = .waiting m) :
    ∃ holder' ph', Inv (s.wake k m) holder' ph' := by
  unfold Sys.wake
  split
  · next hack =>
    simp only [access_one (h.at (h.awake hk hack).2).frees]
    split
    · exact h.woken hk hack rfl _
    · exact h.woken hk hack rfl _
  · exact ⟨holder, ph, h⟩

theorem Inv.expire (h : Inv s holder ph) (hk : s.loc k = .waiting m) (hmsg : s'.msg = s.msg)
    (hlinks : s'.links = s.links) (hloc : s'.loc = Function.update s.loc k (.expired m)) (hbh : s'.bh = s.bh)
    (hup : s'.mcuInit = s.mcuInit) (hfault : s'.fault = s.fault) : ∃ holder' ph', Inv s' holder' ph' := by
  obtain ⟨hr, hwait⟩ : LocFits s.msg ph k (.waiting m) := hk ▸ h.locs k
  exact h.move (l := .expired m) hk rfl rfl hmsg hlinks hloc hbh hup hfault
    (fun k' hk' => hwait.owner_eq (by rw [hk']; rfl)) (fun k' hk' => ⟨hwait.owner_eq hk', rfl⟩) ⟨hr, hwait⟩

theorem giveUp_eq (h : (s.msg m).frees = 0) : s.giveUp k m =
    { s with
      msg := Function.update s.msg m { s.msg m with retransmitTimes := (s.msg m).retransmitTimes - 1 }
      loc := Function.update s.loc k (.finish m .txTimeoutFail) } := by
  rw [Sys.giveUp, access_one h]

theorem Inv.giveUp {l₀ : Loc μ} (h : Inv s holder ph) (hk : s.loc k = l₀) (hin : l₀.inside = true)
    (hm : l₀.msg = some m) (hr : (s.msg m).needRsp = true) (hun : ∀ ok, (s.msg m).urb ≠ .unlinked ok)
    (hp : ph m = .held k ∨ ph m = .taken k) : ∃ holder' ph', Inv (s.giveUp k m) holder' ph' := by
  have hf := h.fits m
  have hfree : (s.msg m).frees = 0 := by
    rw [hf.frees]
    rcases hp with hp | hp <;> rw [hp] <;> rfl
  rw [giveUp_eq hfree]
  refine h.sender (l := .finish m .txTimeoutFail) (p := ph m) hk hin hm rfl rfl rfl rfl rfl
    (h.lists.write rfl rfl rfl) ⟨hf.wait, hf.onlyOnce, hf.allocated, hf.frees, hf.place, ?_⟩ ?_ ?_ ?_
    (h.responding m) Iff.rfl
  · have hs := hf.stage
    rcases hp with hp | hp <;> rw [hp] at hs ⊢ <;> exact hs
  · rcases hp with hp | hp <;> simp [hp, eq_comm]
  · intro k' hk'
    refine ⟨?_, rfl⟩
    rcases hp with hp | hp <;> rw [hp] at hk'
    · exact Phase.owner_held.1 hk'
    · exact (Phase.owner_taken.1 hk').2
  · simp [LocFits, hr, Sys.disposable, hun, hp]

theorem Inv.look (h : Inv s holder ph) (hk : s.loc k = .expired m) :
    ∃ holder' ph', Inv (s.look k m) holder' ph' := by
  obtain ⟨hr, hwait⟩ : LocFits s.msg ph k (.expired m) := hk ▸ h.locs k
  have hheld : ∀ k', ph m = .held k' → k' = k := fun k' hk' => hwait.owner_eq (by rw [hk']; rfl)
  have hfree : (s.msg m).frees = 0 := by
    rw [(h.fits m).frees]
    rcases hwait with hp | ⟨hp, -⟩ | ⟨hp, -⟩ <;> rw [hp] <;> rfl
  unfold Sys.look
  simp only [h.up, if_true, access_one hfree]
  split
  · next hst =>
    refine h.move (l := .kill m) hk rfl rfl rfl rfl rfl rfl h.up.symm rfl hheld
      (fun k' hk' => ⟨hwait.owner_eq hk', rfl⟩) ⟨hr, ?_⟩
    rcases hwait with hp | ⟨hp, hu | hs⟩ | ⟨hp, -⟩
    · exact absurd hst (h.at hp).stage.2.2.2.2.1
    · exact Or.inl ⟨hp, hu⟩
    · exact absurd (hst.symm.trans hs) (by simp)
    · exact Or.inr hp
  · next hst =>
    refine h.move (l := .unlink m) hk rfl rfl rfl rfl rfl rfl h.up.symm rfl hheld
      (fun k' hk' => ⟨hwait.owner_eq hk', rfl⟩) ⟨hr, ?_⟩
    rcases hwait with hp | ⟨hp, -⟩ | ⟨hp, hans⟩
    · exact absurd hst (h.at hp).stage.2.2.2.2.2
    · obtain ⟨-, -, hu | hu, hs⟩ : Stage (s.msg m) (Phase.linked k) := (h.at hp).stage
      · exact ⟨hu, Or.inl hp⟩
      · exact absurd (hst.symm.trans ((hs hr).1 hu)) (by simp)
    · obtain ⟨hactive, hunlinked, hmarked, -⟩ := (show Stage (s.msg m) (Phase.taken k) from (h.at hp).stage).1 hr
      refine ⟨?_, Or.inr ⟨hp, hans hst⟩⟩
      cases hu : (s.msg m).urb with
      | idle => rfl
      | active => exact absurd (hst.symm.trans (hactive hu).1) (by simp)
      | unlinked ok => exact absurd (hst.symm.trans (hunlinked ok hu).1) (by simp)
      | marked => exact absurd (hst.symm.trans (hmarked hu).1) (by simp)
  · next hne₁ hne₂ =>
    rcases hwait with hp | ⟨hp, -⟩ | ⟨hp, -⟩
    · have hidle : (s.msg m).urb = .idle := (h.at hp).stage.1
      exact h.giveUp hk rfl rfl hr (by simp [hidle]) (Or.inl hp)
    · obtain ⟨-, -, -, hs⟩ : Stage (s.msg m) (Phase.linked k) := (h.at hp).stage
      rcases (hs hr).2 with hst | hst
      · exact absurd hst hne₁
      · exact absurd hst hne₂
    · have hs : Stage (s.msg m) (Phase.taken k) := (h.at hp).stage
      exact h.giveUp hk rfl rfl hr (fun ok hu => hne₁ ((hs.1 hr).2.1 ok hu).1) (Or.inr hp)

theorem Inv.startKill (h : Inv s holder ph) (hk : s.loc k = .kill m) (hmsg : s'.msg = s.msg)
    (hlinks : s'.links = s.links) (hloc : s'.loc = Function.update s.loc k (.killing m)) (hbh : s'.bh = s.bh)
    (hup : s'.mcuInit = s.mcuInit) (hfault : s'.fault = s.fault) : ∃ holder' ph', Inv s' holder' ph' := by
  have hfit : LocFits s.msg ph k (.kill m) := hk ▸ h.locs k
  refine h.move (l := .killing m) hk rfl rfl hmsg hlinks hloc hbh hup hfault ?_ ?_ hfit
  · rcases hfit.2 with ⟨hp, -⟩ | hp <;> simp [hp]
  · intro k' hk'
    refine ⟨?_, rfl⟩
    rcases hfit.2 with ⟨hp, -⟩ | hp <;> rw [hp] at hk'
    · exact (Phase.owner_linked.1 hk').2
    · exact (Phase.owner_taken.1 hk').2

theorem Inv.killed (h : Inv s holder ph) (hk : s.loc k = .killing m) (hidle : (s.msg m).urb = .idle) :
    ∃ holder' ph', Inv (s.giveUp k m) holder' ph' := by
  obtain ⟨hr, hp⟩ : LocFits s.msg ph k (.killing m) := hk ▸ h.locs k
  have hp : ph m = .taken k := by
    refine hp.resolve_left fun hc => ?_
    exact absurd (hidle.symm.trans hc.2) (by simp)
  exact h.giveUp hk rfl rfl hr (by simp [hidle]) (Or.inr hp)

theorem Inv.unlinkAckq (h : Inv s holder ph) (hk : s.loc k = .unlink m) (hans : (s.msg m).answeredBy = none) :
    ∃ holder' ph', Inv ((s.unlink .ackq m).giveUp k m) holder' ph' := by
  obtain ⟨hr, hidle, hp⟩ : LocFits s.msg ph k (.unlink m) := hk ▸ h.locs k
  have hp : ph m = .linked k := hp.resolve_right fun hc => hc.2 hans
  have hf := h.at hp
  have hplace : (s.msg m).place = some .ackq := by rw [hf.place]; simp [Phase.place, hr]
  obtain ⟨K, hK, hlists⟩ := h.unlink hplace
  rw [hK, giveUp_eq (by simp only [Function.update_self]; exact hf.frees)]
  simp only [Function.update_self, Function.update_idem]
  refine h.sender (l := .finish m .txTimeoutFail) (p := .taken k) hk rfl rfl rfl rfl rfl rfl rfl
    (hlists.again rfl rfl rfl rfl) ⟨hf.wait, hf.onlyOnce, hf.allocated, hf.frees, rfl, ?_⟩ (by simp [hp])
    (fun k' hk' => ⟨(Phase.owner_taken.1 hk').2, rfl⟩) ?_ (h.no_response (by simp [hp])) (by simp [hp])
  · simp [Stage, hidle, (show Stage (s.msg m) (Phase.linked k) from hf.stage).1]
  · simp [LocFits, hr, Sys.disposable, hidle]

theorem Inv.finish {state : CmdMsgState} (h : Inv s holder ph) (hk : s.loc k = .finish m state) :
    ∃ holder' ph', Inv (s.finish k m state) holder' ph' := by
  obtain ⟨hr, hst, hun, hp⟩ : LocFits s.msg ph k (.finish m state) := hk ▸ h.locs k
  have hf := h.fits m
  have hfree : (s.msg m).frees = 0 := by
    rw [hf.frees]
    rcases hp with hp | hp <;> rw [hp] <;> rfl
  have hplace : (s.msg m).place = none := by
    rw [hf.place]
    rcases hp with hp | hp <;> rw [hp] <;> rfl
  have hactive : (s.msg m).urb = .active → (s.msg m).answeredBy ≠ none := by
    intro hu
    rcases hp with hp | hp
    · exact absurd (hu.symm.trans (h.at hp).stage.1) (by simp)
    · exact ((show Stage (s.msg m) (Phase.taken k) from (h.at hp).stage).1 hr).1 hu |>.2
  obtain ⟨K, hK, hlists⟩ := h.queueTail .txDoneq state hplace hfree
  have hnot : ¬ ((s.msg m).needRetransmit = true ∧ 0 < (s.msg m).retransmitTimes) := by
    rw [hf.onlyOnce]
    simp
  unfold Sys.finish
  simp only [h.up, if_true, access_one hfree, if_neg hnot, hK]
  refine h.sender (l := .idle) (p := .done) hk rfl rfl rfl rfl rfl h.up.symm rfl
    (hlists.congr rfl fun _ => rfl) ⟨hf.wait, hf.onlyOnce, ?_, hfree, rfl, hst, hun, hactive, ?_⟩ ?_ ?_ trivial
    ?_ ?_
  · show (s.msg m).allocated = _
    rw [hf.allocated]
    rcases hp with hp | hp <;> rw [hp] <;> rfl
  · intro hf'
    exact absurd (hr.symm.trans hf') (by simp)
  · rcases hp with hp | hp <;> simp [hp, eq_comm]
  · exact fun k' hk' => absurd hk' (by simp [Phase.owner])
  · exact fun r hresp => ⟨hr, (h.responding m r hresp).2.1, Or.inr rfl⟩
  · rcases hp with hp | hp <;> simp [hp]

end Mt7610u.Mcu
