import Mt7610u.Mcu.Matching
import Mt7610u.Mcu.ReadLoop
import Mt7610u.Mcu.LifeRuns
import Mathlib.Data.Fintype.Option

/-! # Runs of the driver and the firmware -/

namespace Mt7610u.Mcu

open Lib.DlList Lib.Runs

variable {κ μ : Type}

structure Reading (d : Device κ μ) : Prop where
  going : ∀ k rd, d.reading k = some rd → Going d.drv k rd
  returned : ∀ rd ∈ d.returned, rd.ret = ndisStatusSuccess → Complete d.drv rd

variable {d : Device κ μ} {s s' : Sys κ μ} {holder : Option κ} {ph : μ → Phase κ} {k : κ} {m x : μ} {w : Bool}
  {rd : Read μ} {c : Chunk μ}

theorem Reading.drv (h : Reading d) (hg : Gives d.drv s')
    (hc : ∀ k rd c, d.reading k = some rd → InFlight d.drv k rd c → Control s' k rd c ∧ Asked s' rd c) :
    Reading { d with drv := s' } where
  going k rd hrd := (h.going k rd hrd).mono hg fun c => hc k rd c hrd
  returned rd hrd hret := (h.returned rd hrd hret).mono hg

theorem gives_of_same (h : ∀ x, SameResponse (s.msg x) (s'.msg x)) : Gives s s' := by
  intro x hx
  rw [(h x).filledBy]
  exact hx

theorem Reading.aside (h : Reading d) (ha : Aside d.drv s') : Reading { d with drv := s' } := by
  have hg := gives_of_same fun x => (ha.msg x).response
  refine h.drv hg fun k rd c _ hc => ⟨?_, hc.asked.same (ha.msg c.msg).response ha.responding⟩
  exact hc.control.stay hg (by rw [ha.loc]) (by rw [ha.ret])

theorem Inv.waits (h : Inv s holder ph) (hc : Control s k rd c) (hr : (s.msg c.msg).needRsp = true) :
    (s.loc k).unawaited = false := by
  have hfit := h.locs k
  rcases hc.own with hidle | hown
  · rw [hidle]
    rfl
  · cases hl : s.loc k with
    | kicking y w =>
      rw [hl] at hown hfit
      obtain rfl : y = c.msg := Option.some.inj hown
      simp [Loc.unawaited, hfit.1, hr]
    | took y w x | number y w x | fill y w x | linked y w x | refused y w x | failed y w x =>
      rw [hl] at hown hfit
      obtain rfl : y = c.msg := Option.some.inj hown
      simp [Loc.unawaited, hfit.2.1, hfit.1, hr]
    | _ => rfl

section sender

variable [DecidableEq κ] {l : Loc μ} {r : ℤ}

theorem Reading.sender (h : Reading d) (hresp : ∀ x, SameResponse (d.drv.msg x) (s'.msg x))
    (hbh : ∀ m r, s'.bh = .responding m r ↔ d.drv.bh = .responding m r)
    (hloc : s'.loc = Function.update d.drv.loc k l) (hret : s'.ret = Function.update d.drv.ret k r)
    (hk : ∀ rd c, d.reading k = some rd → InFlight d.drv k rd c → Control s' k rd c) :
    Reading { d with drv := s' } := by
  have hg := gives_of_same hresp
  refine h.drv hg fun k' rd c hrd hc => ⟨?_, hc.asked.same (hresp c.msg) hbh⟩
  by_cases hkk : k' = k
  · subst hkk
    exact hk rd c hrd hc
  · refine hc.control.stay hg ?_ ?_
    · rw [hloc, Function.update_of_ne hkk]
    · rw [hret, Function.update_of_ne hkk]

theorem Reading.moved (h : Reading d) (hm : Moved d.drv s' k l r)
    (hk : ∀ rd c, d.reading k = some rd → InFlight d.drv k rd c → Control s' k rd c) :
    Reading { d with drv := s' } :=
  h.sender (fun x => (hm.msg x).response) (fun m r => by rw [hm.bh]) hm.loc hm.ret hk

theorem Reading.steady (h : Reading d) (hinv : Inv d.drv holder ph)
    (hresp : ∀ x, SameResponse (d.drv.msg x) (s'.msg x))
    (hbh : ∀ m r, s'.bh = .responding m r ↔ d.drv.bh = .responding m r)
    (hloc : s'.loc = Function.update d.drv.loc k l) (hret : s'.ret = Function.update d.drv.ret k r)
    (hs : Steady (d.drv.loc k) (d.drv.ret k) l r) : Reading { d with drv := s' } := by
  refine h.sender hresp hbh hloc hret fun rd c _ hc => ?_
  refine hc.control.steady (gives_of_same hresp) ?_ (hinv.waits hc.control hc.asked.needRsp)
  rw [hloc, hret, Function.update_self, Function.update_self]
  exact hs

theorem Reading.ordinary (h : Reading d) (hinv : Inv d.drv holder ph) (ho : Ordinary d.drv s' k) :
    Reading { d with drv := s' } := by
  obtain ⟨l, r, hm, -, hs⟩ := ho
  exact h.steady hinv (fun x => (hm.msg x).response) (fun m r => by rw [hm.bh]) hm.loc hm.ret hs

theorem Reading.check [DecidableEq μ] (h : Reading d) (hinv : Inv d.drv holder ph) (hk : d.drv.loc k = .entered m)
    (hlast : d.drv.forbidden = true → (d.reading k).all Read.last) : Reading { d with drv := d.drv.check k m } := by
  rcases moved_check hk with ⟨hf, hm⟩ | ho
  · refine h.moved hm fun rd c hrd hc => ?_
    have hlast := hlast hf
    rw [hrd] at hlast
    have hloc : (d.drv.check k m).loc k = .idle := by rw [hm.loc, Function.update_self]
    have hret : (d.drv.check k m).ret k = ndisStatusFailure := by rw [hm.ret, Function.update_self]
    refine ⟨Or.inl hloc, fun hlost => ?_, fun _ => Or.inr ⟨hlast, ?_⟩⟩
    · rw [hloc] at hlost
      exact absurd hlost (by simp [Loc.course])
    · rw [hret]
      decide
  · exact h.ordinary hinv ho

theorem Reading.expire (h : Reading d) (hk : d.drv.loc k = .waiting m) (hlast : (d.reading k).all Read.last) :
    Reading { d with drv := { d.drv with
      ret := Function.update d.drv.ret k ndisStatusFailure
      loc := Function.update d.drv.loc k (.expired m) } } := by
  refine h.sender (fun _ => SameResponse.refl _) (fun _ _ => Iff.rfl) rfl rfl fun rd c hrd hc => ?_
  rw [hrd] at hlast
  refine ⟨Or.inr ?_, fun _ => ⟨hlast, ?_⟩, fun hdone => ?_⟩
  · have hown := hc.control.own
    rw [hk] at hown
    simpa [Loc.own] using hown
  · simp
  · simp [Loc.course] at hdone

/-- **A command of a read whose wait ends without an error has its response.** -/
theorem Reading.wake [DecidableEq μ] (h : Reading d) (hinv : Inv d.drv holder ph) (hk : d.drv.loc k = .waiting m)
    (hout : (d.drv.msg m).ackDone = true → (d.reading k).isSome → (d.drv.msg m).state ≠ .txKickoutFail) :
    Reading { d with drv := d.drv.wake k m } := by
  rcases moved_wake d.drv k m with ⟨hack, state, hm⟩ | ho
  · refine h.moved hm fun rd c hrd hc => ?_
    have hloc : (d.drv.wake k m).loc k = .finish m state := by rw [hm.loc, Function.update_self]
    obtain rfl : m = c.msg := by
      have hown := hc.control.own
      rw [hk] at hown
      simpa [Loc.own] using hown
    refine ⟨Or.inr (by rw [hloc]; rfl), fun hlost => ?_, fun _ => Or.inl ?_⟩
    · rw [hloc] at hlost
      exact absurd hlost (by simp [Loc.course])
    · obtain ⟨hr, hp⟩ := hinv.awake hk hack
      have hs : Stage (d.drv.msg c.msg) (Phase.taken k) := (hinv.at hp).stage
      have hans : (d.drv.msg c.msg).answeredBy ≠ none :=
        ((hs.1 hr).2.2.2 hack).resolve_right (hout hack (by rw [hrd]; rfl))
      obtain ⟨r, hr⟩ := Option.ne_none_iff_exists'.1 hans
      rw [(hm.msg c.msg).response.filledBy]
      rcases hc.asked.answered r hr with hfill | hbh
      · rw [hfill]
        simp
      · obtain ⟨-, -, ⟨k', -, hno⟩ | hd⟩ := hinv.responding c.msg r hbh
        · exact absurd (hack.symm.trans hno) (by simp)
        · exact absurd (hp.symm.trans hd) (by simp)
  · exact h.ordinary hinv ho

variable [DecidableEq μ]

theorem Reading.number (h : Reading d) (hinv : Inv d.drv holder ph) (hk : d.drv.loc k = .number m w x) :
    Reading { d with drv := d.drv.number k m w x } := by
  obtain ⟨seq, cmdSeq, -, heq⟩ := hinv.number_eq hk
  rw [heq]
  refine h.steady hinv (l := .fill m w x) (r := d.drv.ret k) ?_ (fun _ _ => Iff.rfl) rfl
    (Function.update_eq_self k d.drv.ret).symm (steady_onWay hk rfl rfl)
  exact (Function.forall_update_iff d.drv.msg (p := fun z v => SameResponse (d.drv.msg z) v)).2
    ⟨⟨rfl, rfl, rfl, rfl, rfl⟩, fun z _ => SameResponse.refl _⟩

theorem Reading.link (h : Reading d) (hinv : Inv d.drv holder ph) (hk : d.drv.loc k = .fill m w x) :
    Reading { d with drv := d.drv.link k m w x } := by
  have hcalm := hinv.calm_link hk
  obtain ⟨K, heq, -⟩ := hinv.link_eq hk
  refine h.steady hinv (l := .linked m w x) (r := d.drv.ret k) hcalm.response hcalm.responding ?_ ?_
    (steady_onWay hk rfl rfl)
  · rw [heq]
  · rw [heq, Function.update_eq_self]

theorem Reading.submit (h : Reading d) (hinv : Inv d.drv holder ph) (hk : d.drv.loc k = .linked m w x)
    (accepted : Bool) : Reading { d with drv := d.drv.submit k m w x accepted } := by
  unfold Sys.submit
  split
  · refine h.steady hinv (l := .kicking m w) (r := d.drv.ret k) ?_ (fun _ _ => Iff.rfl) rfl
      (Function.update_eq_self k d.drv.ret).symm (steady_onWay hk rfl rfl)
    exact (Function.forall_update_iff d.drv.msg (p := fun z v => SameResponse (d.drv.msg z) v)).2
      ⟨⟨rfl, rfl, rfl, rfl, rfl⟩, fun z _ => SameResponse.refl _⟩
  · exact h.steady hinv (l := .refused m w x) (r := d.drv.ret k) (fun _ => SameResponse.refl _)
      (fun _ _ => Iff.rfl) rfl (Function.update_eq_self k d.drv.ret).symm (steady_onWay hk rfl rfl)

end sender

variable [DecidableEq μ]

theorem Reading.tasklet {v : Msg μ} (h : Reading d) (hmsg : s'.msg = Function.update d.drv.msg m v)
    (hloc : s'.loc = d.drv.loc) (hret : s'.ret = d.drv.ret)
    (hfill : (d.drv.msg m).filledBy ≠ none → v.filledBy ≠ none) (hbh : ∀ x r, x ≠ m → d.drv.bh ≠ .responding x r)
    (hask : ∀ rd c, c.msg = m → rd.receiveLen ≠ 0 → Asked d.drv rd c → Asked s' rd c) :
    Reading { d with drv := s' } := by
  have hg : Gives d.drv s' := by
    rw [Gives, hmsg]
    exact (Function.forall_update_iff d.drv.msg (p := fun z v => (d.drv.msg z).filledBy ≠ none →
      v.filledBy ≠ none)).2 ⟨hfill, fun _ _ => id⟩
  refine h.drv hg fun k rd c _ hc => ⟨hc.control.stay hg (by rw [hloc]) (by rw [hret]), ?_⟩
  by_cases hcm : c.msg = m
  · exact hask rd c hcm hc.pos hc.asked
  · have hsame : s'.msg c.msg = d.drv.msg c.msg := by rw [hmsg, Function.update_of_ne hcm]
    refine ⟨?_, ?_, ?_, fun r hr => ?_⟩
    · rw [hsame]
      exact hc.asked.allocated
    · rw [hsame]
      exact hc.asked.needRsp
    · rw [hsame]
      exact hc.asked.expects
    · rw [hsame] at hr ⊢
      exact Or.inl ((hc.asked.answered r hr).resolve_right (hbh c.msg r hcm))

theorem Reading.rxProcess {r : Response μ} {rs : List (Response μ)} (h : Reading d)
    (hinv : Inv d.drv holder ph) (hbh : d.drv.bh = .rx) :
    Reading { d with drv := { d.drv with rxDoneq := rs }.rxProcess r } := by
  have hinv' : Inv { d.drv with rxDoneq := rs } holder ph :=
    hinv.same rfl rfl rfl rfl rfl (fun _ _ hx => hx) fun _ => Iff.rfl
  rcases hinv'.rxProcess_eq r with heq | ⟨m, K, -, -, heq, -⟩
  · rw [heq]
    refine h.drv (fun _ => id) fun k rd c _ hc => ⟨hc.control.stay (fun _ => id) rfl rfl, ?_⟩
    exact hc.asked.same (SameResponse.refl _) fun _ _ => Iff.rfl
  · rw [heq]
    refine h.tasklet (m := m) rfl rfl rfl id (by simp [hbh]) fun rd c hcm _ ha => ?_
    subst hcm
    refine ⟨?_, ?_, ?_, fun r' hr' => Or.inr ?_⟩
    · simpa using ha.allocated
    · simpa using ha.needRsp
    · simpa using ha.expects
    · simpa using hr'

/-- **The response to a command of a read is as long as expected, and fills the result.** -/
theorem Reading.respond {r : Response μ} (h : Reading d) (hinv : Inv d.drv holder ph) (hapart : Apart d)
    (hbh : d.drv.bh = .responding m r)
    (hlen : (d.drv.msg m).rspPayloadLen ≠ 0 → r.pktLen = (d.drv.msg m).rspPayloadLen) :
    Reading { d with drv := d.drv.respond m r } := by
  rw [hinv.respond_eq hbh]
  refine h.tasklet (m := m) rfl rfl rfl ?_ ?_ fun rd c hcm hpos ha => ?_
  · intro hgot
    obtain ⟨len, fill, heq, hfill⟩ := rspReceived_eq (d.drv.msg m) r
    rw [heq]
    rcases hfill with rfl | rfl
    · exact hgot
    · simp
  · intro x r' hx hx'
    rw [hbh] at hx'
    exact hx (Bh.responding.inj hx').1.symm
  · subst hcm
    have hne : (d.drv.msg c.msg).rspPayloadLen ≠ 0 := ha.expects ▸ hpos
    have hrec : rspReceived (d.drv.msg c.msg) r = { d.drv.msg c.msg with filledBy := some r } :=
      if_pos ⟨(hlen hne).symm, hne⟩
    rw [hrec]
    refine ⟨?_, ?_, ?_, fun r' hr' => Or.inl ?_⟩
    · simpa using ha.allocated
    · simpa using ha.needRsp
    · simpa using ha.expects
    · have hr' : (d.drv.msg c.msg).answeredBy = some r' := by simpa using hr'
      have hrr : r = r' := Option.some.inj ((hapart.responding c.msg r hbh).symm.trans hr')
      simp [hrr]

variable [DecidableEq κ]

theorem gives_send (hm : (s.msg m).filledBy = none) (wait : Bool) (n : ℕ) : Gives s (s.send k m wait n) := by
  intro x hx
  have hne : x ≠ m := by
    rintro rfl
    exact hx hm
  have hsame : (s.send k m wait n).msg x = s.msg x := Function.update_of_ne hne _ _
  rw [hsame]
  exact hx

theorem InFlight.send {k' : κ} {n : ℕ} (hc : InFlight s k rd c) (hne : k ≠ k') (hg : Gives s (s.send k' m w n))
    (hfree : (s.msg m).allocated = false) : Control (s.send k' m w n) k rd c ∧ Asked (s.send k' m w n) rd c := by
  have hcm : c.msg ≠ m := by
    rintro rfl
    exact absurd (hc.asked.allocated.symm.trans hfree) (by simp)
  have hsame : (s.send k' m w n).msg c.msg = s.msg c.msg := Function.update_of_ne hcm _ _
  refine ⟨hc.control.stay hg (Function.update_of_ne hne _ _) rfl, ?_⟩
  refine hc.asked.same ?_ fun _ _ => Iff.rfl
  rw [hsame]
  exact SameResponse.refl _

/-! ### The whole device -/

structure Good (d : Device κ μ) : Prop where
  inv : ∃ holder ph, Inv d.drv holder ph
  apart : Apart d
  reading : Reading d

omit [DecidableEq κ] [DecidableEq μ] in
theorem good_init : Good (Device.init κ μ) where
  inv := ⟨none, _, inv_init⟩
  apart := apart_init
  reading := ⟨by simp [Device.init], by simp [Device.init]⟩

omit [DecidableEq κ] [DecidableEq μ] in
theorem Good.matched (h : Good d) : Matched d where
  answered := h.apart.answered
  filled := h.apart.filled
  read rd hrd hret := by
    obtain ⟨hones, hwords⟩ := h.reading.returned rd hrd hret
    refine ⟨hones, fun w hw => ?_⟩
    obtain ⟨c, hc, hcov, hgot⟩ := hwords w hw
    obtain ⟨r, hr⟩ := Option.ne_none_iff_exists'.1 hgot
    exact ⟨c, hc, hcov, r, hr, h.apart.filled c.msg r hr⟩

theorem Good.drv (h : Good d) {op : Op κ μ} (hop : Undisturbed d op) (hf : d.foreign op = false) :
    Apart { d with drv := d.drv.step op } ∧ Reading { d with drv := d.drv.step op } := by
  obtain ⟨⟨holder, ph, hinv⟩, hapart, hread⟩ := h
  have hstay : Apart { d with drv := d.drv } ∧ Reading { d with drv := d.drv } := ⟨hapart, hread⟩
  have hordinary : ∀ k s', Ordinary d.drv s' k → Apart { d with drv := s' } ∧ Reading { d with drv := s' } := by
    intro k s' ho
    obtain ⟨l, r, hm, hl, -⟩ := id ho
    exact ⟨hapart.calm (hm.calm hl), hread.ordinary hinv ho⟩
  have haside : ∀ s', Aside d.drv s' → Apart { d with drv := s' } ∧ Reading { d with drv := s' } :=
    fun s' ha => ⟨hapart.calm ha.calm, hread.aside ha⟩
  cases op with
  | enter k _ | dequeue k | test k | refuse k | fail k | look k | kill k | killed k | unlink k | finish k =>
    exact hordinary k _ (ordinary_step rfl)
  | complete | handled | signal | bhStart | bhTx | bhFree | flags => exact haside _ (aside_step rfl)
  | send k m wait n =>
    simp only [Sys.step]
    split
    · next hc =>
      refine ⟨hapart.send hinv hc.2 wait n, ?_⟩
      have hg : Gives d.drv (d.drv.send k m wait n) := gives_send (hapart.blank m hc.2) wait n
      refine hread.drv hg fun k' rd c hrd hflight => hflight.send ?_ hg hc.2
      rintro rfl
      rw [Device.foreign, hrd] at hf
      exact absurd hf (by simp)
    · exact hstay
  | check k =>
    simp only [Sys.step]
    split
    · next m hk =>
      refine ⟨?_, hread.check hinv hk (hop m hk)⟩
      rcases moved_check hk with ⟨-, hm⟩ | ⟨l, r, hm, hl, -⟩
      · exact hapart.calm (hm.calm (Or.inl rfl))
      · exact hapart.calm (hm.calm hl)
    · exact hstay
  | number k =>
    simp only [Sys.step]
    split
    · next m w x hk => exact ⟨hapart.number hinv hk (hop m w x hk), hread.number hinv hk⟩
    · exact hstay
  | link k =>
    simp only [Sys.step]
    split
    · next m w x hk => exact ⟨hapart.calm (hinv.calm_link hk), hread.link hinv hk⟩
    · exact hstay
  | submit k accepted =>
    simp only [Sys.step]
    split
    · next m w x hk => exact ⟨hapart.submit hinv hk accepted, hread.submit hinv hk accepted⟩
    · exact hstay
  | wake k =>
    simp only [Sys.step]
    split
    · next m hk =>
      refine ⟨?_, hread.wake hinv hk (hop m hk)⟩
      rcases moved_wake d.drv k m with ⟨-, st, hm⟩ | ⟨l, r, hm, hl, -⟩
      · exact hapart.calm (hm.calm (Or.inl rfl))
      · exact hapart.calm (hm.calm hl)
    · exact hstay
  | expire k =>
    simp only [Sys.step]
    split
    · next m hk =>
      split
      · exact hstay
      · next hack =>
        refine ⟨hapart.calm ?_, hread.expire hk (hop m hk (by simpa using hack))⟩
        exact Moved.calm (k := k) (l := .expired m) (r := ndisStatusFailure)
          ⟨fun _ => Quiet.refl _, rfl, rfl, rfl, rfl⟩ (Or.inl rfl)
    · exact hstay
  | receive r => exact absurd hf (by simp [Device.foreign])
  | bhRx =>
    simp only [Sys.step]
    split
    · next hb _ => exact haside _ ((Kept.refl d.drv).tasklet rfl rfl rfl rfl (by simp [hb]) (by simp))
    · next r rs hb hrx => exact ⟨hapart.rxProcess hinv hrx, hread.rxProcess hinv hb⟩
    · exact hstay
  | bhRespond =>
    simp only [Sys.step]
    split
    · next m r hb =>
      refine ⟨hapart.respond hinv hb, hread.respond hinv hapart hb (hop (m, r) ?_)⟩
      rw [hb]
      rfl
    · exact hstay

omit [DecidableEq κ] [DecidableEq μ] in
theorem Apart.reads {d' : Device κ μ} (h : Apart d) (hdrv : d'.drv = d.drv) (hrec : d'.received = d.received)
    (hin : d'.inbox = d.inbox) : Apart d' := by
  refine h.transit (by rw [hdrv]) (by rw [hdrv]) (by rw [hdrv]) (fun z hz => ?_) ?_ ?_
  · rwa [Device.Outstanding, hdrv, hrec, hin] at hz
  · rw [hin]
    exact h.inbox
  · rw [hdrv]
    exact h.rx

omit [DecidableEq μ] in
theorem Reading.returns (h : Reading d) (hrd : rd.ret = ndisStatusSuccess → Complete d.drv rd) :
    Reading (d.returns k rd) where
  going k' rd' hrd' := by
    by_cases hkk : k' = k
    · subst hkk
      simp [Device.returns] at hrd'
    · exact h.going k' rd' (by simpa [Device.returns, hkk] using hrd')
  returned rd' hrd' hret := by
    rcases List.mem_cons.1 hrd' with rfl | hrd'
    · exact hrd hret
    · exact h.returned rd' hrd' hret

theorem Good.round (h : Good d) (hrd : d.reading k = some rd) (hk : d.drv.loc k = .idle) (m : Option μ) :
    Good (d.round k (rd.resume (d.drv.ret k)) m) := by
  obtain ⟨⟨holder, ph, hinv⟩, hapart, hread⟩ := h
  obtain ⟨hmore, hdone⟩ := (hread.going k rd hrd).resume hk
  generalize rd.resume (d.drv.ret k) = rd' at hmore hdone ⊢
  unfold Device.round
  split
  · next hlt =>
    cases m with
    | none =>
      refine ⟨⟨holder, ph, hinv⟩, hapart.reads rfl rfl rfl, hread.returns fun hret => ?_⟩
      exact absurd hret (by simp)
    | some m =>
      simp only
      split
      · next hfree =>
        have hp := hmore hlt
        have hg : Gives d.drv (d.drv.send k m true rd'.receiveLen) :=
          gives_send (hapart.blank m hfree) true rd'.receiveLen
        refine ⟨⟨holder, _, hinv.send hk hfree true rd'.receiveLen⟩, ?_, ?_, ?_⟩
        · exact (hapart.send hinv hfree true rd'.receiveLen).reads rfl rfl rfl
        · intro k' rd'' hrd''
          by_cases hkk : k' = k
          · subst hkk
            obtain rfl := Option.some.inj ((Function.update_self k' _ d.reading).symm.trans hrd'')
            refine ⟨⟨hp.fits, hp.rounds, ?_, hp.allOnes⟩, hlt, rfl, rfl, ⟨?_, ?_, ?_⟩, ⟨?_, ?_, ?_, ?_⟩⟩
            · exact (hp.mono hg).covered
            · simp [Sys.send, Loc.own]
            · simp [Sys.send, Loc.course]
            · simp [Sys.send, Loc.course]
            · simp [Sys.send, initCmdMsg]
            · simp [Sys.send, initCmdMsg]
            · simp [Sys.send, initCmdMsg, Read.receiveLen, Read.rspLen]
            · simp [Sys.send, initCmdMsg, Msg.blank]
          · refine (hread.going k' rd'' ?_).mono hg fun c hc => hc.send hkk hg hfree
            simpa [hkk] using hrd''
        · exact fun rd'' hrd'' hret => (hread.returned rd'' hrd'' hret).mono hg
      · exact ⟨⟨holder, ph, hinv⟩, hapart, hread⟩
  · next hge =>
    exact ⟨⟨holder, ph, hinv⟩, hapart.reads rfl rfl rfl, hread.returns (hdone (Nat.le_of_not_lt hge))⟩

theorem Good.step (h : Good d) (op : DeviceOp κ μ) (hop : Regular d op) : Good (d.step op) := by
  cases op with
  | drv op =>
    simp only [Device.step]
    split
    · exact h
    · next hf =>
      obtain ⟨holder, ph, hinv⟩ := h.inv
      obtain ⟨hapart, hread⟩ := h.drv hop.2 (by simpa using hf)
      exact ⟨hinv.step op hop.1, hapart, hread⟩
  | deliver m =>
    simp only [Device.step]
    split
    · next hc => exact ⟨h.inv, h.apart.deliver hc.1 hc.2, h.reading.going, h.reading.returned⟩
    · exact h
  | answer i pktLen =>
    simp only [Device.step]
    split
    · exact h
    · next m n hi =>
      obtain ⟨holder, ph, hinv⟩ := h.inv
      refine ⟨hinv.step (.receive ⟨n, pktLen, some m⟩) trivial, h.apart.answer hi pktLen, ?_, ?_⟩
      · intro k rd hrd
        refine (h.reading.going k rd hrd).mono (fun _ => id) fun c hc => ⟨?_, ?_⟩
        · exact hc.control.stay (fun _ => id) rfl rfl
        · exact hc.asked.same (SameResponse.refl _) fun _ _ => Iff.rfl
      · exact fun rd hrd hret => (h.reading.returned rd hrd hret).mono fun _ => id
  | read k kind cnt data =>
    simp only [Device.step]
    split
    · split
      · next hdata =>
        refine ⟨h.inv, h.apart.reads rfl rfl rfl, fun k' rd hrd => ?_, h.reading.returned⟩
        by_cases hkk : k' = k
        · subst hkk
          obtain rfl := Option.some.inj ((Function.update_self k' _ d.reading).symm.trans hrd)
          exact going_start kind (hop hdata)
        · exact h.reading.going k' rd (by simpa [hkk] using hrd)
      · refine ⟨h.inv, h.apart.reads rfl rfl rfl, h.reading.going, fun rd hrd hret => ?_⟩
        rcases List.mem_cons.1 hrd with rfl | hrd
        · exact absurd hret (by simp)
        · exact h.reading.returned rd hrd hret
    · exact h
  | round k m =>
    simp only [Device.step]
    split
    · exact h
    · next rd hrd =>
      split
      · next hk => exact h.round hrd hk m
      · exact h

/-- **Responses are matched to their own commands.** Along every run whose steps are regular, with a firmware
that answers each command it has received once and as late as it likes, a response completes only the command
that it answers, and a read that reports success has every word from the response to a command of its own. -/
theorem matched_of_regular (ops : List (DeviceOp κ μ)) (hok : Along Device.step Regular (Device.init κ μ) ops) :
    Matched (run Device.step (Device.init κ μ) ops) := by
  refine Good.matched (run_invariant (I := Good) ?_ ops _ good_init hok)
  exact fun d op h hop => h.step op hop

/-! ### Sample runs -/

omit [DecidableEq κ] in
instance Outstanding.decidable (d : Device κ μ) (z : μ) : Decidable (d.Outstanding z) :=
  inferInstanceAs (Decidable (((d.drv.msg z).urb = .active ∧ d.received z = false) ∨
    z ∈ d.inbox.map Prod.fst ∨ some z ∈ d.drv.rxDoneq.map Response.origin))

instance Undisturbed.decidable [Fintype κ] [Fintype μ] (d : Device κ μ) : ∀ op, Decidable (Undisturbed d op)
  | .number k => inferInstanceAs (Decidable (∀ m w x, d.drv.loc k = .number m w x →
      (d.drv.msg x).needRsp = true → ∀ z, d.Outstanding z → (d.drv.msg z).seq ≠ nextSeq d.drv.cmdSeq))
  | .bhRespond => inferInstanceAs (Decidable (∀ p ∈ d.drv.bh.inHand, (d.drv.msg p.1).rspPayloadLen ≠ 0 →
      p.2.pktLen = (d.drv.msg p.1).rspPayloadLen))
  | .wake k => inferInstanceAs (Decidable (∀ m, d.drv.loc k = .waiting m → (d.drv.msg m).ackDone = true →
      (d.reading k).isSome → (d.drv.msg m).state ≠ .txKickoutFail))
  | .expire k => inferInstanceAs (Decidable (∀ m, d.drv.loc k = .waiting m → (d.drv.msg m).ackDone = false →
      (d.reading k).all Read.last))
  | .check k => inferInstanceAs (Decidable (∀ m, d.drv.loc k = .entered m → d.drv.forbidden = true →
      (d.reading k).all Read.last))
  | .send .. | .enter .. | .dequeue _ | .test _ | .link _ | .submit .. | .refuse _ | .fail _ | .look _
  | .kill _ | .killed _ | .unlink _ | .finish _ | .complete .. | .handled _ | .signal _ | .receive _
  | .bhStart | .bhRx | .bhTx | .bhFree | .flags .. => isTrue trivial

instance Regular.decidable [Fintype κ] [Fintype μ] (d : Device κ μ) : ∀ op, Decidable (Regular d op)
  | .drv op => inferInstanceAs (Decidable (Timely d.drv op ∧ Undisturbed d op))
  | .read _ kind cnt data => inferInstanceAs (Decidable (data = true → kind.total cnt ≤ 2 ^ 32 - 64))
  | .deliver _ | .answer .. | .round .. => isTrue trivial

def toController (k : κ) : List (DeviceOp κ μ) :=
  [.enter k false, .check k, .dequeue k, .test k, .number k, .link k, .submit k true, .dequeue k].map .drv

def timedOut (k : κ) (m : μ) : List (DeviceOp κ μ) :=
  toController k ++ .deliver m :: [.complete m true, .expire k, .look k, .unlink k, .finish k].map .drv

/-- The command goes out, and the firmware answers the latest of `i + 1` commands. -/
def answered (k : κ) (m : μ) (i pktLen : ℕ) : List (DeviceOp κ μ) :=
  toController k ++ [.deliver m, .drv (.complete m true), .answer i pktLen] ++
    [.bhStart, .bhRx, .bhRespond, .wake k, .finish k].map .drv

def notOut (k : κ) : List (DeviceOp κ μ) :=
  [.enter k false, .check k, .dequeue k, .test k, .number k, .link k, .submit k false, .refuse k, .fail k,
    .wake k, .finish k].map .drv

/-- A command runs into its timeout; 25 registers are read with two commands, and the response to the first
command comes between them. -/
def regularOps : List (DeviceOp Unit (Option Bool)) :=
  .drv (.flags true false false) :: .drv (.send () none true 0) :: timedOut () none ++
    [.read () .random 25 true, .round () (some (some false))] ++ answered () (some false) 1 192 ++
    [.answer 0 8, .drv .bhRx, .round () (some (some true))] ++ answered () (some true) 0 8 ++ [.round () none]

theorem matched_regularSample :
    Along Device.step Regular (Device.init Unit (Option Bool)) regularOps ∧
      Matched (run Device.step (Device.init Unit (Option Bool)) regularOps) ∧
      (run Device.step (Device.init Unit (Option Bool)) regularOps).returned.map (fun rd => rd.ret) = [0] := by
  have h : Along Device.step Regular (Device.init Unit (Option Bool)) regularOps := by decide
  exact ⟨h, matched_of_regular regularOps h, by decide⟩

/-- A command runs into its timeout, fourteen more do not go out, and the response to the first one comes when
the sixteenth waits for its own. -/
def lateAnswer : List (DeviceOp Unit ℕ) :=
  .drv (.flags true false false) :: .drv (.send () 0 true 0) :: timedOut () 0 ++
    (List.range 14).flatMap (fun i => .drv (.send () (i + 1) true 0) :: notOut ()) ++
    .drv (.send () 15 true 8) :: toController () ++ .answer 0 8 :: [.bhStart, .bhRx, .bhRespond].map .drv

def failedRead : List (DeviceOp Unit Unit) :=
  .drv (.flags true false false) :: .read () .random 1 true :: .round () (some ()) :: notOut () ++ [.round () none]

def longAnswer : List (DeviceOp Unit Unit) :=
  .drv (.flags true false false) :: .read () .burst 1 true :: .round () (some ()) :: answered () () 0 12 ++
    [.round () none]

/-- 25 registers are read, and the first of the two commands runs into its timeout. -/
def lostChunk : List (DeviceOp Unit Bool) :=
  .drv (.flags true false false) :: .read () .random 25 true :: .round () (some false) :: timedOut () false ++
    .round () (some true) :: answered () true 1 8 ++ [.round () none]

instance Read.Covers.decidable (rd : Read μ) (c : Chunk μ) (w : ℕ) : Decidable (rd.Covers c w) :=
  inferInstanceAs (Decidable (c.curIndex ≤ w ∧ w < c.curIndex + rd.kind.words c.receiveLen))

omit [DecidableEq κ] [DecidableEq μ] in
theorem not_matched_of_unfilled (h : ∃ rd ∈ d.returned, rd.ret = ndisStatusSuccess ∧
    ∃ w < rd.cnt, ∀ c ∈ rd.chunks, rd.Covers c w → (d.drv.msg c.msg).filledBy = none) : ¬ Matched d := by
  intro hm
  obtain ⟨rd, hrd, hret, w, hw, hnone⟩ := h
  obtain ⟨c, hc, hcov, r, hr, -⟩ := (hm.read rd hrd hret).2 w hw
  exact absurd (hr.symm.trans (hnone c hc hcov)) (by simp)

set_option maxRecDepth 2000 in
/-- **A response is given to another command, and reads report success without their data.** -/
theorem not_matched_irregular :
    ¬ Matched (run Device.step (Device.init Unit ℕ) lateAnswer) ∧
      ¬ Matched (run Device.step (Device.init Unit Unit) failedRead) ∧
      ¬ Matched (run Device.step (Device.init Unit Unit) longAnswer) ∧
      ¬ Matched (run Device.step (Device.init Unit Bool) lostChunk) := by
  refine ⟨fun h => ?_, not_matched_of_unfilled ?_, not_matched_of_unfilled ?_, not_matched_of_unfilled ?_⟩
  · have hfill : ((run Device.step (Device.init Unit ℕ) lateAnswer).drv.msg 15).filledBy =
        some ⟨1, 8, some 0⟩ := by decide
    exact absurd (h.filled 15 _ hfill) (by simp)
  · decide
  · decide
  · decide

end Mt7610u.Mcu
