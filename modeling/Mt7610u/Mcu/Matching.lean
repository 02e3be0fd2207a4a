import Mt7610u.Mcu.Firmware
import Mt7610u.Mcu.Frames
import Mt7610u.Mcu.HandlerSteps
import Mt7610u.Mcu.SenderSteps

/-! # Numbers and responses

A command keeps its number from the choice of it to the end, and the response repeats it. While a command is
between the choice and `ackq`, or in `ackq`, no other command that the firmware can still answer has its number
(`Apart.unique`): a response with this number is its own. -/

namespace Mt7610u.Mcu

open Lib.DlList Lib.Runs

variable {κ μ : Type}

def Awaiting (s : Sys κ μ) (y : μ) : Prop :=
  (s.msg y).place = some .ackq ∨ ((s.msg y).needRsp = true ∧ ∃ k, (s.loc k).filling = some y)

structure Apart (d : Device κ μ) : Prop where
  submitted : ∀ z, d.Outstanding z → (d.drv.msg z).submitted = true
  inbox : ∀ z n, (z, n) ∈ d.inbox → n = (d.drv.msg z).seq
  rx : ∀ r ∈ d.drv.rxDoneq, ∃ z, r.origin = some z ∧ r.cmdSeq = (d.drv.msg z).seq
  unique : ∀ y z, Awaiting d.drv y → d.Outstanding z → (d.drv.msg z).seq = (d.drv.msg y).seq → z = y
  responding : ∀ m r, d.drv.bh = .responding m r → (d.drv.msg m).answeredBy = some r
  answered : ∀ m r, (d.drv.msg m).answeredBy = some r → r.origin = some m
  filled : ∀ m r, (d.drv.msg m).filledBy = some r → r.origin = some m
  blank : ∀ m, (d.drv.msg m).allocated = false → (d.drv.msg m).filledBy = none

theorem apart_init : Apart (Device.init κ μ) := by
  constructor <;> simp [Device.init, Sys.init, Msg.blank, Device.Outstanding]

structure Calm (s s' : Sys κ μ) : Prop where
  response : ∀ x, SameResponse (s.msg x) (s'.msg x)
  seq : ∀ x, (s'.msg x).seq = (s.msg x).seq
  submitted : ∀ x, (s'.msg x).submitted = (s.msg x).submitted
  active : ∀ x, (s'.msg x).urb = .active → (s.msg x).urb = .active
  awaiting : ∀ y, Awaiting s' y → Awaiting s y
  rxDoneq : s'.rxDoneq = s.rxDoneq
  responding : ∀ m r, s'.bh = .responding m r ↔ s.bh = .responding m r

variable {d : Device κ μ} {s s' : Sys κ μ} {holder : Option κ} {ph : μ → Phase κ} {k : κ} {m : μ}

theorem Aside.calm (h : Aside s s') : Calm s s' where
  response x := (h.msg x).response
  seq x := (h.msg x).seq
  submitted x := (h.msg x).submitted
  active x := (h.msg x).active
  awaiting y hy := by
    rcases hy with hp | ⟨hr, k, hk⟩
    · exact Or.inl ((h.msg y).ackq hp)
    · rw [h.loc] at hk
      exact Or.inr ⟨(h.msg y).response.needRsp ▸ hr, k, hk⟩
  rxDoneq := h.rxDoneq
  responding := h.responding

theorem Awaiting.back [DecidableEq κ] {l : Loc μ} {y : μ} (hy : Awaiting s' y)
    (hloc : s'.loc = Function.update s.loc k l) (hl : l.filling = some y → (s.loc k).filling = some y)
    (hp : (s'.msg y).place = some .ackq → (s.msg y).place = some .ackq)
    (hr : (s'.msg y).needRsp = (s.msg y).needRsp) : Awaiting s y := by
  rcases hy with hplace | ⟨hrsp, k', hk'⟩
  · exact Or.inl (hp hplace)
  · refine Or.inr ⟨hr ▸ hrsp, k', ?_⟩
    rw [hloc] at hk'
    by_cases hkk : k' = k
    · subst hkk
      rw [Function.update_self] at hk'
      exact hl hk'
    · rwa [Function.update_of_ne hkk] at hk'

theorem Moved.calm [DecidableEq κ] {l : Loc μ} {r : ℤ} (h : Moved s s' k l r)
    (hl : l.filling = none ∨ l = s.loc k) : Calm s s' where
  response x := (h.msg x).response
  seq x := (h.msg x).seq
  submitted x := (h.msg x).submitted
  active x := (h.msg x).active
  awaiting y hy := by
    refine hy.back h.loc (fun hfill => ?_) (h.msg y).ackq (h.msg y).response.needRsp
    rcases hl with hl | rfl
    · exact absurd (hfill.symm.trans hl) (by simp)
    · exact hfill
  rxDoneq := h.rxDoneq
  responding m r := by rw [h.bh]

/-! ### Who waits, who can be answered -/

theorem Loc.filling_msg {l : Loc μ} {y : μ} (h : l.filling = some y) : l.inside = true ∧ l.msg = some y := by
  cases l <;> simp_all [Loc.filling, Loc.inside, Loc.msg]

theorem Inv.awaiting {x y : μ} (h : Inv s holder ph) (hin : (s.loc k).inside = true)
    (hx : (s.loc k).msg = some x) (hy : Awaiting s y) : y = x := by
  have hk := h.inside k hin
  obtain ⟨k', hk', hmsg⟩ : ∃ k', holder = some k' ∧ (s.loc k').msg = some y := by
    rcases hy with hp | ⟨-, k', hfill⟩
    · obtain ⟨k', hk', -, hmsg, -⟩ := h.awaited hp
      exact ⟨k', hk', hmsg⟩
    · obtain ⟨hin', hmsg⟩ := Loc.filling_msg hfill
      exact ⟨k', h.inside k' hin', hmsg⟩
  obtain rfl : k = k' := Option.some.inj (hk.symm.trans hk')
  exact Option.some.inj (hmsg.symm.trans hx)

theorem Device.outstanding_inbox {z : μ} {n : ℕ} (h : (z, n) ∈ d.inbox) : d.Outstanding z :=
  Or.inr (Or.inl (List.mem_map.2 ⟨_, h, rfl⟩))

theorem Device.outstanding_rx {z : μ} {r : Response μ} (h : r ∈ d.drv.rxDoneq) (hz : r.origin = some z) :
    d.Outstanding z :=
  Or.inr (Or.inr (List.mem_map.2 ⟨r, h, hz⟩))

theorem Device.Outstanding.of_drv {z : μ} (hz : { d with drv := s' }.Outstanding z)
    (hrx : s'.rxDoneq = d.drv.rxDoneq) :
    d.Outstanding z ∨ ((s'.msg z).urb = .active ∧ d.received z = false) := by
  rcases hz with hu | hin | hr
  · exact Or.inr hu
  · exact Or.inl (Or.inr (Or.inl hin))
  · refine Or.inl (Or.inr (Or.inr ?_))
    rwa [← hrx]

/-! ### Steps -/

theorem Apart.keep (h : Apart d) (hresp : ∀ x, SameResponse (d.drv.msg x) (s'.msg x))
    (hrx : s'.rxDoneq = d.drv.rxDoneq) (hbh : ∀ m r, s'.bh = .responding m r ↔ d.drv.bh = .responding m r)
    (hsub : ∀ z, { d with drv := s' }.Outstanding z → (s'.msg z).submitted = true)
    (hseq : ∀ z, d.Outstanding z → (s'.msg z).seq = (d.drv.msg z).seq)
    (hunique : ∀ y z, Awaiting s' y → { d with drv := s' }.Outstanding z → (s'.msg z).seq = (s'.msg y).seq →
      z = y) : Apart { d with drv := s' } where
  submitted := hsub
  inbox z n hn := (h.inbox z n hn).trans (hseq z (Device.outstanding_inbox hn)).symm
  rx r hr := by
    have hr : r ∈ d.drv.rxDoneq := hrx ▸ hr
    obtain ⟨z, hz, hn⟩ := h.rx r hr
    exact ⟨z, hz, hn.trans (hseq z (Device.outstanding_rx hr hz)).symm⟩
  unique := hunique
  responding m r hr := by
    rw [(hresp m).answeredBy]
    exact h.responding m r ((hbh m r).1 hr)
  answered m r hr := by
    rw [(hresp m).answeredBy] at hr
    exact h.answered m r hr
  filled m r hr := by
    rw [(hresp m).filledBy] at hr
    exact h.filled m r hr
  blank m hm := by
    rw [(hresp m).allocated] at hm
    rw [(hresp m).filledBy]
    exact h.blank m hm

theorem Apart.calm (h : Apart d) (hc : Calm d.drv s') : Apart { d with drv := s' } := by
  have hout : ∀ z, { d with drv := s' }.Outstanding z → d.Outstanding z := by
    intro z hz
    rcases hz.of_drv hc.rxDoneq with hz | ⟨hu, hrec⟩
    · exact hz
    · exact Or.inl ⟨hc.active z hu, hrec⟩
  refine h.keep hc.response hc.rxDoneq hc.responding (fun z hz => ?_) (fun z _ => hc.seq z) ?_
  · rw [hc.submitted]
    exact h.submitted z (hout z hz)
  · intro y z hy hz hseq
    rw [hc.seq, hc.seq] at hseq
    exact h.unique y z (hc.awaiting y hy) (hout z hz) hseq

variable {w : Bool} {x : μ}

theorem Inv.fresh (h : Inv s holder ph) (hm : (s.msg m).allocated = false) : ph m = .fresh := by
  have hall := (h.fits m).allocated
  rw [hm] at hall
  cases hp : ph m <;> simp [hp, Phase.allocated] at hall ⊢

variable [DecidableEq μ]

theorem Apart.unsent {v : Msg μ} (h : Apart d) (hx : (d.drv.msg x).submitted = false)
    (hmsg : s'.msg = Function.update d.drv.msg x v) (hurb : v.urb ≠ .active) (hrx : s'.rxDoneq = d.drv.rxDoneq)
    (hbh : ∀ m r, s'.bh = .responding m r → m ≠ x ∧ d.drv.bh = .responding m r)
    (hans : ∀ r, v.answeredBy = some r → r.origin = some x) (hfill : ∀ r, v.filledBy = some r → r.origin = some x)
    (hblank : v.allocated = false → v.filledBy = none)
    (hunique : ∀ y z, Awaiting s' y → d.Outstanding z → (d.drv.msg z).seq = (s'.msg y).seq → z = y) :
    Apart { d with drv := s' } := by
  have hself : s'.msg x = v := by rw [hmsg, Function.update_self]
  have hother : ∀ z, z ≠ x → s'.msg z = d.drv.msg z := by
    intro z hz
    rw [hmsg, Function.update_of_ne hz]
  have hne : ∀ z, d.Outstanding z → z ≠ x := by
    rintro z hz rfl
    exact absurd ((h.submitted z hz).symm.trans hx) (by simp)
  have hout : ∀ z, { d with drv := s' }.Outstanding z → d.Outstanding z := by
    intro z hz
    rcases hz.of_drv hrx with hz | ⟨hu, hrec⟩
    · exact hz
    · have hzx : z ≠ x := by
        rintro rfl
        rw [hself] at hu
        exact hurb hu
      rw [hother z hzx] at hu
      exact Or.inl ⟨hu, hrec⟩
  constructor
  · intro z hz
    rw [show ({ d with drv := s' } : Device κ μ).drv = s' from rfl, hother z (hne z (hout z hz))]
    exact h.submitted z (hout z hz)
  · intro z n hn
    refine (h.inbox z n hn).trans ?_
    exact congrArg Msg.seq (hother z (hne z (Device.outstanding_inbox hn))).symm
  · intro r hr
    have hr : r ∈ d.drv.rxDoneq := hrx ▸ hr
    obtain ⟨z, hz, hn⟩ := h.rx r hr
    refine ⟨z, hz, hn.trans ?_⟩
    exact congrArg Msg.seq (hother z (hne z (Device.outstanding_rx hr hz))).symm
  · intro y z hy hz hseq
    have hz := hout z hz
    refine hunique y z hy hz (Eq.trans ?_ hseq)
    exact congrArg Msg.seq (hother z (hne z hz)).symm
  · intro m r hr
    obtain ⟨hm, hr⟩ := hbh m r hr
    exact (congrArg Msg.answeredBy (hother m hm)).trans (h.responding m r hr)
  · intro m r hr
    by_cases hm : m = x
    · subst hm
      exact hans r ((congrArg Msg.answeredBy hself).symm.trans hr)
    · exact h.answered m r ((congrArg Msg.answeredBy (hother m hm)).symm.trans hr)
  · intro m r hr
    by_cases hm : m = x
    · subst hm
      exact hfill r ((congrArg Msg.filledBy hself).symm.trans hr)
    · exact h.filled m r ((congrArg Msg.filledBy (hother m hm)).symm.trans hr)
  · intro m hm
    by_cases hmx : m = x
    · subst hmx
      exact (congrArg Msg.filledBy hself).trans (hblank ((congrArg Msg.allocated hself).symm.trans hm))
    · refine (congrArg Msg.filledBy (hother m hmx)).trans (h.blank m ?_)
      exact (congrArg Msg.allocated (hother m hmx)).symm.trans hm

variable [DecidableEq κ]

theorem Apart.send (h : Apart d) (hinv : Inv d.drv holder ph) (hm : (d.drv.msg m).allocated = false)
    (wait : Bool) (n : ℕ) : Apart { d with drv := d.drv.send k m wait n } := by
  have hfresh := hinv.fresh hm
  refine h.unsent (x := m) (hinv.at hfresh).stage.2.2.2.1 rfl (by simp [initCmdMsg, Msg.blank]) rfl ?_
    (by simp [initCmdMsg, Msg.blank]) (by simp [initCmdMsg, Msg.blank]) (by simp [initCmdMsg]) ?_
  · intro x r hr
    refine ⟨?_, hr⟩
    rintro rfl
    exact hinv.no_response (by simp [hfresh]) r hr
  · intro y z hy hz hseq
    have hne : y ≠ m := by
      rintro rfl
      rcases hy with hp | ⟨-, k', hk'⟩
      · exact absurd hp (by simp [Sys.send, initCmdMsg, Msg.blank])
      · by_cases hkk : k' = k
        · subst hkk
          exact absurd hk' (by simp [Sys.send, Loc.filling])
        · have hk' : (d.drv.loc k').filling = some y := by simpa [Sys.send, hkk] using hk'
          exact (hinv.locs k').not_fresh (Loc.filling_msg hk').2 hfresh
    have hsame : (d.drv.send k m wait n).msg y = d.drv.msg y := Function.update_of_ne hne _ _
    rw [hsame] at hseq
    refine h.unique y z ?_ hz hseq
    exact hy.back rfl (by simp [Loc.filling]) (by rw [hsame]; exact id) (by rw [hsame])

theorem Apart.number (h : Apart d) (hinv : Inv d.drv holder ph) (hk : d.drv.loc k = .number m w x)
    (hfree : (d.drv.msg x).needRsp = true → ∀ z, d.Outstanding z → (d.drv.msg z).seq ≠ nextSeq d.drv.cmdSeq) :
    Apart { d with drv := d.drv.number k m w x } := by
  obtain ⟨seq, cmdSeq, hnext, heq⟩ := hinv.number_eq hk
  have hp : ph x = .held k := by
    have hfit := hinv.locs k
    rw [hk] at hfit
    exact hfit.2.2
  have hf := hinv.at hp
  rw [heq]
  refine h.unsent (x := x) hf.stage.2.2.2.1 rfl (by simp [show (d.drv.msg x).urb = .idle from hf.stage.1]) rfl ?_
    (h.answered x) (h.filled x) (h.blank x) ?_
  · intro y r hr
    refine ⟨?_, hr⟩
    rintro rfl
    exact hinv.no_response (by simp [hp]) r hr
  · intro y z hy hz hseq
    -- nobody but this sender waits for a response, and this is the message it is going to wait with
    have hyx : y = x := by
      by_contra hyx
      have hsame : (d.drv.setSeq k m w x seq).msg y = d.drv.msg y := Function.update_of_ne hyx _ _
      refine hyx (hinv.awaiting (k := k) (by rw [hk]; rfl) (by rw [hk]; rfl) ?_)
      refine hy.back rfl (fun hfill => ?_) (by rw [hsame]; exact id) (by rw [hsame])
      exact absurd (Option.some.inj hfill).symm hyx
    subst hyx
    have hself : (d.drv.setSeq k m w y seq).msg y = { d.drv.msg y with seq := seq } := Function.update_self _ _ _
    have hr : (d.drv.msg y).needRsp = true := by
      rcases hy with hpl | ⟨hr, -⟩
      · have hpl : (d.drv.msg y).place = some .ackq := (congrArg Msg.place hself).symm.trans hpl
        exact absurd (hf.place.symm.trans hpl) (by simp [Phase.place])
      · exact (congrArg Msg.needRsp hself).symm.trans hr
    have hseq : (d.drv.msg z).seq = seq := hseq.trans (congrArg Msg.seq hself)
    exact absurd (hseq.trans (hnext hr)) (hfree hr z hz)

theorem Inv.calm_link (h : Inv s holder ph) (hk : s.loc k = .fill m w x) : Calm s (s.link k m w x) := by
  obtain ⟨K, heq, -⟩ := h.link_eq hk
  rw [heq]
  constructor
  · exact (Function.forall_update_iff s.msg (p := fun z v => SameResponse (s.msg z) v)).2
      ⟨⟨rfl, rfl, rfl, rfl, rfl⟩, fun z _ => SameResponse.refl _⟩
  · exact (Function.forall_update_iff s.msg (p := fun z v => v.seq = (s.msg z).seq)).2 ⟨rfl, fun _ _ => rfl⟩
  · exact (Function.forall_update_iff s.msg (p := fun z v => v.submitted = (s.msg z).submitted)).2
      ⟨rfl, fun _ _ => rfl⟩
  · exact (Function.forall_update_iff s.msg (p := fun z v => v.urb = .active → (s.msg z).urb = .active)).2
      ⟨id, fun _ _ => id⟩
  · intro y hy
    by_cases hyx : y = x
    · subst hyx
      refine Or.inr ⟨?_, k, by rw [hk]; rfl⟩
      rcases hy with hp | ⟨hr, -⟩
      · by_contra hr
        simp [hr] at hp
      · simpa using hr
    · exact hy.back rfl (by simp [Loc.filling]) (by simp [hyx]) (by simp [hyx])
  · rfl
  · exact fun _ _ => Iff.rfl

theorem Apart.submit (h : Apart d) (hinv : Inv d.drv holder ph) (hk : d.drv.loc k = .linked m w x)
    (accepted : Bool) : Apart { d with drv := d.drv.submit k m w x accepted } := by
  unfold Sys.submit
  split
  · have hresp := (Function.forall_update_iff d.drv.msg (a := x)
      (b := { d.drv.msg x with urb := .active, submitted := true })
      (p := fun z v => SameResponse (d.drv.msg z) v ∧ v.seq = (d.drv.msg z).seq ∧ v.place = (d.drv.msg z).place)).2
      ⟨⟨⟨rfl, rfl, rfl, rfl, rfl⟩, rfl, rfl⟩, fun z _ => ⟨SameResponse.refl _, rfl, rfl⟩⟩
    have hout : ∀ z, { d with drv := { d.drv with
          msg := Function.update d.drv.msg x { d.drv.msg x with urb := .active, submitted := true }
          loc := Function.update d.drv.loc k (.kicking m w) } }.Outstanding z → z ≠ x → d.Outstanding z := by
      intro z hz hzx
      rcases hz.of_drv rfl with hz | ⟨hu, hrec⟩
      · exact hz
      · exact Or.inl ⟨by simpa [hzx] using hu, hrec⟩
    refine h.keep (fun z => (hresp z).1) rfl (fun _ _ => Iff.rfl) (fun z hz => ?_)
      (fun z _ => (hresp z).2.1) ?_
    · by_cases hzx : z = x
      · simp [hzx]
      · simpa [hzx] using h.submitted z (hout z hz hzx)
    · intro y z hy hz hseq
      have hy : Awaiting d.drv y := by
        refine hy.back rfl (by simp [Loc.filling]) (fun hp => ?_) (hresp y).1.needRsp
        exact (hresp y).2.2.symm.trans hp
      by_cases hzx : z = x
      · rw [hzx]
        exact (hinv.awaiting (k := k) (by rw [hk]; rfl) (by rw [hk]; rfl) hy).symm
      · refine h.unique y z hy (hout z hz hzx) ?_
        exact (hresp z).2.1.symm.trans (hseq.trans (hresp y).2.1)
  · refine h.calm (Moved.calm (k := k) (l := .refused m w x) (r := d.drv.ret k) ?_ (Or.inl rfl))
    exact (Kept.refl d.drv).moved rfl rfl rfl rfl rfl

omit [DecidableEq μ] [DecidableEq κ] in
theorem Apart.transit {d' : Device κ μ} (h : Apart d) (hmsg : d'.drv.msg = d.drv.msg)
    (hloc : d'.drv.loc = d.drv.loc) (hbh : d'.drv.bh = d.drv.bh) (hout : ∀ z, d'.Outstanding z → d.Outstanding z)
    (hin : ∀ z n, (z, n) ∈ d'.inbox → n = (d.drv.msg z).seq)
    (hrx : ∀ r ∈ d'.drv.rxDoneq, ∃ z, r.origin = some z ∧ r.cmdSeq = (d.drv.msg z).seq) : Apart d' where
  submitted z hz := by
    rw [hmsg]
    exact h.submitted z (hout z hz)
  inbox := by
    rw [hmsg]
    exact hin
  rx := by
    rw [hmsg]
    exact hrx
  unique y z hy hz hseq := by
    rw [hmsg] at hseq
    rw [Awaiting, hmsg, hloc] at hy
    exact h.unique y z hy (hout z hz) hseq
  responding := by
    rw [hmsg, hbh]
    exact h.responding
  answered := by
    rw [hmsg]
    exact h.answered
  filled := by
    rw [hmsg]
    exact h.filled
  blank := by
    rw [hmsg]
    exact h.blank

omit [DecidableEq κ] in
theorem Apart.deliver (h : Apart d) (hu : (d.drv.msg m).urb = .active) (hrec : d.received m = false) :
    Apart { d with
      received := Function.update d.received m true
      inbox := d.inbox ++ [(m, (d.drv.msg m).seq)] } := by
  refine h.transit rfl rfl rfl (fun z hz => ?_) (fun z n hn => ?_) h.rx
  · rcases hz with ⟨hz, hrz⟩ | hin | hrx
    · refine Or.inl ⟨hz, ?_⟩
      by_cases hzm : z = m
      · exact hzm ▸ hrec
      · simpa [hzm] using hrz
    · simp only [List.map_append, List.mem_append, List.map_cons, List.map_nil, List.mem_singleton] at hin
      rcases hin with hin | rfl
      · exact Or.inr (Or.inl hin)
      · exact Or.inl ⟨hu, hrec⟩
    · exact Or.inr (Or.inr hrx)
  · rcases List.mem_append.1 hn with hn | hn
    · exact h.inbox z n hn
    · obtain ⟨rfl, rfl⟩ := Prod.mk.inj (List.mem_singleton.1 hn)
      rfl

omit [DecidableEq μ] [DecidableEq κ] in
theorem Apart.answer {i n : ℕ} (h : Apart d) (hi : d.inbox[i]? = some (m, n)) (pktLen : ℕ) :
    Apart { d with
      inbox := d.inbox.eraseIdx i
      drv := { d.drv with rxDoneq := d.drv.rxDoneq ++ [⟨n, pktLen, some m⟩] } } := by
  have hmem : (m, n) ∈ d.inbox := List.mem_of_getElem? hi
  refine h.transit rfl rfl rfl (fun z hz => ?_) (fun z n' hn => ?_) fun r hr => ?_
  · rcases hz with hz | hin | hrx
    · exact Or.inl hz
    · exact Or.inr (Or.inl (((List.eraseIdx_sublist d.inbox i).map _).subset hin))
    · simp only [List.map_append, List.mem_append, List.map_cons, List.map_nil, List.mem_singleton,
        Option.some.injEq] at hrx
      rcases hrx with hrx | rfl
      · exact Or.inr (Or.inr hrx)
      · exact Device.outstanding_inbox hmem
  · exact h.inbox z n' (List.mem_of_mem_eraseIdx hn)
  · rcases List.mem_append.1 hr with hr | hr
    · exact h.rx r hr
    · rw [List.mem_singleton.1 hr]
      exact ⟨m, rfl, h.inbox m n hmem⟩

omit [DecidableEq κ] in
theorem Apart.tasklet {v : Msg μ} (h : Apart d) (hmsg : s'.msg = Function.update d.drv.msg m v)
    (hloc : s'.loc = d.drv.loc) (hrx : s'.rxDoneq = d.drv.rxDoneq) (hseq : v.seq = (d.drv.msg m).seq)
    (hsub : v.submitted = (d.drv.msg m).submitted) (hurb : v.urb = (d.drv.msg m).urb)
    (hr : v.needRsp = (d.drv.msg m).needRsp) (hp : v.place = some .ackq → (d.drv.msg m).place = some .ackq)
    (hbh : ∀ x r, s'.bh = .responding x r → (s'.msg x).answeredBy = some r)
    (hans : ∀ r, v.answeredBy = some r → r.origin = some m) (hfill : ∀ r, v.filledBy = some r → r.origin = some m)
    (hblank : v.allocated = false → v.filledBy = none) : Apart { d with drv := s' } := by
  have hsame : ∀ z, (s'.msg z).seq = (d.drv.msg z).seq ∧ (s'.msg z).submitted = (d.drv.msg z).submitted ∧
      (s'.msg z).urb = (d.drv.msg z).urb ∧ (s'.msg z).needRsp = (d.drv.msg z).needRsp ∧
      ((s'.msg z).place = some .ackq → (d.drv.msg z).place = some .ackq) := by
    rw [hmsg]
    exact (Function.forall_update_iff d.drv.msg (p := fun z v => v.seq = (d.drv.msg z).seq ∧
      v.submitted = (d.drv.msg z).submitted ∧ v.urb = (d.drv.msg z).urb ∧
      v.needRsp = (d.drv.msg z).needRsp ∧ (v.place = some .ackq → (d.drv.msg z).place = some .ackq))).2
      ⟨⟨hseq, hsub, hurb, hr, hp⟩, fun _ _ => ⟨rfl, rfl, rfl, rfl, id⟩⟩
  have hout : ∀ z, { d with drv := s' }.Outstanding z → d.Outstanding z := by
    intro z hz
    rcases hz.of_drv hrx with hz | ⟨hu, hrec⟩
    · exact hz
    · exact Or.inl ⟨(hsame z).2.2.1 ▸ hu, hrec⟩
  constructor
  · exact fun z hz => (hsame z).2.1.trans (h.submitted z (hout z hz))
  · exact fun z n hn => (h.inbox z n hn).trans (hsame z).1.symm
  · intro r hr
    obtain ⟨z, hz, hn⟩ := h.rx r (hrx ▸ hr)
    exact ⟨z, hz, hn.trans (hsame z).1.symm⟩
  · intro y z hy hz hyz
    refine h.unique y z ?_ (hout z hz) ((hsame z).1.symm.trans (hyz.trans (hsame y).1))
    rcases hy with hpl | ⟨hr, k, hk⟩
    · exact Or.inl ((hsame y).2.2.2.2 hpl)
    · rw [hloc] at hk
      exact Or.inr ⟨(hsame y).2.2.2.1 ▸ hr, k, hk⟩
  · exact hbh
  · rw [hmsg]
    exact (Function.forall_update_iff d.drv.msg (p := fun z v => ∀ r, v.answeredBy = some r →
      r.origin = some z)).2 ⟨hans, fun z _ => h.answered z⟩
  · rw [hmsg]
    exact (Function.forall_update_iff d.drv.msg (p := fun z v => ∀ r, v.filledBy = some r →
      r.origin = some z)).2 ⟨hfill, fun z _ => h.filled z⟩
  · rw [hmsg]
    exact (Function.forall_update_iff d.drv.msg (p := fun _ v => v.allocated = false →
      v.filledBy = none)).2 ⟨hblank, fun z _ => h.blank z⟩

omit [DecidableEq κ] in
theorem Apart.rxProcess {r : Response μ} {rs : List (Response μ)} (h : Apart d) (hinv : Inv d.drv holder ph)
    (hrx : d.drv.rxDoneq = r :: rs) : Apart { d with drv := { d.drv with rxDoneq := rs }.rxProcess r } := by
  have hsub : ∀ r', r' ∈ rs → r' ∈ d.drv.rxDoneq := fun r' hr' => hrx ▸ List.mem_cons_of_mem r hr'
  have hpop : Apart { d with drv := { d.drv with rxDoneq := rs } } := by
    refine h.transit rfl rfl rfl (fun z hz => ?_) h.inbox fun r' hr' => h.rx r' (hsub r' hr')
    rcases hz with hz | hin | hz
    · exact Or.inl hz
    · exact Or.inr (Or.inl hin)
    · obtain ⟨r', hr', hz⟩ := List.mem_map.1 hz
      exact Device.outstanding_rx (hsub r' hr') hz
  have hinv' : Inv { d.drv with rxDoneq := rs } holder ph :=
    hinv.same rfl rfl rfl rfl rfl (fun _ _ hx => hx) fun _ => Iff.rfl
  rcases hinv'.rxProcess_eq r with heq | ⟨m, K, hplace, hseq, heq, -⟩
  · rw [heq]
    exact hpop
  · have hr : r ∈ d.drv.rxDoneq := hrx ▸ List.mem_cons_self
    have horigin : r.origin = some m := by
      obtain ⟨z, hz, hn⟩ := h.rx r hr
      rw [hz, h.unique m z (Or.inl hplace) (Device.outstanding_rx hr hz) (hn.symm.trans hseq.symm)]
    rw [heq]
    refine Apart.tasklet (d := { d with drv := { d.drv with rxDoneq := rs } }) (m := m) hpop rfl rfl rfl rfl rfl
      rfl rfl (by simp) ?_ ?_ (h.filled m) (h.blank m)
    · intro x r' hx
      obtain ⟨rfl, rfl⟩ := Bh.responding.inj hx
      simp
    · intro r' hr'
      rw [← Option.some.inj hr']
      exact horigin

omit [DecidableEq κ] in
theorem Apart.respond {r : Response μ} (h : Apart d) (hinv : Inv d.drv holder ph)
    (hbh : d.drv.bh = .responding m r) : Apart { d with drv := d.drv.respond m r } := by
  have hans := h.responding m r hbh
  have halloc : (d.drv.msg m).allocated = true := by
    obtain ⟨-, -, ⟨k, hp, -⟩ | hp⟩ := hinv.responding m r hbh
    · exact (hinv.at hp).allocated
    · exact (hinv.at hp).allocated
  obtain ⟨len, fill, heq, hfill⟩ := rspReceived_eq (d.drv.msg m) r
  rw [hinv.respond_eq hbh, heq]
  refine h.tasklet (m := m) rfl rfl rfl rfl rfl rfl rfl id (by simp) (h.answered m) ?_ ?_
  · intro r' hr'
    rcases hfill with rfl | rfl
    · exact h.filled m r' hr'
    · rw [← Option.some.inj hr']
      exact h.answered m r hans
  · intro hf
    exact absurd (halloc.symm.trans hf) (by simp)

end Mt7610u.Mcu
