import Mt7610u.Mcu.LifeCycle

/-! # Steps of the completion handler and of the tasklet

What the handler of a URB and `andes_cmd_msg_bh` do to a message, and what its sender still relies on then.
A message whose URB is out is linked, or was taken out for a response (`Inv.completing`). -/

namespace Mt7610u.Mcu

open Lib.DlList Lib.Runs

variable {κ μ : Type} [DecidableEq μ] {s s' : Sys κ μ} {holder : Option κ} {ph : μ → Phase κ} {k : κ} {m : μ}
  {v : Msg μ} {p : Phase κ}

/-! ### What the sender relies on -/

theorem LocFits.left {l : Loc μ} (h : LocFits s.msg ph k l) (hm : l.msg = some m)
    (hno : (ph m).owner (s.msg m) = none) (hr : v.needRsp = (s.msg m).needRsp) (hp : p ≠ .fresh)
    (ho : ∀ k', p.owner v ≠ some k') : LocFits (Function.update s.msg m v) (Function.update ph m p) k l := by
  rcases h.owner_or hm with hown | ⟨hr', rfl⟩
  · rw [hno] at hown
    exact absurd hown (by simp)
  · simp only [LocFits, Function.update_self]
    exact ⟨(hr.trans hr').symm, by simp, fun _ => ⟨hp, fun k' hk' => absurd hk' (ho k')⟩⟩

theorem LocFits.to_taken {l : Loc μ} (h : LocFits s.msg ph k l) (hm : l.msg = some m)
    (hp : ph m = .linked k ∨ ph m = .taken k) (hr : (s.msg m).needRsp = true) (hv : v.needRsp = true)
    (hans : v.state = .waitAck → v.answeredBy ≠ none)
    (hidle : (s.msg m).urb = .idle → ph m = .linked k ∧ v.urb = .idle ∧ v.state = (s.msg m).state ∧
      v.answeredBy ≠ none)
    (hfin : ph m = .taken k → (∀ ok, (s.msg m).urb ≠ .unlinked ok) → ∀ ok, v.urb ≠ .unlinked ok) :
    LocFits (Function.update s.msg m v) (Function.update ph m (.taken k)) k l := by
  have hne : ∀ k', ph m ≠ .held k' := by
    rcases hp with hp | hp <;> simp [hp]
  cases l with
  | idle => trivial
  | called x | entered x =>
    obtain rfl : x = m := Option.some.inj hm
    exact absurd h (hne k)
  | took y w x | number y w x | fill y w x =>
    obtain rfl : x = m := Option.some.inj hm
    exact absurd h.2.2 (hne k)
  | kicking x w =>
    obtain rfl : x = m := Option.some.inj hm
    simp only [LocFits, Function.update_self, Waits, hv]
    refine ⟨h.1.trans hr, fun _ => by simpa using hans, fun hw => ?_⟩
    exact absurd (hw.symm.trans (h.1.trans hr)) (by simp)
  | waiting x | expired x =>
    obtain rfl : x = m := Option.some.inj hm
    simp only [LocFits, Function.update_self, Waits, hv]
    exact ⟨trivial, by simpa using hans⟩
  | kill x | killing x =>
    obtain rfl : x = m := Option.some.inj hm
    simp [LocFits, hv]
  | linked y w x | refused y w x =>
    obtain rfl : x = m := Option.some.inj hm
    obtain ⟨hx, hw, hu, hst, -⟩ := h
    obtain ⟨-, hu', hst', hans'⟩ := hidle hu
    have hw' : w = true := hw.trans hr
    simp only [LocFits, Function.update_self, hv, hu', hst', hst hw', hw']
    simp [hx, hans']
  | failed y w x =>
    obtain rfl : x = m := Option.some.inj hm
    obtain ⟨-, -, hu, hp', -⟩ := h
    exact absurd ((hidle hu).1.symm.trans hp') (by simp)
  | unlink x =>
    obtain rfl : x = m := Option.some.inj hm
    obtain ⟨-, hu', -, hans'⟩ := hidle h.2.1
    simp only [LocFits, Function.update_self, hv, hu']
    simp [hans']
  | finish x st =>
    obtain rfl : x = m := Option.some.inj hm
    obtain ⟨-, hst, hun, hp'⟩ := h
    simp only [LocFits, Function.update_self, hv, hst]
    simpa using hfin (hp'.resolve_left (hne k)) hun

theorem LocFits.completeOk {l : Loc μ} (h : LocFits s.msg ph k l) (hm : l.msg = some m)
    (hp : ph m = .linked k) (hu : (s.msg m).urb = .active) (hr : (s.msg m).needRsp = true)
    (hkill : l ≠ .kill m ∧ l ≠ .killing m) :
    LocFits (Function.update s.msg m { s.msg m with state := .waitAck, urb := .idle })
      (Function.update ph m (.linked k)) k l := by
  cases l with
  | idle => trivial
  | called x | entered x =>
    obtain rfl : x = m := Option.some.inj hm
    exact absurd (hp.symm.trans h) (by simp)
  | took y w x | number y w x | fill y w x =>
    obtain rfl : x = m := Option.some.inj hm
    exact absurd (hp.symm.trans h.2.2) (by simp)
  | kicking x w =>
    obtain rfl : x = m := Option.some.inj hm
    simp [LocFits, Waits, h.1, hr]
  | waiting x | expired x =>
    obtain rfl : x = m := Option.some.inj hm
    simp [LocFits, Waits, hr]
  | kill x =>
    obtain rfl : x = m := Option.some.inj hm
    exact absurd rfl hkill.1
  | killing x =>
    obtain rfl : x = m := Option.some.inj hm
    exact absurd rfl hkill.2
  | linked y w x | refused y w x | failed y w x =>
    obtain rfl : x = m := Option.some.inj hm
    exact absurd (hu.symm.trans h.2.2.1) (by simp)
  | unlink x =>
    obtain rfl : x = m := Option.some.inj hm
    exact absurd (hu.symm.trans h.2.1) (by simp)
  | finish x st =>
    obtain rfl : x = m := Option.some.inj hm
    rcases h.2.2.2 with hp' | hp' <;> exact absurd (hp.symm.trans hp') (by simp)

theorem LocFits.write {l : Loc μ} (h : LocFits s.msg ph k l) (hm : l.msg = some m)
    (hr : v.needRsp = (s.msg m).needRsp) (hu : v.urb = (s.msg m).urb) (hst : v.state = (s.msg m).state)
    (hans : v.answeredBy = (s.msg m).answeredBy) : LocFits (Function.update s.msg m v) ph k l := by
  have howner : ∀ q : Phase κ, q.owner v = q.owner (s.msg m) := by
    intro q
    cases q <;> simp only [Phase.owner, hr, hu]
  cases l with
  | idle => trivial
  | called x | entered x => exact h
  | kicking x w | waiting x | expired x | kill x | killing x | unlink x | finish x st =>
    obtain rfl : x = m := Option.some.inj hm
    simp only [LocFits, Waits, Function.update_self, hr, hu, hst, hans, howner]
    exact h
  | took y w x | number y w x | fill y w x | linked y w x | refused y w x | failed y w x =>
    obtain rfl : x = m := Option.some.inj hm
    simp only [LocFits, Function.update_self, hr, hu, hst, hans]
    exact h

theorem Inv.env (h : Inv s holder ph) (hmsg : s'.msg = Function.update s.msg m v) (hloc : s'.loc = s.loc)
    (hup : s'.mcuInit = s.mcuInit) (hfault : s'.fault = s.fault) (hlists : Lists s') (hfits : Fits v p)
    (howner : ∀ k, p.owner v = some k → (s.loc k).msg = some m)
    (hlocs : ∀ k, (s.loc k).msg = some m → LocFits (Function.update s.msg m v) (Function.update ph m p) k (s.loc k))
    (hresp : ∀ x r, s'.bh = .responding x r → Answering (s'.msg x) (Function.update ph m p x))
    (hreap : ∀ x, s'.bh = .reaping x ↔ Function.update ph m p x = .reaped) :
    Inv s' holder (Function.update ph m p) where
  lists := hlists
  fits x := hmsg ▸ update_fits h hfits x
  owner x k hx := by
    rw [hmsg] at hx
    refine update_owner h (fun k hk => ?_) (fun k y _ hy => ?_) x k hx
    · rw [hloc]
      exact howner k hk
    · rw [hloc]
      exact hy
  locs k := by
    rw [hmsg, hloc]
    exact update_locs (h.locs k) (hlocs k)
  inside k hk := h.inside k (hloc ▸ hk)
  responding := hresp
  reaping := hreap
  up := hup.trans h.up
  noFault := hfault.trans h.noFault

theorem Inv.handler (h : Inv s holder ph) (hmsg : s'.msg = Function.update s.msg m v) (hloc : s'.loc = s.loc)
    (hbh : s'.bh = s.bh) (hup : s'.mcuInit = s.mcuInit) (hfault : s'.fault = s.fault) (hlists : Lists s')
    (hfits : Fits v p) (howner : ∀ k, p.owner v = some k → (s.loc k).msg = some m)
    (hlocs : ∀ k, (s.loc k).msg = some m → LocFits (Function.update s.msg m v) (Function.update ph m p) k (s.loc k))
    (hresp : ∀ r, s.bh = .responding m r → Answering v p)
    (hreap : ph m = .reaped ↔ p = .reaped) : ∃ holder' ph', Inv s' holder' ph' := by
  refine ⟨holder, _, h.env hmsg hloc hup hfault hlists hfits howner hlocs ?_ ?_⟩
  · intro x r hx
    rw [hbh] at hx
    rw [hmsg]
    exact update_responding h hresp x r hx
  · intro x
    rw [hbh]
    exact update_reaping h hreap x

/-! ### The steps of the completion handler and of the tasklet -/

theorem Inv.completeKickq (h : Inv s holder ph) (hu : (s.msg m).urb = .active) (hp : ph m = .linked k)
    (hr : (s.msg m).needRsp = false) (ok : Bool) : ∃ holder' ph', Inv (s.complete m ok) holder' ph' := by
  have hf := h.at hp
  have hplace : (s.msg m).place = some .kickq := by rw [hf.place]; simp [Phase.place, hr]
  obtain ⟨K, hK, hlists⟩ := h.unlink hplace
  simp only [Sys.complete, access_one hf.frees]
  rw [if_pos h.up, if_neg (by simp [hr]), hK]
  simp only [Function.update_self, Function.update_idem]
  refine h.handler (p := .taken k) rfl rfl rfl rfl rfl (hlists.again rfl rfl rfl rfl)
    ⟨hf.wait, hf.onlyOnce, hf.allocated, hf.frees, rfl, ?_⟩ ?_ ?_ (h.no_response (by simp [hp]))
    (by simp [hp])
  · simp [Stage, hr]
  · simp [hr]
  · intro k' hk'
    exact (h.locs k').left hk' (by simp [hp, Phase.owner, hr, hu]) rfl (by simp) (by simp [hr])

theorem Inv.completeOk (h : Inv s holder ph) (hu : (s.msg m).urb = .active) (hr : (s.msg m).needRsp = true)
    (hhold : ∃ k, (s.loc k).holds = some m)
    (hkill : (s.msg m).answeredBy = none → ∀ k, s.loc k ≠ .kill m ∧ s.loc k ≠ .killing m) :
    ∃ holder' ph', Inv (s.complete m true) holder' ph' := by
  rcases h.completing hu fun _ => Or.inr hhold with ⟨k, hp⟩ | ⟨k, hp, -⟩
  · have hf := h.at hp
    have hs : Stage (s.msg m) (Phase.linked k) := hf.stage
    have hown : (ph m).owner (s.msg m) = some k := by simp [hp, hr]
    simp only [Sys.complete, access_one hf.frees]
    rw [if_pos h.up, if_pos hr, if_pos trivial]
    refine h.handler (p := .linked k) rfl rfl rfl rfl rfl (h.lists.write rfl rfl rfl)
      ⟨hf.wait, hf.onlyOnce, hf.allocated, hf.frees, hf.place, ?_⟩ ?_ ?_ (h.no_response (by simp [hp]))
      (by simp [hp])
    · simp [Stage, hs.1, hs.2.1]
    · intro k' hk'
      rw [(Phase.owner_linked.1 hk').2]
      exact h.owner m k hown
    · intro k' hk'
      obtain rfl := h.only hr hown hk'
      exact (h.locs k').completeOk hk' hp hu hr (hkill hs.2.1 k')
  · have hf := h.at hp
    have hs : Stage (s.msg m) (Phase.taken k) := hf.stage
    have hans := ((hs.1 hr).1 hu).2
    have hown : (ph m).owner (s.msg m) = some k := by simp [hp, hr]
    simp only [Sys.complete, access_one hf.frees]
    rw [if_pos h.up, if_pos hr, if_pos trivial]
    refine h.handler (p := .taken k) rfl rfl rfl rfl rfl (h.lists.write rfl rfl rfl)
      ⟨hf.wait, hf.onlyOnce, hf.allocated, hf.frees, hf.place, ?_⟩ ?_ ?_
      (fun r hresp => ?_) (by simp [hp])
    · simp [Stage, hans]
    · intro k' hk'
      rw [(Phase.owner_taken.1 hk').2]
      exact h.owner m k hown
    · intro k' hk'
      obtain rfl := h.only hr hown hk'
      exact (h.locs k').to_taken hk' (Or.inr hp) hr hr (fun _ => hans) (by simp [hu]) (by simp)
    · have hansw := h.responding m r hresp
      rw [hp] at hansw
      exact hansw

theorem Inv.completeFail (h : Inv s holder ph) (hu : (s.msg m).urb = .active)
    (hr : (s.msg m).needRsp = true) (hans : (s.msg m).answeredBy = none) :
    ∃ holder' ph', Inv (s.complete m false) holder' ph' := by
  rcases h.completing hu fun _ => Or.inl hans with ⟨k, hp⟩ | ⟨k, hp, -⟩
  · have hf := h.at hp
    have hs : Stage (s.msg m) (Phase.linked k) := hf.stage
    have hst := (hs.2.2.2 hr).1 hu
    have hown : (ph m).owner (s.msg m) = some k := by simp [hp, hr]
    have hplace : (s.msg m).place = some .ackq := by rw [hf.place]; simp [Phase.place, hr]
    obtain ⟨K, hK, hlists⟩ := h.unlink hplace
    simp only [Sys.complete, access_one hf.frees]
    rw [if_pos h.up, if_pos hr, if_neg (by simp), hK]
    simp only [Function.update_self, Function.update_idem]
    refine h.handler (p := .taken k) rfl rfl rfl rfl rfl (hlists.again rfl rfl rfl rfl)
      ⟨hf.wait, hf.onlyOnce, hf.allocated, hf.frees, rfl, ?_⟩ ?_ ?_ (h.no_response (by simp [hp]))
      (by simp [hp])
    · simp [Stage, hr, hst, hs.1, hans]
    · intro k' hk'
      rw [(Phase.owner_taken.1 hk').2]
      exact h.owner m k hown
    · intro k' hk'
      obtain rfl := h.only hr hown hk'
      refine (h.locs k').to_taken hk' (Or.inl hp) hr hr ?_ (by simp [hu]) (by simp [hp])
      simp [hst]
  · have hs : Stage (s.msg m) (Phase.taken k) := (h.at hp).stage
    exact absurd hans ((hs.1 hr).1 hu).2

theorem Inv.handled {ok : Bool} (h : Inv s holder ph) (hu : (s.msg m).urb = .unlinked ok) :
    ∃ holder' ph', Inv (s.handled m ok) holder' ph' := by
  have hstage := (h.fits m).stage
  obtain ⟨k, hp⟩ : ∃ k, ph m = .taken k := by
    cases hp : ph m with
    | taken k => exact ⟨k, rfl⟩
    | fresh | held k | txq k =>
      rw [hp] at hstage
      exact absurd (hu.symm.trans hstage.1) (by simp)
    | linked k =>
      rw [hp] at hstage
      rcases hstage.2.2.1 with hi | hi <;> exact absurd (hu.symm.trans hi) (by simp)
    | done | reaped =>
      rw [hp] at hstage
      exact absurd hu (hstage.2.1 ok)
    | freed =>
      rw [hp] at hstage
      exact absurd hu (hstage.1 ok)
  have hf := h.at hp
  have hs : Stage (s.msg m) (Phase.taken k) := hf.stage
  unfold Sys.handled
  cases hr : (s.msg m).needRsp with
  | true =>
    obtain ⟨-, hack, hans⟩ := (hs.1 hr).2.1 ok hu
    have hown : (ph m).owner (s.msg m) = some k := by simp [hp, hr]
    rw [if_pos rfl]
    simp only [access_one hf.frees]
    refine h.handler (p := .taken k) rfl rfl rfl rfl rfl (h.lists.write rfl rfl rfl)
      ⟨hf.wait, hf.onlyOnce, hf.allocated, hf.frees, hf.place, ?_⟩ ?_ ?_ ?_ (by simp [hp])
    · simp [Stage, hr, hans]
    · intro k' hk'
      rw [(Phase.owner_taken.1 hk').2]
      exact h.owner m k hown
    · intro k' hk'
      obtain rfl := h.only hr hown hk'
      exact (h.locs k').to_taken hk' (Or.inr hp) hr hr (by simp) (by simp [hu]) (by simp)
    · exact fun r hresp => absurd hans (h.responding m r hresp).2.1
  | false =>
    obtain ⟨K, hK, hlists⟩ := h.queueTail .txDoneq (if ok then .txDone else .txKickoutFail) hf.place hf.frees
    rw [if_neg (by simp), hK]
    simp only [Function.update_self, Function.update_idem]
    refine h.handler (p := .done) rfl rfl rfl rfl rfl (hlists.again rfl rfl rfl rfl)
      ⟨hf.wait, hf.onlyOnce, hf.allocated, hf.frees, rfl, ?_⟩ (by simp [Phase.owner]) ?_ ?_ (by simp [hp])
    · cases ok <;> simp [Stage, Settled, Sys.disposable]
    · intro k' hk'
      exact (h.locs k').left hk' (by simp [hp, Phase.owner, hr, hu]) rfl (by simp) (by simp [Phase.owner])
    · intro r hresp
      exact absurd (hr.symm.trans (h.responding m r hresp).1) (by simp)

theorem Inv.signal (h : Inv s holder ph) (hu : (s.msg m).urb = .marked) (hfree : (s.msg m).frees = 0) :
    ∃ holder' ph', Inv { s with msg := Function.update s.msg m { s.msg m with ackDone := true, urb := .idle } }
      holder' ph' := by
  have hf := h.fits m
  have hs := hf.stage
  have hsettled : ∀ p : Phase κ, ph m = p → Stage { s.msg m with ackDone := true, urb := .idle } p →
      (∀ (v : Msg μ) k, p.owner v ≠ some k) → p ≠ .fresh →
      ∃ holder' ph', Inv { s with msg := Function.update s.msg m { s.msg m with ackDone := true, urb := .idle } }
        holder' ph' := by
    rintro p rfl hstage hno hfresh
    refine h.handler (p := ph m) rfl rfl rfl rfl rfl (h.lists.write rfl rfl rfl)
      ⟨hf.wait, hf.onlyOnce, hf.allocated, hf.frees, hf.place, hstage⟩
      (fun k hk => absurd hk (hno _ k)) ?_ ?_ Iff.rfl
    · intro k' hk'
      exact (h.locs k').left hk' (Option.eq_none_iff_forall_ne_some.2 (hno _)) rfl hfresh (hno _)
    · intro r hresp
      obtain ⟨hr, hans, ⟨k, hk, -⟩ | hd⟩ := h.responding m r hresp
      · exact absurd (by rw [hk]; simp [hr]) (hno (s.msg m) k)
      · exact ⟨hr, hans, Or.inr hd⟩
  cases hp : ph m with
  | fresh | held k | txq k =>
    rw [hp] at hs
    exact absurd (hu.symm.trans hs.1) (by simp)
  | linked k =>
    rw [hp] at hs
    rcases hs.2.2.1 with hi | hi <;> exact absurd (hu.symm.trans hi) (by simp)
  | taken k =>
    have hf := h.at hp
    rw [hp] at hs
    have hr : (s.msg m).needRsp = true := by
      by_contra hr
      rcases hs.2 (by simpa using hr) with hi | ⟨ok, hun⟩
      · exact absurd (hu.symm.trans hi) (by simp)
      · exact absurd (hu.symm.trans hun) (by simp)
    have hown : (ph m).owner (s.msg m) = some k := by simp [hp, hr]
    obtain ⟨hst, hans⟩ := (hs.1 hr).2.2.1 hu
    refine h.handler (p := .taken k) rfl rfl rfl rfl rfl (h.lists.write rfl rfl rfl)
      ⟨hf.wait, hf.onlyOnce, hf.allocated, hf.frees, hf.place, ?_⟩ ?_ ?_
      (fun r hresp => absurd hans (h.responding m r hresp).2.1) (by simp [hp])
    · simp [Stage, hst]
    · intro k' hk'
      rw [(Phase.owner_taken.1 hk').2]
      exact h.owner m k hown
    · intro k' hk'
      obtain rfl := h.only hr hown hk'
      refine (h.locs k').to_taken hk' (Or.inr hp) hr hr ?_ (by simp [hu]) (by simp)
      simp [hst]
  | done | reaped =>
    rw [hp] at hs
    exact hsettled _ hp ⟨hs.1, by simp, by simp, by simp⟩ (by simp [Phase.owner]) (by simp)
  | freed =>
    rw [hf.frees, hp] at hfree
    exact absurd hfree (by simp [Phase.frees])

theorem Inv.rxProcess_eq (h : Inv s holder ph) (r : Response μ) :
    s.rxProcess r = s ∨
      ∃ m K, (s.msg m).place = some .ackq ∧ (s.msg m).seq = r.cmdSeq ∧
        s.rxProcess r = { s with
          links := K
          msg := Function.update s.msg m { s.msg m with place := none, answeredBy := some r }
          bh := .responding m r } ∧
        Lists { s with links := K, msg := Function.update s.msg m { s.msg m with place := none } } := by
  obtain ⟨ys, hys, hmem⟩ := h.items
  have hacc : s.access (ys.map .inr) = s := by
    refine access_eq fun x hx => ?_
    simp only [List.mem_map, Sum.inr.injEq, exists_eq_right] at hx
    exact h.unfreed ((hmem x).1 hx)
  unfold Sys.rxProcess
  rw [hys]
  simp only [hacc]
  split
  · exact Or.inl rfl
  · next m hfind =>
    have hplace := (hmem m).1 (List.mem_of_find?_eq_some hfind)
    have hseq : (s.msg m).seq = r.cmdSeq := by simpa using List.find?_some hfind
    obtain ⟨K, hK, hlists⟩ := h.unlink hplace
    simp only [hK, Function.update_self, Function.update_idem]
    exact Or.inr ⟨m, K, hplace, hseq, rfl, hlists⟩

theorem Inv.rxProcess (h : Inv s holder ph) (hbh : s.bh = .rx) (r : Response μ) :
    ∃ holder' ph', Inv (s.rxProcess r) holder' ph' := by
  rcases h.rxProcess_eq r with heq | ⟨m, K, hplace, -, heq, hlists⟩
  · rw [heq]
    exact ⟨holder, ph, h⟩
  · obtain ⟨k, -, hp, hkm, hr⟩ := h.awaited hplace
    have hf := h.at hp
    have hs : Stage (s.msg m) (Phase.linked k) := hf.stage
    have hown : (ph m).owner (s.msg m) = some k := by simp [hp, hr]
    rw [heq]
    refine ⟨holder, _, h.env (p := .taken k) rfl rfl rfl rfl (hlists.again rfl rfl rfl rfl)
      ⟨hf.wait, hf.onlyOnce, hf.allocated, hf.frees, rfl, ?_⟩ ?_ ?_ ?_ ?_⟩
    · rcases hs.2.2.1 with hi | hi
      · simp [Stage, hi]
      · simp [Stage, hi, (hs.2.2.2 hr).1 hi, hr]
    · intro k' hk'
      rw [(Phase.owner_taken.1 hk').2]
      exact hkm
    · intro k' hk'
      obtain rfl := h.only hr hown hk'
      exact (h.locs k').to_taken hk' (Or.inl hp) hr hr (by simp) (by simp [hp]) (by simp [hp])
    · intro x r' hx
      simp only [Bh.responding.injEq] at hx
      obtain ⟨rfl, -⟩ := hx
      simp [Answering, hr, hs.1]
    · intro x
      refine iff_of_false (by simp) fun hx => ?_
      by_cases hxm : x = m
      · subst hxm
        simp at hx
      · rw [Function.update_of_ne hxm, ← h.reaping, hbh] at hx
        exact absurd hx (by simp)

omit [DecidableEq μ] in
theorem rspReceived_eq (msg : Msg μ) (r : Response μ) :
    ∃ len fill, rspReceived msg r = { msg with rspPayloadLen := len, filledBy := fill } ∧
      (fill = msg.filledBy ∨ fill = some r) := by
  unfold rspReceived
  split
  · exact ⟨_, _, rfl, Or.inr rfl⟩
  · split <;> exact ⟨_, _, rfl, Or.inl rfl⟩

theorem Inv.answer {r : Response μ} (h : Inv s holder ph) (hbh : s.bh = .responding m r)
    (hmsg : s'.msg = Function.update s.msg m v) (hlinks : s'.links = s.links) (hloc : s'.loc = s.loc)
    (hbh' : s'.bh = .rx) (hup : s'.mcuInit = s.mcuInit) (hfault : s'.fault = s.fault)
    (hv : ∃ len fill, v = { s.msg m with rspPayloadLen := len, filledBy := fill, ackDone := true }) :
    Inv s' holder ph := by
  obtain ⟨hr, hans, hp⟩ := h.responding m r hbh
  have hf := h.fits m
  have hs := hf.stage
  have hph : Function.update ph m (ph m) = ph := Function.update_eq_self m ph
  obtain ⟨len, fill, rfl⟩ := hv
  have := h.env (p := ph m) hmsg hloc hup hfault (h.lists.write hlinks hmsg rfl)
    ⟨hf.wait, hf.onlyOnce, hf.allocated, hf.frees, hf.place, ?_⟩ ?_ ?_ ?_ ?_
  · rwa [hph] at this
  · rcases hp with ⟨k, hp, -⟩ | hp <;> rw [hp] at hs ⊢
    · refine ⟨fun hr => ⟨(hs.1 hr).1, fun ok hu => ?_, (hs.1 hr).2.2.1, fun _ => Or.inl hans⟩, hs.2⟩
      exact absurd ((hs.1 hr).2.1 ok hu).2.2 hans
    · exact hs
  · intro k hk
    refine h.owner m k ?_
    rcases hp with ⟨k', hp, -⟩ | hp <;> rw [hp] at hk ⊢ <;> exact hk
  · intro k hk
    rw [hph]
    exact (h.locs k).write hk rfl rfl rfl rfl
  · intro x r' hx
    rw [hbh'] at hx
    exact absurd hx (by simp)
  · intro x
    rw [hbh', hph, ← h.reaping, hbh]
    simp

theorem Inv.respond_eq {r : Response μ} (h : Inv s holder ph) (hbh : s.bh = .responding m r) :
    s.respond m r = { s with
      msg := Function.update s.msg m { rspReceived (s.msg m) r with ackDone := true }
      bh := .rx } := by
  obtain ⟨hr, -, hp⟩ := h.responding m r hbh
  have hf := h.fits m
  have hfree : (s.msg m).frees = 0 := by
    rw [hf.frees]
    rcases hp with ⟨k, hp, -⟩ | hp <;> rw [hp] <;> rfl
  obtain ⟨len, fill, heq, -⟩ := rspReceived_eq (s.msg m) r
  have hw : (rspReceived (s.msg m) r).needWait = true := by
    rw [heq]
    exact hf.wait.trans hr
  unfold Sys.respond
  simp only [access_one hfree, Function.update_self]
  rw [if_pos hw, Function.update_idem]

theorem Inv.respond {r : Response μ} (h : Inv s holder ph) (hbh : s.bh = .responding m r) :
    Inv (s.respond m r) holder ph := by
  obtain ⟨len, fill, heq, -⟩ := rspReceived_eq (s.msg m) r
  rw [h.respond_eq hbh]
  exact h.answer hbh rfl rfl rfl rfl rfl rfl ⟨len, fill, by rw [heq]⟩

theorem Inv.bhTx {K : Links (Queue ⊕ μ)} (h : Inv s holder ph) (hbh : s.bh = .tx)
    (hx : (s.msg m).place = some .txDoneq) (hmsg : s'.msg = Function.update s.msg m { s.msg m with place := none })
    (hlists : Lists { s with links := K, msg := Function.update s.msg m { s.msg m with place := none } })
    (hlinks : s'.links = K) (hloc : s'.loc = s.loc) (hbh' : s'.bh = .reaping m)
    (hup : s'.mcuInit = s.mcuInit) (hfault : s'.fault = s.fault) :
    Inv s' holder (Function.update ph m .reaped) := by
  have hp : ph m = .done := by
    rw [(h.fits m).place] at hx
    cases hp : ph m <;> rw [hp] at hx <;> simp [Phase.place] at hx ⊢
    split at hx <;> exact absurd hx (by simp)
  have hf := h.at hp
  refine h.env (p := .reaped) hmsg hloc hup hfault (hlists.congr hlinks fun x => by rw [hmsg])
    ⟨hf.wait, hf.onlyOnce, hf.allocated, hf.frees, rfl, hf.stage⟩ (by simp [Phase.owner]) ?_ ?_ ?_
  · intro k hk
    exact (h.locs k).left hk (by simp [hp, Phase.owner]) rfl (by simp) (by simp [Phase.owner])
  · intro x r hx
    rw [hbh'] at hx
    exact absurd hx (by simp)
  · intro x
    rw [hbh']
    by_cases hxm : x = m
    · subst hxm
      simp
    · rw [Function.update_of_ne hxm, ← h.reaping, hbh]
      simp [Ne.symm hxm]

theorem Inv.reap (h : Inv s holder ph) (hbh : s.bh = .reaping m) :
    Inv (s.reap m) holder (Function.update ph m .freed) := by
  have hp := (h.reaping m).1 hbh
  have hf := h.at hp
  obtain ⟨hst, hsettled⟩ : Stage (s.msg m) (Phase.reaped : Phase κ) := hf.stage
  unfold Sys.reap
  simp only [access_one hf.frees]
  rw [if_pos hst, free_eq hf.frees]
  refine h.env (p := .freed) rfl rfl rfl rfl (h.lists.write rfl rfl rfl)
    ⟨hf.wait, hf.onlyOnce, hf.allocated, rfl, hf.place, hsettled⟩ (by simp [Phase.owner]) ?_ (by simp) ?_
  · intro k hk
    exact (h.locs k).left hk (by simp [hp, Phase.owner]) rfl (by simp) (by simp [Phase.owner])
  · intro x
    refine iff_of_false (by simp) fun hx => ?_
    by_cases hxm : x = m
    · subst hxm
      simp at hx
    · rw [Function.update_of_ne hxm, ← h.reaping, hbh] at hx
      exact hxm (Bh.reaping.inj hx).symm

end Mt7610u.Mcu
