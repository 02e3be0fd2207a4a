import Mt7610u.Mcu.HandlerSteps
import Mt7610u.Mcu.SenderSteps
import Mathlib.Data.Fintype.Basic

/-! # Runs of the command queues -/

namespace Mt7610u.Mcu

open Lib.DlList Lib.Runs

variable {κ μ : Type} [DecidableEq μ] [DecidableEq κ] {s : Sys κ μ} {holder : Option κ} {ph : μ → Phase κ}

theorem Inv.step (h : Inv s holder ph) (op : Op κ μ) (hok : Timely s op) :
    ∃ holder' ph', Inv (s.step op) holder' ph' := by
  have hstay : ∃ holder' ph', Inv s holder' ph' := ⟨holder, ph, h⟩
  cases op with
  | send k m wait n =>
    simp only [Sys.step]
    split
    · next hc => exact ⟨_, _, h.send hc.1 hc.2 wait n⟩
    · exact hstay
  | enter k interrupted =>
    simp only [Sys.step]
    split
    · next m hk =>
      unfold Sys.enter
      split
      · next hi => exact ⟨_, _, h.enter hk (hok ⟨m, hk⟩ (Or.inl hi)) rfl rfl rfl rfl rfl rfl⟩
      · split
        · next hpos => exact ⟨_, _, h.enter hk (hok ⟨m, hk⟩ (Or.inr hpos)) rfl rfl rfl rfl rfl rfl⟩
        · exact hstay
    · exact hstay
  | check k =>
    simp only [Sys.step]
    split
    · next m hk => exact h.check hk
    · exact hstay
  | dequeue k =>
    simp only [Sys.step]
    split
    · next m w hk => exact h.take hk
    · exact hstay
  | test k =>
    simp only [Sys.step]
    split
    · next m w x hk => exact h.test hk
    · exact hstay
  | number k =>
    simp only [Sys.step]
    split
    · next m w x hk => exact h.number hk
    · exact hstay
  | link k =>
    simp only [Sys.step]
    split
    · next m w x hk => exact h.link hk
    · exact hstay
  | submit k accepted =>
    simp only [Sys.step]
    split
    · next m w x hk => exact h.submit hk accepted
    · exact hstay
  | refuse k =>
    simp only [Sys.step]
    split
    · next m w x hk => exact h.refuse hk (hok m w x hk)
    · exact hstay
  | fail k =>
    simp only [Sys.step]
    split
    · next m w x hk => exact h.fail hk
    · exact hstay
  | wake k =>
    simp only [Sys.step]
    split
    · next m hk => exact h.wake hk
    · exact hstay
  | expire k =>
    simp only [Sys.step]
    split
    · next m hk =>
      split
      · exact hstay
      · exact h.expire hk rfl rfl rfl rfl rfl rfl
    · exact hstay
  | look k =>
    simp only [Sys.step]
    split
    · next m hk => exact h.look hk
    · exact hstay
  | kill k =>
    simp only [Sys.step]
    split
    · next m hk => exact h.startKill hk rfl rfl rfl rfl rfl rfl
    · exact hstay
  | killed k =>
    simp only [Sys.step]
    split
    · next m hk =>
      split
      · next hidle => exact h.killed hk hidle
      · exact hstay
    · exact hstay
  | unlink k =>
    simp only [Sys.step]
    split
    · next m hk => exact h.unlinkAckq hk (hok m hk)
    · exact hstay
  | finish k =>
    simp only [Sys.step]
    split
    · next m st hk => exact h.finish hk
    · exact hstay
  | complete m ok =>
    simp only [Sys.step]
    split
    · next hu =>
      cases hr : (s.msg m).needRsp with
      | true =>
        cases ok with
        | true => exact h.completeOk hu hr (hok hu hr).1 (hok hu hr).2
        | false => exact h.completeFail hu hr (hok hu hr)
      | false =>
        rcases h.completing hu (by simp [hr]) with ⟨k, hp⟩ | ⟨k, -, hr'⟩
        · exact h.completeKickq hu hp hr ok
        · exact absurd (hr.symm.trans hr') (by simp)
    · exact hstay
  | handled m =>
    simp only [Sys.step]
    split
    · next ok hu => exact h.handled hu
    · exact hstay
  | signal m =>
    simp only [Sys.step]
    split
    · next hu =>
      rw [access_one (hok hu)]
      exact h.signal hu (hok hu)
    · exact hstay
  | receive r => exact ⟨_, _, h.same rfl rfl rfl rfl rfl (fun _ _ hx => hx) fun _ => Iff.rfl⟩
  | bhStart =>
    simp only [Sys.step]
    split
    · next hb => exact ⟨_, _, h.same rfl rfl rfl rfl rfl (by simp) (by simp [hb])⟩
    · exact hstay
  | bhRx =>
    simp only [Sys.step]
    split
    · next hb _ => exact ⟨_, _, h.same rfl rfl rfl rfl rfl (by simp) (by simp [hb])⟩
    · next r rs hb _ =>
      have h' : Inv { s with rxDoneq := rs } holder ph :=
        h.same rfl rfl rfl rfl rfl (fun _ _ hx => hx) fun _ => Iff.rfl
      exact h'.rxProcess hb r
    · exact hstay
  | bhRespond =>
    simp only [Sys.step]
    split
    · next m r hb => exact ⟨_, _, h.respond hb⟩
    · exact hstay
  | bhTx =>
    simp only [Sys.step]
    split
    · next hb =>
      rcases h.dequeue .txDoneq with ⟨hd, -⟩ | ⟨x, K, hx, hd, hlists⟩
      · rw [hd]
        exact ⟨_, _, h.same rfl rfl rfl rfl rfl (by simp) (by simp [hb])⟩
      · rw [hd]
        exact ⟨_, _, h.bhTx hb hx rfl hlists rfl rfl rfl rfl rfl⟩
    · exact hstay
  | bhFree =>
    simp only [Sys.step]
    split
    · next m hb => exact ⟨_, _, h.reap hb⟩
    · exact hstay
  | flags a b c => exact ⟨_, _, h.same rfl rfl rfl rfl rfl (fun _ _ hx => hx) fun _ => Iff.rfl⟩

/-- **The life of a command message.** Along every run whose steps are timely, a message is linked in at most
one of the queues and unlinked from the one it is in, it is freed once, and it is not used after that. -/
theorem sound_of_timely (ops : List (Op κ μ)) (hok : Along Sys.step Timely (Sys.init κ μ) ops) :
    Sound (run Sys.step (Sys.init κ μ) ops) := by
  have hinv : ∃ holder ph, Inv (run Sys.step (Sys.init κ μ) ops) holder ph := by
    refine run_invariant (I := fun s => ∃ holder ph, Inv s holder ph) ?_ ops _ ⟨none, _, inv_init⟩ hok
    rintro s op ⟨holder, ph, h⟩ hs
    exact h.step op hs
  obtain ⟨holder, ph, h⟩ := hinv
  exact h.sound

instance Timely.decidable [Fintype κ] [Fintype μ] (s : Sys κ μ) : ∀ op, Decidable (Timely s op)
  | .enter k i => inferInstanceAs (Decidable ((∃ m, s.loc k = .called m) → i = true ∨ 0 < s.mcuAtomic →
      ∀ k', (s.loc k').inside = false))
  | .refuse k => inferInstanceAs (Decidable (∀ m w x, s.loc k = .refused m w x →
      (s.msg x).needRsp = true → (s.msg x).answeredBy = none))
  | .unlink k => inferInstanceAs (Decidable (∀ m, s.loc k = .unlink m → (s.msg m).answeredBy = none))
  | .complete m false => inferInstanceAs (Decidable ((s.msg m).urb = .active → (s.msg m).needRsp = true →
      (s.msg m).answeredBy = none))
  | .complete m true => inferInstanceAs (Decidable ((s.msg m).urb = .active → (s.msg m).needRsp = true →
      (∃ k, (s.loc k).holds = some m) ∧
        ((s.msg m).answeredBy = none → ∀ k, s.loc k ≠ .kill m ∧ s.loc k ≠ .killing m)))
  | .signal m => inferInstanceAs (Decidable ((s.msg m).urb = .marked → (s.msg m).frees = 0))
  | .send .. | .check _ | .dequeue _ | .test _ | .number _ | .link _ | .submit .. | .fail _ | .wake _
  | .expire _ | .look _ | .kill _ | .killed _ | .finish _ | .handled _ | .receive _ | .bhStart | .bhRx
  | .bhRespond | .bhTx | .bhFree | .flags .. => isTrue trivial

def kickOut (k : κ) (m : μ) (wait : Bool) : List (Op κ μ) :=
  [.send k m wait 8, .enter k false, .check k, .dequeue k, .test k, .number k, .link k, .submit k true, .dequeue k]

/-- A command is answered, another is not waited for, and a third one runs into its timeout while the second is
freed. -/
def sampleOps : List (Op (Fin 2) (Fin 3)) :=
  .flags true false false :: kickOut 0 0 true ++
    [.complete 0 true, .receive ⟨1, 8, some 0⟩, .bhStart, .bhRx, .bhRespond, .wake 0, .finish 0] ++
    kickOut 1 1 false ++ [.complete 1 true] ++ kickOut 0 2 true ++
    [.handled 1, .bhRx, .bhTx, .bhFree, .bhTx, .bhFree, .expire 0, .look 0, .kill 0, .complete 2 false,
      .handled 2, .signal 2, .killed 0, .finish 0, .bhTx, .bhFree, .bhTx]

theorem sound_timelySample :
    Along Sys.step Timely (Sys.init (Fin 2) (Fin 3)) sampleOps ∧
      Sound (run Sys.step (Sys.init (Fin 2) (Fin 3)) sampleOps) ∧
      ∀ m, ((run Sys.step (Sys.init (Fin 2) (Fin 3)) sampleOps).msg m).frees = 1 := by
  have h : Along Sys.step Timely (Sys.init (Fin 2) (Fin 3)) sampleOps := by decide
  exact ⟨h, sound_of_timely sampleOps h, by decide⟩

/-- The response comes when the timeout has read `wait_ack`. -/
def lateResponse : List (Op Unit Unit) :=
  .flags true false false :: kickOut () () true ++
    [.complete () true, .expire (), .look (), .receive ⟨1, 8, some ()⟩, .bhStart, .bhRx, .bhRespond, .unlink ()]

def lateCompletion : List (Op Unit Unit) :=
  .flags true false false :: kickOut () () true ++
    [.receive ⟨1, 8, some ()⟩, .bhStart, .bhRx, .bhRespond, .wake (), .finish (), .bhRx, .bhTx, .bhFree,
      .complete () true]

/-- **A message is unlinked twice, and another is written after it was freed.** -/
theorem not_sound_late :
    ((run Sys.step (Sys.init Unit Unit) lateResponse).fault = some .wrongQueue ∧
      ¬ Sound (run Sys.step (Sys.init Unit Unit) lateResponse)) ∧
    ((run Sys.step (Sys.init Unit Unit) lateCompletion).fault = some .freedMsg ∧
      ¬ Sound (run Sys.step (Sys.init Unit Unit) lateCompletion)) := by
  have hresp : (run Sys.step (Sys.init Unit Unit) lateResponse).fault = some .wrongQueue := by
    decide
  have hcomp : (run Sys.step (Sys.init Unit Unit) lateCompletion).fault = some .freedMsg := by
    decide
  refine ⟨⟨hresp, fun h => ?_⟩, hcomp, fun h => ?_⟩
  · exact absurd (hresp.symm.trans h.noFault) (by simp)
  · exact absurd (hcomp.symm.trans h.noFault) (by simp)

end Mt7610u.Mcu
