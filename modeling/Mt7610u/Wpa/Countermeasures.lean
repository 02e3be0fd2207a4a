import Mathlib.Data.BitVec
import Mt7610u.Lib.Runs

/-! # TKIP countermeasures (`sta/wpa.c`, `common/mlme.c`, `sta/assoc.c`)

Two frames with a wrong MIC within a minute of one association make the driver leave the access point and
associate with none for a minute. The time is that of the system tick, which wraps; what is promised is
about real time, so the state keeps both. -/

namespace Mt7610u.Wpa.Countermeasures

open Lib.Runs

/-! ### The clock -/

/-- A system tick of `width` bits that counts `osHz` times a second. Half its range is longer than a
minute. -/
structure Clock where
  width : ℕ
  osHz : ℕ
  fits : 60 * osHz < 2 ^ (width - 1)

namespace Clock

variable (c : Clock)

def minute : ℕ := 60 * c.osHz

/-- What the counter shows after `n` ticks. -/
def tick (n : ℕ) : BitVec c.width := BitVec.ofNat c.width n

variable {c}

theorem tick_add (n m : ℕ) : c.tick n + c.tick m = c.tick (n + m) := (BitVec.ofNat_add n m).symm

end Clock

/-- `RTMP_TIME_AFTER(a, b)`: `(long)b - (long)a < 0`. -/
def rtmpTimeAfter {w : ℕ} (a b : BitVec w) : Bool := (b - a).msb

theorem rtmpTimeAfter_tick {c : Clock} {now last : ℕ} (hle : now ≤ last + c.minute) (hlast : last ≤ now) :
    rtmpTimeAfter (c.tick now) (c.tick last + c.tick c.minute) = false := by
  have hfits := c.fits
  have hsum : c.tick last + c.tick c.minute = c.tick (last + c.minute - now) + c.tick now := by
    rw [Clock.tick_add, Clock.tick_add, Nat.sub_add_cancel hle]
  unfold rtmpTimeAfter
  rw [hsum, BitVec.add_sub_cancel, BitVec.msb_eq_false_iff_two_mul_lt]
  unfold Clock.tick Clock.minute at *
  have hmod := Nat.mod_le (last + 60 * c.osHz - now) (2 ^ c.width)
  rw [BitVec.toNat_ofNat]
  by_cases hw : c.width = 0
  · rw [hw] at hfits
    omega
  · have hpow : 2 ^ c.width = 2 * 2 ^ (c.width - 1) := by
      rw [← pow_succ']
      congr 1
      omega
    omega

/-! ### The station -/

/-- `StaCfg` as far as it is concerned, the clock, and what has happened: the times of the errors in the
current association, latest first; of those that were the second of a pair and wait for the timer; and of
those whose timer has fired. -/
structure Sta (c : Clock) where
  now : ℕ
  micErrCnt : ℕ
  lastMicErrorTime : BitVec c.width
  bBlockAssoc : Bool
  wpaDisassocAndBlockAssocTimer : Bool
  errors : List ℕ
  seconds : List ℕ
  fired : List ℕ

variable {c : Clock}

/-- `RTMPReportMicError`, without the message that reports it. -/
def rtmpReportMicError (s : Sta c) : Sta c :=
  let now := c.tick s.now
  let s :=
    if s.micErrCnt = 0 then { s with micErrCnt := s.micErrCnt + 1, lastMicErrorTime := now }
    else if s.micErrCnt = 1 then
      if s.lastMicErrorTime + c.tick (60 * c.osHz) < now then { s with lastMicErrorTime := now }
      else { s with lastMicErrorTime := now, micErrCnt := s.micErrCnt + 1 }
    else s
  if s.micErrCnt = 2 then { s with wpaDisassocAndBlockAssocTimer := true } else s

/-- `WpaDisassocApAndBlockAssoc`, without the request to disassociate. -/
def wpaDisassocApAndBlockAssoc (s : Sta c) : Sta c := { s with bBlockAssoc := true }

/-- The part of `STAMlmePeriodicExec` that ends the block; `Now32` has just been read. -/
def staMlmePeriodicExec (s : Sta c) : Sta c :=
  if s.bBlockAssoc ∧ rtmpTimeAfter (c.tick s.now) (s.lastMicErrorTime + c.tick (60 * c.osHz)) then
    { s with bBlockAssoc := false }
  else s

/-- `LinkDown`: the association is over. The timer goes on. -/
def linkDown (s : Sta c) : Sta c := { s with micErrCnt := 0 }

/-- Whether `MlmeAssocReqAction` sends a request; `alloc` says whether there is memory for the frame. -/
def mlmeAssocReqAction (s : Sta c) (alloc : Bool) : Bool := if s.bBlockAssoc then false else alloc

/-- Whether `MlmeReassocReqAction` sends a request. -/
def mlmeReassocReqAction (s : Sta c) (alloc : Bool) : Bool := if s.bBlockAssoc then false else alloc

def Sta.Within (s : Sta c) : Prop := ∃ t ∈ s.errors, s.now ≤ t + c.minute

instance (s : Sta c) : Decidable s.Within := inferInstanceAs (Decidable (∃ t ∈ s.errors, _))

inductive Op
  | elapse (ticks : ℕ)
  | micError
  | timerExpires
  | periodicExec
  | linkDown
  | assocReq (alloc : Bool)
  | reassocReq (alloc : Bool)

def step (s : Sta c) : Op → Sta c
  | .elapse ticks => { s with now := s.now + ticks }
  | .micError =>
    { rtmpReportMicError s with
      errors := s.now :: s.errors
      seconds := if s.Within then s.now :: s.seconds else s.seconds }
  | .timerExpires =>
    if s.wpaDisassocAndBlockAssocTimer then
      { wpaDisassocApAndBlockAssoc s with
        wpaDisassocAndBlockAssocTimer := false
        seconds := []
        fired := s.seconds ++ s.fired }
    else s
  | .periodicExec => staMlmePeriodicExec s
  | .linkDown => { Countermeasures.linkDown s with errors := [] }
  | .assocReq _ => s
  | .reassocReq _ => s

def start (c : Clock) (now : ℕ) : Sta c := ⟨now, 0, 0, false, false, [], [], []⟩

def Sends (s : Sta c) : Op → Prop
  | .assocReq alloc => mlmeAssocReqAction s alloc = true
  | .reassocReq alloc => mlmeReassocReqAction s alloc = true
  | _ => False

/-- **What is promised of a step.** An error arms the timer exactly if it is within a minute of another of the
association, and a request is only sent when all second errors whose timer has fired are more than a minute
ago. -/
structure Upholds (s : Sta c) (op : Op) : Prop where
  armed : op = .micError → ((step s op).wpaDisassocAndBlockAssocTimer = true ↔
    s.wpaDisassocAndBlockAssocTimer = true ∨ s.Within)
  quiet : Sends s op → ∀ e ∈ s.fired, e + c.minute < s.now

/-- An error does not come where the code goes wrong: with one error counted, the tick orders the end of the
minute after it and the time as they are; with two counted, no time has passed since the last. -/
def Orderly (s : Sta c) : Op → Prop
  | .micError => ∀ t ∈ s.errors.head?,
    (s.micErrCnt = 1 → (c.tick (t + c.minute) < c.tick s.now ↔ t + c.minute < s.now)) ∧
      (2 ≤ s.micErrCnt → s.now = t)
  | _ => True

instance (s : Sta c) : DecidablePred (Orderly s)
  | .micError => inferInstanceAs (Decidable (∀ t ∈ s.errors.head?, _))
  | .elapse _ | .timerExpires | .periodicExec | .linkDown | .assocReq _ | .reassocReq _ => isTrue trivial

/-! ### What holds in every state -/

/-- `last` is the real time that is stored as that of the last error. -/
structure Inv (s : Sta c) (last : ℕ) : Prop where
  stored : s.lastMicErrorTime = c.tick last
  past : last ≤ s.now
  count : s.micErrCnt ≤ 2
  none : s.micErrCnt = 0 ↔ s.errors = []
  head : ∀ t ∈ s.errors.head?, t = last
  errors_le : ∀ t ∈ s.errors, t ≤ last
  seconds_le : ∀ t ∈ s.seconds, t ≤ last
  fired : ∀ t ∈ s.fired, t + c.minute < s.now ∨ s.bBlockAssoc = true ∧ t ≤ last

theorem inv_start (now : ℕ) : Inv (start c now) 0 where
  stored := rfl
  past := Nat.zero_le _
  count := Nat.zero_le _
  none := iff_of_true rfl rfl
  head t ht := by simp [start] at ht
  errors_le t ht := by simp [start] at ht
  seconds_le t ht := by simp [start] at ht
  fired t ht := by simp [start] at ht

namespace Inv

variable {s : Sta c} {last : ℕ}

theorem within_iff (h : Inv s last) (hne : s.errors ≠ []) : s.Within ↔ s.now ≤ last + c.minute := by
  constructor
  · rintro ⟨t, ht, hle⟩
    have := h.errors_le t ht
    omega
  · intro hle
    obtain ⟨t, ts, hts⟩ := List.exists_cons_of_ne_nil hne
    have ht : t = last := h.head t (by rw [hts]; rfl)
    exact ⟨t, by rw [hts]; exact List.mem_cons_self, by rwa [ht]⟩

theorem report_cases (h : Inv s last) (hok : Orderly s .micError) :
    (¬ s.Within ∧ s.micErrCnt ≤ 1 ∧
      rtmpReportMicError s = { s with micErrCnt := 1, lastMicErrorTime := c.tick s.now }) ∨
    (s.Within ∧ s.micErrCnt = 1 ∧ rtmpReportMicError s =
      { s with micErrCnt := 2, lastMicErrorTime := c.tick s.now, wpaDisassocAndBlockAssocTimer := true }) ∨
    (s.Within ∧ s.micErrCnt = 2 ∧ s.now = last ∧
      rtmpReportMicError s = { s with wpaDisassocAndBlockAssocTimer := true }) := by
  have hcount := h.count
  by_cases h0 : s.micErrCnt = 0
  · refine Or.inl ⟨?_, by omega, ?_⟩
    · rintro ⟨t, ht, -⟩
      rw [h.none.1 h0] at ht
      exact absurd ht List.not_mem_nil
    · simp [rtmpReportMicError, h0]
  · have hne : s.errors ≠ [] := fun hc => h0 (h.none.2 hc)
    obtain ⟨t, ts, hts⟩ := List.exists_cons_of_ne_nil hne
    have hhead : t ∈ s.errors.head? := by rw [hts]; rfl
    have ht : t = last := h.head t hhead
    obtain ⟨hone, htwo⟩ := hok t hhead
    rw [h.within_iff hne]
    by_cases h1 : s.micErrCnt = 1
    · have hcmp := hone h1
      rw [ht, ← Clock.tick_add, ← h.stored] at hcmp
      by_cases hlt : last + c.minute < s.now
      · have hcode : s.lastMicErrorTime + c.tick (60 * c.osHz) < c.tick s.now := hcmp.2 hlt
        refine Or.inl ⟨by omega, by omega, ?_⟩
        simp [rtmpReportMicError, h1, hcode]
      · have hcode : ¬ s.lastMicErrorTime + c.tick (60 * c.osHz) < c.tick s.now := fun hc => hlt (hcmp.1 hc)
        refine Or.inr (Or.inl ⟨by omega, h1, ?_⟩)
        simp [rtmpReportMicError, h1, hcode]
    · have h2 : s.micErrCnt = 2 := by omega
      have hnow : s.now = last := (htwo (by omega)).trans ht
      refine Or.inr (Or.inr ⟨by omega, h2, hnow, ?_⟩)
      simp [rtmpReportMicError, h2]

theorem micError (h : Inv s last) (hok : Orderly s .micError) : Inv (step s .micError) s.now := by
  have hpast := h.past
  have hfired : ∀ t ∈ s.fired, t + c.minute < s.now ∨ s.bBlockAssoc = true ∧ t ≤ s.now := fun t ht =>
    (h.fired t ht).imp_right fun hb => ⟨hb.1, hb.2.trans hpast⟩
  have herrors : ∀ t ∈ s.now :: s.errors, t ≤ s.now :=
    List.forall_mem_cons.2 ⟨le_rfl, fun t ht => (h.errors_le t ht).trans hpast⟩
  have hseconds : ∀ t ∈ (if s.Within then s.now :: s.seconds else s.seconds), t ≤ s.now := by
    have hold : ∀ t ∈ s.seconds, t ≤ s.now := fun t ht => (h.seconds_le t ht).trans hpast
    split_ifs
    · exact List.forall_mem_cons.2 ⟨le_rfl, hold⟩
    · exact hold
  have hhead : ∀ t ∈ (s.now :: s.errors).head?, t = s.now := fun t ht => (Option.some.inj ht).symm
  have hcons : s.now :: s.errors ≠ [] := List.cons_ne_nil _ _
  rcases h.report_cases hok with ⟨-, -, hcode⟩ | ⟨-, -, hcode⟩ | ⟨-, h2, hnow, hcode⟩ <;>
    unfold step <;> rw [hcode]
  · exact ⟨rfl, le_rfl, by simp, by simp, hhead, herrors, hseconds, hfired⟩
  · exact ⟨rfl, le_rfl, by simp, by simp, hhead, herrors, hseconds, hfired⟩
  · have hstored : s.lastMicErrorTime = c.tick s.now := by rw [h.stored, hnow]
    exact ⟨hstored, le_rfl, h.count, by simp [h2], hhead, herrors, hseconds, hfired⟩

theorem periodicExec (h : Inv s last) : Inv (step s .periodicExec) last := by
  change Inv (staMlmePeriodicExec s) last
  unfold staMlmePeriodicExec
  split_ifs with hc
  · have hover : last + c.minute < s.now := by
      by_contra hle
      have hafter := hc.2
      rw [h.stored, show 60 * c.osHz = c.minute from rfl, rtmpTimeAfter_tick (by omega) h.past] at hafter
      exact absurd hafter Bool.false_ne_true
    exact { h with
      fired := fun t ht => by
        rcases h.fired t ht with hpast | ⟨-, hle⟩
        · exact Or.inl hpast
        · exact Or.inl (by change t + c.minute < s.now; omega) }
  · exact h

theorem step (h : Inv s last) {op : Op} (hok : Orderly s op) : ∃ last', Inv (step s op) last' := by
  cases op with
  | elapse ticks =>
    refine ⟨last, { h with past := ?_, fired := ?_ }⟩
    · exact h.past.trans (Nat.le_add_right _ _)
    · intro t ht
      exact (h.fired t ht).imp_left fun hlt => hlt.trans_le (Nat.le_add_right _ _)
  | micError => exact ⟨s.now, h.micError hok⟩
  | timerExpires =>
    refine ⟨last, ?_⟩
    simp only [Countermeasures.step]
    split_ifs
    · refine { h with seconds_le := fun t ht => absurd ht List.not_mem_nil, fired := ?_ }
      intro t ht
      rcases List.mem_append.1 ht with ht | ht
      · exact Or.inr ⟨rfl, h.seconds_le t ht⟩
      · exact (h.fired t ht).imp_right fun hb => ⟨rfl, hb.2⟩
    · exact h
  | periodicExec => exact ⟨last, h.periodicExec⟩
  | linkDown =>
    refine ⟨last, { h with count := Nat.zero_le _, none := iff_of_true rfl rfl, head := ?_, errors_le := ?_ }⟩
    · exact fun t ht => absurd ht (by simp [Countermeasures.step])
    · exact fun t ht => absurd ht List.not_mem_nil
  | assocReq alloc => exact ⟨last, h⟩
  | reassocReq alloc => exact ⟨last, h⟩

theorem upholds (h : Inv s last) {op : Op} (hok : Orderly s op) : Upholds s op where
  armed hop := by
    subst hop
    rcases h.report_cases hok with ⟨hw, -, hcode⟩ | ⟨hw, -, hcode⟩ | ⟨hw, -, -, hcode⟩ <;>
      unfold Countermeasures.step <;> rw [hcode]
    · exact ⟨Or.inl, fun hor => hor.resolve_right hw⟩
    · exact iff_of_true rfl (Or.inr hw)
    · exact iff_of_true rfl (Or.inr hw)
  quiet hsends t ht := by
    have hopen : s.bBlockAssoc = false := by
      by_contra hb
      rw [Bool.not_eq_false] at hb
      cases op with
      | assocReq alloc => simp [Sends, mlmeAssocReqAction, hb] at hsends
      | reassocReq alloc => simp [Sends, mlmeReassocReqAction, hb] at hsends
      | elapse | micError | timerExpires | periodicExec | linkDown => exact hsends
    rcases h.fired t ht with hpast | ⟨hb, -⟩
    · exact hpast
    · rw [hopen] at hb
      exact absurd hb Bool.false_ne_true

end Inv

/-- **Countermeasures.** In every run in which the errors are orderly, every step does what is promised. -/
theorem along_upholds (c : Clock) (now : ℕ) (ops : List Op) (h : Along step Orderly (start c now) ops) :
    Along step Upholds (start c now) ops :=
  along_of_invariant (I := fun s => ∃ last, Inv s last) (fun _ _ ⟨_, hi⟩ hok => hi.step hok)
    (fun _ _ ⟨_, hi⟩ hok => hi.upholds hok) ops _ ⟨0, inv_start now⟩ h

def jiffies : Clock := ⟨32, 250, by decide⟩

/-- Two errors half a minute apart in the first minute, the block, and a request that is sent when it is
over. -/
theorem along_upholds_block :
    Along step Upholds (start jiffies 0) [.micError, .elapse 7500, .micError, .elapse 25, .timerExpires,
      .linkDown, .periodicExec, .assocReq true, .elapse 15000, .periodicExec, .assocReq true] :=
  along_upholds jiffies 0 _ (by decide)

/-- Two errors half a minute apart, shortly before the counter wraps: the second does not arm the timer. -/
theorem not_along_upholds :
    ¬ Along step Upholds (start jiffies (2 ^ 32 - 8000)) [.micError, .elapse 7500, .micError] := by
  rintro ⟨-, -, h, -⟩
  have hwithin : (step (step (start jiffies (2 ^ 32 - 8000)) .micError) (.elapse 7500)).Within :=
    ⟨2 ^ 32 - 8000, List.mem_cons_self, by decide⟩
  exact absurd ((h.armed rfl).2 (Or.inr hwithin)) (by decide)

end Mt7610u.Wpa.Countermeasures
