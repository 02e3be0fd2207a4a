import Mt7610u.Mcu.Firmware
import Mt7610u.Mcu.Frames

/-! # The loops of the register reads

The rounds of a read are as long as a response can be, but for the last one, and the words of one round follow
those of the round before. When the loop is through, every word belongs to a round. -/

namespace Mt7610u.Mcu

open Lib.DlList Lib.Runs

def ReadKind.perChunk : ReadKind → ℕ
  | .burst => 47
  | .random | .rfRandom => 24

variable {κ μ : Type}

namespace Read

variable {rd : Read μ} {n : ℕ}

theorem rspLen_eq (hfit : rd.kind.total rd.cnt ≤ 2 ^ 32 - 64) : rd.rspLen = rd.kind.total rd.cnt :=
  Nat.mod_eq_of_lt (by omega)

theorem receiveLen_eq (rd : Read μ) : rd.receiveLen = min 192 (rd.rspLen - rd.curLen) := by
  simp only [receiveLen, inbandPacketMaxLen]
  split <;> omega

theorem next (hfit : rd.kind.total rd.cnt ≤ 2 ^ 32 - 64) (hlen : rd.curLen = 192 * n)
    (hidx : rd.curIndex = min (rd.kind.perChunk * n) rd.cnt) (hlt : rd.curLen < rd.rspLen) :
    rd.receiveLen ≠ 0 ∧ (rd.curLen + 192) % 2 ^ 32 = 192 * (n + 1) ∧
      (rd.curIndex + rd.kind.words rd.receiveLen) % 2 ^ 32 = rd.curIndex + rd.kind.words rd.receiveLen ∧
      rd.curIndex + rd.kind.words rd.receiveLen = min (rd.kind.perChunk * (n + 1)) rd.cnt := by
  rw [receiveLen_eq, hidx]
  rw [rspLen_eq hfit] at hlt ⊢
  cases hk : rd.kind with
  | burst =>
    simp only [hk, ReadKind.total_burst, ReadKind.perChunk, ReadKind.words] at hfit hlt ⊢
    omega
  | random | rfRandom =>
    simp only [hk, ReadKind.total, ReadKind.perChunk, ReadKind.words] at hfit hlt ⊢
    omega

theorem curIndex_eq (hfit : rd.kind.total rd.cnt ≤ 2 ^ 32 - 64) (hlen : rd.curLen = 192 * n)
    (hidx : rd.curIndex = min (rd.kind.perChunk * n) rd.cnt) (hge : rd.rspLen ≤ rd.curLen) :
    rd.curIndex = rd.cnt := by
  rw [rspLen_eq hfit] at hge
  cases hk : rd.kind with
  | burst =>
    simp only [hk, ReadKind.total_burst, ReadKind.perChunk] at hge hidx
    omega
  | random | rfRandom =>
    simp only [hk, ReadKind.total, ReadKind.perChunk] at hge hidx
    omega

end Read

/-- The rounds `cs` of the read are through. -/
structure Progress (s : Sys κ μ) (rd : Read μ) (cs : List (Chunk μ)) : Prop where
  fits : rd.kind.total rd.cnt ≤ 2 ^ 32 - 64
  rounds : ∃ n, rd.curLen = 192 * n ∧ rd.curIndex = min (rd.kind.perChunk * n) rd.cnt
  covered : ∀ w < rd.curIndex, ∃ c ∈ cs, rd.Covers c w ∧ (s.msg c.msg).filledBy ≠ none
  allOnes : rd.allOnes = false

/-- Where the sender is with the message of the round `c`: on its way, behind the timeout of the last round, or
done. -/
structure Control (s : Sys κ μ) (k : κ) (rd : Read μ) (c : Chunk μ) : Prop where
  own : s.loc k = .idle ∨ (s.loc k).own = some c.msg
  lost : (s.loc k).course = .lost → rd.last = true ∧ s.ret k ≠ 0
  done : (s.loc k).course = .done → (s.msg c.msg).filledBy ≠ none ∨ (rd.last = true ∧ s.ret k ≠ 0)

structure Asked (s : Sys κ μ) (rd : Read μ) (c : Chunk μ) : Prop where
  allocated : (s.msg c.msg).allocated = true
  needRsp : (s.msg c.msg).needRsp = true
  expects : (s.msg c.msg).rspPayloadLen = rd.receiveLen
  answered : ∀ r, (s.msg c.msg).answeredBy = some r → (s.msg c.msg).filledBy = some r ∨ s.bh = .responding c.msg r

/-- The round `c` of the read is going on. -/
structure InFlight (s : Sys κ μ) (k : κ) (rd : Read μ) (c : Chunk μ) : Prop where
  more : rd.curLen < rd.rspLen
  index : c.curIndex = rd.curIndex
  len : c.receiveLen = rd.receiveLen
  control : Control s k rd c
  asked : Asked s rd c

def Going (s : Sys κ μ) (k : κ) (rd : Read μ) : Prop :=
  match rd.chunks with
  | [] => Progress s rd []
  | c :: cs => Progress s rd cs ∧ InFlight s k rd c

def Complete (s : Sys κ μ) (rd : Read μ) : Prop :=
  rd.allOnes = false ∧ ∀ w < rd.cnt, ∃ c ∈ rd.chunks, rd.Covers c w ∧ (s.msg c.msg).filledBy ≠ none

variable {s s' : Sys κ μ} {k : κ} {rd : Read μ} {c : Chunk μ} {cs : List (Chunk μ)}

/-! ### Behind a round -/

theorem going_start (kind : ReadKind) {cnt : ℕ} (hfit : kind.total cnt ≤ 2 ^ 32 - 64) :
    Going s k (Read.start kind cnt) :=
  ⟨hfit, ⟨0, rfl, (Nat.zero_min _).symm⟩, fun w hw => absurd hw (Nat.not_lt_zero w), rfl⟩

theorem Progress.complete (h : Progress s rd rd.chunks) (hge : rd.rspLen ≤ rd.curLen) : Complete s rd := by
  obtain ⟨n, hlen, hidx⟩ := h.rounds
  refine ⟨h.allOnes, fun w hw => h.covered w ?_⟩
  rw [Read.curIndex_eq h.fits hlen hidx hge]
  exact hw

theorem Progress.sent (h : Progress s rd cs) (hc : InFlight s k rd c) (hgot : (s.msg c.msg).filledBy ≠ none)
    (hones : (rd.sent (s.ret k)).allOnes = false) : Progress s (rd.sent (s.ret k)) (c :: cs) := by
  obtain ⟨n, hlen, hidx⟩ := h.rounds
  obtain ⟨-, hlen', hmod, hidx'⟩ := Read.next h.fits hlen hidx hc.more
  refine ⟨h.fits, ⟨n + 1, hlen', hmod.trans hidx'⟩, fun w hw => ?_, hones⟩
  have hw : w < rd.curIndex + rd.kind.words rd.receiveLen := hmod ▸ hw
  by_cases hold : w < rd.curIndex
  · obtain ⟨c', hc', hcov⟩ := h.covered w hold
    exact ⟨c', List.mem_cons_of_mem c hc', hcov⟩
  · refine ⟨c, List.mem_cons_self, ⟨?_, ?_⟩, hgot⟩
    · rw [hc.index]
      exact Nat.le_of_not_lt hold
    · rw [hc.index, hc.len]
      exact hw

theorem InFlight.pos (h : InFlight s k rd c) : rd.receiveLen ≠ 0 := by
  have := h.more
  rw [Read.receiveLen_eq]
  omega

theorem InFlight.ended (h : Progress s rd cs) (hc : InFlight s k rd c)
    (hend : rd.last = true ∨ (rd.kind = .burst ∧ rd.cnt = 1)) :
    (rd.sent (s.ret k)).rspLen ≤ (rd.sent (s.ret k)).curLen := by
  obtain ⟨n, hlen, hidx⟩ := h.rounds
  obtain ⟨-, hlen', -⟩ := Read.next h.fits hlen hidx hc.more
  show rd.rspLen ≤ (rd.curLen + 192) % 2 ^ 32
  rw [hlen']
  rcases hend with hlast | ⟨hkind, hcnt⟩
  · have hlast : rd.rspLen ≤ rd.curLen + 192 := of_decide_eq_true hlast
    omega
  · rw [Read.rspLen_eq h.fits, hkind, hcnt, ReadKind.total_burst]
    omega

theorem Going.resume (h : Going s k rd) (hk : s.loc k = .idle) :
    ((rd.resume (s.ret k)).curLen < (rd.resume (s.ret k)).rspLen →
        Progress s (rd.resume (s.ret k)) (rd.resume (s.ret k)).chunks) ∧
      ((rd.resume (s.ret k)).rspLen ≤ (rd.resume (s.ret k)).curLen → (rd.resume (s.ret k)).ret = 0 →
        Complete s (rd.resume (s.ret k))) := by
  rw [Going] at h
  cases hcs : rd.chunks with
  | nil =>
    rw [hcs] at h
    have hsame : rd.resume (s.ret k) = rd := by rw [Read.resume, hcs]
    rw [hsame, hcs]
    exact ⟨fun _ => h, fun hge _ => Progress.complete (hcs ▸ h) hge⟩
  | cons c cs =>
    rw [hcs] at h
    obtain ⟨hp, hc⟩ := h
    have hsent : rd.resume (s.ret k) = rd.sent (s.ret k) := by rw [Read.resume, hcs]
    have hchunks : (rd.sent (s.ret k)).chunks = c :: cs := hcs
    rw [hsent, hchunks]
    -- either all is well behind the round, or the function returns something else than success
    have hgood : Progress s (rd.sent (s.ret k)) (c :: cs) ∨
        ((rd.sent (s.ret k)).rspLen ≤ (rd.sent (s.ret k)).curLen ∧ s.ret k ≠ 0) := by
      rcases hc.control.done (by rw [hk]; rfl) with hgot | ⟨hlast, hret⟩
      · by_cases hones : rd.kind = .burst ∧ s.ret k ≠ 0 ∧ rd.cnt = 1
        · exact Or.inr ⟨hc.ended hp (Or.inr ⟨hones.1, hones.2.2⟩), hones.2.1⟩
        · exact Or.inl (hp.sent hc hgot (by simp [Read.sent, hp.allOnes, hones]))
      · exact Or.inr ⟨hc.ended hp (Or.inl hlast), hret⟩
    rcases hgood with hgood | ⟨hend, hret⟩
    · exact ⟨fun _ => hgood, fun hge _ => Progress.complete (hchunks ▸ hgood) hge⟩
    · exact ⟨fun hlt => absurd hlt (Nat.not_lt.2 hend), fun _ hzero => absurd hzero hret⟩

/-! ### The other steps -/

def Gives (s s' : Sys κ μ) : Prop := ∀ x, (s.msg x).filledBy ≠ none → (s'.msg x).filledBy ≠ none

theorem Progress.mono (h : Progress s rd cs) (hg : Gives s s') : Progress s' rd cs := by
  refine ⟨h.fits, h.rounds, fun w hw => ?_, h.allOnes⟩
  obtain ⟨c, hc, hcov, hgot⟩ := h.covered w hw
  exact ⟨c, hc, hcov, hg c.msg hgot⟩

theorem Complete.mono (h : Complete s rd) (hg : Gives s s') : Complete s' rd := by
  refine ⟨h.1, fun w hw => ?_⟩
  obtain ⟨c, hc, hcov, hgot⟩ := h.2 w hw
  exact ⟨c, hc, hcov, hg c.msg hgot⟩

theorem Going.mono (h : Going s k rd) (hg : Gives s s')
    (hc : ∀ c, InFlight s k rd c → Control s' k rd c ∧ Asked s' rd c) : Going s' k rd := by
  rw [Going] at h ⊢
  cases hcs : rd.chunks with
  | nil =>
    rw [hcs] at h
    exact Progress.mono h hg
  | cons c cs =>
    rw [hcs] at h
    obtain ⟨hp, hflight⟩ := h
    exact ⟨hp.mono hg, hflight.more, hflight.index, hflight.len, (hc c hflight).1, (hc c hflight).2⟩

theorem Control.stay (h : Control s k rd c) (hg : Gives s s') (hloc : s'.loc k = s.loc k)
    (hret : s'.ret k = s.ret k) : Control s' k rd c := by
  refine ⟨?_, ?_, ?_⟩
  · rw [hloc]
    exact h.own
  · rw [hloc, hret]
    exact h.lost
  · rw [hloc, hret]
    intro hdone
    exact (h.done hdone).imp (hg c.msg) id

theorem Loc.eq_idle {l : Loc μ} (h : l.own = none) : l = .idle := by
  cases l <;> simp_all [Loc.own]

theorem Control.steady (h : Control s k rd c) (hg : Gives s s')
    (hmove : Steady (s.loc k) (s.ret k) (s'.loc k) (s'.ret k)) (hw : (s.loc k).unawaited = false) :
    Control s' k rd c := by
  obtain ⟨hown, hcourse⟩ : (s'.loc k = .idle ∨ (s'.loc k).own = (s.loc k).own) ∧
      ((s'.loc k).course = .onWay ∨ (s'.ret k = s.ret k ∧
        ((s.loc k).course = .lost ∨ ((s.loc k).course = .done ∧ (s'.loc k).course = .done)))) := by
    rcases hmove with hmove | hmove
    · exact absurd (hw.symm.trans hmove) (by simp)
    · exact hmove
  refine ⟨?_, fun hlost => ?_, fun hdone => ?_⟩
  · rcases hown with hidle | hown
    · exact Or.inl hidle
    · rcases h.own with hidle | hm
      · rw [hidle] at hown
        exact Or.inl (Loc.eq_idle hown)
      · exact Or.inr (hown.trans hm)
  · rw [hlost] at hcourse
    rcases hcourse with hway | ⟨hret, hl | ⟨-, hl⟩⟩
    · exact absurd hway (by simp)
    · rw [hret]
      exact h.lost hl
    · exact absurd hl (by simp)
  · rw [hdone] at hcourse
    rcases hcourse with hway | ⟨hret, hl | ⟨hl, -⟩⟩
    · exact absurd hway (by simp)
    · rw [hret]
      exact Or.inr (h.lost hl)
    · rw [hret]
      exact (h.done hl).imp (hg c.msg) id

theorem Asked.same (h : Asked s rd c) (hsame : SameResponse (s.msg c.msg) (s'.msg c.msg))
    (hbh : ∀ m r, s'.bh = .responding m r ↔ s.bh = .responding m r) : Asked s' rd c := by
  refine ⟨?_, ?_, ?_, fun r hr => ?_⟩
  · rw [hsame.allocated]
    exact h.allocated
  · rw [hsame.needRsp]
    exact h.needRsp
  · rw [hsame.rspPayloadLen]
    exact h.expects
  · rw [hsame.answeredBy] at hr
    rw [hsame.filledBy, hbh]
    exact h.answered r hr

end Mt7610u.Mcu
