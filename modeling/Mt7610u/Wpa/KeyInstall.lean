import Mt7610u.Wpa.Effects

/-! # Installing the pairwise key once

Each run of `wpaInstallPairwiseKey` starts the packet numbers of the installed key anew, so it must
not happen twice for one temporal key. -/

namespace Mt7610u.Wpa

open Lib Lib.Runs

variable {suite : Suite} {s s' : Sta} {i : Input}

/-- The frame leads to `wpaInstallPairwiseKey`. -/
def InstallsKey (suite : Suite) (s : Sta) (i : Input) : Prop :=
  Accepts suite s i .pairMsg3 ∧ s.entry.aNonce = i.elem.packet.keyNonce ∧ i.env.mpool = true ∨
    Accepts suite s i .pairMsg4

def noncesOf (i : Input) : NoncePair := (i.elem.packet.keyNonce, i.env.sNonce)

/-- A key is installed only before the handshake is done, and a message 1 brings a pair of nonces that
no installed key comes from. -/
def InstallsOnce (suite : Suite) (s : Sta) (i : Input) : Prop :=
  (InstallsKey suite s i → s.entry.wpaState ≠ .asPtkInitDone) ∧
    (Accepts suite s i .pairMsg1 → some (noncesOf i) ∉ s.installs)

instance : Decidable (InstallsKey suite s i) := inferInstanceAs (Decidable (_ ∧ _ ∧ _ ∨ _))

instance : Decidable (InstallsOnce suite s i) := inferInstanceAs (Decidable ((_ → _) ∧ (_ → _)))

structure InstallInv (s : Sta) : Prop where
  nodup : s.installs.Nodup
  pending : s.entry.wpaState ≠ .asPtkInitDone → s.ptkNonces ∉ s.installs

theorem InstallInv.congr (h : InstallInv s) (hi : s'.installs = s.installs)
    (hp : s'.ptkNonces = s.ptkNonces) (hw : s'.entry.wpaState = s.entry.wpaState) : InstallInv s' :=
  ⟨hi ▸ h.nodup, fun hne => by rw [hi, hp]; exact h.pending (hw ▸ hne)⟩

theorem InstallInv.install (h : InstallInv s) (hopen : s.entry.wpaState ≠ .asPtkInitDone)
    (hi : s'.installs = s.ptkNonces :: s.installs) (hw : s'.entry.wpaState = .asPtkInitDone) : InstallInv s' :=
  ⟨by rw [hi]; exact List.nodup_cons.2 ⟨h.pending hopen, h.nodup⟩, fun hne => absurd hw hne⟩

theorem InstallInv.storeCounter (h : InstallInv s) (f : EapolPacket) (k : MsgType) :
    InstallInv (storeCounter f (afterChecks suite s i k)) := by
  have hsame := afterChecks_same suite s i k
  refine h.congr hsame.installs hsame.ptkNonces ?_
  rw [Wpa.storeCounter, hsame.entry]

theorem installInv_step (suite : Suite) (s : Sta) (i : Input) (h : InstallInv s)
    (hok : InstallsOnce suite s i) : InstallInv (wpaEAPOLKeyAction suite s i) := by
  have heff := step_effect suite s i
  generalize wpaEAPOLKeyAction suite s i = s' at heff
  cases heff with
  | idle => exact h
  | msg1 hacc => exact ⟨h.nodup, fun _ => hok.2 hacc⟩
  | msg2 => exact h.congr rfl rfl rfl
  | msg3Late hacc hlate => exact h.storeCounter _ _
  | msg3 hacc hnonce hpool =>
    have hsame := afterChecks_same suite s i .pairMsg3
    refine h.install (hok.1 (Or.inl ⟨hacc, hnonce, hpool⟩)) ?_ (by rw [acceptMsg3_entry])
    rw [acceptMsg3_installs]
    exact congrArg₂ List.cons hsame.ptkNonces hsame.installs
  | msg4 hacc => exact h.install (hok.1 (Or.inr hacc)) rfl rfl
  | group1Late hacc hpool => exact h.storeCounter _ _
  | group1 hacc hpool => exact (h.storeCounter i.elem.packet _).congr rfl rfl rfl

/-- **Every key is installed once.** Along every run in which a key is installed only while the
handshake is open and the nonces of a message 1 are new, no pair of nonces is behind two
installations. -/
theorem installs_nodup_run (suite : Suite) (s : Sta) (ops : List Input) (hs : s.installs = [])
    (h : Along (wpaEAPOLKeyAction suite) (InstallsOnce suite) s ops) :
    (run (wpaEAPOLKeyAction suite) s ops).installs.Nodup := by
  have hinv : InstallInv s := ⟨by rw [hs]; exact List.nodup_nil, fun _ => by rw [hs]; simp⟩
  exact (run_invariant (installInv_step suite) ops s hinv h).nodup

def twoHandshakes : List Input :=
  [sampleInput .pairMsg1 1 7 5, sampleInput .pairMsg3 2 7 5, sampleInput .pairMsg1 3 8 6,
    sampleInput .pairMsg3 4 8 6]

theorem installs_nodup_run_twoHandshakes :
    Along (wpaEAPOLKeyAction sampleSuite) (InstallsOnce sampleSuite)
        (sampleSta .encryption3Enabled) twoHandshakes ∧
      (run (wpaEAPOLKeyAction sampleSuite) (sampleSta .encryption3Enabled)
        twoHandshakes).installs.Nodup := by
  have h : Along (wpaEAPOLKeyAction sampleSuite) (InstallsOnce sampleSuite)
      (sampleSta .encryption3Enabled) twoHandshakes := by
    decide
  exact ⟨h, installs_nodup_run _ _ _ rfl h⟩

def retransmittedRun : List Input :=
  [sampleInput .pairMsg1 1 7 5, sampleInput .pairMsg3 2 7 5, sampleInput .pairMsg3 3 7 5]

theorem not_nodup_retransmitted :
    ¬ (run (wpaEAPOLKeyAction sampleSuite) (sampleSta .encryption3Enabled)
      retransmittedRun).installs.Nodup := by
  decide

end Mt7610u.Wpa
